import AgentTaskPlatform.FileTree
import AgentTaskPlatform.Outcomes
import AgentTaskPlatform.PinnedSkills
import AgentTaskPlatform.SkillPaths
import Mathlib.Algebra.Order.Ring.Rat

/-!
`SkillScriptRunner`: the script that a request means, the files of the Skill in a temporary
directory, and the file of it that a subprocess is started with.
-/

namespace AgentTaskPlatform.Skills

open KeyedTable

abbrev Directory := FileTree.Tree String Bytes

structure Machine where
  /-- The path of the new directory of `TemporaryDirectory`. -/
  tmpdir : String
  /-- What the file system says of a path that it cannot hold. -/
  refuses : String → Option String
  /-- The paths of `rglob("*")`, in its order. -/
  walk : Directory → List (List String)

section Runner

variable (loading : Loading) (machine : Machine)

def faultError : FileTree.Fault String → Exc
  | .fileExists path => ⟨.exception, "FileExistsError",
      "[Errno 17] File exists: '" ++ "/".intercalate (machine.tmpdir :: path) ++ "'"⟩
  | .notADirectory path => ⟨.exception, "NotADirectoryError",
      "[Errno 20] Not a directory: '" ++ "/".intercalate (machine.tmpdir :: path) ++ "'"⟩
  | .isADirectory path => ⟨.exception, "IsADirectoryError",
      "[Errno 21] Is a directory: '" ++ "/".intercalate (machine.tmpdir :: path) ++ "'"⟩

def checkName (path : String) : Except Exc Unit :=
  if path.toList.contains '\x00' then .error ⟨.exception, "ValueError", "embedded null byte"⟩
  else match machine.refuses path with
  | some message => .error ⟨.exception, "OSError", message⟩
  | none => .ok ()

/-- `dest.parent.mkdir(...)` and `dest.write_bytes(content)`; a stored path has no part `..`,
so that it never escapes the destination. -/
def writeBytes (directory : Directory) (file : String × Bytes) : Except Exc Directory := do
  checkName machine file.1
  (FileTree.place directory (pathParts file.1, file.2)).mapError (faultError machine)

def materializeToDirectory (spec : SkillSpec) : Except Exc Directory := do
  let files ← specFiles loading spec
  files.rows.foldlM (writeBytes machine) FileTree.emptyDirectory

def materializeFiles (spec : SkillSpec) (declaration : SkillScriptSpec) :
    Except Exc (Directory × List String) := do
  let directory ← materializeToDirectory loading machine spec
  if (directory (pathParts declaration.path)).isSome then
    return (directory, pathParts declaration.path)
  else match (machine.walk directory).find? fun candidate =>
      FileTree.Node.isFile (directory candidate) &&
        (candidate.getLast? == some declaration.name ||
          candidate.getLast? == some (baseName declaration.path)) with
  | some candidate => return (directory, candidate)
  | none => throw (scriptError ("Script file '" ++ declaration.path ++ "' not found for skill '" ++
      spec.name ++ "'"))

structure ScriptJob where
  interpreter : Interpreter
  file : List String
  directory : Directory
  effectiveTimeout : ℚ
  maxOutputBytes : Int

def effectiveTimeout (timeout : Option ℚ) (declaration : SkillScriptSpec) : ℚ :=
  match timeout with
  | some seconds => min seconds declaration.timeoutSeconds
  | none => declaration.timeoutSeconds

/-- `run` up to the start of the subprocess, with the encoded arguments. -/
def SkillScriptRunner.run (spec : SkillSpec) (script : String) (arguments : Bytes)
    (timeout : Option ℚ) : Except Exc ScriptJob :=
  match scriptFor spec script with
  | none => .error (scriptError ("Script '" ++ script ++
      "' is not declared or found in Skill '" ++ spec.name ++ "'"))
  | some declaration => do
      let (directory, file) ← materializeFiles loading machine spec declaration
      let directory ← (FileTree.writeFile directory ["input.json"] arguments).mapError
        (faultError machine)
      return {
        interpreter := declaration.interpreter
        file
        directory
        effectiveTimeout := effectiveTimeout timeout declaration
        maxOutputBytes := declaration.maxOutputBytes }

end Runner

section Claim

variable (loading : Loading) (machine : Machine) (spec : SkillSpec) (script : String)
  (arguments : Bytes) (timeout : Option ℚ)

/-- A script runs as it is declared: by its name with its own file, interpreter and limits, and
by every other request a file below `scripts/` with the bytes of the artifact. -/
structure RunsDeclared : Prop where
  declared : ∀ declaration ∈ spec.scripts, declaration.name = script → ∃ job,
    SkillScriptRunner.run loading machine spec script arguments timeout = .ok job ∧
      job.file = pathParts declaration.path ∧ job.interpreter = declaration.interpreter ∧
      job.effectiveTimeout = effectiveTimeout timeout declaration ∧
      job.maxOutputBytes = declaration.maxOutputBytes
  own : (∃ job, SkillScriptRunner.run loading machine spec script arguments timeout = .ok job ∧
      ∃ file ∈ spec.artifact, "scripts/".toList.isPrefixOf file.path.toList = true ∧
        job.file = pathParts file.path ∧ job.directory job.file = some (.file file.content)) ∨
    ∃ error, SkillScriptRunner.run loading machine spec script arguments timeout = .error error ∧
      error.name = "SkillScriptError"

/-- The files can stand in a directory, and `input.json` beside them. -/
structure Extractable (artifact : List SkillArtifactFile) : Prop where
  named : ∀ file ∈ artifact, '\x00' ∉ file.path.toList ∧ machine.refuses file.path = none
  apart : ∀ file ∈ artifact, ∀ other ∈ artifact,
    ¬ FileTree.Below (pathParts file.path) (pathParts other.path)
  input : ∀ file ∈ artifact, ¬ FileTree.Below ["input.json"] (pathParts file.path)

structure RunsAlike (one other : SkillScriptSpec) : Prop where
  file : pathParts one.path = pathParts other.path
  interpreter : one.interpreter = other.interpreter
  timeout : effectiveTimeout timeout one = effectiveTimeout timeout other
  output : one.maxOutputBytes = other.maxOutputBytes

/-- The artifact can be extracted if anything answers to the request; and the first declaration
that answers is of a file below `scripts/` and alike the one that has the name. -/
structure Unshadowed : Prop where
  extractable : (∃ declaration ∈ spec.scripts, answersTo script declaration = true) ∨
    (∃ file ∈ spec.artifact, fileAnswersTo script file = true) → Extractable machine spec.artifact
  first : ∀ before declaration after, spec.scripts = before ++ declaration :: after →
    answersTo script declaration = true → (∀ other ∈ before, answersTo script other = false) →
      pathParts declaration.path ≠ ["scripts"] ∧
        ∀ named ∈ after, named.name = script → RunsAlike timeout declaration named

end Claim

section Extraction

variable {loading : Loading} {machine : Machine} {spec : SkillSpec}
  {artifact : List SkillArtifactFile}

theorem checkName_ok {path : String} :
    checkName machine path = .ok () ↔ '\x00' ∉ path.toList ∧ machine.refuses path = none := by
  unfold checkName
  by_cases zero : '\x00' ∈ path.toList
  · simp [zero]
  · cases machine.refuses path <;> simp [zero]

theorem writeBytes_ok {directory after : Directory} {file : String × Bytes} :
    writeBytes machine directory file = .ok after ↔ checkName machine file.1 = .ok () ∧
      FileTree.place directory (pathParts file.1, file.2) = .ok after := by
  rw [writeBytes, Outcomes.bind_ok]
  simp only [Outcomes.mapError_ok]
  constructor
  · rintro ⟨_, both⟩
    exact both
  · intro both
    exact ⟨(), both⟩

theorem foldlM_writeBytes {directory after : Directory} {files : List (String × Bytes)} :
    files.foldlM (writeBytes machine) directory = .ok after ↔
      (∀ file ∈ files, checkName machine file.1 = .ok ()) ∧
        (files.map fun file => (pathParts file.1, file.2)).foldlM FileTree.place directory =
          .ok after := by
  induction files generalizing directory with
  | nil =>
      simp only [List.foldlM_nil, List.map_nil, Pure.pure, Except.pure, Except.ok.injEq,
        List.not_mem_nil, false_implies, implies_true, true_and]
  | cons file rest ih =>
      rw [List.foldlM_cons, List.map_cons, List.foldlM_cons, List.forall_mem_cons,
        Outcomes.bind_ok, Outcomes.bind_ok]
      simp only [writeBytes_ok, ih]
      constructor
      · rintro ⟨next, ⟨named, placed⟩, others, laid⟩
        exact ⟨⟨named, others⟩, next, placed, laid⟩
      · rintro ⟨⟨named, others⟩, next, placed, laid⟩
        exact ⟨next, ⟨named, placed⟩, others, laid⟩

def entriesOf (artifact : List SkillArtifactFile) : List (List String × Bytes) :=
  artifact.map fun file => (pathParts file.path, file.content)

/-- Stored files of different paths keep different places. -/
theorem entriesOf_distinct (distinct : (artifact.map SkillArtifactFile.path).Nodup) :
    ((entriesOf artifact).map Prod.fst).Nodup := by
  rw [entriesOf, List.map_map]
  refine List.Nodup.map_on ?_ (List.Nodup.of_map _ distinct)
  intro one first other second same
  have paths : one.path = other.path := eq_of_pathParts one.safe other.safe same
  exact List.inj_on_of_nodup_map distinct first second paths

/-- The files of an artifact are extracted when they can stand in a directory. -/
theorem materializeToDirectory_ok (backed : spec.artifact ≠ [])
    (distinct : (spec.artifact.map SkillArtifactFile.path).Nodup) {directory : Directory} :
    materializeToDirectory loading machine spec = .ok directory ↔
      ((∀ file ∈ spec.artifact, '\x00' ∉ file.path.toList ∧ machine.refuses file.path = none) ∧
        FileTree.Apart (entriesOf spec.artifact)) ∧
          directory = FileTree.standing (entriesOf spec.artifact) := by
  have entries : (spec.artifact.map fun file => (file.path, file.content)).map
      (fun file => (pathParts file.1, file.2)) = entriesOf spec.artifact := by
    simp [entriesOf]
  have named : ∀ entry ∈ entriesOf spec.artifact, entry.1 ≠ [] := by
    intro entry member
    obtain ⟨file, _, rfl⟩ := List.mem_map.mp member
    exact pathParts_ne_nil file.safe
  have laid : (entriesOf spec.artifact).foldlM FileTree.place FileTree.emptyDirectory =
      .ok directory ↔ FileTree.Apart (entriesOf spec.artifact) ∧
        directory = FileTree.standing (entriesOf spec.artifact) := by
    rw [← FileTree.standing_nil]
    exact FileTree.foldlM_place (by simpa using entriesOf_distinct distinct) named nofun
  simp only [materializeToDirectory, specFiles_backed backed, Outcomes.bind_ok, Except.ok.injEq, exists_eq_left',
    artifactMapping_rows distinct, foldlM_writeBytes, entries, laid, List.forall_mem_map,
    checkName_ok, and_assoc]

theorem faultError_name (fault : FileTree.Fault String) :
    (faultError machine fault).name ≠ "SkillScriptError" := by
  cases fault <;> exact ne_of_beq_false rfl

theorem checkName_error {path : String} {error : Exc}
    (refused : checkName machine path = .error error) : error.name ≠ "SkillScriptError" := by
  unfold checkName at refused
  split at refused
  · cases refused
    decide
  · split at refused
    · cases refused
      exact ne_of_beq_false rfl
    · cases refused

theorem writeBytes_error {directory : Directory} {file : String × Bytes} {error : Exc}
    (failed : writeBytes machine directory file = .error error) :
    error.name ≠ "SkillScriptError" := by
  unfold writeBytes at failed
  cases checked : checkName machine file.1 with
  | error refused =>
      rw [checked] at failed
      cases failed
      exact checkName_error checked
  | ok done =>
      rw [checked] at failed
      cases placed : FileTree.place directory (pathParts file.1, file.2) with
      | error fault =>
          rw [placed] at failed
          cases failed
          exact faultError_name fault
      | ok tree =>
          rw [placed] at failed
          cases failed

theorem foldlM_writeBytes_error {directory : Directory} {files : List (String × Bytes)}
    {error : Exc} (failed : files.foldlM (writeBytes machine) directory = .error error) :
    error.name ≠ "SkillScriptError" := by
  induction files generalizing directory with
  | nil => cases failed
  | cons file rest ih =>
      rw [List.foldlM_cons] at failed
      cases written : writeBytes machine directory file with
      | error refused =>
          rw [written] at failed
          cases failed
          exact writeBytes_error written
      | ok next =>
          rw [written] at failed
          exact ih failed

/-- An artifact that cannot be extracted fails with an error of the file system. -/
theorem materializeToDirectory_error (backed : spec.artifact ≠ []) {error : Exc}
    (failed : materializeToDirectory loading machine spec = .error error) :
    error.name ≠ "SkillScriptError" := by
  rw [materializeToDirectory, specFiles_backed backed] at failed
  exact foldlM_writeBytes_error failed

end Extraction

section Declarations

variable {loading : Loading} {machine : Machine} {spec : SkillSpec} {script : String}
  {arguments : Bytes} {timeout : Option ℚ} {declaration : SkillScriptSpec} {files : Files}

theorem checkScripts_ok {seen : List String} {scripts : List SkillScriptSpec}
    (checked : checkScripts files seen scripts = .ok ()) :
    (∀ script ∈ scripts, script.name ∉ seen ∧ (pathParts script.path).head? = some "scripts" ∧
        (files.get (asPosix script.path)).isSome = true) ∧
      (scripts.map SkillScriptSpec.name).Nodup := by
  induction scripts generalizing seen with
  | nil => simp
  | cons script rest ih =>
      unfold checkScripts at checked
      split at checked
      · cases checked
      next fresh =>
        split at checked
        · cases checked
        next inside =>
          split at checked
          · cases checked
          next stored =>
            obtain ⟨others, distinct⟩ := ih checked
            simp only [Bool.or_eq_true, bne_iff_ne, not_or, not_not] at inside
            have present : (files.get (asPosix script.path)).isSome = true := by
              simpa [← Option.isSome_iff_ne_none] using stored
            have unseen : script.name ∉ seen := by simpa using fresh
            refine ⟨fun other member => ?_, ?_⟩
            · rcases List.mem_cons.mp member with rfl | later
              · exact ⟨unseen, inside.2, present⟩
              · have known := others other later
                exact ⟨fun early => known.1 (List.mem_cons_of_mem _ early), known.2⟩
            · rw [List.map_cons, List.nodup_cons]
              refine ⟨fun repeated => ?_, distinct⟩
              obtain ⟨other, later, same⟩ := List.mem_map.mp repeated
              exact (others other later).1 (same ▸ List.mem_cons_self)

theorem manifestScripts_ok {scripts : List SkillScriptSpec}
    (loaded : manifestScripts loading files = .ok scripts) :
    checkScripts files [] scripts = .ok () := by
  unfold manifestScripts at loaded
  simp only [Bind.bind, Except.bind] at loaded
  repeat' split at loaded
  all_goals cases loaded
  · rfl
  next _ _ _ _ checked =>
    exact checked

theorem inspectArtifact_distinct {artifact : List SkillArtifactFile} {sourcePath : String}
    (inspected : inspectArtifact loading artifact sourcePath = .ok spec) :
    (artifact.map SkillArtifactFile.path).Nodup := by
  unfold inspectArtifact at inspected
  simp only [Bind.bind, Except.bind] at inspected
  repeat' split at inspected
  all_goals first | cases inspected | skip
  unfold validated at inspected
  split at inspected
  · cases inspected
  · split at inspected
    next distinct => exact distinct
    · cases inspected

structure Accepted (spec : SkillSpec) : Prop where
  backed : spec.artifact ≠ []
  distinct : (spec.artifact.map SkillArtifactFile.path).Nodup
  stored : ∀ script ∈ spec.scripts, (pathParts script.path).head? = some "scripts" ∧
    ∃ file ∈ spec.artifact, pathParts file.path = pathParts script.path
  names : (spec.scripts.map SkillScriptSpec.name).Nodup

theorem inspectArtifact_accepted {artifact : List SkillArtifactFile} {sourcePath : String}
    (inspected : inspectArtifact loading artifact sourcePath = .ok spec) : Accepted spec := by
  obtain ⟨_, own, loaded⟩ := inspectArtifact_ok inspected
  subst own
  have distinct := inspectArtifact_distinct inspected
  obtain ⟨checked, names⟩ := checkScripts_ok (manifestScripts_ok loaded)
  refine ⟨?_, distinct, fun script member => ?_, names⟩
  · intro empty
    rw [empty] at inspected
    cases inspected
  · obtain ⟨_, inside, present⟩ := checked script member
    refine ⟨inside, ?_⟩
    obtain ⟨content, found⟩ := Option.isSome_iff_exists.mp present
    obtain ⟨row, stands, _⟩ := Option.map_eq_some_iff.mp found
    have member := Table.find_mem stands
    rw [artifactMapping_rows distinct] at member
    obtain ⟨file, stored, rfl⟩ := List.mem_map.mp member
    have same : (file.path, file.content).1 = asPosix script.path := Table.find_key stands
    refine ⟨file, stored, ?_⟩
    rw [show file.path = asPosix script.path from same, pathParts_asPosix]

def runDirectory (artifact : List SkillArtifactFile) (arguments : Bytes) : Directory :=
  Function.update (FileTree.standing (entriesOf artifact)) ["input.json"] (some (.file arguments))

theorem apart_entriesOf {artifact : List SkillArtifactFile} :
    FileTree.Apart (entriesOf artifact) ↔ ∀ file ∈ artifact, ∀ other ∈ artifact,
      ¬ FileTree.Below (pathParts file.path) (pathParts other.path) := by
  simp [FileTree.Apart, entriesOf]

theorem input_written {artifact : List SkillArtifactFile}
    (apart : FileTree.Apart (entriesOf artifact)) {directory : Directory} :
    FileTree.writeFile (FileTree.standing (entriesOf artifact)) ["input.json"] arguments =
        .ok directory ↔
      (∀ file ∈ artifact, ¬ FileTree.Below ["input.json"] (pathParts file.path)) ∧
        directory = runDirectory artifact arguments := by
  have free : FileTree.standing (entriesOf artifact) ["input.json"] ≠ some .directory ↔
      ∀ file ∈ artifact, ¬ FileTree.Below ["input.json"] (pathParts file.path) := by
    rw [Ne, FileTree.standing_directory]
    constructor
    · intro free file member below
      refine free ⟨fun stands => ?_, .inr ⟨(pathParts file.path, file.content), ?_, below.1⟩⟩
      · obtain ⟨entry, present, same⟩ := List.mem_map.mp stands
        refine apart entry present (pathParts file.path, file.content) ?_ (same ▸ below)
        exact List.mem_map_of_mem member
      · exact List.mem_map_of_mem member
    · rintro free ⟨absent, root | ⟨entry, present, inside⟩⟩
      · cases root
      · obtain ⟨file, member, rfl⟩ := List.mem_map.mp present
        refine free file member ⟨inside, fun same => absent ?_⟩
        exact List.mem_map.mpr ⟨_, present, same.symm⟩
  rw [FileTree.writeFile_ok, free]
  rfl

theorem run_stored (loading : Loading) (machine : Machine) (arguments : Bytes)
    (timeout : Option ℚ) (accepted : Accepted spec)
    (found : scriptFor spec script = some declaration) {file : SkillArtifactFile}
    (member : file ∈ spec.artifact) (same : pathParts file.path = pathParts declaration.path) :
    (Extractable machine spec.artifact ∧
      SkillScriptRunner.run loading machine spec script arguments timeout = .ok
        { interpreter := declaration.interpreter
          file := pathParts file.path
          directory := runDirectory spec.artifact arguments
          effectiveTimeout := effectiveTimeout timeout declaration
          maxOutputBytes := declaration.maxOutputBytes }) ∨
    (¬ Extractable machine spec.artifact ∧ ∃ error,
      SkillScriptRunner.run loading machine spec script arguments timeout = .error error ∧
        error.name ≠ "SkillScriptError") := by
  rw [SkillScriptRunner.run, found]
  dsimp only
  -- The artifact cannot be extracted, or the arguments cannot be written, or the run starts.
  cases extracted : materializeToDirectory loading machine spec with
  | error error =>
      have failed : materializeFiles loading machine spec declaration = .error error := by
        rw [materializeFiles, extracted]
        rfl
      refine .inr ⟨fun extractable => ?_, error, by rw [failed]; rfl,
        materializeToDirectory_error accepted.backed extracted⟩
      have stands : materializeToDirectory loading machine spec = .ok _ :=
        (materializeToDirectory_ok accepted.backed accepted.distinct).mpr
          ⟨⟨extractable.named, apart_entriesOf.mpr extractable.apart⟩, rfl⟩
      rw [extracted] at stands
      cases stands
  | ok directory =>
      obtain ⟨⟨named, apart⟩, rfl⟩ :=
        (materializeToDirectory_ok accepted.backed accepted.distinct).mp extracted
      have entry : (pathParts file.path, file.content) ∈ entriesOf spec.artifact :=
        List.mem_map_of_mem member
      have stands : FileTree.standing (entriesOf spec.artifact) (pathParts file.path) =
          some (.file file.content) :=
        FileTree.standing_file (entriesOf_distinct accepted.distinct) entry
      have chosen : materializeFiles loading machine spec declaration =
          .ok (FileTree.standing (entriesOf spec.artifact), pathParts file.path) := by
        rw [materializeFiles, extracted, same]
        -- The file stands where it is declared, so that the tree is not searched.
        exact if_pos (by rw [← same, stands]; rfl)
      rw [chosen]
      cases written : FileTree.writeFile (FileTree.standing (entriesOf spec.artifact))
          ["input.json"] arguments with
      | error fault =>
          refine .inr ⟨fun extractable => ?_, faultError machine fault, ?_, faultError_name fault⟩
          · have done : FileTree.writeFile (FileTree.standing (entriesOf spec.artifact))
                ["input.json"] arguments = .ok _ :=
              (input_written apart).mpr ⟨extractable.input, rfl⟩
            rw [written] at done
            cases done
          · simp only [Bind.bind, Except.bind, written]
            rfl
      | ok after =>
          obtain ⟨free, rfl⟩ := (input_written apart).mp written
          refine .inl ⟨⟨named, apart_entriesOf.mp apart, free⟩, ?_⟩
          simp only [Bind.bind, Except.bind, written]
          rfl

theorem answersTo_name (named : declaration.name = script) :
    answersTo script declaration = true := by
  simp [answersTo, named]

theorem scriptFor_first {before after : List SkillScriptSpec}
    (whole : spec.scripts = before ++ declaration :: after)
    (answers : answersTo script declaration = true)
    (silent : ∀ other ∈ before, answersTo script other = false) :
    scriptFor spec script = some declaration := by
  have found : spec.scripts.find? (answersTo script) = some declaration :=
    List.find?_eq_some_iff_append.mpr ⟨answers, before, after, whole,
      fun other member => by simp [silent other member]⟩
  rw [scriptFor, found, Option.some_or]

/-- What a request is resolved to: the first declaration that answers, else the first file. -/
theorem scriptFor_cases (spec : SkillSpec) (script : String) :
    (∃ before declaration after, spec.scripts = before ++ declaration :: after ∧
      answersTo script declaration = true ∧ ∀ other ∈ before, answersTo script other = false) ∨
    ((∀ other ∈ spec.scripts, answersTo script other = false) ∧
      ((∃ file ∈ spec.artifact, fileAnswersTo script file = true ∧ scriptFor spec script =
          some { name := script, path := file.path, interpreter := fileInterpreter file.path }) ∨
        ((∀ file ∈ spec.artifact, fileAnswersTo script file = false) ∧
          scriptFor spec script = none))) := by
  cases declared : spec.scripts.find? (answersTo script) with
  | some declaration =>
      obtain ⟨answers, before, after, whole, silent⟩ := List.find?_eq_some_iff_append.mp declared
      exact .inl ⟨before, declaration, after, whole, answers, by simpa using silent⟩
  | none =>
      refine .inr ⟨by simpa using declared, ?_⟩
      rw [scriptFor, declared, Option.none_or]
      cases found : spec.artifact.find? (fileAnswersTo script) with
      | some file =>
          exact .inl ⟨file, List.mem_of_find?_eq_some found, List.find?_some found, rfl⟩
      | none => exact .inr ⟨by simpa using found, rfl⟩

theorem runDirectory_stored (accepted : Accepted spec) {file : SkillArtifactFile}
    (member : file ∈ spec.artifact) (inside : (pathParts file.path).head? = some "scripts") :
    runDirectory spec.artifact arguments (pathParts file.path) = some (.file file.content) := by
  have apart : pathParts file.path ≠ ["input.json"] := by
    intro same
    rw [same] at inside
    exact absurd inside (by decide)
  have entry : (pathParts file.path, file.content) ∈ entriesOf spec.artifact :=
    List.mem_map_of_mem member
  rw [runDirectory, Function.update_of_ne apart]
  exact FileTree.standing_file (entriesOf_distinct accepted.distinct) entry

/-- A run that fails in the file system is neither of the two outcomes. -/
theorem not_runsDeclared {error : Exc} (other : error.name ≠ "SkillScriptError")
    (ran : SkillScriptRunner.run loading machine spec script arguments timeout = .error error) :
    ¬ RunsDeclared loading machine spec script arguments timeout := by
  intro runs
  rcases runs.own with ⟨job, done, _⟩ | ⟨raised, failed, name⟩
  · rw [ran] at done
    cases done
  · rw [ran] at failed
    cases failed
    exact other name

theorem scripts_kept : Kept "scripts" := ⟨by decide, by decide, by decide⟩

theorem runsDeclared_first (accepted : Accepted spec) (own : declaration ∈ spec.scripts)
    {file : SkillArtifactFile} (member : file ∈ spec.artifact)
    (same : pathParts file.path = pathParts declaration.path)
    (ran : SkillScriptRunner.run loading machine spec script arguments timeout = .ok
      { interpreter := declaration.interpreter
        file := pathParts file.path
        directory := runDirectory spec.artifact arguments
        effectiveTimeout := effectiveTimeout timeout declaration
        maxOutputBytes := declaration.maxOutputBytes }) :
    RunsDeclared loading machine spec script arguments timeout ↔
      pathParts declaration.path ≠ ["scripts"] ∧
        ∀ named ∈ spec.scripts, named.name = script → RunsAlike timeout declaration named := by
  obtain ⟨inside, _⟩ := accepted.stored declaration own
  constructor
  · intro runs
    constructor
    · rcases runs.own with ⟨job, done, other, stored, below, place, _⟩ | ⟨error, failed, _⟩
      · rw [ran] at done
        cases done
        obtain ⟨rest, longer, parts⟩ := (below_iff scripts_kept other.safe).mp below
        have placed : pathParts file.path = pathParts other.path := place
        rw [← same, placed, parts]
        simpa using longer
      · rw [ran] at failed
        cases failed
    · intro named declared name
      obtain ⟨job, done, place, interpreter, limit, output⟩ := runs.declared named declared name
      rw [ran] at done
      cases done
      exact ⟨same.symm.trans place, interpreter, limit, output⟩
  · rintro ⟨apart, alike⟩
    constructor
    · intro named declared name
      refine ⟨_, ran, ?_⟩
      have equal := alike named declared name
      exact ⟨same.trans equal.file, equal.interpreter, equal.timeout, equal.output⟩
    · refine .inl ⟨_, ran, file, member, ?_, rfl, ?_⟩
      · rw [← same] at inside apart
        obtain ⟨rest, parts⟩ := List.head?_eq_some_iff.mp inside
        refine (below_iff scripts_kept file.safe).mpr ⟨rest, fun empty => apart ?_, parts⟩
        rw [parts, empty]
      · exact runDirectory_stored accepted member (same ▸ inside)

/-- The declared script runs exactly when the artifact can be extracted and no other declaration
stands in for the one of the name. -/
theorem declared_script_runs_iff (loading : Loading) (machine : Machine)
    (artifact : List SkillArtifactFile) (sourcePath : String) (spec : SkillSpec) (script : String)
    (arguments : Bytes) (timeout : Option ℚ)
    (inspected : inspectArtifact loading artifact sourcePath = .ok spec) :
    RunsDeclared loading machine spec script arguments timeout ↔
      Unshadowed machine spec script timeout := by
  have accepted := inspectArtifact_accepted inspected
  rcases scriptFor_cases spec script with ⟨before, declaration, after, whole, answers, silent⟩ |
    ⟨silent, ⟨file, member, answers, found⟩ | ⟨unanswered, found⟩⟩
  · have own : declaration ∈ spec.scripts := by simp [whole]
    have found := scriptFor_first whole answers silent
    obtain ⟨inside, file, member, same⟩ := accepted.stored declaration own
    rcases run_stored loading machine arguments timeout accepted found member same with
      ⟨extractable, ran⟩ | ⟨blocked, error, ran, other⟩
    · rw [runsDeclared_first accepted own member same ran]
      constructor
      · rintro ⟨apart, alike⟩
        -- Another split at a first answer is the same one, since the request finds one script.
        refine ⟨fun _ => extractable, fun left first right split heard quiet => ?_⟩
        obtain rfl := Option.some.inj (found.symm.trans (scriptFor_first split heard quiet))
        exact ⟨apart, fun named later => alike named (by simp [split, later])⟩
      · intro unshadowed
        obtain ⟨apart, alike⟩ := unshadowed.first before declaration after whole answers silent
        refine ⟨apart, fun named declared name => ?_⟩
        rw [whole, List.mem_append, List.mem_cons] at declared
        rcases declared with early | rfl | later
        · have heard := answersTo_name name
          rw [silent named early] at heard
          cases heard
        · exact ⟨rfl, rfl, rfl, rfl⟩
        · exact alike named later name
    · refine iff_of_false (not_runsDeclared other ran) fun unshadowed => blocked ?_
      exact unshadowed.extractable (.inl ⟨declaration, own, answers⟩)
  · have unheard (declaration : SkillScriptSpec) (own : declaration ∈ spec.scripts) :
        answersTo script declaration ≠ true := by simp [silent declaration own]
    have inside : "scripts/".toList.isPrefixOf file.path.toList = true := by
      simp only [fileAnswersTo, Bool.and_eq_true] at answers
      exact answers.1
    rcases run_stored loading machine arguments timeout accepted found member rfl with
      ⟨extractable, ran⟩ | ⟨blocked, error, ran, other⟩
    · refine iff_of_true
        ⟨fun declaration own name => ?_, .inl ⟨_, ran, file, member, inside, rfl, ?_⟩⟩
        ⟨fun _ => extractable, fun before declaration after whole answers => ?_⟩
      · exact absurd (answersTo_name name) (unheard declaration own)
      · obtain ⟨rest, _, parts⟩ := (below_iff scripts_kept file.safe).mp inside
        exact runDirectory_stored accepted member (by rw [parts]; rfl)
      · exact absurd answers (unheard declaration (by simp [whole]))
    · refine iff_of_false (not_runsDeclared other ran) fun unshadowed => blocked ?_
      exact unshadowed.extractable (.inr ⟨file, member, answers⟩)
  · have unheard (declaration : SkillScriptSpec) (own : declaration ∈ spec.scripts) :
        answersTo script declaration ≠ true := by simp [silent declaration own]
    have ran : SkillScriptRunner.run loading machine spec script arguments timeout = .error
        (scriptError ("Script '" ++ script ++ "' is not declared or found in Skill '" ++
          spec.name ++ "'")) := by
      rw [SkillScriptRunner.run, found]
    refine iff_of_true ⟨fun declaration own name => ?_, .inr ⟨_, ran, rfl⟩⟩
      ⟨fun heard => ?_, fun before declaration after whole answers => ?_⟩
    · exact absurd (answersTo_name name) (unheard declaration own)
    · rcases heard with ⟨declaration, own, answers⟩ | ⟨file, member, answers⟩
      · exact absurd answers (unheard declaration own)
      · rw [unanswered file member] at answers
        cases answers
    · exact absurd answers (unheard declaration (by simp [whole]))

end Declarations

section Samples

def shadowArtifact : List SkillArtifactFile := [
  textFile "SKILL.md" "---\nname: report\ndescription: d\n---\nA" manifest_safe,
  textFile "agents/platform.yaml" ("schema_version: 1\nscripts:\n" ++
    "- name: old\n  path: scripts/run\n  interpreter: bash\n" ++
    "- name: run\n  path: scripts/new.py\n  interpreter: python\n") platform_safe,
  textFile "scripts/run" "echo old\n" (by decide),
  textFile "scripts/new.py" "print(1)\n" (by decide)]

def oldScript : SkillScriptSpec where
  name := "old"
  path := "scripts/run"
  interpreter := .bash

def newScript : SkillScriptSpec where
  name := "run"
  path := "scripts/new.py"
  interpreter := .python

def shadowed : SkillSpec where
  name := "report"
  description := "d"
  sourcePath := "report"
  contentHash := "9661c3a2847bc74a12374e727a46bd01173efa6e2a60642449bebe1e16ece204"
  scripts := [oldScript, newScript]
  artifact := shadowArtifact

def yamlScript (script : SkillScriptSpec) (interpreter : String) : Yaml := .mapping [
  (.string "name", .string script.name), (.string "path", .string script.path),
  (.string "interpreter", .string interpreter)]

def shadowLoading : Loading where
  sha256 _ := shadowed.contentHash
  decode bytes := String.fromUTF8? ⟨bytes.toArray⟩
  isspace := Char.isWhitespace
  safeLoad text := some (.mapping (
    if "schema_version".toList.isPrefixOf text.toList then
      [(.string "schema_version", .int 1),
        (.string "scripts", .sequence [yamlScript oldScript "bash", yamlScript newScript "python"])]
    else [(.string "name", .string "report"), (.string "description", .string "d")]))
  scriptSpec
    | .mapping ((_, .string "old") :: _) => .ok oldScript
    | _ => .ok newScript
  rejected _ := "1 validation error for SkillSpec"
  root _ := .error (invalid "Skill artifact 'report' does not exist")
  guessType _ := none

def sampleMachine : Machine where
  tmpdir := "/tmp/skill_report_0"
  refuses _ := none
  walk _ := [["SKILL.md"], ["agents"], ["scripts"], ["agents", "platform.yaml"],
    ["scripts", "run"], ["scripts", "new.py"]]

theorem shadowed_inspected : inspectArtifact shadowLoading shadowArtifact "report" =
    .ok shadowed := by
  decide +kernel

end Samples

/-- A request for the name of a script runs another one, whose file is called so. -/
theorem file_name_shadows_name : inspectArtifact shadowLoading shadowArtifact "report" =
      .ok shadowed ∧
    ¬ RunsDeclared shadowLoading sampleMachine shadowed "run" (encode "{}") none := by
  refine ⟨shadowed_inspected, fun runs => ?_⟩
  have accepted := inspectArtifact_accepted shadowed_inspected
  have found : scriptFor shadowed "run" = some oldScript := by decide +kernel
  obtain ⟨_, file, member, same⟩ := accepted.stored oldScript (by simp [shadowed])
  obtain ⟨job, done, _, interpreter, _⟩ := runs.declared newScript (by simp [shadowed]) rfl
  rcases run_stored shadowLoading sampleMachine (encode "{}") none accepted found member same with
    ⟨_, ran⟩ | ⟨_, error, ran, _⟩
  · rw [ran] at done
    cases done
    cases interpreter
  · rw [ran] at done
    cases done

theorem declared_script_runs_iff_shadowed :
    RunsDeclared shadowLoading sampleMachine shadowed "old" (encode "{}") none ↔
      Unshadowed sampleMachine shadowed "old" none :=
  declared_script_runs_iff shadowLoading sampleMachine shadowArtifact "report" shadowed "old"
    (encode "{}") none shadowed_inspected

end AgentTaskPlatform.Skills
