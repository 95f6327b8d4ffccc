import AgentTaskPlatform.SkillRegistry
import Mathlib.Algebra.GroupWithZero.Nat

/-!
`SkillRuntime` and `SkillSession`: a run pins the Skills of its agent when it is submitted
and resolves the pins when it is executed. A session activates its Skills, reads their
resources and runs their scripts.
-/

namespace AgentTaskPlatform.Skills

open KeyedTable Registry StatefulCalls

inductive ActivationPolicy where
  | auto
  | explicit
  | always
  deriving DecidableEq, Repr

structure AgentSkillRef where
  name : String
  version : Option String := none
  activation : ActivationPolicy := .auto
  deriving DecidableEq, Repr

structure SkillSnapshot where
  name : String
  version : String
  contentHash : String
  activation : ActivationPolicy
  artifactId : String
  deriving DecidableEq, Repr

def skillError (name message : String) : Exc := ⟨.exception, name, message⟩

section Lookup

def getSkill (registry : SkillRegistry) (name : String) (version : Option String) :
    Except Exc SkillSpec :=
  match (version.filter (· ≠ "")).or (registry.default name) with
  | none =>
      if registry.skills.rows.any fun skill => skill.name = name then
        .error (skillError "SkillDisabledError"
          ("No enabled default version for Skill '" ++ name ++ "'"))
      else .error (skillNotFound name)
  | some resolved =>
      match registry.getOptional name resolved with
      | none => .error (skillError "SkillNotFoundError"
          ("Unknown Skill '" ++ name ++ "'@" ++ resolved))
      | some skill =>
          if skill.enabled then .ok skill
          else .error (skillError "SkillDisabledError"
            ("Skill '" ++ name ++ "'@" ++ resolved ++ " is disabled"))

def resolveForAgent (registry : SkillRegistry) :
    List String → List AgentSkillRef → Except Exc (List SkillSpec)
  | _, [] => .ok []
  | seen, ref :: rest =>
      if seen.contains ref.name then
        .error (.registry ("Agent declares Skill '" ++ ref.name ++ "' more than once"))
      else do
        let skill ← getSkill registry ref.name ref.version
        let skills ← resolveForAgent registry (ref.name :: seen) rest
        return skill :: skills

end Lookup

section Resources

variable (loading : Loading)

def resourceError (message : String) : Exc := skillError "SkillResourceError" message

def unsafePath : Exc := resourceError "Skill resource path must be a safe relative path"

def normalizeResourcePath (available : String → Bool) (path : String) : Except Exc String :=
  if isAbsolute path || (pathParts path).contains ".." then .error unsafePath
  else
    let posix := asPosix path
    if (pathParts path).length > 1 &&
        ((pathParts path).head? = some "references" || (pathParts path).head? = some "assets") then
      .ok posix
    else if available ("references/" ++ posix) then .ok ("references/" ++ posix)
    else if available ("assets/" ++ posix) then .ok ("assets/" ++ posix)
    else .ok posix

def validateResourcePath (path : String) : Except Exc Unit :=
  if isAbsolute path || (pathParts path).contains ".." then .error unsafePath
  else if (pathParts path).head? = some "references" ||
      (pathParts path).head? = some "assets" then .ok ()
  else .error (resourceError "Skill resources must be under references/ or assets/")

def resourceOf (files : Files) (available : String → Bool) (path : String) :
    Except Exc Bytes := do
  let normalized ← normalizeResourcePath available path
  validateResourcePath normalized
  match files.get normalized with
  | none => throw (resourceError ("Skill resource '" ++ path ++ "' does not exist"))
  | some content =>
      if content.length > loading.maxResourceBytes then
        throw (resourceError ("Skill resource '" ++ path ++
          "' exceeds the configured size limit"))
      else return content

/-- The files of a spec: its stored artifact, or what lies below the trusted root now. -/
def specFiles (spec : SkillSpec) : Except Exc Files :=
  if spec.artifact.isEmpty then do
    let (_, _, files) ← loading.root spec.sourcePath
    return artifactMapping files
  else .ok (artifactMapping spec.artifact)

def verifyName (spec : SkillSpec) : Except Exc Unit :=
  if spec.artifact.isEmpty then do
    let (directory, _, _) ← loading.root spec.sourcePath
    if directory = spec.name then return ()
    else throw (invalid ("Skill artifact does not match '" ++ spec.name ++ "'"))
  else .ok ()

/-- The text as a file opened in text mode yields it. -/
def universalNewlines : List Char → List Char
  | '\r' :: '\n' :: rest => '\n' :: universalNewlines rest
  | '\r' :: rest => '\n' :: universalNewlines rest
  | first :: rest => first :: universalNewlines rest
  | [] => []

/-- The file, read in text mode and encoded again. -/
def parseSkillMarkdown (content : Bytes) : Except Exc (List (Yaml × Yaml) × String) :=
  match loading.decode content with
  | none => .error (invalid "SKILL.md must be UTF-8 text")
  | some text => frontmatterAndBody loading (universalNewlines text.toList)

def loadInstructions (spec : SkillSpec) : Except Exc String := do
  let files ← specFiles loading spec
  verifyName loading spec
  match files.get "SKILL.md" with
  | none =>
      if spec.artifact.isEmpty then
        throw ⟨.exception, "FileNotFoundError", loading.openError "SKILL.md"⟩
      else throw (invalid "Skill artifact is missing SKILL.md")
  | some skillMd => do
      let (_, body) ←
        if spec.artifact.isEmpty then parseSkillMarkdown loading skillMd
        else parseSkillMarkdownText loading skillMd
      return body

def readResource (spec : SkillSpec) (path : String) : Except Exc Bytes :=
  if spec.artifact.isEmpty then do
    let normalized ← normalizeResourcePath (fun _ => false) path
    validateResourcePath normalized
    let files ← specFiles loading spec
    match loading.statError normalized with
    | some message => throw ⟨.exception, "OSError", message⟩
    | none => resourceOf loading files (fun _ => false) path
  else
    let files := artifactMapping spec.artifact
    resourceOf loading files (fun path => (files.get path).isSome) path

def readTextResource (spec : SkillSpec) (path : String) : Except Exc String := do
  let content ← readResource loading spec path
  match loading.decode content with
  | some text =>
      if spec.artifact.isEmpty then return String.ofList (universalNewlines text.toList)
      else return text
  | none => throw (resourceError ("Skill resource '" ++ path ++ "' is not UTF-8 text"))

structure ResourceHandle where
  name : String
  path : String
  mimeType : String
  content : Bytes

/-- `next(...)` raises in a coroutine when no file has the path as it was given. -/
def stopIteration : Exc := .runtime "coroutine raised StopIteration"

def openBinaryResource (spec : SkillSpec) (path : String) : Except Exc ResourceHandle := do
  let content ← readResource loading spec path
  if spec.artifact.isEmpty then
    return ⟨spec.name, path, (loading.guessType (baseName path)).getD "application/octet-stream",
      content⟩
  else match spec.artifact.find? fun file => file.path = path with
  | none => throw stopIteration
  | some file =>
      return ⟨spec.name, path, ((file.mimeType.filter (· ≠ "")).or
        (loading.guessType path)).getD "application/octet-stream", content⟩

end Resources

section Scripts

def answersTo (script : String) (declared : SkillScriptSpec) : Bool :=
  declared.name == script || declared.path == script || baseName declared.path == script

def fileAnswersTo (script : String) (file : SkillArtifactFile) : Bool :=
  "scripts/".toList.isPrefixOf file.path.toList &&
    (file.path == script || baseName file.path == script || file.path == "scripts/" ++ script ||
      file.path == "scripts/" ++ script ++ ".py")

def fileInterpreter (path : String) : Interpreter :=
  if ".py".toList.isSuffixOf path.toList then .python
  else if ".sh".toList.isSuffixOf path.toList then .bash
  else .python

def scriptFor (spec : SkillSpec) (script : String) : Option SkillScriptSpec :=
  (spec.scripts.find? (answersTo script)).or
    ((spec.artifact.find? (fileAnswersTo script)).map fun file =>
      { name := script, path := file.path, interpreter := fileInterpreter file.path })

def scriptError (message : String) : Exc := skillError "SkillScriptError" message

/-- What a script run hands to the subprocess: the declaration it goes by and the files of
its directory. -/
structure ScriptRun where
  declaration : SkillScriptSpec
  files : List (String × Bytes)

def runScript (loading : Loading) (spec : SkillSpec) (script : String) : Except Exc ScriptRun :=
  match scriptFor spec script with
  | none => .error (scriptError ("Script '" ++ script ++
      "' is not declared or found in Skill '" ++ spec.name ++ "'"))
  | some declaration => do
      let files ← specFiles loading spec
      return ⟨declaration, sortedItems files⟩

end Scripts

structure SkillActivation where
  name : String
  version : String
  contentHash : String
  instructions : String
  activation : ActivationPolicy
  deriving DecidableEq, Repr

structure SkillSession where
  assignments : List (AgentSkillRef × SkillSpec)
  maxActiveSkills : Nat := 8
  maxInstructionChars : Nat := 20000
  active : List SkillActivation := []

namespace SkillSession

def assigned (session : SkillSession) (name : String) : Option (AgentSkillRef × SkillSpec) :=
  session.assignments.find? fun assignment => assignment.1.name = name

def activeFor (session : SkillSession) (name : String) : Option SkillActivation :=
  session.active.find? fun activation => activation.name = name

end SkillSession

section Session

variable (loading : Loading)

abbrev SessionM := Method Exc SkillSession

def notAssigned (name : String) : Exc :=
  skillError "SkillNotAssignedError" ("Skill '" ++ name ++ "' is not assigned to this Agent")

def activationDenied (message : String) : Exc := skillError "SkillActivationDeniedError" message

def activationOf (ref : AgentSkillRef) (explicit : Bool) : ActivationPolicy :=
  if ref.activation = .always then .always else if explicit then .explicit else .auto

def activate (name : String) (explicit : Bool) : SessionM SkillActivation := do
  let session ← get
  match session.assigned name with
  | none => throw (notAssigned name)
  | some (ref, spec) =>
      if ref.activation = .explicit && !explicit then
        throw (activationDenied ("Skill '" ++ name ++ "' requires explicit activation"))
      else match session.activeFor name with
      | some active => return active
      | none =>
          if session.maxActiveSkills ≤ session.active.length then
            throw (activationDenied "Skill activation limit reached for this Run")
          else do
            let instructions ← ExceptT.mk (pure (loadInstructions loading spec))
            if (session.active.map fun item => item.instructions.length).sum +
                instructions.length > session.maxInstructionChars then
              throw (activationDenied "Skill instruction budget exceeded for this Run")
            else do
              let activation : SkillActivation :=
                ⟨name, spec.version, spec.contentHash, instructions, activationOf ref explicit⟩
              modify fun session => { session with active := session.active ++ [activation] }
              return activation

def activeSpec (name : String) : SessionM SkillSpec := do
  let session ← get
  match session.assigned name with
  | none => throw (notAssigned name)
  | some (_, spec) =>
      if (session.activeFor name).isSome then return spec
      else throw (resourceError ("Skill '" ++ name ++
        "' must be activated before its resources can be read"))

inductive Use where
  | activate (name : String) (explicit : Bool)
  | readText (name path : String)
  | openBinary (name path : String)
  | runScript (name script : String)

def Use.skill : Use → String
  | .activate name _ => name
  | .readText name _ => name
  | .openBinary name _ => name
  | .runScript name _ => name

inductive Content where
  | instructions (text : String)
  | text (text : String)
  | binary (handle : ResourceHandle)
  | script (run : ScriptRun)

def use : Use → SessionM Content
  | .activate name explicit => do
      let activation ← activate loading name explicit
      return .instructions activation.instructions
  | .readText name path => do
      let spec ← activeSpec name
      let text ← ExceptT.mk (pure (readTextResource loading spec path))
      return .text text
  | .openBinary name path => do
      let spec ← activeSpec name
      let handle ← ExceptT.mk (pure (openBinaryResource loading spec path))
      return .binary handle
  | .runScript name script => do
      let spec ← activeSpec name
      let run ← ExceptT.mk (pure (runScript loading spec script))
      return .script run

def usedAfter (session : SkillSession) : List Use → SkillSession
  | [] => session
  | first :: rest => usedAfter (use loading first session).2 rest

end Session

section Runtime

variable (loading : Loading)

def snapshotsForAgent (registry : SkillRegistry) (refs : List AgentSkillRef) :
    Except Exc (List SkillSnapshot) := do
  let specs ← resolveForAgent registry [] refs
  verifyAll loading specs
  return (refs.zip specs).map fun (ref, spec) =>
    ⟨spec.name, spec.version, spec.contentHash, ref.activation, spec.sourcePath⟩

def resolveSnapshot (registry : SkillRegistry) (snapshot : SkillSnapshot) :
    Except Exc (AgentSkillRef × SkillSpec) :=
  match registry.getOptional snapshot.name snapshot.version with
  | none => .error (invalid ("Pinned Skill " ++ snapshot.name ++ "@" ++ snapshot.version ++
      " is no longer registered"))
  | some spec =>
      if spec.sourcePath ≠ snapshot.artifactId || spec.contentHash ≠ snapshot.contentHash then
        .error (invalid ("Pinned Skill " ++ snapshot.name ++ "@" ++ snapshot.version ++
          " no longer matches its run snapshot"))
      else do
        verify loading spec
        return (⟨snapshot.name, some snapshot.version, snapshot.activation⟩, spec)

def resolveSnapshots (registry : SkillRegistry) (agent : String × String)
    (refs : List AgentSkillRef) (snapshots : List SkillSnapshot) :
    Except Exc (List (AgentSkillRef × SkillSpec)) :=
  if snapshots.isEmpty then
    if refs.isEmpty then .ok []
    else .error (invalid ("Run is missing the required Skill snapshot for " ++ agent.1 ++ "@" ++
      agent.2))
  else if ¬ (snapshots.map SkillSnapshot.name).Nodup then
    .error (invalid "Run Skill snapshot contains duplicate Skill names")
  else snapshots.mapM (resolveSnapshot loading registry)

def checkAssignments : List String → List (AgentSkillRef × SkillSpec) → Except Exc Unit
  | _, [] => .ok ()
  | seen, (ref, spec) :: rest =>
      if seen.contains ref.name then
        .error (skillError "SkillNotAssignedError"
          ("Skill '" ++ ref.name ++ "' is assigned more than once"))
      else if ref.name ≠ spec.name || ref.version.any (· ≠ spec.version) then
        .error (skillError "SkillNotAssignedError"
          ("Skill assignment does not match resolved artifact '" ++ ref.name ++ "'"))
      else checkAssignments (ref.name :: seen) rest

def preloadAlways : List (AgentSkillRef × SkillSpec) → SessionM Unit
  | [] => pure ()
  | (ref, _) :: rest => do
      if ref.activation = .always then
        let _ ← activate loading ref.name true
        preloadAlways rest
      else preloadAlways rest

def createSession (registry : SkillRegistry) (agent : String × String)
    (refs : List AgentSkillRef) (snapshots : List SkillSnapshot)
    (maxActiveSkills maxInstructionChars : Nat) : Except Exc SkillSession := do
  let assignments ← resolveSnapshots loading registry agent refs snapshots
  verifyAll loading (assignments.map Prod.snd)
  checkAssignments [] assignments
  match preloadAlways loading assignments
      { assignments, maxActiveSkills, maxInstructionChars } with
  | (.ok _, session) => return session
  | (.error error, _) => throw error

end Runtime

end AgentTaskPlatform.Skills
