import AgentTaskPlatform.Outcomes
import AgentTaskPlatform.PinnedSkills
import AgentTaskPlatform.SkillPaths

/-!
The readers of Skill resources: one of texts and one of bytes, over the stored artifact or over
a directory with the same files.
-/

namespace AgentTaskPlatform.Skills

open KeyedTable

structure Package where
  files : List SkillArtifactFile
  backed : files ≠ []
  distinct : (files.map SkillArtifactFile.path).Nodup

inductive Form where
  /-- The files are the artifact of the spec. -/
  | stored
  /-- The files lie below the trusted root. -/
  | onDisk

/-- What `_resolve_skill_root` finds: two names of the directory, or the text of its error. -/
abbrev Located := Except String (String × String)

def decodeUtf8 (bytes : Bytes) : Option String := String.fromUTF8? ⟨bytes.toArray⟩

def isResource (path : String) : Bool :=
  (pathParts path).length > 1 &&
    ((pathParts path).head? = some "references" || (pathParts path).head? = some "assets")

namespace Package

variable (package : Package)

def loading (outside : Loading) (located : Located) : Loading :=
  { outside with
    decode := decodeUtf8
    root := fun _ =>
      match located with
      | .ok (directory, relative) => .ok (directory, relative, package.files)
      | .error message => .error (invalid message) }

def spec (governed : SkillSpec) : Form → SkillSpec
  | .stored => { governed with artifact := package.files }
  | .onDisk => { governed with artifact := [] }

def has (path : String) : Bool := ((artifactMapping package.files).get path).isSome

/-- The request is not a stored path, but another spelling or the short form of one. -/
def Respelled (path : String) : Prop :=
  (∀ file ∈ package.files, file.path ≠ path) ∧
    ∃ file ∈ package.files, normalizeResourcePath package.has path = .ok file.path

def NoReturns (path : String) : Prop :=
  ∀ file ∈ package.files, file.path = asPosix path →
    ∀ text, decodeUtf8 file.content = some text → '\r' ∉ text.toList

def NoBareFiles : Prop :=
  ∀ file ∈ package.files, file.path ≠ "references" ∧ file.path ≠ "assets"

end Package

section Readers

variable (outside : Loading) (located : Located) (package : Package) (governed : SkillSpec)
  (path : String)

def readText (form : Form) : Except Exc String :=
  readTextResource (package.loading outside located) (package.spec governed form) path

def openBinary (form : Form) : Except Exc ResourceHandle :=
  openBinaryResource (package.loading outside located) (package.spec governed form) path

def notText : Exc := resourceError ("Skill resource '" ++ path ++ "' is not UTF-8 text")

structure ReadersAgree : Prop where
  same : ∀ form, (readText outside located package governed path form).toOption.map encode =
    (openBinary outside located package governed path form).toOption.map ResourceHandle.content
  texts : (readText outside located package governed path .stored).toOption =
    (readText outside located package governed path .onDisk).toOption
  handles : (openBinary outside located package governed path .stored).toOption.map
      ResourceHandle.content =
    (openBinary outside located package governed path .onDisk).toOption.map ResourceHandle.content
  resources : ∀ form handle,
    openBinary outside located package governed path form = .ok handle →
      ∃ file ∈ package.files, isResource file.path = true ∧ file.content = handle.content
  rejected : ∀ form error, (readText outside located package governed path form = .error error ∨
    openBinary outside located package governed path form = .error error) →
      error.name = "SkillResourceError"

/-- How the readers correspond: the text reader is for UTF-8 texts, the short form of a path is
for artifacts, and a directory that is no Skill is an invalid Skill. -/
structure ReadersCorrespond : Prop where
  asText : ∀ form handle, openBinary outside located package governed path form = .ok handle →
    (form = .onDisk → package.NoReturns path) →
      readText outside located package governed path form =
        match decodeUtf8 handle.content with
        | some text => .ok text
        | none => .error (notText path)
  asBytes : ∀ form text, readText outside located package governed path form = .ok text →
    (form = .stored → ¬ package.Respelled path) → (form = .onDisk → package.NoReturns path) →
      ∃ handle, openBinary outside located package governed path form = .ok handle ∧
        handle.content = encode text
  forms : isResource path = true → located.isOk = true → outside.statError (asPosix path) = none →
    package.NoReturns path →
      readText outside located package governed path .stored =
          readText outside located package governed path .onDisk ∧
        (¬ package.Respelled path →
          (openBinary outside located package governed path .stored).map ResourceHandle.content =
            (openBinary outside located package governed path .onDisk).map ResourceHandle.content)
  shortForms : isResource path = false → package.NoBareFiles →
    (∀ text, readText outside located package governed path .onDisk ≠ .ok text) ∧
      ∀ handle, openBinary outside located package governed path .onDisk ≠ .ok handle
  means : ∀ file ∈ package.files, normalizeResourcePath package.has path = .ok file.path →
    (readText outside located package governed path .stored).toOption =
      (readText outside located package governed file.path .stored).toOption
  resources : package.NoBareFiles → ∀ form,
    (∀ handle, openBinary outside located package governed path form = .ok handle →
      ∃ file ∈ package.files, isResource file.path = true ∧ file.content = handle.content) ∧
    ∀ text, readText outside located package governed path form = .ok text →
      ∃ file ∈ package.files, isResource file.path = true ∧ ∃ raw,
        decodeUtf8 file.content = some raw ∧
          (text = raw ∨ text = String.ofList (universalNewlines raw.toList))
  rejected : ∀ form error, (form = .onDisk → outside.statError (asPosix path) = none) →
    (readText outside located package governed path form = .error error ∨
      (openBinary outside located package governed path form = .error error ∧
        (form = .stored → ¬ package.Respelled path))) →
      error.name = "SkillResourceError" ∨
        (form = .onDisk ∧ error.name = "SkillValidationError" ∧ located.isOk = false)

end Readers

section Lookups

variable {loading : Loading} {package : Package} {has : String → Bool} {path normalized : String}
  {content : Bytes}

theorem decodeUtf8_iff {text : String} : decodeUtf8 content = some text ↔ encode text = content := by
  unfold decodeUtf8 String.fromUTF8? encode
  constructor
  · intro decoded
    split at decoded
    · cases decoded
      rfl
    · cases decoded
  · rintro rfl
    exact dif_pos text.isValidUTF8

theorem Package.get_iff : (artifactMapping package.files).get path = some content ↔
    ∃ file ∈ package.files, file.path = path ∧ file.content = content := by
  rw [Files.get, Option.map_eq_some_iff]
  simp only [Table.find_iff, artifactMapping_rows package.distinct, List.mem_map]
  constructor
  · rintro ⟨row, ⟨⟨file, member, rfl⟩, rfl⟩, rfl⟩
    exact ⟨file, member, rfl, rfl⟩
  · rintro ⟨file, member, rfl, rfl⟩
    exact ⟨_, ⟨⟨file, member, rfl⟩, rfl⟩, rfl⟩

def meant (has : String → Bool) (path : String) : String :=
  if isResource path then asPosix path
  else if has ("references/" ++ asPosix path) then "references/" ++ asPosix path
  else if has ("assets/" ++ asPosix path) then "assets/" ++ asPosix path
  else asPosix path

def Escaping (path : String) : Prop := (isAbsolute path || (pathParts path).contains "..") = true

theorem normalizeResourcePath_escaping (escaping : Escaping path) :
    normalizeResourcePath has path = .error unsafePath := if_pos escaping

theorem normalizeResourcePath_safe (safe : ¬ Escaping path) :
    normalizeResourcePath has path = .ok (meant has path) := by
  unfold Escaping at safe
  rw [normalizeResourcePath, if_neg safe]
  dsimp only
  rw [meant, isResource]
  split_ifs <;> rfl

theorem normalizeResourcePath_ok : normalizeResourcePath has path = .ok normalized ↔
    ¬ Escaping path ∧ normalized = meant has path := by
  by_cases escaping : Escaping path
  · simp [normalizeResourcePath_escaping escaping, escaping]
  · simp [normalizeResourcePath_safe escaping, escaping, eq_comm]

def InDirectory (path : String) : Prop :=
  (pathParts path).head? = some "references" ∨ (pathParts path).head? = some "assets"

theorem validateResourcePath_ok : validateResourcePath path = .ok () ↔
    ¬ Escaping path ∧ InDirectory path := by
  unfold validateResourcePath InDirectory Escaping
  split
  next escaping => exact iff_of_false nofun fun both => both.1 escaping
  next safe =>
    split
    next inside =>
      simp only [Bool.or_eq_true, decide_eq_true_eq] at inside
      exact iff_of_true rfl ⟨safe, inside⟩
    next outside =>
      simp only [Bool.or_eq_true, decide_eq_true_eq] at outside
      exact iff_of_false nofun fun both => outside both.2

theorem validateResourcePath_error {error : Exc}
    (refused : validateResourcePath path = .error error) : error.name = "SkillResourceError" := by
  unfold validateResourcePath at refused
  split at refused
  · cases refused
    rfl
  · split at refused
    · cases refused
    · cases refused
      rfl

theorem resourceOf_error {files : Files} {error : Exc}
    (refused : resourceOf loading files has path = .error error) :
    error.name = "SkillResourceError" := by
  unfold resourceOf at refused
  by_cases escaping : Escaping path
  · rw [normalizeResourcePath_escaping escaping] at refused
    cases refused
    rfl
  · rw [normalizeResourcePath_safe escaping] at refused
    simp only [Bind.bind, Except.bind] at refused
    cases checked : validateResourcePath (meant has path) with
    | error fault =>
        rw [checked] at refused
        cases refused
        exact validateResourcePath_error checked
    | ok done =>
        rw [checked] at refused
        dsimp only at refused
        split at refused
        · cases refused
          rfl
        · split at refused
          · cases refused
            rfl
          · cases refused

theorem stored_ok {stored : Option Bytes} {missing large : Exc} {limit : Nat} :
    (match stored with
      | none => throw missing
      | some content => if content.length > limit then throw large else return content :
        Except Exc Bytes) = .ok content ↔ content.length ≤ limit ∧ stored = some content := by
  cases stored with
  | none => simp
  | some own =>
      by_cases large : own.length > limit
      · simp only [large, if_true, Outcomes.throw_ok, false_iff, not_and, Option.some.injEq]
        rintro small rfl
        exact absurd small (not_le.mpr large)
      · simp only [large, if_false, Outcomes.pure_ok, Option.some.injEq, iff_and_self]
        rintro rfl
        exact not_lt.mp large

/-- The bytes are those of a file in one of the two directories, within the limit. -/
theorem resourceOf_ok : resourceOf loading (artifactMapping package.files) has path = .ok content ↔
    ¬ Escaping path ∧ ¬ Escaping (meant has path) ∧ InDirectory (meant has path) ∧
      content.length ≤ loading.maxResourceBytes ∧
        ∃ file ∈ package.files, file.path = meant has path ∧ file.content = content := by
  rw [← package.get_iff, resourceOf]
  simp only [Outcomes.bind_ok, normalizeResourcePath_ok]
  constructor
  · rintro ⟨normalized, ⟨safe, rfl⟩, done, valid, rest⟩
    obtain ⟨plain, inside⟩ := validateResourcePath_ok.mp valid
    exact ⟨safe, plain, inside, stored_ok.mp rest⟩
  · rintro ⟨safe, plain, inside, rest⟩
    exact ⟨_, ⟨safe, rfl⟩, (), validateResourcePath_ok.mpr ⟨plain, inside⟩, stored_ok.mpr rest⟩

end Lookups

section Correspondence

variable {outside : Loading} {located : Located} {package : Package} {governed : SkillSpec}
  {path : String} {form : Form}

def readBytes (outside : Loading) (located : Located) (package : Package) (governed : SkillSpec)
    (path : String) (form : Form) : Except Exc Bytes :=
  readResource (package.loading outside located) (package.spec governed form) path

def Form.shows : Form → String → String
  | .stored, text => text
  | .onDisk, text => String.ofList (universalNewlines text.toList)

theorem universalNewlines_plain {text : List Char} (plain : '\r' ∉ text) :
    universalNewlines text = text := by
  induction text using universalNewlines.induct with
  | case1 rest => simp at plain
  | case2 rest => simp at plain
  | case3 first rest _ apart ih =>
      rw [universalNewlines, ih fun later => plain (List.mem_cons_of_mem _ later)]
      · assumption
      · assumption
  | case4 => rfl

theorem readBytes_stored : readBytes outside located package governed path .stored =
    resourceOf (package.loading outside located) (artifactMapping package.files) package.has
      path := by
  rw [readBytes, readResource, if_neg]
  · rfl
  · simpa [Package.spec] using package.backed

theorem meant_onDisk : meant (fun _ => false) path = asPosix path := by
  simp [meant]

/-- On disk the bytes are read in the same way, unless the directory cannot be looked at. -/
theorem readBytes_onDisk (outside : Loading) (located : Located) (package : Package)
    (governed : SkillSpec) (path : String) :
    readBytes outside located package governed path .onDisk =
      resourceOf (package.loading outside located) (artifactMapping package.files)
        (fun _ => false) path ∨
    (∃ message, located = .error message ∧
      readBytes outside located package governed path .onDisk = .error (invalid message)) ∨
    ∃ message, outside.statError (asPosix path) = some message ∧
      readBytes outside located package governed path .onDisk =
        .error ⟨.exception, "OSError", message⟩ := by
  have unfolded : readBytes outside located package governed path .onDisk = (do
      let normalized ← normalizeResourcePath (fun _ => false) path
      validateResourcePath normalized
      let files ← specFiles (package.loading outside located) (package.spec governed .onDisk)
      match outside.statError normalized with
      | some message => throw ⟨.exception, "OSError", message⟩
      | none => resourceOf (package.loading outside located) files (fun _ => false) path) := rfl
  by_cases escaping : Escaping path
  · rw [unfolded, resourceOf, normalizeResourcePath_escaping escaping]
    exact .inl rfl
  · rw [unfolded, normalizeResourcePath_safe escaping, meant_onDisk]
    simp only [Bind.bind, Except.bind]
    cases valid : validateResourcePath (asPosix path) with
    | error error =>
        rw [resourceOf, normalizeResourcePath_safe escaping, meant_onDisk]
        simp only [Bind.bind, Except.bind, valid, true_or]
    | ok done =>
        -- Only now the directory is resolved, and only then the path is looked up.
        cases located with
        | error message => exact .inr (.inl ⟨message, rfl, rfl⟩)
        | ok names =>
            cases looked : outside.statError (asPosix path) with
            | some message => exact .inr (.inr ⟨message, rfl, rfl⟩)
            | none => exact .inl rfl

theorem readText_eq : readText outside located package governed path form =
    match readBytes outside located package governed path form with
    | .error error => .error error
    | .ok content =>
        match decodeUtf8 content with
        | some raw => .ok (form.shows raw)
        | none => .error (notText path) := by
  have unfolded : readText outside located package governed path form = (do
      let content ← readBytes outside located package governed path form
      match decodeUtf8 content with
      | some text =>
          if (package.spec governed form).artifact.isEmpty then
            return String.ofList (universalNewlines text.toList)
          else return text
      | none => throw (notText path)) := rfl
  rw [unfolded]
  cases readBytes outside located package governed path form with
  | error error => rfl
  | ok content =>
      cases decoded : decodeUtf8 content with
      | none => simp [Bind.bind, Except.bind, decoded, throw, throwThe, MonadExceptOf.throw]
      | some raw =>
          have stored : package.files.isEmpty = false := by simpa using package.backed
          cases form <;>
            simp [Bind.bind, Except.bind, decoded, Package.spec, Form.shows, stored, Pure.pure,
              Except.pure]

theorem openBinary_ok {handle : ResourceHandle}
    (opened : openBinary outside located package governed path form = .ok handle) :
    readBytes outside located package governed path form = .ok handle.content :=
  openBinaryResource_content opened

theorem openBinary_stored {content : Bytes}
    (found : readBytes outside located package governed path .stored = .ok content) :
    openBinary outside located package governed path .stored =
      match package.files.find? fun file => file.path = path with
      | none => .error stopIteration
      | some file => .ok ⟨governed.name, path, ((file.mimeType.filter (· ≠ "")).or
          (outside.guessType path)).getD "application/octet-stream", content⟩ := by
  have read : readResource (package.loading outside located) (package.spec governed .stored) path =
      .ok content := found
  rw [openBinary, openBinaryResource, read]
  simp only [Bind.bind, Except.bind]
  rw [if_neg (by simpa [Package.spec] using package.backed)]
  rfl

theorem openBinary_of_ok {content : Bytes}
    (found : readBytes outside located package governed path form = .ok content)
    (spelled : form = .stored → ∃ file ∈ package.files, file.path = path) :
    ∃ handle, openBinary outside located package governed path form = .ok handle ∧
      handle.content = content := by
  cases form with
  | stored =>
      rw [openBinary_stored found]
      cases named : package.files.find? fun file => file.path = path with
      | none =>
          obtain ⟨file, member, same⟩ := spelled rfl
          exact absurd same (by simpa using List.find?_eq_none.mp named file member)
      | some file => exact ⟨_, rfl, rfl⟩
  | onDisk =>
      have read : readResource (package.loading outside located) (package.spec governed .onDisk)
          path = .ok content := found
      rw [openBinary, openBinaryResource, read]
      exact ⟨_, rfl, rfl⟩

/-- Bytes of an artifact are found under a stored path, which the request spells or means. -/
theorem spelled_or_respelled {content : Bytes}
    (found : readBytes outside located package governed path .stored = .ok content) :
    (∃ file ∈ package.files, file.path = path) ∨ package.Respelled path := by
  rw [readBytes_stored, resourceOf_ok] at found
  obtain ⟨safe, _, _, _, file, member, same, _⟩ := found
  by_cases spelled : ∃ file ∈ package.files, file.path = path
  · exact .inl spelled
  · refine .inr ⟨fun other inside equal => spelled ⟨other, inside, equal⟩, file, member, ?_⟩
    rw [same]
    exact normalizeResourcePath_safe safe

theorem openBinary_of_error {error : Exc}
    (failed : readBytes outside located package governed path form = .error error) :
    openBinary outside located package governed path form = .error error := by
  have own : readResource (package.loading outside located) (package.spec governed form) path =
      .error error := failed
  rw [openBinary, openBinaryResource, own]
  rfl

theorem openBinary_error {error : Exc}
    (failed : openBinary outside located package governed path form = .error error) :
    readBytes outside located package governed path form = .error error ∨
      (form = .stored ∧ package.Respelled path) := by
  cases read : readBytes outside located package governed path form with
  | error fault =>
      have raised := openBinary_of_error read
      rw [failed] at raised
      cases raised
      exact .inl rfl
  | ok content =>
      have missed : ¬ (form = .stored → ∃ file ∈ package.files, file.path = path) := by
        intro spelled
        obtain ⟨handle, opened, _⟩ := openBinary_of_ok read spelled
        rw [failed] at opened
        cases opened
      obtain ⟨rfl, unspelled⟩ := Classical.not_imp.mp missed
      exact .inr ⟨rfl, (spelled_or_respelled read).resolve_left unspelled⟩

theorem shows_plain {raw : String} (plain : form = .onDisk → '\r' ∉ raw.toList) :
    form.shows raw = raw := by
  cases form with
  | stored => rfl
  | onDisk =>
      rw [Form.shows, universalNewlines_plain (plain rfl)]
      simp

/-- On disk the bytes are those of the file that the request spells. -/
theorem readBytes_onDisk_ok {content : Bytes}
    (found : readBytes outside located package governed path .onDisk = .ok content) :
    resourceOf (package.loading outside located) (artifactMapping package.files)
      (fun _ => false) path = .ok content := by
  rcases readBytes_onDisk outside located package governed path with same | ⟨message, _, failed⟩ | ⟨message, _, failed⟩
  · exact same ▸ found
  · rw [found] at failed
    cases failed
  · rw [found] at failed
    cases failed

theorem readBytes_file {content : Bytes}
    (found : readBytes outside located package governed path form = .ok content) :
    ∃ file ∈ package.files, InDirectory file.path ∧ file.content = content ∧
      (form = .onDisk → file.path = asPosix path) := by
  cases form with
  | stored =>
      rw [readBytes_stored, resourceOf_ok] at found
      obtain ⟨_, _, inside, _, file, member, same, bytes⟩ := found
      exact ⟨file, member, same ▸ inside, bytes, nofun⟩
  | onDisk =>
      obtain ⟨_, _, inside, _, file, member, same, bytes⟩ :=
        resourceOf_ok.mp (readBytes_onDisk_ok found)
      exact ⟨file, member, same ▸ inside, bytes, fun _ => same.trans meant_onDisk⟩

theorem isResource_file (bare : package.NoBareFiles) {file : SkillArtifactFile}
    (member : file ∈ package.files) (inside : InDirectory file.path) :
    isResource file.path = true := by
  obtain ⟨references, assets⟩ := bare file member
  have own := asPosix_safe file.safe
  rw [isResource, Bool.and_eq_true, Bool.or_eq_true, decide_eq_true_eq, decide_eq_true_eq,
    decide_eq_true_eq]
  refine ⟨?_, inside⟩
  match parts : pathParts file.path with
  | [] => exact absurd parts (pathParts_ne_nil file.safe)
  | [part] =>
      have same : file.path = part := by
        rw [← own, asPosix, parts]
        simp
      rw [InDirectory, parts] at inside
      rcases inside with head | head
      · exact absurd (same.trans (Option.some.inj head)) references
      · exact absurd (same.trans (Option.some.inj head)) assets
  | first :: second :: rest => simp

theorem readText_plain {content : Bytes}
    (found : readBytes outside located package governed path form = .ok content)
    (plain : form = .onDisk → package.NoReturns path) :
    readText outside located package governed path form =
      match decodeUtf8 content with
      | some text => .ok text
      | none => .error (notText path) := by
  rw [readText_eq, found]
  dsimp only
  cases decoded : decodeUtf8 content with
  | none => rfl
  | some raw =>
      obtain ⟨file, member, _, bytes, spelled⟩ := readBytes_file found
      have shown : form.shows raw = raw := by
        refine shows_plain fun disk => ?_
        exact plain disk file member (spelled disk) raw (bytes ▸ decoded)
      dsimp only
      rw [shown]

theorem readText_found {text : String}
    (shown : readText outside located package governed path form = .ok text) : ∃ content raw,
      readBytes outside located package governed path form = .ok content ∧
        decodeUtf8 content = some raw ∧ text = form.shows raw := by
  rw [readText_eq] at shown
  cases found : readBytes outside located package governed path form with
  | error error =>
      rw [found] at shown
      cases shown
  | ok content =>
      rw [found] at shown
      dsimp only at shown
      cases decoded : decodeUtf8 content with
      | none =>
          rw [decoded] at shown
          cases shown
      | some raw =>
          rw [decoded] at shown
          cases shown
          exact ⟨content, raw, rfl, decoded, rfl⟩

theorem readText_failed {error : Exc}
    (failed : readText outside located package governed path form = .error error) :
    readBytes outside located package governed path form = .error error ∨
      error.name = "SkillResourceError" := by
  rw [readText_eq] at failed
  cases found : readBytes outside located package governed path form with
  | error fault =>
      rw [found] at failed
      cases failed
      exact .inl rfl
  | ok content =>
      rw [found] at failed
      dsimp only at failed
      cases decoded : decodeUtf8 content with
      | none =>
          rw [decoded] at failed
          cases failed
          exact .inr rfl
      | some raw =>
          rw [decoded] at failed
          cases failed

/-- A request below one of the two directories is looked up in the same way in both forms. -/
theorem readBytes_forms (resource : isResource path = true) (found : located.isOk = true)
    (looked : outside.statError (asPosix path) = none) :
    readBytes outside located package governed path .stored =
      readBytes outside located package governed path .onDisk := by
  have same (has : String → Bool) : meant has path = asPosix path := if_pos resource
  have lookup : resourceOf (package.loading outside located) (artifactMapping package.files)
      package.has path = resourceOf (package.loading outside located)
        (artifactMapping package.files) (fun _ => false) path := by
    unfold resourceOf
    by_cases escaping : Escaping path
    · rw [normalizeResourcePath_escaping escaping, normalizeResourcePath_escaping escaping]
    · rw [normalizeResourcePath_safe escaping, normalizeResourcePath_safe escaping, same, same]
  rcases readBytes_onDisk outside located package governed path with read | ⟨message, rfl, _⟩ | ⟨message, failed, _⟩
  · rw [readBytes_stored, read, lookup]
  · cases found
  · rw [looked] at failed
    cases failed

theorem meant_stored {has : String → Bool} {file : SkillArtifactFile}
    (means : file.path = meant has path) : meant has file.path = file.path := by
  have own := asPosix_safe file.safe
  have below {directory : String} (kept : Kept directory)
      (named : directory = "references" ∨ directory = "assets")
      (letters : (directory ++ "/").toList.isPrefixOf file.path.toList = true) :
      meant has file.path = file.path := by
    obtain ⟨rest, longer, parts⟩ := (below_iff kept file.safe).mp letters
    have resource : isResource file.path = true := by
      have size := List.length_pos_of_ne_nil longer
      rcases named with rfl | rfl <;> simp [isResource, parts, size]
    rw [meant, if_pos resource, own]
  -- The same four cases as in the lookup; only the last one asks for the short forms again.
  unfold meant at means
  split_ifs at means with resource references assets
  · have same : isResource file.path = true := by
      rw [isResource, means, pathParts_asPosix]
      exact resource
    rw [meant, if_pos same, own]
  · refine below ⟨by decide, by decide, by decide⟩ (.inl rfl) ?_
    rw [means]
    simp
  · refine below ⟨by decide, by decide, by decide⟩ (.inr rfl) ?_
    rw [means]
    simp
  · have same : isResource file.path = isResource path := by
      rw [isResource, isResource, means, pathParts_asPosix]
    rw [meant, same, own, means, if_neg resource, if_neg references, if_neg assets]

theorem readText_means {file : SkillArtifactFile}
    (means : normalizeResourcePath package.has path = .ok file.path) :
    (readText outside located package governed path .stored).toOption =
      (readText outside located package governed file.path .stored).toOption := by
  obtain ⟨safe, same⟩ := normalizeResourcePath_ok.mp means
  have own := meant_stored same
  have bytes (content : Bytes) :
      readBytes outside located package governed path .stored = .ok content ↔
        readBytes outside located package governed file.path .stored = .ok content := by
    rw [readBytes_stored, readBytes_stored, resourceOf_ok, resourceOf_ok, own, ← same]
    exact ⟨fun ⟨_, plain, rest⟩ => ⟨plain, plain, rest⟩, fun ⟨_, plain, rest⟩ => ⟨safe, plain, rest⟩⟩
  rw [readText_eq, readText_eq]
  cases first : readBytes outside located package governed path .stored with
  | ok content =>
      rw [(bytes content).mp first]
      dsimp only
      cases decodeUtf8 content <;> rfl
  | error error =>
      cases second : readBytes outside located package governed file.path .stored with
      | error other => rfl
      | ok content =>
          have found := (bytes content).mpr second
          rw [first] at found
          cases found

/-- A rejection of the bytes, unless a path cannot be looked up. -/
theorem readBytes_failed {error : Exc}
    (looked : form = .onDisk → outside.statError (asPosix path) = none)
    (failed : readBytes outside located package governed path form = .error error) :
    error.name = "SkillResourceError" ∨
      (form = .onDisk ∧ error.name = "SkillValidationError" ∧ located.isOk = false) := by
  cases form with
  | stored =>
      rw [readBytes_stored] at failed
      exact .inl (resourceOf_error failed)
  | onDisk =>
      rcases readBytes_onDisk outside located package governed path with read | ⟨message, rfl, read⟩ | ⟨message, lost, _⟩
      · rw [read] at failed
        exact .inl (resourceOf_error failed)
      · rw [read] at failed
        cases failed
        exact .inr ⟨rfl, rfl, rfl⟩
      · rw [looked rfl] at lost
        cases lost

theorem openBinary_forms
    (same : readBytes outside located package governed path .stored =
      readBytes outside located package governed path .onDisk)
    (unspelled : ¬ package.Respelled path) :
    (openBinary outside located package governed path .stored).map ResourceHandle.content =
      (openBinary outside located package governed path .onDisk).map ResourceHandle.content := by
  cases found : readBytes outside located package governed path .onDisk with
  | error error => rw [openBinary_of_error found, openBinary_of_error (same.trans found)]
  | ok content =>
      have stored := same.trans found
      obtain ⟨one, first, bytes⟩ := openBinary_of_ok stored fun _ =>
        (spelled_or_respelled stored).resolve_right unspelled
      obtain ⟨other, second, also⟩ := openBinary_of_ok found nofun
      rw [first, second, Except.map, Except.map, bytes, also]

/-- Without a directory in front, nothing is read on disk. -/
theorem readBytes_short (short : isResource path = false) (bare : package.NoBareFiles)
    (content : Bytes) : readBytes outside located package governed path .onDisk ≠ .ok content := by
  intro found
  obtain ⟨file, member, inside, _, spelled⟩ := readBytes_file found
  have resource := isResource_file bare member inside
  rw [isResource, spelled rfl, pathParts_asPosix] at resource
  rw [isResource, resource] at short
  cases short

/-- The readers of a package correspond, for every request. -/
theorem resource_readers_correspond (outside : Loading) (located : Located) (package : Package)
    (governed : SkillSpec) (path : String) :
    ReadersCorrespond outside located package governed path := by
  constructor
  · intro form handle opened plain
    exact readText_plain (openBinary_ok opened) plain
  · intro form text shown unspelled plain
    obtain ⟨content, raw, found, decoded, rfl⟩ := readText_found shown
    obtain ⟨handle, opened, bytes⟩ := openBinary_of_ok found fun stored => by
      subst stored
      exact (spelled_or_respelled found).resolve_right (unspelled rfl)
    have same := readText_plain found plain
    rw [decoded, shown] at same
    refine ⟨handle, opened, ?_⟩
    rw [bytes, ← decodeUtf8_iff.mp decoded]
    exact congrArg encode (Except.ok.inj same).symm
  · intro resource present looked plain
    have same : readBytes outside located package governed path .stored =
        readBytes outside located package governed path .onDisk :=
      readBytes_forms resource present looked
    refine ⟨?_, openBinary_forms same⟩
    cases found : readBytes outside located package governed path .onDisk with
    | error error => rw [readText_eq, readText_eq, same, found]
    | ok content =>
        rw [readText_plain (same.trans found) nofun, readText_plain found fun _ => plain]
  · intro short bare
    constructor
    · intro text shown
      obtain ⟨content, _, found, _⟩ := readText_found shown
      exact readBytes_short short bare content found
    · intro handle opened
      exact readBytes_short short bare handle.content (openBinary_ok opened)
  · intro file member means
    exact readText_means means
  · intro bare form
    constructor
    · intro handle opened
      obtain ⟨file, member, inside, bytes, _⟩ := readBytes_file (openBinary_ok opened)
      exact ⟨file, member, isResource_file bare member inside, bytes⟩
    · intro text shown
      obtain ⟨content, raw, found, decoded, rfl⟩ := readText_found shown
      obtain ⟨file, member, inside, bytes, _⟩ := readBytes_file found
      refine ⟨file, member, isResource_file bare member inside, raw, bytes ▸ decoded, ?_⟩
      cases form with
      | stored => exact .inl rfl
      | onDisk => exact .inr rfl
  · rintro form error looked (failed | ⟨failed, unspelled⟩)
    · rcases readText_failed failed with bytes | name
      · exact readBytes_failed looked bytes
      · exact .inl name
    · rcases openBinary_error failed with bytes | ⟨stored, respelled⟩
      · exact readBytes_failed looked bytes
      · exact absurd respelled (unspelled stored)

end Correspondence

def logoPackage : Package where
  files := [textFile "SKILL.md" "---\nname: report\ndescription: d\n---\nA" manifest_safe,
    ⟨"assets/logo.png", [0x89, 0x50, 0x4E, 0x47], none, by decide⟩]
  backed := List.cons_ne_nil _ _
  distinct := by decide

/-- An image is opened by the one reader, and is no text for the other. -/
theorem image_is_no_text :
    ¬ ReadersAgree runLoading (.ok ("report", "report")) logoPackage reported "assets/logo.png" := by
  intro agree
  have same := agree.same .stored
  have differ : (readText runLoading (.ok ("report", "report")) logoPackage reported
      "assets/logo.png" .stored).toOption.map encode ≠
    (openBinary runLoading (.ok ("report", "report")) logoPackage reported
      "assets/logo.png" .stored).toOption.map ResourceHandle.content := by decide +kernel
  exact differ same

end AgentTaskPlatform.Skills
