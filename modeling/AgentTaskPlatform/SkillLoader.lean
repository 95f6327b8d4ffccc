import AgentTaskPlatform.Domain
import AgentTaskPlatform.KeyedTable
import Mathlib.Data.List.Sort

/-!
`SkillLoader`: a Skill is a set of files with a `SKILL.md`; inspecting them yields the
spec that the registry and the database store, with a hash over the files.
-/

namespace AgentTaskPlatform.Skills

open KeyedTable

section JsonEquality

mutual

def decideJson : (left right : Json) → Decidable (left = right)
  | .null, .null => isTrue rfl
  | .bool left, .bool right => decidable_of_iff (left = right) (by simp)
  | .number left, .number right => decidable_of_iff (left = right) (by simp)
  | .string left, .string right => decidable_of_iff (left = right) (by simp)
  | .array left, .array right =>
      match decideItems left right with
      | isTrue same => isTrue (by rw [same])
      | isFalse other => isFalse (by simpa using other)
  | .object left, .object right =>
      match decideFields left right with
      | isTrue same => isTrue (by rw [same])
      | isFalse other => isFalse (by simpa using other)
  | .null, .bool _ | .null, .number _ | .null, .string _ | .null, .array _ | .null, .object _ =>
      isFalse nofun
  | .bool _, .null | .bool _, .number _ | .bool _, .string _ | .bool _, .array _
  | .bool _, .object _ => isFalse nofun
  | .number _, .null | .number _, .bool _ | .number _, .string _ | .number _, .array _
  | .number _, .object _ => isFalse nofun
  | .string _, .null | .string _, .bool _ | .string _, .number _ | .string _, .array _
  | .string _, .object _ => isFalse nofun
  | .array _, .null | .array _, .bool _ | .array _, .number _ | .array _, .string _
  | .array _, .object _ => isFalse nofun
  | .object _, .null | .object _, .bool _ | .object _, .number _ | .object _, .string _
  | .object _, .array _ => isFalse nofun

def decideItems : (left right : List Json) → Decidable (left = right)
  | [], [] => isTrue rfl
  | [], _ :: _ => isFalse nofun
  | _ :: _, [] => isFalse nofun
  | left :: before, right :: after =>
      match decideJson left right, decideItems before after with
      | isTrue same, isTrue rest => isTrue (by rw [same, rest])
      | isFalse other, _ => isFalse (by simp [other])
      | _, isFalse other => isFalse (by simp [other])

def decideFields : (left right : List (String × Json)) → Decidable (left = right)
  | [], [] => isTrue rfl
  | [], _ :: _ => isFalse nofun
  | _ :: _, [] => isFalse nofun
  | (name, left) :: before, (other, right) :: after =>
      match decEq name other, decideJson left right, decideFields before after with
      | isTrue key, isTrue same, isTrue rest => isTrue (by rw [key, same, rest])
      | isFalse differs, _, _ => isFalse (by simp [differs])
      | _, isFalse differs, _ => isFalse (by simp [differs])
      | _, _, isFalse differs => isFalse (by simp [differs])

end

instance : DecidableEq Json := decideJson

end JsonEquality

abbrev Bytes := List UInt8

inductive Interpreter where
  | python
  | bash
  deriving DecidableEq, Repr

structure SkillScriptSpec where
  name : String
  path : String
  interpreter : Interpreter
  description : String := ""
  inputSchema : Json := .object [("type", .string "object")]
  outputSchema : Json := .object [("type", .string "object")]
  timeoutSeconds : Int := 30
  maxOutputBytes : Int := 1024 * 1024
  operationType : OperationType := .readOnly
  idempotencyKeyRequired : Bool := false
  network : Bool := false
  writablePaths : List String := []
  deriving DecidableEq

def splitAt (separator : Char) (text : String) : List String :=
  (text.toList.splitOn separator).map String.ofList

/-- `SkillArtifactFile.validate_path`; an empty or absolute path has an empty first part. -/
def safePath (path : String) : Bool :=
  (splitAt '/' path).all fun part => part != "" && part != "." && part != ".."

theorem manifest_safe : safePath "SKILL.md" = true := by decide

theorem platform_safe : safePath "agents/platform.yaml" = true := by decide

/-- One stored file. Its base64 text has to be canonical, so it stands for the bytes. -/
structure SkillArtifactFile where
  path : String
  content : Bytes
  mimeType : Option String := none
  safe : safePath path = true
  deriving DecidableEq

structure SkillSpec where
  name : String
  version : String := "1.0.0"
  description : String
  sourcePath : String
  contentHash : String
  enabled : Bool := true
  compatibility : Option String := none
  allowedTools : List String := []
  scripts : List SkillScriptSpec := []
  artifact : List SkillArtifactFile := []
  metadata : List (String × String) := []
  owner : Option String := none
  managedBy : String := "yaml"
  updatedBy : Option String := none
  deriving DecidableEq

def SkillSpec.ref (spec : SkillSpec) : String × String := (spec.name, spec.version)

/-- What `yaml.safe_load` returns; of floats and dates only the truth value and the
comparison with 1 are looked at. -/
inductive Yaml where
  | null
  | bool (value : Bool)
  | int (value : Int)
  | other (truthy equalsOne : Bool)
  | string (value : String)
  | sequence (items : List Yaml)
  | mapping (entries : List (Yaml × Yaml))

namespace Yaml

def truthy : Yaml → Bool
  | .null => false
  | .bool value => value
  | .int value => value != 0
  | .other truthy _ => truthy
  | .string value => value != ""
  | .sequence items => !items.isEmpty
  | .mapping entries => !entries.isEmpty

def orEmpty (value : Yaml) : Yaml := if value.truthy then value else .mapping []

def isOne : Yaml → Bool
  | .bool value => value
  | .int value => value == 1
  | .other _ equalsOne => equalsOne
  | _ => false

def get (entries : List (Yaml × Yaml)) (key : String) : Yaml :=
  match entries.find? fun
    | (.string name, _) => name == key
    | _ => false with
  | some (_, value) => value
  | none => .null

def texts : List (Yaml × Yaml) → Option (List (String × String))
  | [] => some []
  | (.string key, .string value) :: rest => (texts rest).map ((key, value) :: ·)
  | _ :: _ => none

end Yaml

structure Loading where
  sha256 : Bytes → String
  /-- `bytes.decode("utf-8")` -/
  decode : Bytes → Option String
  isspace : Char → Bool
  safeLoad : String → Option Yaml
  /-- `SkillScriptSpec.model_validate`, or the text of its error -/
  scriptSpec : Yaml → Except String SkillScriptSpec
  /-- The text of pydantic's error for rejected fields. -/
  rejected : List (String × String) → String
  /-- The directory name, the relative path and the files of a Skill below the trusted root. -/
  root : String → Except Exc (String × String × List SkillArtifactFile)
  maxResourceBytes : Nat := 1024 * 1024
  /-- `mimetypes.guess_type` -/
  guessType : String → Option String
  /-- What `stat` says of a path below a Skill directory that it cannot look up. -/
  statError : String → Option String := fun _ => none
  /-- What `open` says of a file that is not there. -/
  openError : String → String :=
    fun path => "[Errno 2] No such file or directory: '" ++ path ++ "'"

def invalid (message : String) : Exc := ⟨.exception, "SkillValidationError", message⟩

section Paths

def pathParts (text : String) : List String :=
  (splitAt '/' text).filter fun part => part != "" && part != "."

def isAbsolute (text : String) : Bool := text.toList.head? = some '/'

def asPosix (text : String) : String :=
  if (pathParts text).isEmpty then "." else "/".intercalate (pathParts text)

def baseName (text : String) : String := (pathParts text).getLast?.getD ""

end Paths

section Files

abbrev Files := Table (String × Bytes) String Prod.fst

def artifactMapping (artifact : List SkillArtifactFile) : Files :=
  artifact.foldl (fun files file => files.upsert (file.path, file.content)) Table.empty

def Files.get (files : Files) (path : String) : Option Bytes := (files.find path).map Prod.snd

def bigEndian : Nat → Nat → Bytes
  | 0, _ => []
  | width + 1, value => UInt8.ofNat (value / 256 ^ width) :: bigEndian width (value % 256 ^ width)

def overflow : Exc := ⟨.exception, "OverflowError", "int too big to convert"⟩

def toBytes (width value : Nat) : Except Exc Bytes :=
  if value < 256 ^ width then .ok (bigEndian width value) else .error overflow

def encode (text : String) : Bytes := text.toUTF8.data.toList

def sortedItems (files : Files) : List (String × Bytes) :=
  files.rows.insertionSort fun left right => left.1 ≤ right.1

def frame (file : String × Bytes) : Except Exc Bytes := do
  let pathLength ← toBytes 4 (encode file.1).length
  let contentLength ← toBytes 8 file.2.length
  return pathLength ++ encode file.1 ++ contentLength ++ file.2

def frames : List (String × Bytes) → Except Exc Bytes
  | [] => .ok []
  | file :: rest => do
      let first ← frame file
      let later ← frames rest
      return first ++ later

end Files

section Loader

variable (loading : Loading)

def artifactContentHash (files : Files) : Except Exc String := do
  let encoded ← frames (sortedItems files)
  return loading.sha256 encoded

def unixLines : List Char → List Char
  | '\r' :: '\n' :: rest => '\n' :: unixLines rest
  | first :: rest => first :: unixLines rest
  | [] => []

def closingFence : List Char → Option (List Char × List Char)
  | [] => none
  | first :: rest =>
      if "\n---\n".toList.isPrefixOf (first :: rest) then some ([], (first :: rest).drop 5)
      else (closingFence rest).map fun parts => (first :: parts.1, parts.2)

def strip (text : List Char) : List Char :=
  ((text.dropWhile loading.isspace).reverse.dropWhile loading.isspace).reverse

def frontmatterAndBody (text : List Char) : Except Exc (List (Yaml × Yaml) × String) :=
  if !"---\n".toList.isPrefixOf (unixLines text) then
    .error (invalid "SKILL.md must start with YAML frontmatter")
  else match closingFence ((unixLines text).drop 4) with
  | none => .error (invalid "SKILL.md frontmatter is not closed")
  | some (header, body) =>
      match loading.safeLoad (String.ofList header) with
      | none => .error (invalid "SKILL.md frontmatter is not valid YAML")
      | some parsed =>
          match parsed.orEmpty with
          | .mapping entries => .ok (entries, String.ofList (strip loading body))
          | _ => .error (invalid "SKILL.md frontmatter must be a mapping")

def parseSkillMarkdownText (content : Bytes) : Except Exc (List (Yaml × Yaml) × String) :=
  match loading.decode content with
  | none => .error (invalid "SKILL.md must be UTF-8 text")
  | some text => frontmatterAndBody loading text.toList

def checkScripts (files : Files) : List String → List SkillScriptSpec → Except Exc Unit
  | _, [] => .ok ()
  | seen, script :: rest =>
      if seen.contains script.name then
        .error (invalid ("Skill script '" ++ script.name ++ "' is declared more than once"))
      else if isAbsolute script.path || (pathParts script.path).contains ".." ||
          (pathParts script.path).head? != some "scripts" then
        .error (invalid ("Skill script '" ++ script.name ++ "' must be under scripts/"))
      else if (files.get (asPosix script.path)).isNone then
        .error (invalid ("Skill script '" ++ script.name ++ "' does not exist"))
      else checkScripts files (script.name :: seen) rest

def scriptSpecs : List Yaml → Except Exc (List SkillScriptSpec)
  | [] => .ok []
  | item :: rest =>
      match loading.scriptSpec item with
      | .error text => .error (invalid ("Invalid Skill script declaration: " ++ text))
      | .ok script => do
          let scripts ← scriptSpecs rest
          return script :: scripts

def manifestScripts (files : Files) : Except Exc (List SkillScriptSpec) :=
  match files.get "agents/platform.yaml" with
  | none => .ok []
  | some content =>
      match (loading.decode content).bind loading.safeLoad with
      | none => .error (invalid "agents/platform.yaml is not valid YAML")
      | some parsed =>
          match parsed.orEmpty with
          | .mapping entries =>
              if !(Yaml.get entries "schema_version").isOne then
                .error (invalid "agents/platform.yaml requires schema_version: 1")
              else match (if entries.any fun
                | (.string name, _) => name == "scripts"
                | _ => false then Yaml.get entries "scripts" else .sequence []) with
              | .sequence items => do
                  let scripts ← scriptSpecs loading items
                  checkScripts files [] scripts
                  return scripts
              | _ => .error (invalid "agents/platform.yaml scripts must be a list")
          | _ => .error (invalid "agents/platform.yaml requires schema_version: 1")

def splitBlanks (text : List Char) : List String :=
  ((text.splitBy fun left right => loading.isspace left == loading.isspace right).filter
    fun part => !part.any loading.isspace).map String.ofList

def parseAllowedTools : Yaml → Except Exc (List String)
  | .null => .ok []
  | .string value => .ok (splitBlanks loading value.toList)
  | _ => .error (invalid "SKILL.md allowed-tools must be a space-separated string")

def skillName (name : String) : Bool :=
  (splitAt '-' name).all fun part =>
    part != "" && part.toList.all fun c => ('a' ≤ c && c ≤ 'z') || ('0' ≤ c && c ≤ '9')

def fieldFaults (spec : SkillSpec) : List (String × String) :=
  (if skillName spec.name && spec.name.length ≤ 64 then []
    else [("name", "Skill name must be 1-64 lowercase letters, digits, and single hyphens")]) ++
  (if 1 ≤ spec.description.length && spec.description.length ≤ 1024 then []
    else [("description", "Skill description must be 1-1024 characters")]) ++
  (if spec.compatibility.all fun text => 1 ≤ text.length && text.length ≤ 500 then []
    else [("compatibility", "Skill compatibility must be 1-500 characters")])

def validated (spec : SkillSpec) : Except Exc SkillSpec :=
  if !(fieldFaults spec).isEmpty then .error (invalid (loading.rejected (fieldFaults spec)))
  else if (spec.artifact.map SkillArtifactFile.path).Nodup then .ok spec
  else .error (invalid (loading.rejected
    [("", "Skill artifact contains duplicate file paths")]))

def requiredText (entries : List (Yaml × Yaml)) (key : String) : Except Exc String :=
  match Yaml.get entries key with
  | .string value =>
      if value = "" then
        .error (invalid ("SKILL.md frontmatter requires a non-empty " ++ key))
      else .ok value
  | _ => .error (invalid ("SKILL.md frontmatter requires a non-empty " ++ key))

def parseMetadata (value : Yaml) : Except Exc (List (String × String)) :=
  match value.orEmpty with
  | .mapping entries =>
      match Yaml.texts entries with
      | some metadata => .ok metadata
      | none => .error (invalid "SKILL.md metadata must be a string-to-string mapping")
  | _ => .error (invalid "SKILL.md metadata must be a string-to-string mapping")

def parseCompatibility : Yaml → Except Exc (Option String)
  | .null => .ok none
  | .string value => .ok (some value)
  | _ => .error (invalid "SKILL.md compatibility must be a string")

def metadataVersion (metadata : List (String × String)) : String :=
  ((metadata.find? fun entry => entry.1 == "version").map Prod.snd).getD "1.0.0"

def inspectArtifact (artifact : List SkillArtifactFile) (sourcePath : String) :
    Except Exc SkillSpec :=
  let files := artifactMapping artifact
  match files.get "SKILL.md" with
  | none => .error (invalid "Skill artifact is missing SKILL.md")
  | some skillMd => do
      let (frontmatter, _) ← parseSkillMarkdownText loading skillMd
      let name ← requiredText frontmatter "name"
      let description ← requiredText frontmatter "description"
      let metadata ← parseMetadata (Yaml.get frontmatter "metadata")
      let compatibility ← parseCompatibility (Yaml.get frontmatter "compatibility")
      let allowedTools ← parseAllowedTools loading (Yaml.get frontmatter "allowed-tools")
      let scripts ← manifestScripts loading files
      let contentHash ← artifactContentHash loading files
      validated loading
        { name, version := metadataVersion metadata, description, sourcePath, contentHash,
          compatibility, allowedTools, scripts, artifact, metadata }

/-- `inspect`: the same for files below the trusted root. -/
def inspect (sourcePath : String) : Except Exc SkillSpec := do
  let (directory, relative, artifact) ← loading.root sourcePath
  let spec ← inspectArtifact loading artifact relative
  if directory = spec.name then return spec
  else throw (invalid ("Skill directory '" ++ directory ++ "' does not match name '" ++
    spec.name ++ "'"))

def verify (spec : SkillSpec) : Except Exc Unit := do
  let inspected ←
    if spec.artifact.isEmpty then inspect loading spec.sourcePath
    else inspectArtifact loading spec.artifact spec.sourcePath
  if inspected.name ≠ spec.name || inspected.version ≠ spec.version then
    throw (invalid ("Skill artifact identity does not match " ++ spec.name ++ "@" ++
      spec.version))
  else if inspected.contentHash ≠ spec.contentHash then
    throw (invalid ("Skill artifact hash does not match " ++ spec.name ++ "@" ++ spec.version))
  else return ()

end Loader

end AgentTaskPlatform.Skills
