import AgentTaskPlatform.Base64
import AgentTaskPlatform.FirstOccurrences
import AgentTaskPlatform.OutboundPolicy
import AgentTaskPlatform.Scheduler
import AgentTaskPlatform.Stripping

/-!
The input files of a prompt workflow: local paths, texts in base64 and URLs are turned into
payloads within the limits of the file client, and each content is attached once.
-/

namespace AgentTaskPlatform.InputFiles

open Outbound Stripping

abbrev Bytes := List UInt8

structure RunFile where
  fileId : Option String := none
  url : Option String := none
  fileName : Option String := none
  mimeType : Option String := none
  metadata : List (String × Json) := []

structure InputFile where
  fileName : String
  mimeType : String
  data : Bytes

structure FilePayload extends InputFile where
  sourceKeys : List String

structure Response where
  statusCode : Nat
  contentLength : Option String := none
  contentType : Option String := none
  chunks : List Bytes

structure World extends Surroundings where
  /-- `str(Path(text).expanduser().resolve())` -/
  resolve : String → Except Exc String
  /-- `Path(text).name` -/
  nameOf : String → String
  /-- What stands at a path: nothing, something else than a regular file, or its content. -/
  node : String → Option (Option Bytes)
  /-- `mimetypes.guess_type(name)[0]` -/
  guessType : String → Option String
  /-- `hashlib.sha256(data).hexdigest()` -/
  sha256 : Bytes → String
  /-- `hashlib.sha256(text.encode()).hexdigest()` -/
  textHash : String → String
  /-- `str(value)` -/
  str : Json → String
  /-- `==` of the values of a dictionary -/
  equal : Json → Json → Bool
  /-- `int(text)`, none where it raises `ValueError` -/
  int : String → Option Int
  get : String → Except Exc Response
  /-- The error of `raise_for_status` -/
  statusError : Nat → Exc

structure FileClient where
  files : List RunFile
  maxFileSize : Int
  allowedMimeTypes : Option (List (List Char))
  outboundPolicy : OutboundPolicy

def fetchError (message : String) : Exc := ⟨.exception, "FileFetchError", message⟩

def valueError (message : String) : Exc := ⟨.exception, "ValueError", message⟩

def orElse (value : Option String) (default : String) : String :=
  match value with
  | some text => if text = "" then default else text
  | none => default

def given (value : Option String) : Option String := value.filter (· ≠ "")

section Client

variable (world : World) (client : FileClient)

def FileClient.validateSize (size : Int) (source : String) : Except Exc Unit :=
  if size > client.maxFileSize then
    throw (fetchError (source ++ " size " ++ toString size ++ " bytes exceeds max " ++
      toString client.maxFileSize ++ " bytes"))
  else return ()

def normalized (mimeType : String) : List Char :=
  world.lower (stripBy isspace (Urls.partition ';' mimeType.toList).1)

def FileClient.allows (mimeType : List Char) : Bool :=
  match client.allowedMimeTypes with
  | none | some [] => true
  | some types => types.contains mimeType

def FileClient.validateMimeType (mimeType : String) : Except Exc Unit :=
  if client.allows (normalized world mimeType) then return ()
  else throw (fetchError ("Content-Type " ++ world.repr (normalized world mimeType) ++
    " is not allowed"))

def FileClient.require (fileId : String) : Except Exc RunFile :=
  match client.files.find? fun file => file.fileId = some fileId with
  | some file => .ok file
  | none => .error ⟨.exception, "KeyError", "Unknown run file_id " ++ world.repr fileId.toList⟩

def FileClient.gather (total : Nat) (chunks : List Bytes) : List Bytes → Except Exc Bytes
  | [] => .ok chunks.flatten
  | chunk :: rest =>
      let total := total + chunk.length
      if (total : Int) > client.maxFileSize then
        .error (fetchError ("Download exceeded max size " ++ toString client.maxFileSize ++
          " bytes (received " ++ toString total ++ " bytes)"))
      else FileClient.gather total (chunks ++ [chunk]) rest

def FileClient.checkLength (response : Response) : Except Exc Unit :=
  match (given response.contentLength).bind world.int with
  | some length => client.validateSize length "file"
  | none => return ()

def FileClient.checkContentType (response : Response) (fileMime : Option String) :
    Except Exc Unit := do
  let contentType := normalized world (response.contentType.getD "")
  if let some declared := given fileMime then
    if contentType ≠ [] ∧ contentType ≠ "application/octet-stream".toList ∧
        contentType ≠ world.lower declared.toList then
      throw (fetchError ("Content-Type mismatch: expected " ++ declared ++ ", got " ++
        String.ofList contentType))
  if contentType ≠ [] then client.validateMimeType world (String.ofList contentType)

def FileClient.fetch (fileId url : Option String) : Except Exc Bytes := do
  let (targetUrl, fileMime) ← match given fileId with
    | some id => do
        let file ← client.require world id
        pure (file.url, file.mimeType)
    | none => pure (url, none)
  match given targetUrl with
  | none => throw (valueError "File fetch requires a URL or a run file with url")
  | some targetUrl => do
      validate world.toSurroundings client.outboundPolicy targetUrl.toList
      let response ← world.get targetUrl
      if 300 ≤ response.statusCode ∧ response.statusCode < 400 then
        throw (fetchError "File fetch redirects are not allowed")
      if response.statusCode < 200 ∨ 300 ≤ response.statusCode then
        throw (world.statusError response.statusCode)
      client.checkLength world response
      client.checkContentType world response fileMime
      client.gather 0 [] response.chunks

end Client

section Payloads

variable (world : World) (client : FileClient)

def guessMime (name : String) : String := orElse (world.guessType name) "application/octet-stream"

def RunFile.meta (file : RunFile) (key : String) : Json := (file.metadata.lookup key).getD .null

def RunFile.localPath (file : RunFile) : Json :=
  if (file.meta "local_path").truthy then file.meta "local_path" else file.meta "path"

def RunFile.sourceKeys (file : RunFile) (localPath : Option String) : List String :=
  ((given file.fileId).map ("file_id:" ++ ·)).toList ++ (localPath.map ("path:" ++ ·)).toList ++
    ((given file.url).map ("url:" ++ ·)).toList

def localFilePayload (path : String) (fileName mimeType : Option String)
    (sourceKeys : List String) : Except Exc FilePayload :=
  match world.node path with
  | none => .error ⟨.exception, "FileNotFoundError", "Input file does not exist: " ++ path⟩
  | some none => .error (valueError ("Input file path is not a regular file: " ++ path))
  | some (some data) => do
      client.validateSize data.length path
      let name := orElse fileName (world.nameOf path)
      let resolvedMimeType := orElse mimeType (guessMime world name)
      client.validateMimeType world resolvedMimeType
      return ⟨⟨name, resolvedMimeType, data⟩,
        if sourceKeys = [] then ["path:" ++ path] else sourceKeys⟩

def compact (content : Json) : List Char :=
  (world.str content).toList.filter fun c => !isspace c

def base64Payload (file : RunFile) : Except Exc (Option FilePayload) := do
  let content := file.meta "content_base64"
  if content.truthy then
    let mimeType := orElse file.mimeType (guessMime world (orElse file.fileName ""))
    client.validateMimeType world mimeType
    let source := orElse file.fileName "BASE64 file"
    client.validateSize (Base64.size (compact world content)) source
    match Base64.decode (compact world content) with
    | none => throw (valueError ("Invalid BASE64 content for " ++ orElse file.fileName "input-file"))
    | some data =>
        client.validateSize data.length source
        return some ⟨⟨orElse file.fileName "input-file", mimeType, data⟩, file.sourceKeys none⟩
  else return none

def urlPayload (file : RunFile) : Except Exc (Option FilePayload) := do
  match given file.url with
  | none => return none
  | some url =>
      let data ← client.fetch world file.fileId (if (given file.fileId).isSome then none else some url)
      let mimeType := orElse file.mimeType (guessMime world (orElse file.fileName url))
      let fileName := orElse file.fileName (orElse file.fileId (orElse (world.nameOf url) "input-file"))
      return some ⟨⟨fileName, mimeType, data⟩, file.sourceKeys none⟩

def runFilePayload (file : RunFile) : Except Exc (Option FilePayload) :=
  match file.localPath with
  | .string text =>
      if text = "" then elsewhere else do
        let path ← world.resolve text
        some <$> localFilePayload world client path file.fileName file.mimeType
          (file.sourceKeys (some path))
  | _ => elsewhere
where
  elsewhere : Except Exc (Option FilePayload) :=
    match file.meta "sourceType" with
    | .string "BASE64" => base64Payload world client file
    | .string "OSS" => .error (valueError ("OSS file source is not supported yet; " ++
        "use URL (e.g. an OSS presigned URL) or BASE64"))
    | _ => urlPayload world client file

end Payloads

section Resolution

variable (world : World) (client : FileClient)

structure Signature where
  path : Option String
  url : Option String
  fileName : Option String
  mimeType : Option String
  sourceType : Json
  content : Option String

def signatureOf (file : RunFile) : Except Exc Signature := do
  let path ← match file.localPath with
    | .string text => some <$> world.resolve text
    | _ => pure none
  let content := file.meta "content_base64"
  return ⟨path, file.url, file.fileName, file.mimeType, file.meta "sourceType",
    if content.truthy then some (world.textHash (world.str content)) else none⟩

def Signature.same (one two : Signature) : Bool :=
  one.path = two.path && one.url = two.url && one.fileName = two.fileName &&
    one.mimeType = two.mimeType && world.equal one.sourceType two.sourceType &&
    one.content = two.content

def validateRunFileReferences (byFileId : List (String × Signature)) :
    List RunFile → Except Exc Unit
  | [] => return ()
  | file :: rest =>
      match given file.fileId with
      | none => validateRunFileReferences byFileId rest
      | some id => do
          let signature ← signatureOf world file
          match byFileId.lookup id with
          | some previous =>
              if previous.same world signature then
                validateRunFileReferences ((id, signature) :: byFileId) rest
              else throw (valueError
                ("Conflicting references for file identity 'file_id:" ++ id ++ "'"))
          | none => validateRunFileReferences ((id, signature) :: byFileId) rest

def inputFilePaths (inputData : List (String × Json)) : List String :=
  let get key := (inputData.lookup key).getD .null
  -- `or` returns the last value as it is, an empty text included.
  let raw := ((["file_paths", "filePaths", "file_path"].map get).find? Json.truthy).getD
    (get "filePath")
  match raw with
  | .string path => [path]
  | .array items => items.filterMap fun item => match item with
      | .string path => some path
      | _ => none
  | _ => []

def collect (inputData : List (String × Json)) : Except Exc (List FilePayload) := do
  let listed ← (inputFilePaths inputData).mapM fun value => do
    let path ← world.resolve value
    localFilePayload world client path none none []
  validateRunFileReferences world [] client.files
  let attached ← client.files.mapM (runFilePayload world client)
  return listed ++ attached.filterMap id

structure Metadata where
  digest : String
  fileName : String
  mimeType : String
  deriving DecidableEq

def metadataOf (file : FilePayload) : Metadata :=
  ⟨world.sha256 file.data, file.fileName, file.mimeType⟩

/-- The loop over the source keys of one payload: whether one was there, and the table after. -/
def noteSources (metadata : Metadata) (bySource : List (String × Metadata))
    (duplicateSource : Bool) : List String → Except Exc (Bool × List (String × Metadata))
  | [] => .ok (duplicateSource, bySource)
  | key :: rest =>
      match bySource.lookup key with
      | some previous =>
          if previous ≠ metadata then
            .error (valueError ("Conflicting metadata or content for file identity " ++
              world.repr key.toList))
          else noteSources metadata bySource true rest
      | none => noteSources metadata (bySource ++ [(key, metadata)]) duplicateSource rest

def deduplicateFrom (resolved : List InputFile) (bySource : List (String × Metadata))
    (contentDigests : List String) : List FilePayload → Except Exc (List InputFile)
  | [] => .ok resolved
  | file :: rest => do
      let metadata := metadataOf world file
      let (duplicateSource, bySource) ← noteSources world metadata bySource false file.sourceKeys
      if duplicateSource || metadata.digest ∈ contentDigests then
        deduplicateFrom resolved bySource contentDigests rest
      else
        deduplicateFrom (resolved ++ [file.toInputFile]) bySource
          (metadata.digest :: contentDigests) rest

def deduplicateFilePayloads (files : List FilePayload) : Except Exc (List InputFile) :=
  deduplicateFrom world [] [] [] files

def resolveInputFiles (inputData : List (String × Json)) : Except Exc (List InputFile) := do
  let payloads ← collect world client inputData
  deduplicateFilePayloads world payloads

def dataUrlFor (data : Bytes) (mimeType : String) : String :=
  "data:" ++ mimeType ++ ";base64," ++ String.ofList (Base64.encode data)

def contentItem (file : InputFile) : Bool × String :=
  (file.mimeType = "application/pdf", dataUrlFor file.data file.mimeType)

end Resolution

end AgentTaskPlatform.InputFiles
