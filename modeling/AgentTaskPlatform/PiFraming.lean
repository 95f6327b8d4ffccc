import AgentTaskPlatform.Domain
import AgentTaskPlatform.JsonCharacters
import AgentTaskPlatform.JsonNumbers

/-!
The JSON lines between `PiProcess` and the Node worker. Python writes with
`ensure_ascii=False` and reads up to a line feed; `runner.mjs` writes with
`JSON.stringify` and reads the lines of `readline`, which also ends them elsewhere.
-/

namespace AgentTaskPlatform.PiFraming

open JsonText JsonNumbers

def maxRecordBytes : Nat := 8 * 1024 * 1024

/-- `len(text.encode())` and `Buffer.byteLength(text)` -/
def utf8Size (text : List Char) : Nat := (text.map Char.utf8Size).sum

inductive PyNumber where
  | int (n : ℤ)
  | float (value : Double)

def PyNumber.value : PyNumber → ℚ
  | .int n => n
  | .float value => value.1

structure Runtimes where
  /-- `float.__repr__` -/
  repr : Double → List Char
  /-- `Number::toString` -/
  numberText : Double → List Char
  /-- How deep the recursions of the encoder and of the decoder can get. -/
  encoderDepth : Nat
  decoderDepth : Nat

def WritesBack (text : Double → List Char) : Prop :=
  ∀ value, Numeral (text value) ∧ ∃ literal, readLiteral (text value) = some literal ∧
    nearest literal.value = some value.1

structure Runtimes.Documented (runtimes : Runtimes) : Prop where
  repr : WritesBack runtimes.repr
  numberText : WritesBack runtimes.numberText
  short : ∀ value literal, readLiteral (runtimes.numberText value) = some literal →
    literal.integral = true → (runtimes.numberText value).length ≤ 22

def protocolError (message : String) : Exc := ⟨.exception, "PiProcessError", message⟩

def recordTooLarge : Exc := protocolError "Pi protocol record exceeds the 8 MiB limit"

def notFinite : Exc := protocolError "Pi protocol record must contain finite JSON data"

section Encoding

variable (runtimes : Runtimes)

/-- The most digits that `int.__repr__` and `int(text)` convert. -/
def maxDigits : Nat := 4300

/-- A chunk of `iterencode`, or nothing where the encoder raises. -/
abbrev Chunk := Option Text

def points (text : List Char) : Text := text.map .scalar

def pyNumeral : PyNumber → List Char
  | .int n => integerText n
  | .float value => runtimes.repr value

def numberChunk : PyNumber → Chunk
  | .int n => if (naturalText n.natAbs).length > maxDigits then none else some (points (integerText n))
  | .float value => some (points (runtimes.repr value))

/-- `ensure_ascii=False` leaves everything beyond the control characters as it is. -/
def pyEscape : Point → Text
  | .scalar c => points (escapeScalar c)
  | .surrogate high bits => [.surrogate high bits]

def pyQuote (text : Text) : Text := points ['"'] ++ text.flatMap pyEscape ++ points ['"']

def simpleChunk : Value PyNumber → Option Chunk
  | .null => some (some (points ['n', 'u', 'l', 'l']))
  | .bool true => some (some (points ['t', 'r', 'u', 'e']))
  | .bool false => some (some (points ['f', 'a', 'l', 's', 'e']))
  | .number value => some (numberChunk runtimes value)
  | .string text => some (some (pyQuote text))
  | .array _ | .object _ => none

/-- The bracket or comma goes into the chunk of a simple value, else before the others. -/
def separatedBy (separator : Char) : Option Chunk → List Chunk → List Chunk
  | some chunk, _ => [chunk.map (points [separator] ++ ·)]
  | none, nested => some (points [separator]) :: nested

mutual

def iterencode : Nat → Value PyNumber → List Chunk
  | _, .null => [some (points ['n', 'u', 'l', 'l'])]
  | _, .bool true => [some (points ['t', 'r', 'u', 'e'])]
  | _, .bool false => [some (points ['f', 'a', 'l', 's', 'e'])]
  | _, .number value => [numberChunk runtimes value]
  | _, .string text => [some (pyQuote text)]
  | 0, .array _ | 0, .object _ => [none]
  | _ + 1, .array [] => [some (points ['[', ']'])]
  | depth + 1, .array (first :: rest) => iterencodeItems depth '[' (first :: rest)
  | _ + 1, .object [] => [some (points ['\x7b', '\x7d'])]
  | depth + 1, .object (first :: rest) =>
      some (points ['\x7b']) :: iterencodeEntries depth false (first :: rest)

def iterencodeItems : Nat → Char → List (Value PyNumber) → List Chunk
  | _, _, [] => [some (points [']'])]
  | depth, separator, item :: rest =>
      separatedBy separator (simpleChunk runtimes item) (iterencode depth item) ++
        iterencodeItems depth ',' rest

def iterencodeEntries : Nat → Bool → List (Text × Value PyNumber) → List Chunk
  | _, _, [] => [some (points ['\x7d'])]
  | depth, separated, (key, value) :: rest =>
      (if separated then [some (points [','])] else []) ++
        some (pyQuote key) :: some (points [':']) :: iterencode depth value ++
        iterencodeEntries depth true rest

end

def encodeUtf8 : Text → Option (List Char)
  | [] => some []
  | .scalar c :: rest => (encodeUtf8 rest).map (c :: ·)
  | .surrogate _ _ :: _ => none

def encodeChunks : Nat → List Chunk → Except Exc (List Char)
  | _, [] => .ok []
  | _, none :: _ => .error notFinite
  | size, some chunk :: rest =>
      if chunk.length > maxRecordBytes - size - 1 then .error recordTooLarge
      else match encodeUtf8 chunk with
      | none => .error notFinite
      | some fragment =>
          if utf8Size fragment > maxRecordBytes - size - 1 then .error recordTooLarge
          else do
            let later ← encodeChunks (size + utf8Size fragment) rest
            return fragment ++ later

def encode (record : Value PyNumber) : Except Exc (List Char) := do
  let text ← encodeChunks 0 (iterencode runtimes runtimes.encoderDepth record)
  return text ++ ['\n']

end Encoding

section Worker

def endsLine (c : Char) : Bool :=
  c == '\n' || c == '\r' || c == Char.ofNat 8232 || c == Char.ofNat 8233

def continueLine (c : Char) : List (List Char) → List (List Char)
  | [] => []
  | line :: lines => (c :: line) :: lines

def nodeLines : List Char → List (List Char)
  | [] => []
  | '\r' :: '\n' :: rest => [] :: nodeLines rest
  | c :: rest =>
      if endsLine c then [] :: nodeLines rest else continueLine c (nodeLines rest)

/-- A number of `JSON.parse`; a numeral beyond the finite ones is an infinity. -/
def nodeNumber (token : List Char) : Option (Option ℚ) :=
  (readLiteral token).map fun literal => nearest literal.value

/-- `JSON.parse`, whose nesting only the text limits. -/
def nodeParse (line : List Char) : Option (Value (Option ℚ)) := read nodeNumber line.length line

variable (runtimes : Runtimes)

/-- A number of JavaScript, or nothing where it is not finite. -/
abbrev NodeNumber := Option Double

/-- `JSON.stringify` writes `null` for what is not finite. -/
def stringify (record : Value NodeNumber) : List Char := render (orNull runtimes.numberText) record

def send (record : Value NodeNumber) : Except String (List Char) :=
  let line := stringify runtimes record ++ ['\n']
  if utf8Size line > maxRecordBytes then .error "protocol_record_too_large" else .ok line

end Worker

section Decoding

/-- A number of `json.loads`: whole digits are an integer, others a finite float. -/
def pyNumber (token : List Char) : Option PyNumber :=
  match readLiteral token with
  | none => none
  | some literal =>
      if literal.integral then
        if (token.filter (· ≠ '-')).length > maxDigits then none
        else some (.int literal.value.num)
      else match near : nearest literal.value with
      | none => none
      | some rounded => some (.float ⟨rounded, nearest_exact near⟩)

variable (runtimes : Runtimes)

def loads (line : List Char) : Option (Value PyNumber) :=
  read pyNumber runtimes.decoderDepth line

/-- `readline` of the stream: what stands before the line feed may have the size of the
limit. At the end of the stream it returns what is left. -/
def readline (stream : List Char) : Except Exc (List Char × List Char) :=
  let line := stream.takeWhile (· ≠ '\n')
  match stream.dropWhile (· ≠ '\n') with
  | [] => .ok (line, [])
  | newline :: rest =>
      if utf8Size line > maxRecordBytes then .error recordTooLarge
      else .ok (line ++ [newline], rest)

/-- What the loop of `run` makes of the next line: a record, and the rest of the stream. -/
def receive (stream : List Char) : Except Exc (List (Text × Value PyNumber) × List Char) := do
  let (line, rest) ← readline stream
  if line.isEmpty then
    throw (protocolError
      "Pi worker exited before producing a result; check Node and npm installation")
  else if utf8Size line > maxRecordBytes || line.getLast? ≠ some '\n' then
    throw (protocolError "Pi worker returned an oversized or incomplete record")
  else match loads runtimes line with
  | none => throw (protocolError "Pi worker returned invalid JSON")
  | some (.object entries) => return (entries, rest)
  | some _ => throw (protocolError "Pi worker record must be an object")

end Decoding

end AgentTaskPlatform.PiFraming
