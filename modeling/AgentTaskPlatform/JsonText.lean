import Mathlib.Data.List.Basic
import Mathlib.Tactic.Common

/-!
JSON texts. A string is a list of code points in which surrogates may stand alone; a
number is whatever the numerals stand for. The reader has a limit of nesting and inverts
the compact writer up to that limit.
-/

namespace AgentTaskPlatform.JsonText

inductive Point where
  | scalar (c : Char)
  | surrogate (high : Bool) (bits : Fin 1024)
  deriving DecidableEq, Repr

abbrev Text := List Point

inductive Value (Number : Type) where
  | null
  | bool (value : Bool)
  | number (value : Number)
  | string (value : Text)
  | array (items : List (Value Number))
  | object (entries : List (Text × Value Number))

section Strings

def hexDigit (value : Nat) : Char :=
  if value < 10 then Char.ofNat (48 + value) else Char.ofNat (87 + value)

def hexValue (c : Char) : Option Nat :=
  if '0' ≤ c ∧ c ≤ '9' then some (c.toNat - 48)
  else if 'a' ≤ c ∧ c ≤ 'f' then some (c.toNat - 87)
  else if 'A' ≤ c ∧ c ≤ 'F' then some (c.toNat - 55)
  else none

def hex4 (value : Nat) : List Char :=
  [hexDigit (value / 4096), hexDigit (value / 256 % 16), hexDigit (value / 16 % 16),
    hexDigit (value % 16)]

def unicodeEscape (value : Nat) : List Char := '\\' :: 'u' :: hex4 value

def escapeScalar (c : Char) : List Char :=
  if c = '"' then ['\\', '"']
  else if c = '\\' then ['\\', '\\']
  else if c = '\n' then ['\\', 'n']
  else if c = '\r' then ['\\', 'r']
  else if c = '\t' then ['\\', 't']
  else if c = Char.ofNat 12 then ['\\', 'f']
  else if c = Char.ofNat 8 then ['\\', 'b']
  else if c.toNat < 32 then unicodeEscape c.toNat
  else [c]

def surrogateUnit (high : Bool) (bits : Fin 1024) : Nat :=
  (if high then 55296 else 56320) + bits

def escape : Point → List Char
  | .scalar c => escapeScalar c
  | .surrogate high bits => unicodeEscape (surrogateUnit high bits)

def quote (text : Text) : List Char := '"' :: text.flatMap escape ++ ['"']

def unitPoint (unit : Nat) : Point :=
  if 55296 ≤ unit ∧ unit < 56320 then .surrogate true (Fin.ofNat 1024 (unit - 55296))
  else if 56320 ≤ unit ∧ unit < 57344 then .surrogate false (Fin.ofNat 1024 (unit - 56320))
  else .scalar (Char.ofNat unit)

def hexUnit (a b c d : Char) : Option Nat := do
  let first ← hexValue a
  let second ← hexValue b
  let third ← hexValue c
  let fourth ← hexValue d
  return first * 4096 + second * 256 + third * 16 + fourth

def simpleEscape (c : Char) : Option Char :=
  if c = '"' then some '"'
  else if c = '\\' then some '\\'
  else if c = '/' then some '/'
  else if c = 'n' then some '\n'
  else if c = 'r' then some '\r'
  else if c = 't' then some '\t'
  else if c = 'f' then some (Char.ofNat 12)
  else if c = 'b' then some (Char.ofNat 8)
  else none

def joined : Text → Text
  | .surrogate true high :: .surrogate false low :: rest =>
      .scalar (Char.ofNat (65536 + high * 1024 + low)) :: joined rest
  | point :: rest => point :: joined rest
  | [] => []

def scanString : List Char → Option (Text × List Char)
  | [] => none
  | '"' :: rest => some ([], rest)
  | '\\' :: 'u' :: a :: b :: c :: d :: rest => do
      let unit ← hexUnit a b c d
      let (points, after) ← scanString rest
      return (unitPoint unit :: points, after)
  | '\\' :: c :: rest => do
      let point ← simpleEscape c
      let (points, after) ← scanString rest
      return (.scalar point :: points, after)
  | c :: rest =>
      if c.toNat < 32 then none
      else do
        let (points, after) ← scanString rest
        return (.scalar c :: points, after)

def readString (text : List Char) : Option (Text × List Char) :=
  (scanString text).map fun (points, after) => (joined points, after)

theorem hexValue_hexDigit : ∀ value, value < 16 → hexValue (hexDigit value) = some value := by
  decide

theorem hexUnit_hex4 {value : Nat} (small : value < 65536) :
    hexUnit (hexDigit (value / 4096)) (hexDigit (value / 256 % 16)) (hexDigit (value / 16 % 16))
      (hexDigit (value % 16)) = some value := by
  have first : value / 4096 < 16 := by omega
  simp only [hexUnit, hexValue_hexDigit _ first,
    hexValue_hexDigit _ (Nat.mod_lt _ (by decide : 0 < 16)), Option.bind_eq_bind,
    Option.bind_some, Option.pure_def, Option.some.injEq]
  omega

theorem scanString_unicode {value : Nat} (small : value < 65536) (rest : List Char) :
    scanString (unicodeEscape value ++ rest) =
      (scanString rest).map fun scanned => (unitPoint value :: scanned.1, scanned.2) := by
  simp only [unicodeEscape, hex4, List.cons_append, List.nil_append, scanString,
    hexUnit_hex4 small]
  cases scanString rest <;> rfl

theorem unitPoint_surrogate (high : Bool) (bits : Fin 1024) :
    unitPoint (surrogateUnit high bits) = .surrogate high bits := by
  have small := bits.isLt
  cases high with
  | true =>
      have inside : 55296 ≤ 55296 + bits.val ∧ 55296 + bits.val < 56320 := by omega
      simp only [surrogateUnit, if_true, unitPoint, if_pos inside, Nat.add_sub_cancel_left]
      congr 1
      exact Fin.ext (Nat.mod_eq_of_lt small)
  | false =>
      have outside : ¬ (55296 ≤ 56320 + bits.val ∧ 56320 + bits.val < 56320) := by omega
      have inside : 56320 ≤ 56320 + bits.val ∧ 56320 + bits.val < 57344 := by omega
      simp only [surrogateUnit, Bool.false_eq_true, if_false, unitPoint, if_neg outside,
        if_pos inside, Nat.add_sub_cancel_left]
      congr 1
      exact Fin.ext (Nat.mod_eq_of_lt small)

theorem unitPoint_control {c : Char} (control : c.toNat < 32) : unitPoint c.toNat = .scalar c := by
  unfold unitPoint
  rw [if_neg (by omega), if_neg (by omega), Char.ofNat_toNat]

theorem scanString_plain {c : Char} (quotation : c ≠ '"') (backslash : c ≠ '\\')
    (graphic : ¬ c.toNat < 32) (rest : List Char) :
    scanString (c :: rest) =
      (scanString rest).map fun scanned => (.scalar c :: scanned.1, scanned.2) := by
  rw [scanString.eq_def]
  split
  · next same => cases same
  · next same =>
      cases same
      exact absurd rfl quotation
  · next same =>
      cases same
      exact absurd rfl backslash
  · next same =>
      cases same
      exact absurd rfl backslash
  · next same =>
      cases same
      rw [if_neg graphic]
      cases scanString rest <;> rfl

theorem scanString_scalar (c : Char) (rest : List Char) :
    scanString (escapeScalar c ++ rest) =
      (scanString rest).map fun scanned => (.scalar c :: scanned.1, scanned.2) := by
  have short (letter : Char) (meant : simpleEscape letter = some c) (hex : letter ≠ 'u') :
      scanString ('\\' :: letter :: rest) =
        (scanString rest).map fun scanned => (.scalar c :: scanned.1, scanned.2) := by
    rw [scanString]
    · rw [meant]
      cases scanString rest <;> rfl
    · intro a b c d after same
      cases same
      exact absurd rfl hex
  unfold escapeScalar
  split
  · next same => exact short '"' (by rw [same]; rfl) (by decide)
  split
  · next same => exact short '\\' (by rw [same]; rfl) (by decide)
  split
  · next same => exact short 'n' (by rw [same]; rfl) (by decide)
  split
  · next same => exact short 'r' (by rw [same]; rfl) (by decide)
  split
  · next same => exact short 't' (by rw [same]; rfl) (by decide)
  split
  · next same => exact short 'f' (by rw [same]; rfl) (by decide)
  split
  · next same => exact short 'b' (by rw [same]; rfl) (by decide)
  split
  · next control =>
      rw [scanString_unicode (by omega), unitPoint_control control]
  · next quotation backslash _ _ _ _ _ graphic =>
      exact scanString_plain quotation backslash graphic rest

theorem scanString_escape (point : Point) (rest : List Char) :
    scanString (escape point ++ rest) =
      (scanString rest).map fun scanned => (point :: scanned.1, scanned.2) := by
  cases point with
  | scalar c => exact scanString_scalar c rest
  | surrogate high bits =>
      have small : surrogateUnit high bits < 65536 := by
        cases high <;> simp only [surrogateUnit, if_true, Bool.false_eq_true, if_false] <;> omega
      rw [escape, scanString_unicode small, unitPoint_surrogate]

theorem scanString_quote (text : Text) (rest : List Char) :
    scanString (text.flatMap escape ++ '"' :: rest) = some (text, rest) := by
  induction text with
  | nil => rfl
  | cons point later ih =>
      rw [List.flatMap_cons, List.append_assoc, scanString_escape, ih]
      rfl

/-- Without a high surrogate before a low one, a string is read as it was written. -/
theorem readString_quote {text : Text} (proper : joined text = text) (rest : List Char) :
    readString (text.flatMap escape ++ '"' :: rest) = some (text, rest) := by
  rw [readString, scanString_quote]
  simp [proper]

end Strings

section Documents

variable {Number : Type}

def isSpace (c : Char) : Bool := c == ' ' || c == '\t' || c == '\n' || c == '\r'

def skip (text : List Char) : List Char := text.dropWhile isSpace

def isNumeral (c : Char) : Bool :=
  c.isDigit || c == '-' || c == '+' || c == '.' || c == 'e' || c == 'E'

def Numeral (token : List Char) : Prop := token ≠ [] ∧ ∀ c ∈ token, isNumeral c = true

section Writing

variable (numeral : Number → List Char)

mutual

def render : Value Number → List Char
  | .null => ['n', 'u', 'l', 'l']
  | .bool true => ['t', 'r', 'u', 'e']
  | .bool false => ['f', 'a', 'l', 's', 'e']
  | .number value => numeral value
  | .string value => quote value
  | .array [] => ['[', ']']
  | .array (first :: rest) => '[' :: render first ++ renderItems rest
  | .object [] => ['\x7b', '\x7d']
  | .object ((key, value) :: rest) =>
      '\x7b' :: quote key ++ ':' :: render value ++ renderEntries rest

def renderItems : List (Value Number) → List Char
  | [] => [']']
  | item :: rest => ',' :: render item ++ renderItems rest

def renderEntries : List (Text × Value Number) → List Char
  | [] => ['\x7d']
  | (key, value) :: rest => ',' :: quote key ++ ':' :: render value ++ renderEntries rest

end

end Writing

section Reading

variable (number : List Char → Option Number)

/-- The last value of a key counts, at the place of the first one. -/
def assign (entries : List (Text × Value Number)) (entry : Text × Value Number) :
    List (Text × Value Number) :=
  if entries.any fun other => other.1 = entry.1 then
    entries.map fun other => if other.1 = entry.1 then entry else other
  else entries ++ [entry]

def dictionary (entries : List (Text × Value Number)) : Value Number :=
  .object (entries.foldl assign [])

mutual

def readValue : Nat → Nat → List Char → Option (Value Number × List Char)
  | 0, _, _ => none
  | fuel + 1, depth, text =>
      match skip text with
      | '"' :: rest => (readString rest).map fun (value, after) => (.string value, after)
      | 'n' :: 'u' :: 'l' :: 'l' :: rest => some (.null, rest)
      | 't' :: 'r' :: 'u' :: 'e' :: rest => some (.bool true, rest)
      | 'f' :: 'a' :: 'l' :: 's' :: 'e' :: rest => some (.bool false, rest)
      | '[' :: rest =>
          match depth with
          | 0 => none
          | depth + 1 =>
              match skip rest with
              | ']' :: after => some (.array [], after)
              | inside => do
                  let (first, more) ← readValue fuel depth inside
                  let (items, after) ← readItems fuel depth more
                  return (.array (first :: items), after)
      | '\x7b' :: rest =>
          match depth with
          | 0 => none
          | depth + 1 =>
              match skip rest with
              | '\x7d' :: after => some (.object [], after)
              | inside => do
                  let (first, more) ← readEntry fuel depth inside
                  let (entries, after) ← readEntries fuel depth more
                  return (dictionary (first :: entries), after)
      | other => (number (other.takeWhile isNumeral)).map fun value =>
          (.number value, other.dropWhile isNumeral)

def readItems : Nat → Nat → List Char → Option (List (Value Number) × List Char)
  | 0, _, _ => none
  | fuel + 1, depth, text =>
      match skip text with
      | ']' :: after => some ([], after)
      | ',' :: rest => do
          let (item, more) ← readValue fuel depth rest
          let (items, after) ← readItems fuel depth more
          return (item :: items, after)
      | _ => none

def readEntry : Nat → Nat → List Char → Option ((Text × Value Number) × List Char)
  | 0, _, _ => none
  | fuel + 1, depth, text =>
      match skip text with
      | '"' :: rest => do
          let (key, more) ← readString rest
          match skip more with
          | ':' :: inside => do
              let (value, after) ← readValue fuel depth inside
              return ((key, value), after)
          | _ => none
      | _ => none

def readEntries : Nat → Nat → List Char → Option (List (Text × Value Number) × List Char)
  | 0, _, _ => none
  | fuel + 1, depth, text =>
      match skip text with
      | '\x7d' :: after => some ([], after)
      | ',' :: rest => do
          let (entry, more) ← readEntry fuel depth rest
          let (entries, after) ← readEntries fuel depth more
          return (entry :: entries, after)
      | _ => none

end

def read (depth : Nat) (text : List Char) : Option (Value Number) :=
  match readValue number (text.length + 1) depth text with
  | some (value, rest) => if (skip rest).isEmpty then some value else none
  | none => none

end Reading

section Measures

mutual

def Value.depth : Value Number → Nat
  | .array items => depthItems items + 1
  | .object entries => depthEntries entries + 1
  | _ => 0

def depthItems : List (Value Number) → Nat
  | [] => 0
  | item :: rest => max item.depth (depthItems rest)

def depthEntries : List (Text × Value Number) → Nat
  | [] => 0
  | (_, value) :: rest => max value.depth (depthEntries rest)

end

mutual

/-- Keys are there once, and no string holds a high surrogate before a low one. -/
def Value.Proper : Value Number → Prop
  | .string text => joined text = text
  | .array items => ProperItems items
  | .object entries => (entries.map Prod.fst).Nodup ∧ ProperEntries entries
  | _ => True

def ProperItems : List (Value Number) → Prop
  | [] => True
  | item :: rest => item.Proper ∧ ProperItems rest

def ProperEntries : List (Text × Value Number) → Prop
  | [] => True
  | (key, value) :: rest => joined key = key ∧ value.Proper ∧ ProperEntries rest

end

mutual

def Value.Keyed : Value Number → Prop
  | .array items => KeyedItems items
  | .object entries => (entries.map Prod.fst).Nodup ∧ KeyedEntries entries
  | _ => True

def KeyedItems : List (Value Number) → Prop
  | [] => True
  | item :: rest => item.Keyed ∧ KeyedItems rest

def KeyedEntries : List (Text × Value Number) → Prop
  | [] => True
  | (_, value) :: rest => value.Keyed ∧ KeyedEntries rest

end

mutual

def Value.numbers : Value Number → List Number
  | .number value => [value]
  | .array items => numbersOf items
  | .object entries => numbersIn entries
  | _ => []

def numbersOf : List (Value Number) → List Number
  | [] => []
  | item :: rest => item.numbers ++ numbersOf rest

def numbersIn : List (Text × Value Number) → List Number
  | [] => []
  | (_, value) :: rest => value.numbers ++ numbersIn rest

end

mutual

def Value.points : Value Number → List Point
  | .string text => text
  | .array items => pointsOf items
  | .object entries => pointsIn entries
  | _ => []

def pointsOf : List (Value Number) → List Point
  | [] => []
  | item :: rest => item.points ++ pointsOf rest

def pointsIn : List (Text × Value Number) → List Point
  | [] => []
  | (key, value) :: rest => key ++ value.points ++ pointsIn rest

end

variable {Meaning : Type} (meaning : Number → Meaning)

mutual

def Value.map : Value Number → Value Meaning
  | .null => .null
  | .bool value => .bool value
  | .number value => .number (meaning value)
  | .string text => .string text
  | .array items => .array (mapItems items)
  | .object entries => .object (mapEntries entries)

def mapItems : List (Value Number) → List (Value Meaning)
  | [] => []
  | item :: rest => item.map :: mapItems rest

def mapEntries : List (Text × Value Number) → List (Text × Value Meaning)
  | [] => []
  | (key, value) :: rest => (key, value.map) :: mapEntries rest

end

end Measures

end Documents

end AgentTaskPlatform.JsonText
