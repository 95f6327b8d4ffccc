import Mathlib.Data.List.Basic
import Mathlib.Tactic.Common

/-!
Base64 with the standard alphabet: the encoder, and the decoder that takes nothing besides the
alphabet and the padding at the end. The length of a text tells how many octets it holds.
-/

namespace AgentTaskPlatform.Base64

section Alphabet

def digit (value : Nat) : Char :=
  if value < 26 then Char.ofNat (65 + value)
  else if value < 52 then Char.ofNat (71 + value)
  else if value < 62 then Char.ofNat (value - 4)
  else if value = 62 then '+' else '/'

def digitValue (c : Char) : Option Nat :=
  if 'A' ≤ c ∧ c ≤ 'Z' then some (c.toNat - 65)
  else if 'a' ≤ c ∧ c ≤ 'z' then some (c.toNat - 71)
  else if '0' ≤ c ∧ c ≤ '9' then some (c.toNat + 4)
  else if c = '+' then some 62
  else if c = '/' then some 63
  else none

theorem digitValue_digit : ∀ value, value < 64 → digitValue (digit value) = some value := by
  decide

theorem digit_padding : ∀ value, value < 64 → digit value ≠ '=' := by
  decide

end Alphabet

section Codec

def encode : List UInt8 → List Char
  | [] => []
  | [a] => [digit (a.toNat / 4), digit (a.toNat % 4 * 16), '=', '=']
  | [a, b] => [digit (a.toNat / 4), digit (a.toNat % 4 * 16 + b.toNat / 16),
      digit (b.toNat % 16 * 4), '=']
  | a :: b :: c :: rest => digit (a.toNat / 4) :: digit (a.toNat % 4 * 16 + b.toNat / 16) ::
      digit (b.toNat % 16 * 4 + c.toNat / 64) :: digit (c.toNat % 64) :: encode rest

def firstOctet (w x : Nat) : UInt8 := UInt8.ofNat (w * 4 + x / 16)

def secondOctet (x y : Nat) : UInt8 := UInt8.ofNat (x % 16 * 16 + y / 4)

def thirdOctet (y z : Nat) : UInt8 := UInt8.ofNat (y % 4 * 64 + z)

/-- `base64.b64decode(text, validate=True)`, or nothing where it raises. The bits of a digit that
stand for no octet do not count. -/
def decode : List Char → Option (List UInt8)
  | [] => some []
  | a :: b :: c :: d :: rest => do
      let w ← digitValue a
      let x ← digitValue b
      -- A padded group ends the text.
      if d = '=' ∧ rest = [] then
        if c = '=' then some [firstOctet w x]
        else do
          let y ← digitValue c
          some [firstOctet w x, secondOctet x y]
      else do
        let y ← digitValue c
        let z ← digitValue d
        -- Padding behind a complete group is passed over up to the end of the text.
        let octets ← if rest.all (· == '=') then some [] else decode rest
        some (firstOctet w x :: secondOctet x y :: thirdOctet y z :: octets)
  | _ => none

theorem firstOctet_bits (a : UInt8) {low : Nat} (small : low < 16) :
    firstOctet (a.toNat / 4) (a.toNat % 4 * 16 + low) = a := by
  have bits : a.toNat / 4 * 4 + (a.toNat % 4 * 16 + low) / 16 = a.toNat := by omega
  rw [firstOctet, bits, UInt8.ofNat_toNat]

theorem secondOctet_bits (b : UInt8) (high : Nat) {low : Nat} (small : low < 4) :
    secondOctet (high * 16 + b.toNat / 16) (b.toNat % 16 * 4 + low) = b := by
  have below := b.toNat_lt
  have bits : (high * 16 + b.toNat / 16) % 16 * 16 + (b.toNat % 16 * 4 + low) / 4 = b.toNat := by
    omega
  rw [secondOctet, bits, UInt8.ofNat_toNat]

theorem thirdOctet_bits (c : UInt8) (high : Nat) :
    thirdOctet (high * 4 + c.toNat / 64) (c.toNat % 64) = c := by
  have below := c.toNat_lt
  have bits : (high * 4 + c.toNat / 64) % 4 * 64 + c.toNat % 64 = c.toNat := by omega
  rw [thirdOctet, bits, UInt8.ofNat_toNat]

/-- Every encoding begins with a digit. -/
theorem encode_padding {octets : List UInt8} (pads : ∀ c ∈ encode octets, c = '=') :
    octets = [] := by
  have first (a : UInt8) : digit (a.toNat / 4) ≠ '=' := by
    have below := a.toNat_lt
    exact digit_padding _ (by omega)
  cases octets using encode.fun_cases with
  | case1 => rfl
  | case2 a => exact absurd (pads _ List.mem_cons_self) (first a)
  | case3 a b => exact absurd (pads _ List.mem_cons_self) (first a)
  | case4 a b c rest => exact absurd (pads _ List.mem_cons_self) (first a)

theorem decode_group {a b c d : Char} {text : List Char} {w x y z : Nat} {octets : List UInt8}
    (first : digitValue a = some w) (second : digitValue b = some x)
    (third : digitValue c = some y) (fourth : digitValue d = some z) (full : d ≠ '=')
    (rest : (if text.all (· == '=') then some [] else decode text) = some octets) :
    decode (a :: b :: c :: d :: text) =
      some (firstOctet w x :: secondOctet x y :: thirdOctet y z :: octets) := by
  have unpadded : ¬ (d = '=' ∧ text = []) := fun padded => full padded.1
  rw [decode]
  simp only [first, second, third, fourth, unpadded, Option.bind_eq_bind, Option.bind_some,
    if_false]
  split at rest
  · next pads =>
      cases rest
      exact if_pos pads
  · next more =>
      rw [if_neg more, rest]
      rfl

theorem decode_encode (octets : List UInt8) : decode (encode octets) = some octets := by
  induction octets using encode.induct with
  | case1 => rfl
  | case2 a =>
      have below := a.toNat_lt
      have bits := firstOctet_bits a (Nat.zero_lt_succ 15)
      rw [Nat.add_zero] at bits
      simp [encode, decode, digitValue_digit _ (by omega : a.toNat / 4 < 64),
        digitValue_digit _ (by omega : a.toNat % 4 * 16 < 64), bits]
  | case3 a b =>
      have one := a.toNat_lt
      have two := b.toNat_lt
      have second := secondOctet_bits b (a.toNat % 4) (Nat.zero_lt_succ 3)
      rw [Nat.add_zero] at second
      simp [encode, decode, digitValue_digit _ (by omega : a.toNat / 4 < 64),
        digitValue_digit _ (by omega : a.toNat % 4 * 16 + b.toNat / 16 < 64),
        digitValue_digit _ (by omega : b.toNat % 16 * 4 < 64),
        digit_padding _ (by omega : b.toNat % 16 * 4 < 64),
        firstOctet_bits a (by omega : b.toNat / 16 < 16), second]
  | case4 a b c rest ih =>
      have one := a.toNat_lt
      have two := b.toNat_lt
      have three := c.toNat_lt
      have last : c.toNat % 64 < 64 := by omega
      have later : (if (encode rest).all (· == '=') then some [] else decode (encode rest)) =
          some rest := by
        split
        · next pads =>
            have none := encode_padding fun char member => by
              simpa using List.all_eq_true.mp pads char member
            rw [none]
        · exact ih
      rw [encode, decode_group (digitValue_digit _ (by omega)) (digitValue_digit _ (by omega))
        (digitValue_digit _ (by omega)) (digitValue_digit _ last) (digit_padding _ last) later,
        firstOctet_bits a (by omega), secondOctet_bits b (a.toNat % 4) (by omega),
        thirdOctet_bits c (b.toNat % 16)]

end Codec

section Sizes

/-- What the encoder writes: groups of four digits, the last one possibly padded. -/
inductive Groups : List Char → List UInt8 → Prop
  | done : Groups [] []
  | one {a b : Char} {first : UInt8} : b ≠ '=' → Groups [a, b, '=', '='] [first]
  | two {a b c : Char} {first second : UInt8} : c ≠ '=' →
      Groups [a, b, c, '='] [first, second]
  | more {a b c d : Char} {first second third : UInt8} {rest : List Char}
      {octets : List UInt8} : d ≠ '=' → Groups rest octets →
      Groups (a :: b :: c :: d :: rest) (first :: second :: third :: octets)

theorem encode_groups (octets : List UInt8) : Groups (encode octets) octets := by
  induction octets using encode.induct with
  | case1 => exact .done
  | case2 a => exact .one (digit_padding _ (by omega))
  | case3 a b => exact .two (digit_padding _ (by omega))
  | case4 a b c rest ih => exact .more (digit_padding _ (by omega)) ih

def padding (text : List Char) : Nat := (text.reverse.takeWhile fun c => c == '=').length

def size (text : List Char) : Nat := text.length * 3 / 4 - padding text

/-- Nothing before a digit counts. -/
theorem padding_after {c : Char} (other : c ≠ '=') (front rest : List Char) :
    padding (front ++ c :: rest) = padding rest := by
  have last : (rest.reverse ++ c :: front.reverse).takeWhile (fun c => c == '=') =
      rest.reverse.takeWhile fun c => c == '=' := by
    rw [List.takeWhile_append]
    split
    · next whole =>
        have all : rest.reverse.takeWhile (fun c => c == '=') = rest.reverse :=
          (List.takeWhile_prefix _).eq_of_length whole
        simp [other, all]
    · rfl
  simp [padding, last]

theorem Groups.sized {text : List Char} {octets : List UInt8} (groups : Groups text octets) :
    text.length * 3 / 4 = octets.length + padding text := by
  induction groups with
  | done => rfl
  | @one a b first other =>
      have pads : padding [a, b, '=', '='] = padding ['=', '='] :=
        padding_after other [a] ['=', '=']
      have own : padding ['=', '='] = 2 := by decide
      simp [pads, own]
  | @two a b c first second other =>
      have pads : padding [a, b, c, '='] = padding ['='] := padding_after other [a, b] ['=']
      have own : padding ['='] = 1 := by decide
      simp [pads, own]
  | @more a b c d first second third rest octets other _ ih =>
      have pads : padding (a :: b :: c :: d :: rest) = padding rest :=
        padding_after other [a, b, c] rest
      simp only [List.length_cons, pads]
      omega

theorem size_encode (octets : List UInt8) : size (encode octets) = octets.length := by
  rw [size, (encode_groups octets).sized, Nat.add_sub_cancel]

end Sizes

end AgentTaskPlatform.Base64
