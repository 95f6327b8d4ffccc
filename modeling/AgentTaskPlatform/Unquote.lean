import Mathlib.Algebra.Group.Nat.Defs
import Mathlib.Data.List.Count
import Mathlib.Tactic.Common

/-!
`urllib.parse.unquote`. The escapes of a run of ASCII characters become octets, which are
decoded as UTF-8 with `errors='replace'`. Every other character stays as it is.
-/

namespace AgentTaskPlatform.Unquote

section Octets

def hexDigit (digit : Char) : Option Nat :=
  if '0' ≤ digit ∧ digit ≤ '9' then some (digit.toNat - '0'.toNat)
  else if 'a' ≤ digit ∧ digit ≤ 'f' then some (digit.toNat - 'a'.toNat + 10)
  else if 'A' ≤ digit ∧ digit ≤ 'F' then some (digit.toNat - 'A'.toNat + 10)
  else none

def hexToByte (high low : Char) : Option UInt8 := do
  let first ← hexDigit high
  let second ← hexDigit low
  return UInt8.ofNat (first * 16 + second)

def octet (char : Char) : UInt8 := UInt8.ofNat char.toNat

/-- `unquote_to_bytes`, of ASCII characters. A `%` without two digits stands for itself. -/
def unquoteToBytes : List Char → List UInt8
  | [] => []
  | first :: high :: low :: rest =>
      if first = '%' then
        match hexToByte high low with
        | some byte => byte :: unquoteToBytes rest
        | none => octet first :: unquoteToBytes (high :: low :: rest)
      else octet first :: unquoteToBytes (high :: low :: rest)
  | first :: rest => octet first :: unquoteToBytes rest

theorem hexDigit_slash : hexDigit '/' = none := by decide

/-- No digit is a separator, so the escapes take none away. -/
theorem unquoteToBytes_slashes (text : List Char) :
    text.count '/' ≤ (unquoteToBytes text).count (octet '/') := by
  have own (first : Char) (rest : List Char) (bytes : List UInt8)
      (ih : rest.count '/' ≤ bytes.count (octet '/')) :
      (first :: rest).count '/' ≤ (octet first :: bytes).count (octet '/') := by
    by_cases slash : first = '/'
    · subst slash
      simpa using ih
    · rw [List.count_cons_of_ne slash]
      exact Nat.le_trans ih List.count_le_count_cons
  fun_induction unquoteToBytes text with
  | case1 => simp
  | case2 high low rest byte found ih =>
      have digits : high ≠ '/' ∧ low ≠ '/' := by
        constructor <;> rintro rfl <;> simp [hexToByte, hexDigit_slash] at found
      rw [List.count_cons_of_ne (by decide), List.count_cons_of_ne digits.1,
        List.count_cons_of_ne digits.2]
      exact Nat.le_trans ih List.count_le_count_cons
  | case3 high low rest found ih => exact own _ _ _ ih
  | case4 first high low rest other ih => exact own _ _ _ ih
  | case5 first rest short ih => exact own _ _ _ ih

end Octets

section Decoding

def replacement : Char := Char.ofNat 0xFFFD

/-- A sequence of octets of which the first have been read. It says what the next octet
may be, and how many come after it. -/
structure Pending where
  more : Nat
  lower : Nat
  upper : Nat
  point : Nat
  continues : 0x80 ≤ lower
  /-- Whatever the sequence can still become is a scalar value beyond ASCII. -/
  scalar : ∀ value, (point * 64 + (lower - 0x80)) * 64 ^ more ≤ value →
    value < (point * 64 + (upper - 0x80) + 1) * 64 ^ more →
      0x80 ≤ value ∧ value.isValidChar

namespace Pending

def accepts (pending : Pending) (byte : UInt8) : Prop :=
  pending.lower ≤ byte.toNat ∧ byte.toNat ≤ pending.upper

instance (pending : Pending) (byte : UInt8) : Decidable (pending.accepts byte) :=
  inferInstanceAs (Decidable (_ ∧ _))

variable (pending : Pending) (byte : UInt8)

def joined : Nat := pending.point * 64 + (byte.toNat - 0x80)

variable {pending byte} in
theorem joined_scalar (accepted : pending.accepts byte) (value : Nat)
    (least : pending.joined byte * 64 ^ pending.more ≤ value)
    (bound : value < (pending.joined byte + 1) * 64 ^ pending.more) :
    0x80 ≤ value ∧ value.isValidChar := by
  have from_lower := Nat.sub_le_sub_right accepted.1 0x80
  have to_upper := Nat.sub_le_sub_right accepted.2 0x80
  refine pending.scalar value (Nat.le_trans ?_ least) (Nat.lt_of_lt_of_le bound ?_)
  · exact Nat.mul_le_mul_right _ (Nat.add_le_add_left from_lower _)
  · exact Nat.mul_le_mul_right _ (Nat.add_le_add_right (Nat.add_le_add_left to_upper _) 1)

/-- The octets that follow are worth less than one unit of those that have been read. -/
theorem next_scalar (accepted : pending.accepts byte) (more : Nat)
    (left : pending.more = more + 1) (value : Nat)
    (least : (pending.joined byte * 64 + (0x80 - 0x80)) * 64 ^ more ≤ value)
    (bound : value < (pending.joined byte * 64 + (0xBF - 0x80) + 1) * 64 ^ more) :
    0x80 ≤ value ∧ value.isValidChar := by
  have unit : (64 : Nat) ^ (more + 1) = 64 * 64 ^ more := Nat.pow_succ'
  apply joined_scalar accepted value
  · rw [left, unit, ← Nat.mul_assoc]
    simpa using least
  · rw [left, unit, ← Nat.mul_assoc, Nat.add_mul]
    simpa using bound

def take (accepted : pending.accepts byte) : List Char × Option Pending :=
  match left : pending.more with
  | 0 => ([Char.ofNatAux (pending.joined byte)
      (joined_scalar accepted _ (by simp [left]) (by simp [left])).2], none)
  | more + 1 => ([], some ⟨more, 0x80, 0xBF, pending.joined byte, Nat.le_refl _,
      next_scalar pending byte accepted more left⟩)

theorem take_slashes (accepted : pending.accepts byte) :
    (pending.take byte accepted).1.count '/' = 0 := by
  unfold take
  split
  next left =>
    have beyond := (joined_scalar accepted (pending.joined byte) (by simp [left])
      (by simp [left])).1
    rw [List.count_eq_zero, List.mem_singleton]
    intro slash
    have same : (47 : Nat) = pending.joined byte := by
      exact congrArg Char.toNat slash
    omega
  next => rfl

end Pending

def start (value : Nat) : List Char × Option Pending :=
  if ascii : value < 0x80 then ([Char.ofNat value], none)
  else if two : 0xC2 ≤ value ∧ value ≤ 0xDF then
    ([], some ⟨0, 0x80, 0xBF, value - 0xC0, Nat.le_refl _, by simp [Nat.isValidChar]; omega⟩)
  else if value = 0xE0 then
    ([], some ⟨1, 0xA0, 0xBF, 0, by decide, by simp [Nat.isValidChar]; omega⟩)
  else if surrogates : value = 0xED then
    ([], some ⟨1, 0x80, 0x9F, 0xD, Nat.le_refl _, by simp [Nat.isValidChar]; omega⟩)
  else if three : 0xE1 ≤ value ∧ value ≤ 0xEF then
    ([], some ⟨1, 0x80, 0xBF, value - 0xE0, Nat.le_refl _, by simp [Nat.isValidChar]; omega⟩)
  else if value = 0xF0 then
    ([], some ⟨2, 0x90, 0xBF, 0, by decide, by simp [Nat.isValidChar]; omega⟩)
  else if four : 0xF1 ≤ value ∧ value ≤ 0xF3 then
    ([], some ⟨2, 0x80, 0xBF, value - 0xF0, Nat.le_refl _, by simp [Nat.isValidChar]; omega⟩)
  else if value = 0xF4 then
    ([], some ⟨2, 0x80, 0x8F, 4, Nat.le_refl _, by simp [Nat.isValidChar]; omega⟩)
  else ([replacement], none)

/-- An octet that cannot continue what is pending ends it, and is read again as a first one. -/
def step : Option Pending → UInt8 → List Char × Option Pending
  | none, byte => start byte.toNat
  | some pending, byte =>
      if accepted : pending.accepts byte then pending.take byte accepted
      else (replacement :: (start byte.toNat).1, (start byte.toNat).2)

def decode : Option Pending → List UInt8 → List Char
  | none, [] => []
  | some _, [] => [replacement]
  | pending, byte :: rest => (step pending byte).1 ++ decode (step pending byte).2 rest

theorem start_slashes (value : Nat) :
    (start value).1.count '/' = if value = 47 then 1 else 0 := by
  by_cases ascii : value < 0x80
  · have whole : (Char.ofNat value).toNat = value := by
      have valid : value.isValidChar := Or.inl (by omega)
      rw [Char.ofNat, dif_pos valid]
      rfl
    simp only [start, dif_pos ascii]
    by_cases slash : value = 47
    · rw [if_pos slash, slash]
      rfl
    · rw [if_neg slash, List.count_eq_zero, List.mem_singleton]
      intro same
      rw [← same] at whole
      exact slash whole.symm
  · have other : ¬ value = 47 := by omega
    simp only [start, dif_neg ascii, if_neg other]
    split_ifs <;> rfl

theorem is_slash (byte : UInt8) : byte = octet '/' ↔ byte.toNat = 47 := UInt8.toNat_inj.symm

theorem step_slashes (pending : Option Pending) (byte : UInt8) :
    (step pending byte).1.count '/' = if byte = octet '/' then 1 else 0 := by
  cases pending with
  | none =>
      simp only [step, is_slash]
      exact start_slashes byte.toNat
  | some pending =>
      by_cases accepted : pending.accepts byte
      · have other : byte ≠ octet '/' := by
          rintro rfl
          exact absurd (Nat.le_trans pending.continues accepted.1) (by decide)
        simp only [step, dif_pos accepted]
        rw [pending.take_slashes, if_neg other]
      · simp only [step, dif_neg accepted]
        simp only [is_slash]
        rw [List.count_cons_of_ne (by decide), start_slashes]

theorem decode_slashes (pending : Option Pending) (bytes : List UInt8) :
    (decode pending bytes).count '/' = bytes.count (octet '/') := by
  induction bytes generalizing pending with
  | nil => cases pending <;> rfl
  | cons byte rest ih =>
      rw [decode, List.count_append, ih, step_slashes, List.count_cons, Nat.add_comm]
      simp

end Decoding

section Texts

def isAscii (char : Char) : Bool := char.toNat < 128

def unquoteFrom : List Char → List Char → List Char
  | run, [] => decode none (unquoteToBytes run)
  | run, char :: rest =>
      if isAscii char then unquoteFrom (run ++ [char]) rest
      else decode none (unquoteToBytes run) ++ char :: unquoteFrom [] rest

def unquote (text : List Char) : List Char :=
  if '%' ∈ text then unquoteFrom [] text else text

theorem unquoteFrom_slashes (run text : List Char) :
    run.count '/' + text.count '/' ≤ (unquoteFrom run text).count '/' := by
  have before (run : List Char) :
      run.count '/' ≤ (decode none (unquoteToBytes run)).count '/' := by
    rw [decode_slashes]
    exact unquoteToBytes_slashes run
  induction text generalizing run with
  | nil => simpa [unquoteFrom] using before run
  | cons char rest ih =>
      rw [unquoteFrom]
      split
      next =>
        have longer := ih (run ++ [char])
        rw [List.count_append] at longer
        have parts : (char :: rest).count '/' = [char].count '/' + rest.count '/' := by
          rw [← List.count_append, List.singleton_append]
        omega
      next foreign =>
        have other : char ≠ '/' := by
          rintro rfl
          exact foreign (by decide)
        have later := ih []
        have first := before run
        rw [List.count_append, List.count_cons_of_ne other, List.count_cons_of_ne other]
        simp only [List.count_nil, Nat.zero_add] at later
        omega

/-- Decoding takes no separator away. -/
theorem unquote_slashes (text : List Char) : text.count '/' ≤ (unquote text).count '/' := by
  unfold unquote
  split
  · simpa using unquoteFrom_slashes [] text
  · exact Nat.le_refl _

end Texts

section LastCharacter

variable {last : Char} (ascii : isAscii last = true) (digit : hexDigit last = none)

include digit in
theorem unquoteToBytes_snoc (text : List Char) :
    unquoteToBytes (text ++ [last]) = unquoteToBytes text ++ [octet last] := by
  have stray (high : Char) : hexToByte high last = none := by
    simp [hexToByte, digit]
  fun_induction unquoteToBytes text with
  | case1 => rfl
  | case2 high low rest byte found ih => simp [unquoteToBytes, found, ih]
  | case3 high low rest found ih =>
      simp only [List.cons_append, unquoteToBytes, found, if_true] at ih ⊢
      rw [ih]
  | case4 first high low rest other ih =>
      simp only [List.cons_append, unquoteToBytes, other, if_false] at ih ⊢
      rw [ih]
  | case5 first rest short ih =>
      match rest with
      | [] => rfl
      | [high] => simp [unquoteToBytes, stray]
      | high :: low :: rest => exact absurd rfl (short high low rest)

include ascii in
theorem decode_snoc (pending : Option Pending) (bytes : List UInt8) :
    decode pending (bytes ++ [octet last]) = decode pending bytes ++ [last] := by
  have bound : last.toNat < 128 := by simpa [isAscii] using ascii
  have value : (octet last).toNat = last.toNat := by
    simp [octet, UInt8.toNat_ofNat']
    omega
  have starts : start (octet last).toNat = ([last], none) := by
    rw [value, start, dif_pos (by omega), Char.ofNat_toNat]
  induction bytes generalizing pending with
  | nil =>
      cases pending with
      | none => simp [decode, step, starts]
      | some pending =>
          have refused : ¬ pending.accepts (octet last) := by
            intro accepted
            have least := Nat.le_trans pending.continues accepted.1
            omega
          simp [decode, step, refused, starts]
  | cons byte rest ih => simp [decode, ih]

include ascii digit in
theorem unquote_snoc (other : last ≠ '%') (text : List Char) :
    unquote (text ++ [last]) = unquote text ++ [last] := by
  have later (run : List Char) :
      unquoteFrom run (text ++ [last]) = unquoteFrom run text ++ [last] := by
    induction text generalizing run with
    | nil =>
        simp only [List.nil_append, unquoteFrom, ascii, if_true]
        rw [unquoteToBytes_snoc digit, decode_snoc ascii]
    | cons char rest ih =>
        simp only [List.cons_append, unquoteFrom]
        split
        · exact ih _
        · rw [ih, List.append_assoc, List.cons_append]
  by_cases escaped : '%' ∈ text
  · rw [unquote, unquote, if_pos (List.mem_append_left _ escaped), if_pos escaped, later]
  · have plain : '%' ∉ text ++ [last] := by
      simp [escaped, Ne.symm other]
    rw [unquote, unquote, if_neg plain, if_neg escaped]

end LastCharacter
end AgentTaskPlatform.Unquote
