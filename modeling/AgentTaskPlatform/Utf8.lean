import AgentTaskPlatform.Unquote

/-!
UTF-8. A text can be read back from its octets, also by the decoder that replaces what it
cannot read.
-/

namespace AgentTaskPlatform.Utf8

open Unquote

/-- An octet after the first one, with the last six bits of a value. -/
def tail (value : Nat) : UInt8 := UInt8.ofNat (0x80 + value % 64)

def encodeChar (char : Char) : List UInt8 :=
  if char.toNat < 0x80 then [UInt8.ofNat char.toNat]
  else if char.toNat < 0x800 then [UInt8.ofNat (0xC0 + char.toNat / 64), tail char.toNat]
  else if char.toNat < 0x10000 then
    [UInt8.ofNat (0xE0 + char.toNat / 4096), tail (char.toNat / 64), tail char.toNat]
  else
    [UInt8.ofNat (0xF0 + char.toNat / 262144), tail (char.toNat / 4096), tail (char.toNat / 64),
      tail char.toNat]

def encode (text : List Char) : List UInt8 := text.flatMap encodeChar

section Reading

variable {char : Char} {byte : UInt8} {rest : List UInt8} {pending : Pending}

theorem toNat_ofNat {value : Nat} (small : value < 256) : (UInt8.ofNat value).toNat = value := by
  simp [Nat.mod_eq_of_lt small]

theorem toNat_tail (value : Nat) : (tail value).toNat = 0x80 + value % 64 :=
  toNat_ofNat (by omega)

theorem decode_accepted (accepted : pending.accepts byte) :
    decode (some pending) (byte :: rest) =
      (pending.take byte accepted).1 ++ decode (pending.take byte accepted).2 rest := by
  have taken : step (some pending) byte = pending.take byte accepted := dif_pos accepted
  rw [decode, taken]

/-- The last octet of a sequence ends its character. -/
theorem decode_last (left : pending.more = 0) (accepted : pending.accepts byte)
    (same : char.toNat = pending.joined byte) :
    decode (some pending) (byte :: rest) = char :: decode none rest := by
  rw [decode_accepted accepted]
  unfold Pending.take
  split
  next =>
    have equal : Char.ofNatAux (pending.joined byte)
        (Pending.joined_scalar accepted _ (by simp [left]) (by simp [left])).2 = char := by
      apply Char.ext
      apply UInt32.toNat_inj.mp
      exact same.symm
    rw [equal]
    rfl
  next more some => omega

/-- Any other octet leaves a sequence with one octet less. -/
theorem decode_next {more : Nat} (left : pending.more = more + 1)
    (accepted : pending.accepts byte) : ∃ next : Pending, next.more = more ∧ next.lower = 0x80 ∧
      next.upper = 0xBF ∧ next.point = pending.joined byte ∧
      decode (some pending) (byte :: rest) = decode (some next) rest := by
  rw [decode_accepted accepted]
  unfold Pending.take
  split
  next none => omega
  next fewer some =>
    obtain rfl : fewer = more := by omega
    refine ⟨_, ?_, ?_, ?_, ?_, rfl⟩ <;> rfl

theorem start_two {value : Nat} (least : 0xC2 ≤ value) (most : value ≤ 0xDF) :
    ∃ next : Pending, start value = ([], some next) ∧ next.more = 0 ∧
      next.point = value - 0xC0 ∧ next.lower = 0x80 ∧ next.upper = 0xBF := by
  have beyond : ¬ value < 0x80 := by omega
  rw [start, dif_neg beyond, dif_pos ⟨least, most⟩]
  exact ⟨_, rfl, rfl, rfl, rfl, rfl⟩

-- After `0xE0` an overlong form could follow, and a surrogate after `0xED`.
theorem start_three {value : Nat} (least : 0xE0 ≤ value) (most : value ≤ 0xEF) :
    ∃ next : Pending, start value = ([], some next) ∧ next.more = 1 ∧
      next.point = value - 0xE0 ∧ next.lower = (if value = 0xE0 then 0xA0 else 0x80) ∧
      next.upper = if value = 0xED then 0x9F else 0xBF := by
  have beyond : ¬ value < 0x80 := by omega
  have longer : ¬ (0xC2 ≤ value ∧ value ≤ 0xDF) := by omega
  rw [start, dif_neg beyond, dif_neg longer]
  by_cases first : value = 0xE0
  · subst first
    exact ⟨_, rfl, rfl, rfl, rfl, rfl⟩
  · rw [if_neg first]
    by_cases surrogates : value = 0xED
    · subst surrogates
      exact ⟨_, rfl, rfl, rfl, rfl, rfl⟩
    · have inside : 0xE1 ≤ value ∧ value ≤ 0xEF := by omega
      rw [dif_neg surrogates, dif_pos inside, if_neg first, if_neg surrogates]
      exact ⟨_, rfl, rfl, rfl, rfl, rfl⟩

theorem start_four {value : Nat} (least : 0xF0 ≤ value) (most : value ≤ 0xF4) :
    ∃ next : Pending, start value = ([], some next) ∧ next.more = 2 ∧
      next.point = value - 0xF0 ∧ next.lower = (if value = 0xF0 then 0x90 else 0x80) ∧
      next.upper = if value = 0xF4 then 0x8F else 0xBF := by
  have cases : value = 0xF0 ∨ value = 0xF4 ∨ 0xF1 ≤ value ∧ value ≤ 0xF3 := by omega
  rcases cases with rfl | rfl | inside
  · exact ⟨_, rfl, rfl, rfl, rfl, rfl⟩
  · exact ⟨_, rfl, rfl, rfl, rfl, rfl⟩
  · have beyond : ¬ value < 0x80 := by omega
    have longer : ¬ (0xC2 ≤ value ∧ value ≤ 0xDF) := by omega
    have three : ¬ (0xE1 ≤ value ∧ value ≤ 0xEF) := by omega
    rw [start, dif_neg beyond, dif_neg longer, if_neg (by omega), dif_neg (by omega),
      dif_neg three, if_neg (by omega), dif_pos inside, if_neg (by omega), if_neg (by omega)]
    exact ⟨_, rfl, rfl, rfl, rfl, rfl⟩

theorem decode_none (byte : UInt8) (rest : List UInt8) :
    decode none (byte :: rest) = (start byte.toNat).1 ++ decode (start byte.toNat).2 rest := rfl

theorem accepts_tail {value : Nat} (least : pending.lower ≤ 0x80 + value % 64)
    (most : 0x80 + value % 64 ≤ pending.upper) : pending.accepts (tail value) := by
  rw [Pending.accepts, toNat_tail]
  exact ⟨least, most⟩

theorem joined_tail (value : Nat) :
    pending.joined (tail value) = pending.point * 64 + value % 64 := by
  have octet := toNat_tail value
  unfold Pending.joined
  omega

theorem decode_two {value : Nat} (left : pending.more = 1)
    (least : pending.lower ≤ 0x80 + value / 64 % 64)
    (most : 0x80 + value / 64 % 64 ≤ pending.upper)
    (same : char.toNat = pending.point * 4096 + value % 4096) :
    decode (some pending) (tail (value / 64) :: tail value :: rest) = char :: decode none rest := by
  obtain ⟨next, none, lower, upper, point, read⟩ := @decode_next _ (tail value :: rest) pending 0
    left (accepts_tail least most)
  rw [read]
  apply decode_last none (accepts_tail (by omega) (by omega))
  rw [joined_tail, point, joined_tail, same]
  omega

theorem decode_encodeChar (char : Char) (rest : List UInt8) :
    decode none (encodeChar char ++ rest) = char :: decode none rest := by
  have valid : char.toNat < 0xD800 ∨ 0xDFFF < char.toNat ∧ char.toNat < 0x110000 := char.valid
  unfold encodeChar
  by_cases ascii : char.toNat < 0x80
  · rw [if_pos ascii, List.singleton_append, decode_none, toNat_ofNat (by omega), start,
      dif_pos ascii, Char.ofNat_toNat]
    rfl
  rw [if_neg ascii]
  by_cases two : char.toNat < 0x800
  · obtain ⟨next, begun, none, point, lower, upper⟩ :=
      @start_two (0xC0 + char.toNat / 64) (by omega) (by omega)
    rw [if_pos two, List.cons_append, decode_none, toNat_ofNat (by omega), begun]
    apply decode_last none (accepts_tail (by omega) (by omega))
    rw [joined_tail, point]
    omega
  rw [if_neg two]
  by_cases three : char.toNat < 0x10000
  · obtain ⟨next, begun, one, point, lower, upper⟩ :=
      @start_three (0xE0 + char.toNat / 4096) (by omega) (by omega)
    rw [if_pos three, List.cons_append, decode_none, toNat_ofNat (by omega), begun]
    refine decode_two one ?_ ?_ ?_
    · rw [lower]
      split <;> omega
    · rw [upper]
      split <;> omega
    · rw [point]
      omega
  · obtain ⟨next, begun, some, point, lower, upper⟩ :=
      @start_four (0xF0 + char.toNat / 262144) (by omega) (by omega)
    rw [if_neg three, List.cons_append, decode_none, toNat_ofNat (by omega), begun]
    have least : next.lower ≤ 0x80 + char.toNat / 4096 % 64 := by
      rw [lower]
      split <;> omega
    have most : 0x80 + char.toNat / 4096 % 64 ≤ next.upper := by
      rw [upper]
      split <;> omega
    obtain ⟨later, one, lower, upper, joined, read⟩ := @decode_next _
      (tail (char.toNat / 64) :: tail char.toNat :: rest) next 1 some (accepts_tail least most)
    change decode (Option.some next) _ = _
    rw [List.cons_append, List.cons_append, List.cons_append, List.nil_append, read]
    refine decode_two one ?_ ?_ ?_
    · omega
    · omega
    · rw [joined, joined_tail, point]
      omega

theorem decode_encode (text : List Char) : decode none (encode text) = text := by
  induction text with
  | nil => rfl
  | cons char rest ih =>
      rw [encode, List.flatMap_cons, decode_encodeChar]
      exact congrArg (List.cons char) ih

end Reading

end AgentTaskPlatform.Utf8
