import AgentTaskPlatform.JsonRoundTrip
import Mathlib.Algebra.Order.Floor.Ring
import Mathlib.Data.Int.Log
import Mathlib.Data.Rat.Floor
import Mathlib.Data.List.TakeWhile
import Mathlib.Tactic.FieldSimp
import Mathlib.Tactic.IntervalCases
import Mathlib.Tactic.Linarith
import Mathlib.Tactic.NormNum
import Mathlib.Tactic.Positivity
import Mathlib.Tactic.Ring

/-!
Numbers of JSON texts: the decimal numerals with their exact values, and the rounding of a
value to binary64. The two zeros of binary64 are one value here.
-/

namespace AgentTaskPlatform.JsonNumbers

open JsonText

section Rounding

def roundEven (q : ℚ) : ℤ :=
  if q - ⌊q⌋ < 1 / 2 then ⌊q⌋
  else if 1 / 2 < q - ⌊q⌋ then ⌊q⌋ + 1
  else if ⌊q⌋ % 2 = 0 then ⌊q⌋
  else ⌊q⌋ + 1

def lastPlace (q : ℚ) : ℤ := max (-1074) (Int.log 2 |q| - 52)

def nearest (q : ℚ) : Option ℚ :=
  let rounded := roundEven (q / 2 ^ lastPlace q) * (2 : ℚ) ^ lastPlace q
  if |rounded| < 2 ^ (1024 : ℕ) then some rounded else none

def Exact (q : ℚ) : Prop := nearest q = some q

instance (q : ℚ) : Decidable (Exact q) := inferInstanceAs (Decidable (_ = _))

theorem roundEven_int (n : ℤ) : roundEven n = n := by
  simp [roundEven]

theorem exact_of_places {m e : ℤ} (short : |m| < 2 ^ 53) (normal : -1074 ≤ e)
    (bounded : |(m : ℚ) * 2 ^ e| < 2 ^ (1024 : ℕ)) : Exact (m * 2 ^ e) := by
  by_cases zero : m = 0
  · subst zero
    simp [Exact, nearest, roundEven]
  · have positive : (0 : ℚ) < 2 ^ e := zpow_pos two_pos e
    have size : |(m : ℚ) * 2 ^ e| = |m| * 2 ^ e := by
      rw [abs_mul, abs_of_pos positive, Int.cast_abs]
    have nonzero : 0 < |(m : ℚ) * 2 ^ e| := by
      rw [abs_pos]
      exact mul_ne_zero (Int.cast_ne_zero.mpr zero) positive.ne'
    have below : |(m : ℚ) * 2 ^ e| < 2 ^ (e + 53) := by
      rw [size, add_comm, zpow_add₀ two_ne_zero]
      apply mul_lt_mul_of_pos_right _ positive
      exact_mod_cast short
    have places : Int.log 2 |(m : ℚ) * 2 ^ e| < e + 53 :=
      (Int.lt_zpow_iff_log_lt one_lt_two nonzero).mp (by exact_mod_cast below)
    have last : lastPlace (m * 2 ^ e) ≤ e := max_le normal (by omega)
    obtain ⟨shift, difference⟩ : ∃ shift : ℕ, e - lastPlace (m * 2 ^ e) = shift :=
      ⟨_, (Int.toNat_of_nonneg (by omega)).symm⟩
    have scaled : (m : ℚ) * 2 ^ e / 2 ^ lastPlace (m * 2 ^ e) = ((m * 2 ^ shift : ℤ) : ℚ) := by
      rw [mul_div_assoc, ← zpow_sub₀ two_ne_zero, difference, zpow_natCast]
      push_cast
      rfl
    have whole : (roundEven (m * 2 ^ e / 2 ^ lastPlace (m * 2 ^ e)) : ℚ) *
        2 ^ lastPlace (m * 2 ^ e) = m * 2 ^ e := by
      rw [scaled, roundEven_int, ← scaled, div_mul_cancel₀ _ (zpow_ne_zero _ two_ne_zero)]
    simp only [Exact, nearest, whole]
    rw [if_pos bounded]

/-- Integers of up to 53 binary digits with a few zeros behind them are exact. -/
theorem exact_of_shifted {m : ℤ} {e : ℕ} (short : |m| < 2 ^ 53) (few : e ≤ 900) :
    Exact ((m * 2 ^ e : ℤ) : ℚ) := by
  have same : ((m * 2 ^ e : ℤ) : ℚ) = m * 2 ^ (e : ℤ) := by
    rw [zpow_natCast]
    push_cast
    rfl
  have positive : (0 : ℤ) < 2 ^ e := pow_pos two_pos e
  have below : |m * 2 ^ e| < (2 : ℤ) ^ (1024 : ℕ) := by
    calc
      |m * 2 ^ e| = |m| * 2 ^ e := by rw [abs_mul, abs_of_pos positive]
      _ < 2 ^ 53 * 2 ^ e := mul_lt_mul_of_pos_right short positive
      _ = 2 ^ (53 + e) := (pow_add 2 53 e).symm
      _ ≤ 2 ^ (1024 : ℕ) := pow_le_pow_right₀ one_le_two (by omega)
  have bounded : |(m : ℚ) * 2 ^ (e : ℤ)| < 2 ^ (1024 : ℕ) := by
    calc
      |(m : ℚ) * 2 ^ (e : ℤ)| = ((|m * 2 ^ e| : ℤ) : ℚ) := by rw [← same, Int.cast_abs]
      _ < (((2 : ℤ) ^ (1024 : ℕ) : ℤ) : ℚ) := Int.cast_lt.mpr below
      _ = 2 ^ (1024 : ℕ) := by rw [Int.cast_pow, Int.cast_ofNat]
  rw [same]
  exact exact_of_places short (by omega) bounded

theorem exact_of_small {n : ℤ} (small : |n| < 2 ^ 53) : Exact n := by
  have exact : Exact ((n * 2 ^ 0 : ℤ) : ℚ) := exact_of_shifted small (by decide)
  rw [pow_zero, mul_one] at exact
  exact exact

theorem exact_one : Exact ((1 : ℤ) : ℚ) := exact_of_small (by decide)

theorem roundEven_bounds (q : ℚ) : ⌊q⌋ ≤ roundEven q ∧ roundEven q ≤ ⌊q⌋ + 1 := by
  unfold roundEven
  split_ifs <;> omega

/-- A rounded value has at most 53 binary digits. -/
theorem roundEven_places (q : ℚ) : |roundEven (q / 2 ^ lastPlace q)| ≤ 2 ^ 53 := by
  by_cases zero : q = 0
  · subst zero
    simp [roundEven]
  · have positive : (0 : ℚ) < 2 ^ lastPlace q := zpow_pos two_pos _
    have below : |q / 2 ^ lastPlace q| < 2 ^ (53 : ℕ) := by
      have places : Int.log 2 |q| + 1 ≤ 53 + lastPlace q := by
        have := le_max_right (-1074) (Int.log 2 |q| - 52)
        unfold lastPlace
        omega
      rw [abs_div, abs_of_pos positive, div_lt_iff₀ positive, ← zpow_natCast,
        ← zpow_add₀ two_ne_zero]
      calc
        |q| < 2 ^ (Int.log 2 |q| + 1) := by
          exact_mod_cast Int.lt_zpow_succ_log_self one_lt_two |q|
        _ ≤ 2 ^ (((53 : ℕ) : ℤ) + lastPlace q) :=
          zpow_le_zpow_right₀ one_le_two places
    obtain ⟨low, high⟩ := abs_lt.mp below
    obtain ⟨least, most⟩ := roundEven_bounds (q / 2 ^ lastPlace q)
    have above : -(2 : ℤ) ^ 53 ≤ ⌊q / 2 ^ lastPlace q⌋ := by
      apply Int.le_floor.mpr
      push_cast
      exact low.le
    have under : ⌊q / 2 ^ lastPlace q⌋ < (2 : ℤ) ^ 53 := by
      apply Int.floor_lt.mpr
      push_cast
      exact high
    exact abs_le.mpr ⟨by omega, by omega⟩

theorem nearest_exact {q rounded : ℚ} (near : nearest q = some rounded) : Exact rounded := by
  simp only [nearest] at near
  split at near
  · next bounded =>
      cases near
      have normal : -1074 ≤ lastPlace q := le_max_left _ _
      by_cases short : |roundEven (q / 2 ^ lastPlace q)| < 2 ^ 53
      · exact exact_of_places short normal bounded
      · -- a carry: the same value with one place fewer
        have full : |roundEven (q / 2 ^ lastPlace q)| = 2 ^ 53 :=
          le_antisymm (roundEven_places q) (not_lt.mp short)
        obtain ⟨half, same⟩ : ∃ half : ℤ, roundEven (q / 2 ^ lastPlace q) = half * 2 :=
          ⟨roundEven (q / 2 ^ lastPlace q) / 2, by
            rcases abs_eq (by norm_num : (0 : ℤ) ≤ 2 ^ 53) |>.mp full with whole | whole <;> omega⟩
        have carried : (roundEven (q / 2 ^ lastPlace q) : ℚ) * 2 ^ lastPlace q =
            half * 2 ^ (lastPlace q + 1) := by
          rw [same, zpow_add₀ two_ne_zero, zpow_one]
          push_cast
          ring
        have fewer : |half| < 2 ^ 53 := by
          rw [same, abs_mul] at full
          have two : |(2 : ℤ)| = 2 := rfl
          rw [two] at full
          have := abs_nonneg half
          omega
        rw [carried] at bounded ⊢
        exact exact_of_places fewer (by omega) bounded
  · cases near

abbrev Double := { q : ℚ // Exact q }

end Rounding

section Literals

/-- A decimal numeral: its exact value, and whether it has only whole digits. -/
structure Literal where
  value : ℚ
  integral : Bool

def natural (digits : List Char) : Nat := Nat.ofDigitChars 10 digits 0

def readExponent (value : ℚ) : List Char → Option Literal
  | [] => none
  | mark :: rest =>
      let digits := if rest.head? = some '-' || rest.head? = some '+' then rest.tail else rest
      if (mark = 'e' || mark = 'E') && !digits.isEmpty && digits.all Char.isDigit then
        if rest.head? = some '-' then some ⟨value / 10 ^ natural digits, false⟩
        else some ⟨value * 10 ^ natural digits, false⟩
      else none

def readFraction (whole : Nat) (rest : List Char) : Option Literal :=
  let digits := rest.takeWhile Char.isDigit
  let value : ℚ := whole + natural digits / 10 ^ digits.length
  let after := rest.dropWhile Char.isDigit
  if digits.isEmpty then none
  else if after.isEmpty then some ⟨value, false⟩
  else readExponent value after

def readUnsigned (text : List Char) : Option Literal :=
  let whole := text.takeWhile Char.isDigit
  if whole.isEmpty || (whole.length > 1 && whole.head? = some '0') then none
  else match text.dropWhile Char.isDigit with
  | [] => some ⟨natural whole, true⟩
  | '.' :: rest => readFraction (natural whole) rest
  | rest => readExponent (natural whole) rest

def readLiteral (token : List Char) : Option Literal :=
  if token.head? = some '-' then
    (readUnsigned token.tail).map fun literal => ⟨-literal.value, literal.integral⟩
  else readUnsigned token

def naturalText (n : Nat) : List Char := Nat.toDigits 10 n

def integerText (n : ℤ) : List Char :=
  if n < 0 then '-' :: naturalText n.natAbs else naturalText n.natAbs

theorem naturalText_head {n : Nat} (positive : 0 < n) : (naturalText n).head? ≠ some '0' := by
  induction n using Nat.strongRecOn with
  | _ n ih =>
      unfold naturalText at ih ⊢
      by_cases short : n < 10
      · rw [Nat.toDigits_of_lt_base short]
        interval_cases n <;> decide
      · rw [Nat.toDigits_of_base_le (by decide) (by omega)]
        have before := ih (n / 10) (by omega) (by omega)
        cases digits : Nat.toDigits 10 (n / 10) with
        | nil => exact absurd digits Nat.toDigits_ne_nil
        | cons first rest =>
            rw [digits] at before
            exact before

theorem readUnsigned_naturalText (n : Nat) :
    readUnsigned (naturalText n) = some ⟨n, true⟩ := by
  have digits : ∀ c ∈ naturalText n, c.isDigit = true := fun c member =>
    Nat.isDigit_of_mem_toDigits (by decide) (by decide) member
  have whole : (naturalText n).takeWhile Char.isDigit = naturalText n :=
    List.takeWhile_eq_self_iff.mpr digits
  have rest : (naturalText n).dropWhile Char.isDigit = [] :=
    List.dropWhile_eq_nil_iff.mpr digits
  have written : (naturalText n).isEmpty = false := by
    cases digitsOf : naturalText n with
    | nil => exact absurd digitsOf Nat.toDigits_ne_nil
    | cons first rest => rfl
  have lead : (decide ((naturalText n).length > 1) && decide ((naturalText n).head? = some '0')) =
      false := by
    by_cases zero : n = 0
    · subst zero
      decide
    · simp [naturalText_head (Nat.pos_of_ne_zero zero)]
  simp only [readUnsigned, whole, rest, written, lead, Bool.or_false, Bool.false_eq_true, if_false]
  rw [natural, naturalText, Nat.ofDigitChars_ten_toDigits]

theorem readLiteral_integerText (n : ℤ) : readLiteral (integerText n) = some ⟨n, true⟩ := by
  have absolute := readUnsigned_naturalText n.natAbs
  unfold integerText
  by_cases negative : n < 0
  · rw [if_pos negative, readLiteral, List.head?_cons, if_pos rfl, List.tail_cons, absolute,
      Option.map_some, Nat.cast_natAbs, abs_of_neg negative, Int.cast_neg, neg_neg]
  · rw [if_neg negative, readLiteral, if_neg, absolute]
    · rw [Nat.cast_natAbs, abs_of_nonneg (Int.not_lt.mp negative)]
    · intro minus
      have digit : '-'.isDigit = true :=
        Nat.isDigit_of_mem_toDigits (by decide) (by decide) (List.mem_of_mem_head? minus)
      cases digit

theorem naturalText_numeral (n : Nat) : Numeral (naturalText n) := by
  refine ⟨Nat.toDigits_ne_nil, ?_⟩
  intro c member
  have digit : c.isDigit = true := Nat.isDigit_of_mem_toDigits (by decide) (by decide) member
  simp [isNumeral, digit]

theorem integerText_numeral (n : ℤ) : Numeral (integerText n) := by
  unfold integerText
  split
  · refine ⟨List.cons_ne_nil _ _, ?_⟩
    intro c member
    rcases List.mem_cons.mp member with rfl | digits
    · rfl
    · exact (naturalText_numeral n.natAbs).2 c digits
  · exact naturalText_numeral n.natAbs

def scaledText (n : ℤ) (places : Nat) : List Char := integerText n ++ 'e' :: '-' :: naturalText places

theorem readUnsigned_scaled (n places : Nat) :
    readUnsigned (naturalText n ++ 'e' :: '-' :: naturalText places) =
      some ⟨n / 10 ^ places, false⟩ := by
  have digits (n : Nat) : ∀ c ∈ naturalText n, c.isDigit = true := fun c member =>
    Nat.isDigit_of_mem_toDigits (by decide) (by decide) member
  have whole : (naturalText n ++ 'e' :: '-' :: naturalText places).takeWhile Char.isDigit =
      naturalText n := by
    rw [List.takeWhile_append_of_pos (digits n)]
    exact List.append_nil _
  have rest : (naturalText n ++ 'e' :: '-' :: naturalText places).dropWhile Char.isDigit =
      'e' :: '-' :: naturalText places :=
    List.dropWhile_append_of_pos (digits n)
  have plain := readUnsigned_naturalText n
  have alone : (naturalText n).takeWhile Char.isDigit = naturalText n :=
    List.takeWhile_eq_self_iff.mpr (digits n)
  have value (n : Nat) : natural (naturalText n) = n := Nat.ofDigitChars_ten_toDigits
  simp only [readUnsigned, alone] at plain
  simp only [readUnsigned, whole, rest, value]
  split at plain
  · cases plain
  · next lead =>
      have all : (naturalText places).all Char.isDigit = true := List.all_eq_true.mpr (digits places)
      have written : (naturalText places).isEmpty = false := by
        cases digitsOf : naturalText places with
        | nil => exact absurd digitsOf Nat.toDigits_ne_nil
        | cons first rest => rfl
      rw [if_neg lead]
      simp [readExponent, all, written, value]

theorem readLiteral_scaled (n : ℤ) (places : Nat) :
    readLiteral (scaledText n places) = some ⟨n / 10 ^ places, false⟩ := by
  have absolute := readUnsigned_scaled n.natAbs places
  unfold scaledText integerText
  by_cases negative : n < 0
  · rw [if_pos negative, readLiteral, List.cons_append, List.head?_cons, if_pos rfl, List.tail_cons,
      absolute, Option.map_some, Nat.cast_natAbs, abs_of_neg negative, Int.cast_neg, neg_div, neg_neg]
  · rw [if_neg negative, readLiteral, if_neg, absolute, Nat.cast_natAbs,
      abs_of_nonneg (Int.not_lt.mp negative)]
    intro minus
    have written : naturalText n.natAbs ≠ [] := Nat.toDigits_ne_nil
    rw [List.head?_append_of_ne_nil _ written] at minus
    have digit : '-'.isDigit = true :=
      Nat.isDigit_of_mem_toDigits (by decide) (by decide) (List.mem_of_mem_head? minus)
    cases digit

theorem scaledText_numeral (n : ℤ) (places : Nat) : Numeral (scaledText n places) := by
  refine ⟨by simp [scaledText], ?_⟩
  intro c member
  simp only [scaledText, List.mem_append, List.mem_cons] at member
  rcases member with whole | rfl | rfl | exponent
  · exact (integerText_numeral n).2 c whole
  · rfl
  · rfl
  · exact (naturalText_numeral places).2 c exponent

theorem exact_scaled {q : ℚ} (exact : Exact q) :
    ∃ n : ℤ, q * 2 ^ (1074 : ℕ) = n := by
  simp only [Exact, nearest] at exact
  split at exact
  · have same := Option.some.inj exact
    have normal : -1074 ≤ lastPlace q := le_max_left _ _
    obtain ⟨shift, places⟩ : ∃ shift : ℕ, lastPlace q + (1074 : ℕ) = shift :=
      ⟨(lastPlace q + (1074 : ℕ)).toNat, by omega⟩
    refine ⟨roundEven (q / 2 ^ lastPlace q) * 2 ^ shift, ?_⟩
    calc
      q * 2 ^ (1074 : ℕ) =
          roundEven (q / 2 ^ lastPlace q) * (2 ^ lastPlace q * 2 ^ ((1074 : ℕ) : ℤ)) := by
        rw [zpow_natCast, ← mul_assoc, same]
      _ = roundEven (q / 2 ^ lastPlace q) * 2 ^ ((shift : ℕ) : ℤ) := by
        rw [← zpow_add₀ two_ne_zero, places]
      _ = ((roundEven (q / 2 ^ lastPlace q) * 2 ^ shift : ℤ) : ℚ) := by
        rw [zpow_natCast]
        push_cast
        rfl
  · cases exact

end Literals

end AgentTaskPlatform.JsonNumbers
