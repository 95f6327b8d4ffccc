import Mathlib.Algebra.Order.Floor.Semiring
import Mathlib.Algebra.Order.Field.Basic
import Mathlib.Tactic.Linarith
import Mathlib.Tactic.Ring

/-!
Grants over time, newest first, and two ways to bound them: an account that fills at a rate
up to its capacity, and a window that looks back over one unit of time.
-/

namespace AgentTaskPlatform.Arrivals

variable {K : Type} [LinearOrder K]

def within (times : List K) (start stop : K) : Nat :=
  times.countP fun time => start ≤ time ∧ time ≤ stop

def after (times : List K) (start stop : K) : Nat :=
  times.countP fun time => start < time ∧ time ≤ stop

@[simp] theorem within_nil (start stop : K) : within [] start stop = 0 := rfl

theorem within_cons (time : K) (times : List K) (start stop : K) :
    within (time :: times) start stop =
      within times start stop + if start ≤ time ∧ time ≤ stop then 1 else 0 := by
  by_cases inside : start ≤ time ∧ time ≤ stop
  · simp [within, inside]
  · simp [within, inside]

/-- Past the last of the times an interval gets no more of them. -/
theorem within_later {times : List K} {now stop : K} (past : ∀ time ∈ times, time ≤ now)
    (later : now ≤ stop) (start : K) : within times start stop = within times start now := by
  apply List.countP_congr
  intro time member
  have before := past time member
  have inside := before.trans later
  simp [before, inside]

theorem within_empty {times : List K} {now start : K} (past : ∀ time ∈ times, time ≤ now)
    (later : now < start) (stop : K) : within times start stop = 0 := by
  rw [within, List.countP_eq_zero]
  intro time member inside
  have reached := (of_decide_eq_true inside).1
  exact absurd (past time member) (not_le.mpr (later.trans_le reached))

theorem after_cons (time : K) (times : List K) (start stop : K) :
    after (time :: times) start stop =
      after times start stop + if start < time ∧ time ≤ stop then 1 else 0 := by
  by_cases inside : start < time ∧ time ≤ stop
  · simp [after, inside]
  · simp [after, inside]

theorem within_split (times : List K) (start middle stop : K) :
    within times start stop ≤ after times middle stop + within times start middle := by
  induction times with
  | nil => exact Nat.zero_le _
  | cons time rest ih =>
      rw [within_cons, within_cons, after_cons]
      by_cases inside : start ≤ time ∧ time ≤ stop
      · rw [if_pos inside]
        rcases le_or_gt time middle with early | late
        · rw [if_pos (⟨inside.1, early⟩ : start ≤ time ∧ time ≤ middle)]
          omega
        · rw [if_pos (⟨late, inside.2⟩ : middle < time ∧ time ≤ stop)]
          omega
      · rw [if_neg inside]
        omega

variable [Field K] [IsStrictOrderedRing K]

section Account

/-- What some grants leave of an account at a time. Every interval up to now has room for the
grants in it and for the level, and one of them has no more room than that. -/
structure Account (capacity rate : K) (grants : List K) (level now : K) : Prop where
  past : ∀ time ∈ grants, time ≤ now
  bounded : ∀ start stop, start ≤ stop →
    (within grants start stop : K) ≤ capacity + (stop - start) * rate
  covered : ∀ start, start ≤ now →
    within grants start now + level ≤ capacity + (now - start) * rate
  tight : ∃ start, start ≤ now ∧
    within grants start now + level = capacity + (now - start) * rate
  nonneg : 0 ≤ level

variable {capacity rate level now later : K} {grants : List K}

theorem Account.opened (capacity rate now : K) (room : 0 ≤ capacity) (fills : 0 ≤ rate) :
    Account capacity rate [] capacity now where
  past := by simp
  bounded start stop ordered := by
    have gained := mul_nonneg (sub_nonneg.mpr ordered) fills
    simp only [within_nil, Nat.cast_zero]
    linarith
  covered start before := by
    have gained := mul_nonneg (sub_nonneg.mpr before) fills
    simp only [within_nil, Nat.cast_zero]
    linarith
  tight := ⟨now, le_refl now, by simp⟩
  nonneg := room

theorem Account.level_le (account : Account capacity rate grants level now) :
    level ≤ capacity := by
  have covered := account.covered now (le_refl now)
  have counted : (0 : K) ≤ within grants now now := Nat.cast_nonneg _
  simp only [sub_self, zero_mul, add_zero] at covered
  linarith

theorem Account.refill (account : Account capacity rate grants level now) (fills : 0 ≤ rate)
    (passed : now ≤ later) :
    Account capacity rate grants (min capacity (level + (later - now) * rate)) later := by
  have gained := mul_nonneg (sub_nonneg.mpr passed) fills
  have past : ∀ time ∈ grants, time ≤ later := fun time member =>
    (account.past time member).trans passed
  have covered : ∀ start, start ≤ later →
      within grants start later + min capacity (level + (later - now) * rate) ≤
        capacity + (later - start) * rate := by
    intro start before
    by_cases early : start ≤ now
    · have least := min_le_right capacity (level + (later - now) * rate)
      have had := account.covered start early
      rw [within_later account.past passed]
      calc (within grants start now : K) + min capacity (level + (later - now) * rate)
          ≤ within grants start now + level + (later - now) * rate := by linarith
        _ ≤ capacity + (now - start) * rate + (later - now) * rate := by linarith
        _ = capacity + (later - start) * rate := by ring
    · have least := min_le_left capacity (level + (later - now) * rate)
      have grown := mul_nonneg (sub_nonneg.mpr before) fills
      rw [within_empty account.past (not_le.mp early)]
      simp only [Nat.cast_zero]
      linarith
  refine ⟨past, account.bounded, covered, ?_, ?_⟩
  · rcases min_choice capacity (level + (later - now) * rate) with full | partly
    · -- A full account forgets what was before.
      refine ⟨later, le_refl later, ?_⟩
      have counted : (0 : K) ≤ within grants later later := Nat.cast_nonneg _
      have room := covered later (le_refl later)
      rw [full, sub_self, zero_mul, add_zero] at room ⊢
      linarith
    · obtain ⟨start, before, same⟩ := account.tight
      refine ⟨start, before.trans passed, ?_⟩
      rw [partly, within_later account.past passed, ← add_assoc, same]
      ring
  · exact le_min (account.nonneg.trans account.level_le) (add_nonneg account.nonneg gained)

theorem Account.spend (account : Account capacity rate grants level now) (fills : 0 ≤ rate)
    (enough : 1 ≤ level) :
    Account capacity rate (now :: grants) (level - 1) now := by
  have own (start : K) (before : start ≤ now) :
      (within (now :: grants) start now : K) + (level - 1) = within grants start now + level := by
    rw [within_cons, if_pos ⟨before, le_refl now⟩]
    push_cast
    ring
  have past : ∀ time ∈ now :: grants, time ≤ now := by
    intro time member
    rcases List.mem_cons.mp member with rfl | earlier
    · exact le_refl _
    · exact account.past time earlier
  refine ⟨past, ?_, ?_, ?_, sub_nonneg.mpr enough⟩
  · intro start stop ordered
    by_cases inside : start ≤ now ∧ now ≤ stop
    · have covered := account.covered start inside.1
      rw [← own start inside.1] at covered
      rw [within_later past inside.2]
      -- The interval up to the grant has the room; the rest of it only adds to that.
      have gained := mul_nonneg (sub_nonneg.mpr inside.2) fills
      have spread : (stop - start) * rate = (now - start) * rate + (stop - now) * rate := by ring
      linarith
    · rw [within_cons, if_neg inside, add_zero]
      exact account.bounded start stop ordered
  · intro start before
    rw [own start before]
    exact account.covered start before
  · obtain ⟨start, before, same⟩ := account.tight
    exact ⟨start, before, by rw [own start before, same]⟩

/-- Where less than one is left, one more grant would be too much for some interval. -/
theorem Account.exhausted (account : Account capacity rate grants level now) (short : level < 1) :
    ∃ start, start ≤ now ∧ capacity + (now - start) * rate < within grants start now + 1 := by
  obtain ⟨start, before, same⟩ := account.tight
  exact ⟨start, before, by linarith⟩

end Account

section Window

/-- Every grant has found fewer than `limit` grants in the unit of time before it. -/
def Sparse (limit : Nat) : List K → Prop
  | [] => True
  | time :: earlier => (∀ other ∈ earlier, other ≤ time) ∧
      (earlier.countP fun other => time - other < 1) < limit ∧ Sparse limit earlier

variable {limit : Nat} {times : List K}

theorem Sparse.after_le (sparse : Sparse limit times) {start stop : K} (unit : stop ≤ start + 1) :
    after times start stop ≤ limit := by
  induction times with
  | nil => exact Nat.zero_le _
  | cons time earlier ih =>
      obtain ⟨_, recent, later⟩ := sparse
      by_cases inside : start < time ∧ time ≤ stop
      · -- What the interval holds beside the newest grant was recent for it.
        have counted : after earlier start stop ≤
            earlier.countP fun other => time - other < 1 := by
          apply List.countP_mono_left
          intro other _ between
          have begun := (of_decide_eq_true between).1
          exact decide_eq_true (by linarith [inside.2])
        simp only [after, List.countP_cons, inside, and_self, decide_true, if_true] at counted ⊢
        omega
      · simpa [after, inside] using ih later

theorem Sparse.within_le (sparse : Sparse limit times) (units : Nat) {start stop : K}
    (short : stop - start < units + 1) : within times start stop ≤ limit * (units + 1) := by
  induction units generalizing stop with
  | zero =>
      have started : stop - 1 < start := by
        simp only [Nat.cast_zero] at short
        linarith
      have counted : within times start stop ≤ after times (stop - 1) stop := by
        apply List.countP_mono_left
        intro other _ between
        obtain ⟨reached, stopped⟩ := of_decide_eq_true between
        exact decide_eq_true ⟨started.trans_le reached, stopped⟩
      have unit : after times (stop - 1) stop ≤ limit := sparse.after_le (by linarith)
      omega
  | succ units ih =>
      have rest : within times start (stop - 1) ≤ limit * (units + 1) :=
        ih (by push_cast at short; linarith)
      have unit : after times (stop - 1) stop ≤ limit := sparse.after_le (by linarith)
      have split := within_split times start (stop - 1) stop
      calc within times start stop ≤ limit + limit * (units + 1) := by omega
        _ = limit * (units + 1 + 1) := by ring

/-- In an interval of some length there are at most as many grants as in its whole units and
one more. -/
theorem Sparse.rate [FloorSemiring K] (sparse : Sparse limit times) {start stop : K}
    (ordered : start ≤ stop) :
    (within times start stop : K) ≤ limit * (stop - start + 1) := by
  have length : 0 ≤ stop - start := sub_nonneg.mpr ordered
  have counted := sparse.within_le ⌊stop - start⌋₊ (Nat.lt_floor_add_one (stop - start))
  have whole : (⌊stop - start⌋₊ : K) ≤ stop - start := Nat.floor_le length
  calc (within times start stop : K) ≤ ((limit * (⌊stop - start⌋₊ + 1) : Nat) : K) :=
        Nat.cast_le.mpr counted
    _ = limit * (⌊stop - start⌋₊ + 1) := by push_cast; ring
    _ ≤ limit * (stop - start + 1) :=
        mul_le_mul_of_nonneg_left (by linarith) (Nat.cast_nonneg limit)

end Window

end AgentTaskPlatform.Arrivals
