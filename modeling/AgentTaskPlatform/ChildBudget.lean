import AgentTaskPlatform.RunExecutor
import Mathlib.Data.Rat.Floor
import Mathlib.Tactic.Linarith

/-!
The time that a child run gets: `_calculate_child_timeout`, the submission of the child run
and the timeout that the executor applies to its attempts. Times are exact rationals.
-/

namespace AgentTaskPlatform.ChildBudget

structure Parent where
  agentTimeout : Int
  runTimeout : Option Int
  /-- `run.start_time`, which the first attempt sets -/
  startTime : Option ℚ
  attemptStart : ℚ

structure ChildCall where
  parent : Parent
  /-- The timeout of the target spec. -/
  specTimeout : Int
  explicitTimeout : Option ℚ
  now : ℚ
  /-- The timeout of the agent that the child run was routed to. -/
  routedTimeout : Int
  /-- The timeout of the run that was submitted before under the same request id. -/
  replayed : Option (Option Int)

def orDefault (timeout : Option Int) (default : Int) : Int :=
  match timeout with
  | none => default
  | some seconds => if seconds = 0 then default else seconds

theorem orDefault_effective (run : AgentRun) (agent : AgentSpec) :
    orDefault (run.timeoutSeconds.map Int.ofNat) agent.timeoutSeconds =
      RunExecutor.effectiveTimeout run agent := by
  rw [RunExecutor.effectiveTimeout]
  cases run.timeoutSeconds with
  | none => rfl
  | some seconds => by_cases zero : seconds = 0 <;> simp [orDefault, zero]

def truncated (value : ℚ) : Int := if 0 ≤ value then ⌊value⌋ else ⌈value⌉

namespace ChildCall

variable (call : ChildCall)

def remaining : ℚ :=
  match call.parent.startTime with
  | none => call.parent.agentTimeout
  | some start => max 1 (call.parent.agentTimeout - (call.now - start))

def candidates : List ℚ :=
  (if 0 < call.specTimeout then [(call.specTimeout : ℚ)] else []) ++
    (match call.explicitTimeout with
      | none => []
      | some seconds => if 0 < seconds then [seconds] else []) ++
    if 0 < call.parent.agentTimeout then [call.remaining] else []

def calculateChildTimeout : ℚ :=
  match call.candidates with
  -- `min(candidates) if candidates else 300`
  | [] => 300
  | first :: rest => rest.foldl min first

def submitted : Option Int :=
  match call.replayed with
  -- The run of an earlier submission is returned as it is.
  | some stored => stored
  | none => some (truncated call.calculateChildTimeout)

def applied : Int := orDefault call.submitted call.routedTimeout

/-- What is left of the parent's attempt at the call. An attempt of the child that is queued
first, or retried, starts later with the same timeout. -/
def timeLeft : ℚ :=
  orDefault call.parent.runTimeout call.parent.agentTimeout - (call.now - call.parent.attemptStart)

end ChildCall

def Fits (call : ChildCall) (timeout : Int) : Prop :=
  timeout ≤ call.timeLeft ∧ timeout ≤ call.specTimeout ∧
    ∀ seconds, call.explicitTimeout = some seconds → timeout ≤ seconds

def Fractional (call : ChildCall) : Prop :=
  ∃ seconds, call.explicitTimeout = some seconds ∧ 0 < seconds ∧ seconds < 1

/-- One of the timeouts that the budget is the least of is within the time left once it is
rounded down. -/
def Bounded (call : ChildCall) : Prop :=
  call.specTimeout ≤ call.timeLeft ∨
  (∃ seconds, call.explicitTimeout = some seconds ∧ ⌊seconds⌋ ≤ call.timeLeft) ∨
  0 < call.parent.agentTimeout ∧ ⌊call.remaining⌋ ≤ call.timeLeft

/-- A run that was submitted before keeps a timeout that still fits. A new one has a positive
spec timeout, an explicit timeout of a second or more and a budget within the time left; or
the budget is below a second, and the routed agent's own timeout fits. -/
def Budgeted (call : ChildCall) : Prop :=
  match call.replayed with
  | some stored => Fits call (orDefault stored call.routedTimeout)
  | none =>
      (Fractional call → Fits call call.routedTimeout) ∧
      (¬ Fractional call → 0 < call.specTimeout ∧
        (∀ seconds, call.explicitTimeout = some seconds → 1 ≤ seconds) ∧ Bounded call)

section Candidates

variable {call : ChildCall}

theorem foldl_min_spec (rest : List ℚ) (first : ℚ) : rest.foldl min first ∈ first :: rest ∧
    ∀ candidate ∈ first :: rest, rest.foldl min first ≤ candidate := by
  induction rest generalizing first with
  | nil => simp
  | cons second rest ih =>
      obtain ⟨member, least⟩ := ih (min first second)
      rw [List.foldl_cons]
      constructor
      · rcases List.mem_cons.mp member with same | later
        · rw [same]
          rcases min_choice first second with left | right
          · simp [left]
          · simp [right]
        · exact List.mem_cons_of_mem _ (List.mem_cons_of_mem _ later)
      · intro candidate listed
        have head := least (min first second) List.mem_cons_self
        rcases List.mem_cons.mp listed with rfl | listed
        · exact head.trans (min_le_left _ _)
        · rcases List.mem_cons.mp listed with rfl | later
          · exact head.trans (min_le_right _ _)
          · exact least candidate (List.mem_cons_of_mem _ later)

theorem mem_candidates {candidate : ℚ} : candidate ∈ call.candidates ↔
    (0 < call.specTimeout ∧ candidate = call.specTimeout) ∨
    (∃ seconds, call.explicitTimeout = some seconds ∧ 0 < seconds ∧ candidate = seconds) ∨
    0 < call.parent.agentTimeout ∧ candidate = call.remaining := by
  simp only [ChildCall.candidates, List.mem_append, or_assoc]
  refine or_congr ?_ (or_congr ?_ ?_)
  · by_cases positive : 0 < call.specTimeout <;> simp [positive]
  · cases call.explicitTimeout with
    | none => simp
    | some seconds =>
        by_cases positive : 0 < seconds
        · simp only [positive, if_true, List.mem_singleton, Option.some.injEq]
          constructor
          · rintro rfl
            exact ⟨candidate, rfl, positive, rfl⟩
          · rintro ⟨_, rfl, _, same⟩
            exact same
        · simp only [positive, if_false, List.not_mem_nil, Option.some.injEq, false_iff]
          rintro ⟨_, rfl, more, _⟩
          exact positive more
  · by_cases positive : 0 < call.parent.agentTimeout <;> simp [positive]

theorem calculate_spec (some_candidate : call.candidates ≠ []) :
    call.calculateChildTimeout ∈ call.candidates ∧
      ∀ candidate ∈ call.candidates, call.calculateChildTimeout ≤ candidate := by
  rw [ChildCall.calculateChildTimeout]
  cases listed : call.candidates with
  | nil => exact absurd listed some_candidate
  | cons first rest => exact foldl_min_spec rest first

theorem one_le_of_pos {seconds : Int} (positive : 0 < seconds) : (1 : ℚ) ≤ seconds := by
  exact_mod_cast positive

theorem one_le_remaining (positive : 0 < call.parent.agentTimeout) : 1 ≤ call.remaining := by
  rw [ChildCall.remaining]
  cases call.parent.startTime with
  | none => exact one_le_of_pos positive
  | some start => exact le_max_left _ _

theorem one_le_calculate (whole : ¬ Fractional call) : 1 ≤ call.calculateChildTimeout := by
  by_cases listed : call.candidates = []
  · rw [ChildCall.calculateChildTimeout, listed]
    norm_num
  · have member := (calculate_spec listed).1
    rcases mem_candidates.mp member with ⟨positive, same⟩ | ⟨seconds, given, positive, same⟩ |
      ⟨positive, same⟩
    · rw [same]
      exact one_le_of_pos positive
    · rw [same]
      by_contra below
      exact whole ⟨seconds, given, positive, not_le.mp below⟩
    · rw [same]
      exact one_le_remaining positive

end Candidates

section Applied

variable {call : ChildCall}

theorem calculate_le {candidate : ℚ} (member : candidate ∈ call.candidates) :
    call.calculateChildTimeout ≤ candidate :=
  (calculate_spec (List.ne_nil_of_mem member)).2 candidate member

/-- A budget below a second is stored as zero, which the executor reads as no timeout. -/
theorem applied_fractional (fresh : call.replayed = none) (fractional : Fractional call) :
    call.applied = call.routedTimeout := by
  obtain ⟨seconds, given, positive, below⟩ := fractional
  have member : seconds ∈ call.candidates :=
    mem_candidates.mpr (Or.inr (Or.inl ⟨seconds, given, positive, rfl⟩))
  obtain ⟨chosen, least⟩ := calculate_spec (List.ne_nil_of_mem member)
  have under : call.calculateChildTimeout < 1 := (least seconds member).trans_lt below
  have above : 0 < call.calculateChildTimeout := by
    rcases mem_candidates.mp chosen with ⟨more, same⟩ | ⟨_, _, more, same⟩ | ⟨more, same⟩
    · rw [same]
      exact zero_lt_one.trans_le (one_le_of_pos more)
    · rw [same]
      exact more
    · rw [same]
      exact zero_lt_one.trans_le (one_le_remaining more)
  -- `int()` takes what is below a second to zero, and zero reads as no timeout.
  have zero : truncated call.calculateChildTimeout = 0 := by
    rw [truncated, if_pos above.le, Int.floor_eq_iff]
    constructor
    · exact_mod_cast above.le
    · simpa using under
  simp [ChildCall.applied, ChildCall.submitted, fresh, orDefault, zero]

theorem applied_whole (fresh : call.replayed = none) (whole : ¬ Fractional call) :
    call.applied = ⌊call.calculateChildTimeout⌋ ∧ 1 ≤ call.applied := by
  have above := one_le_calculate whole
  have floor : 1 ≤ ⌊call.calculateChildTimeout⌋ := Int.le_floor.mpr (by exact_mod_cast above)
  have read : truncated call.calculateChildTimeout = ⌊call.calculateChildTimeout⌋ := by
    rw [truncated, if_pos (zero_le_one.trans above)]
  have nonzero : ⌊call.calculateChildTimeout⌋ ≠ 0 := by omega
  have same : call.applied = ⌊call.calculateChildTimeout⌋ := by
    simp [ChildCall.applied, ChildCall.submitted, fresh, orDefault, read, nonzero]
  exact ⟨same, same ▸ floor⟩

theorem floor_le_of_mem {candidate bound : ℚ} (member : candidate ∈ call.candidates)
    (within : ⌊candidate⌋ ≤ bound) : (⌊call.calculateChildTimeout⌋ : ℚ) ≤ bound := by
  have monotone : ⌊call.calculateChildTimeout⌋ ≤ ⌊candidate⌋ :=
    Int.floor_le_floor (calculate_le member)
  exact (by exact_mod_cast monotone : (⌊call.calculateChildTimeout⌋ : ℚ) ≤ ⌊candidate⌋).trans within

end Applied

/-- The timeout of the child's attempts fits exactly where the call is budgeted. -/
theorem child_timeout_fits_iff (call : ChildCall) : Fits call call.applied ↔ Budgeted call := by
  rw [Budgeted]
  cases replayed : call.replayed with
  | some stored =>
      have same : call.applied = orDefault stored call.routedTimeout := by
        simp [ChildCall.applied, ChildCall.submitted, replayed]
      rw [same]
  | none =>
      by_cases fractional : Fractional call
      · simp [applied_fractional replayed fractional, fractional]
      · obtain ⟨same, one⟩ := applied_whole replayed fractional
        have least : (1 : ℚ) ≤ call.applied := by exact_mod_cast one
        simp only [fractional, false_implies, not_false_iff, true_implies, true_and]
        constructor
        · rintro ⟨left, spec, explicit⟩
          have positive : 0 < call.specTimeout := by
            have : (1 : ℚ) ≤ call.specTimeout := least.trans (by exact_mod_cast spec)
            exact_mod_cast zero_lt_one.trans_le this
          refine ⟨positive, fun seconds given => least.trans (explicit seconds given), ?_⟩
          have listed : (call.specTimeout : ℚ) ∈ call.candidates :=
            mem_candidates.mpr (Or.inl ⟨positive, rfl⟩)
          -- The budget is one of its candidates; which one says what bounds it.
          have chosen := (calculate_spec (List.ne_nil_of_mem listed)).1
          rw [same] at left
          rcases mem_candidates.mp chosen with ⟨_, own⟩ | ⟨seconds, given, _, own⟩ | ⟨more, own⟩
          · left
            rw [own, Int.floor_intCast] at left
            exact left
          · exact Or.inr (Or.inl ⟨seconds, given, own ▸ left⟩)
          · exact Or.inr (Or.inr ⟨more, own ▸ left⟩)
        · rintro ⟨positive, explicit, bounded⟩
          have spec : (call.specTimeout : ℚ) ∈ call.candidates :=
            mem_candidates.mpr (Or.inl ⟨positive, rfl⟩)
          have given {seconds : ℚ} (named : call.explicitTimeout = some seconds) :
              seconds ∈ call.candidates := by
            have more := zero_lt_one.trans_le (explicit seconds named)
            exact mem_candidates.mpr (Or.inr (Or.inl ⟨seconds, named, more, rfl⟩))
          have below {candidate : ℚ} (member : candidate ∈ call.candidates) :
              (call.applied : ℚ) ≤ candidate := by
            rw [same]
            exact (Int.floor_le _).trans (calculate_le member)
          refine ⟨?_, by exact_mod_cast below spec, fun seconds named => below (given named)⟩
          rw [same]
          rcases bounded with within | ⟨seconds, named, within⟩ | ⟨more, within⟩
          · exact floor_le_of_mem spec (by rwa [Int.floor_intCast])
          · exact floor_le_of_mem (given named) within
          · exact floor_le_of_mem (mem_candidates.mpr (Or.inr (Or.inr ⟨more, rfl⟩))) within

def overriddenParent : ChildCall where
  parent := { agentTimeout := 300, runTimeout := some 10, startTime := some 0, attemptStart := 0 }
  specTimeout := 300
  explicitTimeout := none
  now := 5
  routedTimeout := 300
  replayed := none

theorem overridden_parent_overruns : ¬ Fits overriddenParent overriddenParent.applied := by
  have late : ¬ (overriddenParent.applied : ℚ) ≤ overriddenParent.timeLeft := by decide +kernel
  intro fits
  exact late fits.1

end AgentTaskPlatform.ChildBudget
