import AgentTaskPlatform.Transitions
import Mathlib.Data.List.Count
import Mathlib.Data.List.Pairwise
import Mathlib.Tactic.Common

/-!
`withToolSlot` of the Node runner. The code between two awaits runs without interruption,
so a step is what a call does up to its next await, or the rejection of all waiters.
A caller that leaves gives its slot to the first waiter and the counter stays as it is.
-/

namespace AgentTaskPlatform.ToolSlots

open Transitions

section Runner

inductive Ending where
  | returned
  | threw
  deriving DecidableEq, Repr

inductive Phase where
  /-- It awaits the promise that it has put among the waiters. -/
  | waiting
  /-- Its promise is resolved, and it has not gone on yet. -/
  | handed
  /-- Its promise is rejected, and it has not gone on yet. -/
  | refused
  /-- It awaits `operation()`. -/
  | operating
  /-- The operation is settled, and the `finally` block has not run yet. -/
  | leaving (ending : Ending)
  | ended (ending : Ending)
  deriving DecidableEq, Repr

structure Call where
  signal : Option Nat
  phase : Phase
  deriving DecidableEq, Repr

/-- The calls stand in the order of their arrival and are known by their position. -/
structure Slots where
  activeTools : Nat
  toolWaiters : List Nat
  calls : List Call
  abortedSignals : List Nat
  deriving DecidableEq, Repr

namespace Slots

def empty : Slots := ⟨0, [], [], []⟩

def phaseOf (slots : Slots) (index : Nat) : Option Phase :=
  (slots.calls[index]?).map Call.phase

def setPhase (slots : Slots) (index : Nat) (phase : Phase) : Slots :=
  { slots with calls := slots.calls.modify index fun call => { call with phase } }

def arrive (slots : Slots) (signal : Option Nat) (phase : Phase) : Slots :=
  { slots with calls := slots.calls ++ [⟨signal, phase⟩] }

def throwIfAborted (slots : Slots) (signal : Option Nat) : Bool :=
  signal.any slots.abortedSignals.contains

/-- The `finally` block: the slot goes to the first waiter, or back. -/
def release (slots : Slots) : Slots :=
  match slots.toolWaiters with
  | [] => { slots with activeTools := slots.activeTools - 1 }
  -- The counter keeps the slot that is handed over.
  | waiter :: rest => { slots with toolWaiters := rest }.setPhase waiter .handed

def withToolSlot (maxParallelTools : Nat) (signal : Option Nat) (slots : Slots) : Slots :=
  if slots.throwIfAborted signal then slots.arrive signal (.ended .threw)
  else if slots.activeTools < maxParallelTools then
    { slots with activeTools := slots.activeTools + 1 }.arrive signal .operating
  else
    { slots with toolWaiters := slots.toolWaiters ++ [slots.calls.length] }.arrive signal .waiting

/-- A call goes on after its promise is settled. The rejection is thrown outside the `try`. -/
def resume (slots : Slots) (index : Nat) : Option Slots :=
  match slots.calls[index]? with
  | some ⟨signal, .handed⟩ =>
      if slots.throwIfAborted signal then some (slots.setPhase index (.ended .threw)).release
      else some (slots.setPhase index .operating)
  | some ⟨_, .refused⟩ => some (slots.setPhase index (.ended .threw))
  | _ => none

def settle (slots : Slots) (index : Nat) (ending : Ending) : Option Slots :=
  match slots.phaseOf index with
  | some .operating => some (slots.setPhase index (.leaving ending))
  | _ => none

def leave (slots : Slots) (index : Nat) : Option Slots :=
  match slots.phaseOf index with
  | some (.leaving ending) => some (slots.setPhase index (.ended ending)).release
  | _ => none

def rejectAll : List Nat → Slots → Slots
  | [], slots => slots
  | waiter :: rest, slots => rejectAll rest (slots.setPhase waiter .refused)

def abort (slots : Slots) : Slots :=
  rejectAll slots.toolWaiters { slots with toolWaiters := [] }

end Slots

inductive Action where
  | call (signal : Option Nat)
  | resume (index : Nat)
  | settle (index : Nat) (ending : Ending)
  | leave (index : Nat)
  | abortSignal (signal : Nat)
  | abort
  deriving DecidableEq, Repr

def step (maxParallelTools : Nat) (slots : Slots) : Action → Option Slots
  | .call signal => some (slots.withToolSlot maxParallelTools signal)
  | .resume index => slots.resume index
  | .settle index ending => slots.settle index ending
  | .leave index => slots.leave index
  | .abortSignal signal => some { slots with abortedSignals := signal :: slots.abortedSignals }
  | .abort => some slots.abort

end Runner

section Phases

variable {slots : Slots} {index other : Nat} {phase : Phase}

@[simp] theorem phaseOf_setPhase : (slots.setPhase index phase).phaseOf other =
    if other = index then (slots.phaseOf other).map fun _ => phase else slots.phaseOf other := by
  simp only [Slots.phaseOf, Slots.setPhase, List.getElem?_modify]
  by_cases same : index = other
  · subst same
    cases slots.calls[index]? <;> simp
  · have differs : other ≠ index := fun equal => same equal.symm
    simp [same, differs]

@[simp] theorem phaseOf_arrive {signal : Option Nat} : (slots.arrive signal phase).phaseOf other =
    if other = slots.calls.length then some phase else slots.phaseOf other := by
  simp only [Slots.phaseOf, Slots.arrive]
  by_cases last : other = slots.calls.length
  · simp [last]
  · rw [if_neg last, List.getElem?_append]
    split
    · rfl
    · have beyond : slots.calls.length ≤ other := by omega
      have outside : other - slots.calls.length ≠ 0 := by omega
      rw [List.getElem?_eq_none beyond]
      cases shift : other - slots.calls.length with
      | zero => exact absurd shift outside
      | succ more => simp

theorem release_free (nobody : slots.toolWaiters = []) :
    slots.release = { slots with activeTools := slots.activeTools - 1 } := by
  rw [Slots.release, nobody]

theorem release_handed {waiter : Nat} {rest : List Nat}
    (line : slots.toolWaiters = waiter :: rest) :
    slots.release = ({ slots with toolWaiters := rest } : Slots).setPhase waiter .handed := by
  rw [Slots.release, line]

theorem phaseOf_lt (known : slots.phaseOf index = some phase) : index < slots.calls.length := by
  obtain ⟨call, found, _⟩ := Option.map_eq_some_iff.mp known
  exact (List.getElem?_eq_some_iff.mp found).1

end Phases

section Conservation

def Phase.holds : Phase → Bool
  | .handed | .operating | .leaving _ => true
  | .waiting | .refused | .ended _ => false

def Slots.heldSlots (slots : Slots) : Nat := slots.calls.countP fun call => call.phase.holds

/-- The slots of the calls and those that a `finally` block is about to give back are all
accounted for. Somebody waits only when every slot is out, and the waiters queue up in the
order of their arrival. -/
structure Balanced (maxParallelTools owed : Nat) (slots : Slots) : Prop where
  held : slots.activeTools = slots.heldSlots + owed
  bounded : slots.activeTools ≤ maxParallelTools
  full : slots.toolWaiters ≠ [] → maxParallelTools ≤ slots.activeTools
  waiting : ∀ index, index ∈ slots.toolWaiters ↔ slots.phaseOf index = some .waiting
  queued : slots.toolWaiters.Pairwise (· < ·)

variable {maxParallelTools owed : Nat} {slots : Slots} {index : Nat} {phase old : Phase}

theorem heldSlots_modify {calls : List Call} {index : Nat} {old : Phase}
    (known : (calls[index]?).map Call.phase = some old) (phase : Phase) :
    (calls.modify index fun call => { call with phase }).countP (fun call => call.phase.holds) +
        old.holds.toNat =
      calls.countP (fun call => call.phase.holds) + phase.holds.toNat := by
  induction calls generalizing index with
  | nil => simp at known
  | cons call rest ih =>
      cases index with
      | zero =>
          have same : call.phase = old := by simpa using known
          subst same
          simp only [List.modify_zero_cons, List.countP_cons]
          cases phase.holds <;> cases call.phase.holds <;> simp
      | succ index =>
          have later := ih (by simpa using known)
          simp only [List.modify_succ_cons, List.countP_cons]
          omega

theorem heldSlots_setPhase (known : slots.phaseOf index = some old) (phase : Phase) :
    (slots.setPhase index phase).heldSlots + old.holds.toNat =
      slots.heldSlots + phase.holds.toNat :=
  heldSlots_modify known phase

theorem heldSlots_arrive (signal : Option Nat) (phase : Phase) :
    (slots.arrive signal phase).heldSlots = slots.heldSlots + phase.holds.toNat := by
  simp only [Slots.heldSlots, Slots.arrive, List.countP_append, List.countP_singleton]
  cases phase.holds <;> rfl

theorem balanced_empty (maxParallelTools : Nat) : Balanced maxParallelTools 0 .empty where
  held := rfl
  bounded := Nat.zero_le _
  full := fun nonempty => absurd rfl nonempty
  waiting := by
    intro index
    simp [Slots.empty, Slots.phaseOf]
  queued := List.Pairwise.nil

namespace Balanced

theorem moved (balanced : Balanced maxParallelTools owed slots)
    (known : slots.phaseOf index = some old) (ran : old ≠ .waiting) (stays : phase ≠ .waiting)
    {owing : Nat} (account : old.holds.toNat + owed = phase.holds.toNat + owing) :
    Balanced maxParallelTools owing (slots.setPhase index phase) where
  held := by
    have changed := heldSlots_setPhase known phase
    have before := balanced.held
    change slots.activeTools = _
    omega
  bounded := balanced.bounded
  full := balanced.full
  waiting := by
    intro other
    change other ∈ slots.toolWaiters ↔ _
    rw [balanced.waiting, phaseOf_setPhase]
    by_cases own : other = index
    · subst own
      simp [known, ran, stays]
    · rw [if_neg own]
  queued := balanced.queued

/-- A call that ends owes its slot until the `finally` block has given it back. -/
theorem owing (balanced : Balanced maxParallelTools 0 slots)
    (known : slots.phaseOf index = some old) (held : old.holds = true) (ending : Ending) :
    Balanced maxParallelTools 1 (slots.setPhase index (.ended ending)) := by
  refine balanced.moved known ?_ (by nofun) ?_
  · rintro rfl
    cases held
  · rw [held]
    rfl

/-- The counter goes down only when nobody waits. -/
theorem released (balanced : Balanced maxParallelTools 1 slots) :
    Balanced maxParallelTools 0 slots.release := by
  cases line : slots.toolWaiters with
  | nil =>
      have before := balanced.held
      have bound := balanced.bounded
      rw [release_free line]
      refine ⟨?_, ?_, fun nonempty => absurd line nonempty, balanced.waiting, balanced.queued⟩
      · change slots.activeTools - 1 = slots.heldSlots + 0
        omega
      · change slots.activeTools - 1 ≤ maxParallelTools
        omega
  | cons waiter rest =>
      rw [release_handed line]
      have waits : slots.phaseOf waiter = some .waiting := by
        rw [← balanced.waiting, line]
        exact List.mem_cons_self
      -- The waiters stand in the order of their arrival, so the first one is there only once.
      have queued := balanced.queued
      rw [line, List.pairwise_cons] at queued
      constructor
      · have changed := heldSlots_setPhase waits .handed
        have before := balanced.held
        change slots.activeTools = (slots.setPhase waiter .handed).heldSlots + 0
        simp only [Phase.holds, Bool.toNat_true, Bool.toNat_false] at changed
        omega
      · exact balanced.bounded
      · intro _
        exact balanced.full (by simp [line])
      · intro other
        change other ∈ rest ↔ (slots.setPhase waiter .handed).phaseOf other = _
        rw [phaseOf_setPhase]
        have before := balanced.waiting other
        rw [line, List.mem_cons] at before
        by_cases own : other = waiter
        · subst own
          have gone : other ∉ rest := fun member => Nat.lt_irrefl _ (queued.1 other member)
          simp [waits, gone]
        · rw [if_neg own, ← before]
          simp [own]
      · exact queued.2

theorem called (balanced : Balanced maxParallelTools 0 slots) (signal : Option Nat) :
    Balanced maxParallelTools 0 (slots.withToolSlot maxParallelTools signal) := by
  have new : slots.phaseOf slots.calls.length = none := by simp [Slots.phaseOf]
  have absent : slots.calls.length ∉ slots.toolWaiters := by
    rw [balanced.waiting, new]
    nofun
  have before := balanced.held
  have waits (phase : Phase) (other : Nat) : (slots.arrive signal phase).phaseOf other =
      some .waiting ↔ (other = slots.calls.length ∧ phase = .waiting) ∨
        other ∈ slots.toolWaiters := by
    rw [phaseOf_arrive, balanced.waiting]
    by_cases last : other = slots.calls.length
    · subst last
      simp [new]
    · simp [last]
  unfold Slots.withToolSlot
  by_cases refused : slots.throwIfAborted signal = true
  · rw [if_pos refused]
    refine ⟨?_, balanced.bounded, balanced.full, ?_, balanced.queued⟩
    · rw [heldSlots_arrive]
      exact before
    · intro other
      rw [waits]
      simp [Slots.arrive]
  · rw [if_neg refused]
    by_cases free : slots.activeTools < maxParallelTools
    · rw [if_pos free]
      refine ⟨?_, free, ?_, ?_, balanced.queued⟩
      · rw [heldSlots_arrive]
        change slots.activeTools + 1 = slots.heldSlots + 1 + 0
        omega
      · intro nonempty
        have full := balanced.full nonempty
        omega
      · intro other
        change other ∈ slots.toolWaiters ↔ (slots.arrive signal .operating).phaseOf other = _
        rw [waits]
        simp
    · rw [if_neg free]
      refine ⟨?_, balanced.bounded, fun _ => Nat.not_lt.mp free, ?_, ?_⟩
      · rw [heldSlots_arrive]
        exact before
      · intro other
        change other ∈ slots.toolWaiters ++ [slots.calls.length] ↔
          (slots.arrive signal .waiting).phaseOf other = _
        rw [waits, List.mem_append, List.mem_singleton]
        simp [or_comm]
      · -- the new waiter has come after all the others
        rw [Slots.arrive, List.pairwise_append]
        refine ⟨balanced.queued, List.pairwise_singleton _ _, ?_⟩
        intro earlier member last single
        rw [List.mem_singleton.mp single]
        exact phaseOf_lt ((balanced.waiting earlier).mp member)

end Balanced

section Rejection

variable {waiters : List Nat}

theorem phaseOf_rejectAll : (Slots.rejectAll waiters slots).phaseOf index =
    if index ∈ waiters then (slots.phaseOf index).map fun _ => .refused
    else slots.phaseOf index := by
  induction waiters generalizing slots with
  | nil => rfl
  | cons waiter rest ih =>
      rw [Slots.rejectAll, ih, phaseOf_setPhase]
      by_cases own : index = waiter
      · subst own
        cases slots.phaseOf index <;> simp
      · simp [own]

theorem rejectAll_frame : (Slots.rejectAll waiters slots).activeTools = slots.activeTools ∧
    (Slots.rejectAll waiters slots).toolWaiters = slots.toolWaiters := by
  induction waiters generalizing slots with
  | nil => exact ⟨rfl, rfl⟩
  | cons waiter rest ih => exact ih

theorem heldSlots_rejectAll (waits : ∀ waiter ∈ waiters, ∃ phase,
      slots.phaseOf waiter = some phase ∧ phase.holds = false) :
    (Slots.rejectAll waiters slots).heldSlots = slots.heldSlots := by
  induction waiters generalizing slots with
  | nil => rfl
  | cons waiter rest ih =>
      obtain ⟨old, known, none⟩ := waits waiter List.mem_cons_self
      have changed := heldSlots_setPhase known .refused
      rw [none] at changed
      rw [Slots.rejectAll, ih]
      · simpa [Phase.holds] using changed
      · intro other member
        rw [phaseOf_setPhase]
        by_cases own : other = waiter
        · subst own
          exact ⟨.refused, by simp [known], rfl⟩
        · rw [if_neg own]
          exact waits other (List.mem_cons_of_mem _ member)

theorem Balanced.aborted (balanced : Balanced maxParallelTools 0 slots) :
    Balanced maxParallelTools 0 slots.abort := by
  obtain ⟨counter, line⟩ :=
    @rejectAll_frame { slots with toolWaiters := [] } slots.toolWaiters
  have waits : ∀ waiter ∈ slots.toolWaiters, ∃ phase,
      ({ slots with toolWaiters := [] } : Slots).phaseOf waiter = some phase ∧
        phase.holds = false := fun waiter member =>
    ⟨.waiting, (balanced.waiting waiter).mp member, rfl⟩
  have held := heldSlots_rejectAll waits
  constructor
  · rw [Slots.abort, counter, held]
    exact balanced.held
  · rw [Slots.abort, counter]
    exact balanced.bounded
  · intro nonempty
    rw [Slots.abort, line] at nonempty
    exact absurd rfl nonempty
  · intro index
    rw [Slots.abort, line, phaseOf_rejectAll]
    by_cases waited : index ∈ slots.toolWaiters
    · have known : ({ slots with toolWaiters := [] } : Slots).phaseOf index = some .waiting :=
        (balanced.waiting index).mp waited
      simp [waited, known]
    · have other : ({ slots with toolWaiters := [] } : Slots).phaseOf index ≠ some .waiting :=
        fun waiting => waited ((balanced.waiting index).mpr waiting)
      rw [if_neg waited]
      simp [other]
  · rw [Slots.abort, line]
    exact List.Pairwise.nil

end Rejection

/-- Whatever step is taken, wherever the calls are suspended, the slots stay accounted for. -/
theorem step_balanced {action : Action} {after : Slots}
    (balanced : Balanced maxParallelTools 0 slots)
    (stepped : step maxParallelTools slots action = some after) :
    Balanced maxParallelTools 0 after := by
  cases action with
  | call signal =>
      cases stepped
      exact balanced.called signal
  | resume index =>
      simp only [step, Slots.resume] at stepped
      split at stepped
      next signal found =>
        have known : slots.phaseOf index = some .handed := by simp [Slots.phaseOf, found]
        split at stepped
        -- An aborted caller passes on the slot that it has just been handed.
        · cases stepped
          exact (balanced.owing known rfl .threw).released
        · cases stepped
          exact balanced.moved known (by nofun) (by nofun) (by rfl)
      next signal found =>
        have known : slots.phaseOf index = some .refused := by simp [Slots.phaseOf, found]
        cases stepped
        exact balanced.moved known (by nofun) (by nofun) (by rfl)
      · cases stepped
  | settle index ending =>
      simp only [step, Slots.settle] at stepped
      split at stepped
      next known =>
        cases stepped
        exact balanced.moved known (by nofun) (by nofun) (by rfl)
      · cases stepped
  | leave index =>
      simp only [step, Slots.leave] at stepped
      split at stepped
      next ending known =>
        cases stepped
        exact (balanced.owing known rfl ending).released
      · cases stepped
  | abortSignal signal =>
      cases stepped
      exact ⟨balanced.held, balanced.bounded, balanced.full, balanced.waiting, balanced.queued⟩
  | abort =>
      cases stepped
      exact balanced.aborted

end Conservation

section Order

def Slots.holdsAt (slots : Slots) (index : Nat) : Bool := (slots.phaseOf index).any Phase.holds

def gains (before after : Slots) (index : Nat) : Bool :=
  !before.holdsAt index && after.holdsAt index

def Slots.ToCome (slots : Slots) (index : Nat) : Prop :=
  slots.phaseOf index = some .waiting ∨ slots.calls.length ≤ index

structure InOrder (before after : Slots) : Prop where
  later : ∀ index, after.ToCome index → before.ToCome index
  gained : ∀ index, gains before after index = true →
    before.ToCome index ∧ ∀ other, before.ToCome other → index ≤ other

variable {maxParallelTools owed : Nat} {slots before middle after : Slots} {index : Nat}
  {phase old : Phase}

theorem InOrder.trans (first : InOrder before middle)
    (kept : ∀ index, before.ToCome index → middle.ToCome index) (second : InOrder middle after) :
    InOrder before after where
  later := fun index rest => first.later index (second.later index rest)
  gained := by
    intro index gained
    simp only [gains, Bool.and_eq_true, Bool.not_eq_true'] at gained
    by_cases soon : middle.holdsAt index = true
    · exact first.gained index (by simp [gains, gained.1, soon])
    · have late := second.gained index (by simpa [gains, gained.2] using soon)
      exact ⟨first.later index late.1, fun other rest => late.2 other (kept other rest)⟩

theorem Slots.ToCome.without (rest : slots.ToCome index) : slots.holdsAt index = false := by
  rcases rest with waiting | beyond
  · rw [Slots.holdsAt, waiting]
    rfl
  · simp [Slots.holdsAt, Slots.phaseOf, List.getElem?_eq_none beyond]

theorem length_setPhase : (slots.setPhase index phase).calls.length = slots.calls.length := by
  simp [Slots.setPhase]

theorem holdsAt_setPhase (known : slots.phaseOf index = some old) (other : Nat) :
    (slots.setPhase index phase).holdsAt other =
      if other = index then phase.holds else slots.holdsAt other := by
  unfold Slots.holdsAt
  rw [phaseOf_setPhase]
  by_cases own : other = index
  · subst own
    simp [known]
  · simp [own]

theorem toCome_setPhase (known : slots.phaseOf index = some old) (stays : phase ≠ .waiting)
    {other : Nat} : (slots.setPhase index phase).ToCome other ↔
      other ≠ index ∧ slots.ToCome other := by
  unfold Slots.ToCome
  rw [phaseOf_setPhase, length_setPhase]
  by_cases own : other = index
  · subst own
    have inside := phaseOf_lt known
    simp [known, stays, inside]
  · simp [own]

theorem toCome_kept (known : slots.phaseOf index = some old) (ran : old ≠ .waiting)
    (stays : phase ≠ .waiting) (other : Nat) (rest : slots.ToCome other) :
    (slots.setPhase index phase).ToCome other := by
  refine (toCome_setPhase known stays).mpr ⟨?_, rest⟩
  rintro rfl
  rcases rest with waiting | beyond
  · rw [waiting] at known
    exact ran (Option.some.inj known).symm
  · exact absurd (phaseOf_lt known) (Nat.not_lt.mpr beyond)

/-- A call that moves on without getting a slot leaves the others where they are. -/
theorem inOrder_setPhase (known : slots.phaseOf index = some old) (stays : phase ≠ .waiting)
    (none : phase.holds = true → old.holds = true) :
    InOrder slots (slots.setPhase index phase) where
  later := fun other rest => ((toCome_setPhase known stays).mp rest).2
  gained := by
    intro other gained
    simp only [gains, Bool.and_eq_true, Bool.not_eq_true'] at gained
    rw [holdsAt_setPhase known] at gained
    by_cases own : other = index
    · subst own
      have had : slots.holdsAt other = old.holds := by simp [Slots.holdsAt, known]
      rw [if_pos rfl, had] at gained
      rw [none gained.2] at gained
      cases gained.1
    · rw [if_neg own, gained.1] at gained
      cases gained.2

/-- A step that gives no call a slot. -/
theorem inOrder_quiet (later : ∀ index, after.ToCome index → before.ToCome index)
    (quiet : ∀ index, after.holdsAt index = true → before.holdsAt index = true) :
    InOrder before after where
  later := later
  gained := by
    intro index gained
    simp only [gains, Bool.and_eq_true, Bool.not_eq_true'] at gained
    rw [quiet index gained.2] at gained
    cases gained.1

theorem inOrder_release (balanced : Balanced maxParallelTools owed slots) :
    InOrder slots slots.release := by
  cases line : slots.toolWaiters with
  | nil =>
      rw [release_free line]
      exact inOrder_quiet (fun _ rest => rest) (fun _ held => held)
  | cons waiter rest =>
      rw [release_handed line]
      have waits : ({ slots with toolWaiters := rest } : Slots).phaseOf waiter =
          some .waiting := by
        change slots.phaseOf waiter = some .waiting
        rw [← balanced.waiting, line]
        exact List.mem_cons_self
      have queued := balanced.queued
      rw [line, List.pairwise_cons] at queued
      constructor
      · exact fun other rest => ((toCome_setPhase waits (by nofun)).mp rest).2
      · intro index gained
        simp only [gains, Bool.and_eq_true, Bool.not_eq_true'] at gained
        rw [holdsAt_setPhase waits] at gained
        by_cases own : index = waiter
        · subst own
          refine ⟨Or.inl waits, fun other rest => ?_⟩
          rcases rest with waiting | beyond
          · have member := (balanced.waiting other).mpr waiting
            rw [line, List.mem_cons] at member
            rcases member with rfl | behind
            · exact Nat.le_refl _
            · exact Nat.le_of_lt (queued.1 other behind)
          · exact Nat.le_of_lt (Nat.lt_of_lt_of_le (phaseOf_lt waits) beyond)
        · rw [if_neg own] at gained
          have same : ({ slots with toolWaiters := rest } : Slots).holdsAt index =
            slots.holdsAt index := rfl
          rw [same, gained.1] at gained
          cases gained.2

theorem inOrder_given (balanced : Balanced maxParallelTools 0 slots)
    (known : slots.phaseOf index = some old) (held : old.holds = true) (ending : Ending) :
    InOrder slots (slots.setPhase index (.ended ending)).release := by
  have ran : old ≠ .waiting := by
    rintro rfl
    cases held
  have moved : InOrder slots (slots.setPhase index (.ended ending)) :=
    inOrder_setPhase known nofun nofun
  have released := inOrder_release (balanced.owing known held ending)
  exact moved.trans (toCome_kept known ran nofun) released

theorem toCome_arrive {signal : Option Nat} {other : Nat}
    (rest : (slots.arrive signal phase).ToCome other) : slots.ToCome other := by
  have length : (slots.arrive signal phase).calls.length = slots.calls.length + 1 := by
    simp [Slots.arrive]
  rw [Slots.ToCome, phaseOf_arrive, length] at rest
  by_cases last : other = slots.calls.length
  · exact Or.inr (Nat.le_of_eq last.symm)
  · rw [if_neg last] at rest
    exact rest.imp_right fun beyond => Nat.le_of_succ_le beyond

theorem holdsAt_arrive {signal : Option Nat} {other : Nat} :
    (slots.arrive signal phase).holdsAt other =
      if other = slots.calls.length then phase.holds else slots.holdsAt other := by
  unfold Slots.holdsAt
  rw [phaseOf_arrive]
  by_cases last : other = slots.calls.length <;> simp [last]

theorem inOrder_arrive {signal : Option Nat} (none : phase.holds = false) :
    InOrder slots (slots.arrive signal phase) := by
  refine inOrder_quiet (fun _ rest => toCome_arrive rest) fun index held => ?_
  rw [holdsAt_arrive] at held
  split at held
  · rw [none] at held
    cases held
  · exact held

theorem inOrder_called (balanced : Balanced maxParallelTools 0 slots) (signal : Option Nat) :
    InOrder slots (slots.withToolSlot maxParallelTools signal) := by
  unfold Slots.withToolSlot
  by_cases refused : slots.throwIfAborted signal = true
  · rw [if_pos refused]
    exact inOrder_arrive rfl
  · rw [if_neg refused]
    by_cases free : slots.activeTools < maxParallelTools
    · rw [if_pos free]
      -- Nobody waits while a slot is free.
      have nobody : slots.toolWaiters = [] := by
        by_contra nonempty
        exact absurd free (Nat.not_lt.mpr (balanced.full nonempty))
      refine ⟨fun _ rest => toCome_arrive rest, fun index gained => ?_⟩
      simp only [gains, Bool.and_eq_true, Bool.not_eq_true'] at gained
      rw [holdsAt_arrive] at gained
      by_cases last : index = slots.calls.length
      · subst last
        refine ⟨Or.inr (Nat.le_refl _), fun other rest => ?_⟩
        rcases rest with waiting | beyond
        · have member := (balanced.waiting other).mpr waiting
          rw [nobody] at member
          cases member
        · exact beyond
      · have same : ({ slots with activeTools := slots.activeTools + 1 } : Slots).holdsAt index =
          slots.holdsAt index := rfl
        change _ ∧ (if index = slots.calls.length then _ else _) = true at gained
        rw [if_neg last, same, gained.1] at gained
        cases gained.2
    · rw [if_neg free]
      have waits := @inOrder_arrive
        { slots with toolWaiters := slots.toolWaiters ++ [slots.calls.length] } .waiting signal rfl
      exact ⟨waits.later, waits.gained⟩

theorem length_rejectAll {waiters : List Nat} :
    (Slots.rejectAll waiters slots).calls.length = slots.calls.length := by
  induction waiters generalizing slots with
  | nil => rfl
  | cons waiter rest ih => rw [Slots.rejectAll, ih, length_setPhase]

theorem inOrder_abort : InOrder slots slots.abort := by
  have phases (index : Nat) : slots.abort.phaseOf index = if index ∈ slots.toolWaiters then
      (slots.phaseOf index).map fun _ => .refused else slots.phaseOf index := phaseOf_rejectAll
  refine inOrder_quiet ?_ ?_
  · intro index rest
    have length : slots.abort.calls.length = slots.calls.length := length_rejectAll
    rw [Slots.ToCome, phases, length] at rest
    split at rest
    · refine rest.imp_left fun waiting => ?_
      simp at waiting
    · exact rest
  · intro index held
    rw [Slots.holdsAt, phases] at held
    split at held
    · cases known : slots.phaseOf index <;> simp [known, Phase.holds] at held
    · exact held

theorem step_inOrder {action : Action} (balanced : Balanced maxParallelTools 0 slots)
    (stepped : step maxParallelTools slots action = some after) : InOrder slots after := by
  cases action with
  | call signal =>
      cases stepped
      exact inOrder_called balanced signal
  | resume index =>
      simp only [step, Slots.resume] at stepped
      split at stepped
      next signal found =>
        have known : slots.phaseOf index = some .handed := by simp [Slots.phaseOf, found]
        split at stepped
        · cases stepped
          exact inOrder_given balanced known rfl .threw
        · cases stepped
          exact inOrder_setPhase known nofun fun _ => rfl
      next signal found =>
        have known : slots.phaseOf index = some .refused := by simp [Slots.phaseOf, found]
        cases stepped
        exact inOrder_setPhase known nofun nofun
      · cases stepped
  | settle index ending =>
      simp only [step, Slots.settle] at stepped
      split at stepped
      next known =>
        cases stepped
        exact inOrder_setPhase known nofun fun _ => rfl
      · cases stepped
  | leave index =>
      simp only [step, Slots.leave] at stepped
      split at stepped
      next ending known =>
        cases stepped
        exact inOrder_given balanced known rfl ending
      · cases stepped
  | abortSignal signal =>
      cases stepped
      exact inOrder_quiet (fun _ rest => rest) (fun _ held => held)
  | abort =>
      cases stepped
      exact inOrder_abort

def admittedBy (maxParallelTools : Nat) (event : Slots × Action) : List Nat :=
  match step maxParallelTools event.1 event.2 with
  | none => []
  | some after => (List.range after.calls.length).filter (gains event.1 after)

def admitted (maxParallelTools : Nat) (events : List (Slots × Action)) : List Nat :=
  events.flatMap (admittedBy maxParallelTools)

theorem mem_admittedBy {action : Action}
    (stepped : step maxParallelTools slots action = some after)
    (member : index ∈ admittedBy maxParallelTools (slots, action)) :
    gains slots after index = true := by
  simp only [admittedBy, stepped] at member
  exact (List.mem_filter.mp member).2

end Order

section Runs

variable {maxParallelTools : Nat} {start slots : Slots} {events : List (Slots × Action)}

theorem balanced_kept : Inductive (step maxParallelTools) (fun _ _ => True)
    (Balanced maxParallelTools 0) where
  kept := fun balanced _ stepped => step_balanced balanced stepped

theorem run_admitted (run : Run (step maxParallelTools) start events slots)
    (balanced : Balanced maxParallelTools 0 start) :
    (admitted maxParallelTools events).Pairwise (· < ·) ∧
      ∀ index ∈ admitted maxParallelTools events, start.ToCome index := by
  induction run with
  | done state => exact ⟨List.Pairwise.nil, nofun⟩
  | @next state middle final action events moved rest ih =>
      obtain ⟨ordered, yet⟩ := ih (step_balanced balanced moved)
      have order := step_inOrder balanced moved
      constructor
      · refine List.pairwise_append.mpr ⟨?_, ordered, ?_⟩
        · simp only [admittedBy, moved]
          exact List.Pairwise.filter _ List.pairwise_lt_range
        · intro first member other later
          have gained := mem_admittedBy moved member
          have rest := yet other later
          have behind := (order.gained first gained).2 other (order.later other rest)
          refine Nat.lt_of_le_of_ne behind ?_
          rintro rfl
          rw [gains, rest.without] at gained
          simp at gained
      · intro index member
        rcases List.mem_append.mp member with now | later
        · exact (order.gained index (mem_admittedBy moved now)).1
        · exact order.later index (yet index later)

def Call.inside (call : Call) : Bool := call.phase = .operating

def Call.reserves (call : Call) : Bool :=
  match call.phase with
  | .handed | .leaving _ => true
  | _ => false

theorem heldSlots_split (slots : Slots) :
    slots.heldSlots = slots.calls.countP Call.inside + slots.calls.countP Call.reserves := by
  unfold Slots.heldSlots
  induction slots.calls with
  | nil => rfl
  | cons call rest ih =>
      simp only [List.countP_cons, ih]
      cases known : call.phase <;>
        simp [Phase.holds, Call.inside, Call.reserves, known] <;> omega

/-- What a run keeps of the slots, with its calls in the order of their arrival. -/
structure Conserved (maxParallelTools : Nat) (events : List (Slots × Action)) (slots : Slots) :
    Prop where
  held : slots.activeTools =
    slots.calls.countP Call.inside + slots.calls.countP Call.reserves
  bounded : slots.activeTools ≤ maxParallelTools
  served : (admitted maxParallelTools events).Pairwise (· < ·)
  turn : ∀ event ∈ events, ∀ after, step maxParallelTools event.1 event.2 = some after →
    ∀ index, gains event.1 after index = true →
      ∀ earlier < index, event.1.phaseOf earlier ≠ some .waiting
  idle : (∀ call ∈ slots.calls, ∃ ending, call.phase = .ended ending) → slots.activeTools = 0

theorem tool_slots_conserved (run : Run (step maxParallelTools) Slots.empty events slots) :
    Conserved maxParallelTools events slots := by
  have initial := balanced_empty maxParallelTools
  have balanced := balanced_kept.run run initial fun _ _ => trivial
  have met := balanced_kept.met run initial fun _ _ => trivial
  refine ⟨?_, balanced.bounded, (run_admitted run initial).1, ?_, ?_⟩
  · rw [balanced.held, heldSlots_split]
    rfl
  · intro event member after stepped index gained earlier before waiting
    have order := step_inOrder (met event member) stepped
    have first := (order.gained index gained).2 earlier (Or.inl waiting)
    exact absurd before (Nat.not_lt.mpr first)
  · intro ended_all
    rw [balanced.held]
    have none : slots.heldSlots = 0 := by
      rw [Slots.heldSlots, List.countP_eq_zero]
      intro call member held
      obtain ⟨ending, ended⟩ := ended_all call member
      rw [ended] at held
      cases held
    rw [none]

def handover : List Action :=
  [.call none, .call (some 7), .call none, .call none, .abortSignal 7, .settle 0 .threw, .leave 0,
    .resume 1, .resume 2, .abort, .resume 3, .settle 2 .returned, .leave 2]

theorem tool_slots_conserved_handover : ∃ events slots, Conserved 1 events slots ∧
    admitted 1 events = [0, 1, 2] ∧ slots.calls.map Call.phase =
      [.ended .threw, .ended .threw, .ended .returned, .ended .threw] := by
  have passed : (replay (step 1) Slots.empty handover).any (fun outcome =>
      admitted 1 outcome.1 = [0, 1, 2] ∧ outcome.2.calls.map Call.phase =
        [.ended .threw, .ended .threw, .ended .returned, .ended .threw]) = true := by decide
  obtain ⟨events, slots, run, checked⟩ := replay_checked passed
  exact ⟨events, slots, tool_slots_conserved run, by simpa using checked⟩

end Runs

end AgentTaskPlatform.ToolSlots
