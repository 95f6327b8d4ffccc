import AgentTaskPlatform.Scheduler

/-!
The books of the scheduler: what each step does to the calls, and that the slots of the
semaphores, also of those no dictionary names any more, are conserved over every run.
-/

namespace AgentTaskPlatform.Scheduler

open KeyedTable Semaphores Transitions

namespace Admission

theorem locks_nodup (admission : Admission) : admission.locks.Nodup := by
  unfold locks agentLock routeLock
  cases admission.isChild <;> cases admission.ancestorAgentId <;>
    cases admission.ancestorRouteId <;> cases admission.callerExempt <;> simp

end Admission

def Call.Booked (call : Call) : Prop :=
  match call.stage with
  | .asking next => call.held.map Prod.fst ++ next = call.admission.locks
  | .waiting lock _ next => call.held.map Prod.fst ++ lock :: next = call.admission.locks
  | .registered | .running => call.held.map Prod.fst = call.admission.locks
  | .ended => call.held = []

theorem Call.Booked.admitted {call : Call} (booked : call.Booked) (admitted : call.admitted = true) :
    call.held.map Prod.fst = call.admission.locks := by
  cases stage : call.stage with
  | registered => simpa [Call.Booked, stage] using booked
  | running => simpa [Call.Booked, stage] using booked
  | asking next => simp [Call.admitted, stage] at admitted
  | waiting lock ref next => simp [Call.admitted, stage] at admitted
  | ended => simp [Call.admitted, stage] at admitted

theorem Call.Booked.slot {call : Call} (booked : call.Booked) (admitted : call.admitted = true)
    {lock : Lock} (needed : lock ∈ call.admission.locks) : ∃ ref, (lock, ref) ∈ call.held := by
  rw [← booked.admitted admitted] at needed
  obtain ⟨slot, member, rfl⟩ := List.mem_map.mp needed
  exact ⟨slot.2, member⟩

theorem Call.Booked.unique {call : Call} (booked : call.Booked) (admitted : call.admitted = true)
    {lock : Lock} {ref other : Nat} (one : (lock, ref) ∈ call.held)
    (two : (lock, other) ∈ call.held) : ref = other := by
  have distinct : (call.held.map Prod.fst).Nodup := by
    rw [booked.admitted admitted]
    exact call.admission.locks_nodup
  have same := List.inj_on_of_nodup_map distinct one two rfl
  exact congrArg Prod.snd same

namespace RunScheduler

inductive Moves (texts : Texts) (scheduler : RunScheduler) : Action → RunScheduler → Prop
  | called {run : AgentRun} {agent : AgentSpec} {admission : Admission}
      (began : scheduler.runWithLimits texts run agent = some admission) :
      Moves texts scheduler (.call run agent)
        { scheduler with calls := scheduler.calls ++ [⟨admission, .asking admission.locks, []⟩] }
  | asked {index : Nat} {admission : Admission} {lock : Lock} {next : List Lock}
      {held : Slots Lock} {found : RunScheduler} {ref : Nat}
      (present : scheduler.calls[index]? = some ⟨admission, .asking (lock :: next), held⟩)
      (looked : scheduler.semaphoreFor admission.agent lock = some (found, ref)) :
      Moves texts scheduler (.ask index)
        (found.setCall index ⟨admission, .waiting lock ref next, held⟩)
  | raised {index : Nat} {admission : Admission} {lock : Lock} {next : List Lock}
      {held : Slots Lock}
      (present : scheduler.calls[index]? = some ⟨admission, .asking (lock :: next), held⟩) :
      Moves texts scheduler (.ask index)
        (scheduler.leave index ⟨admission, .asking (lock :: next), held⟩)
  | acquired {index : Nat} {admission : Admission} {lock : Lock} {ref : Nat} {next : List Lock}
      {held : Slots Lock} {pool : Pool}
      (present : scheduler.calls[index]? = some ⟨admission, .waiting lock ref next, held⟩)
      (got : acquire scheduler.pool ref = some pool) :
      Moves texts scheduler (.acquire index)
        ({ scheduler with pool }.setCall index ⟨admission, .asking next, held ++ [(lock, ref)]⟩)
  | cancelled {index : Nat} {admission : Admission} {lock : Lock} {ref : Nat} {next : List Lock}
      {held : Slots Lock}
      (present : scheduler.calls[index]? = some ⟨admission, .waiting lock ref next, held⟩) :
      Moves texts scheduler (.cancel index)
        (scheduler.leave index ⟨admission, .waiting lock ref next, held⟩)
  | registered {index : Nat} {admission : Admission} {held : Slots Lock}
      (present : scheduler.calls[index]? = some ⟨admission, .asking [], held⟩) :
      Moves texts scheduler (.register index)
        ((scheduler.register admission).setCall index ⟨admission, .registered, held⟩)
  | admitted {index : Nat} {admission : Admission} {held : Slots Lock}
      (present : scheduler.calls[index]? = some ⟨admission, .registered, held⟩) :
      Moves texts scheduler (.runAdmitted index)
        ((scheduler.count admission 1).setCall index ⟨admission, .running, held⟩)
  | unlogged {index : Nat} {admission : Admission} {held : Slots Lock}
      (present : scheduler.calls[index]? = some ⟨admission, .registered, held⟩) :
      Moves texts scheduler (.logFails index)
        (((scheduler.count admission 1).unregister admission.runId).leave index
          ⟨admission, .registered, held⟩)
  | refused {index : Nat} {admission : Admission} {held : Slots Lock}
      (present : scheduler.calls[index]? = some ⟨admission, .registered, held⟩) :
      Moves texts scheduler (.refuse index)
        ((scheduler.unregister admission.runId).leave index ⟨admission, .registered, held⟩)
  | finished {index : Nat} {admission : Admission} {held : Slots Lock}
      (present : scheduler.calls[index]? = some ⟨admission, .running, held⟩) :
      Moves texts scheduler (.finish index)
        ((((scheduler.count admission (-1)).dropRoot admission).unregister admission.runId).leave
          index ⟨admission, .running, held⟩)
  | reconfigured {settings : QueueSettings} {semaphore : Nat}
      (idle : scheduler.activeRunHolders.rows = []) :
      Moves texts scheduler (.reconfigure settings)
        { scheduler with
          limits := settings.limits
          pool := scheduler.pool ++ [Semaphore.fresh semaphore]
          semaphores := replaced scheduler.semaphores scheduler.pool.length }

variable {texts : Texts} {scheduler after : RunScheduler} {action : Action}

theorem newSemaphore_fresh {value : Int} {semaphore : Semaphore}
    (made : newSemaphore value = some semaphore) :
    0 ≤ value ∧ semaphore = Semaphore.fresh value.toNat := by
  unfold newSemaphore at made
  split at made
  · cases made
  · cases made
    exact ⟨by omega, rfl⟩

theorem step_cases (moved : scheduler.step texts action = some after) :
    Moves texts scheduler action after := by
  cases action with
  | call run agent =>
      obtain ⟨admission, began, rfl⟩ := Option.map_eq_some_iff.mp moved
      exact .called began
  | ask index =>
      simp only [step] at moved
      split at moved
      · next admission lock next held present =>
          split at moved
          · next found ref looked =>
              cases moved
              exact .asked present looked
          · cases moved
            exact .raised present
      · cases moved
  | acquire index =>
      simp only [step] at moved
      split at moved
      · next admission lock ref next held present =>
          obtain ⟨pool, got, rfl⟩ := Option.map_eq_some_iff.mp moved
          exact .acquired present got
      · cases moved
  | cancel index =>
      simp only [step] at moved
      split at moved
      · next present =>
          cases moved
          exact .cancelled present
      · cases moved
  | register index =>
      simp only [step] at moved
      split at moved
      · next present =>
          cases moved
          exact .registered present
      · cases moved
  | runAdmitted index =>
      simp only [step] at moved
      split at moved
      · next present =>
          cases moved
          exact .admitted present
      · cases moved
  | logFails index =>
      simp only [step] at moved
      split at moved
      · next present =>
          cases moved
          exact .unlogged present
      · cases moved
  | refuse index =>
      simp only [step] at moved
      split at moved
      · next present =>
          split at moved
          · cases moved
            exact .refused present
          · cases moved
      · cases moved
  | finish index =>
      simp only [step] at moved
      split at moved
      · next present =>
          cases moved
          exact .finished present
      · cases moved
  | reconfigure settings =>
      simp only [step, reconfigure] at moved
      split at moved
      · cases moved
      · split at moved
        · cases moved
        · next idle =>
            obtain ⟨semaphore, made, rfl⟩ := Option.map_eq_some_iff.mp moved
            obtain ⟨_, rfl⟩ := newSemaphore_fresh made
            exact .reconfigured (by simpa using idle)

structure Looked (scheduler found : RunScheduler) : Prop where
  pool : found.pool = scheduler.pool ∨
    ∃ value, found.pool = scheduler.pool ++ [Semaphore.fresh value]
  calls : found.calls = scheduler.calls
  limits : found.limits = scheduler.limits
  holders : found.activeRunHolders = scheduler.activeRunHolders
  byAgent : found.runningByAgent = scheduler.runningByAgent
  byRouteTag : found.runningByRouteTag = scheduler.runningByRouteTag
  byCaller : found.runningByCaller = scheduler.runningByCaller

theorem semaphoreFor_looked {agent : AgentSpec} {lock : Lock} {ref : Nat}
    (looked : scheduler.semaphoreFor agent lock = some (after, ref)) : Looked scheduler after := by
  unfold semaphoreFor at looked
  split at looked
  · obtain ⟨known, _, same⟩ := Option.map_eq_some_iff.mp looked
    cases same
    exact ⟨Or.inl rfl, rfl, rfl, rfl, rfl, rfl, rfl⟩
  · obtain ⟨semaphore, made, same⟩ := Option.map_eq_some_iff.mp looked
    obtain ⟨_, rfl⟩ := newSemaphore_fresh made
    split at same
    · cases same
      exact ⟨Or.inl rfl, rfl, rfl, rfl, rfl, rfl, rfl⟩
    · cases same
      exact ⟨Or.inr ⟨_, rfl⟩, rfl, rfl, rfl, rfl, rfl, rfl⟩

@[simp] theorem setCall_calls (index : Nat) (call : Call) :
    (scheduler.setCall index call).calls = scheduler.calls.set index call := rfl

@[simp] theorem setCall_pool (index : Nat) (call : Call) :
    (scheduler.setCall index call).pool = scheduler.pool := rfl

@[simp] theorem setCall_limits (index : Nat) (call : Call) :
    (scheduler.setCall index call).limits = scheduler.limits := rfl

@[simp] theorem leave_calls (index : Nat) (call : Call) : (scheduler.leave index call).calls =
    scheduler.calls.set index { call with stage := .ended, held := [] } := rfl

@[simp] theorem leave_pool (index : Nat) (call : Call) :
    (scheduler.leave index call).pool = releaseAll scheduler.pool call.held := rfl

@[simp] theorem leave_limits (index : Nat) (call : Call) :
    (scheduler.leave index call).limits = scheduler.limits := rfl

@[simp] theorem register_calls (admission : Admission) :
    (scheduler.register admission).calls = scheduler.calls := rfl

@[simp] theorem register_pool (admission : Admission) :
    (scheduler.register admission).pool = scheduler.pool := rfl

@[simp] theorem register_limits (admission : Admission) :
    (scheduler.register admission).limits = scheduler.limits := rfl

@[simp] theorem unregister_calls (runId : String) :
    (scheduler.unregister runId).calls = scheduler.calls := rfl

@[simp] theorem unregister_pool (runId : String) :
    (scheduler.unregister runId).pool = scheduler.pool := rfl

@[simp] theorem unregister_limits (runId : String) :
    (scheduler.unregister runId).limits = scheduler.limits := rfl

@[simp] theorem count_calls (admission : Admission) (amount : Int) :
    (scheduler.count admission amount).calls = scheduler.calls := rfl

@[simp] theorem count_pool (admission : Admission) (amount : Int) :
    (scheduler.count admission amount).pool = scheduler.pool := rfl

@[simp] theorem count_limits (admission : Admission) (amount : Int) :
    (scheduler.count admission amount).limits = scheduler.limits := rfl

@[simp] theorem dropRoot_calls (admission : Admission) :
    (scheduler.dropRoot admission).calls = scheduler.calls := by
  unfold dropRoot
  split <;> rfl

@[simp] theorem dropRoot_pool (admission : Admission) :
    (scheduler.dropRoot admission).pool = scheduler.pool := by
  unfold dropRoot
  split <;> rfl

@[simp] theorem dropRoot_limits (admission : Admission) :
    (scheduler.dropRoot admission).limits = scheduler.limits := by
  unfold dropRoot
  split <;> rfl

def slots (scheduler : RunScheduler) : List (Slots Lock) :=
  scheduler.calls.map Call.held

theorem slots_present {index : Nat} {call : Call} (present : scheduler.calls[index]? = some call) :
    scheduler.slots[index]? = some call.held := by
  simp [slots, present]

structure Ledger (scheduler : RunScheduler) : Prop where
  conserved : Conserved scheduler.pool scheduler.slots
  booked : ∀ call ∈ scheduler.calls, call.Booked

namespace Ledger

variable {index : Nat} {call : Call}

theorem present (ledger : Ledger scheduler) (there : scheduler.calls[index]? = some call) :
    call.Booked :=
  ledger.booked call (List.mem_of_getElem? there)

theorem bookedSet (ledger : Ledger scheduler) {new : Call} (own : new.Booked) :
    ∀ call ∈ scheduler.calls.set index new, call.Booked := by
  intro call member
  rcases List.mem_or_eq_of_mem_set member with earlier | rfl
  · exact ledger.booked call earlier
  · exact own

theorem left (ledger : Ledger scheduler) (there : scheduler.calls[index]? = some call)
    (pool : after.pool = releaseAll scheduler.pool call.held)
    (calls : after.calls = scheduler.calls.set index { call with stage := .ended, held := [] }) :
    Ledger after where
  conserved := by
    have returned := ledger.conserved.released (slots_present there)
    simpa [slots, pool, calls, List.map_set] using returned
  booked := by
    rw [calls]
    exact ledger.bookedSet rfl

theorem moved (ledger : Ledger scheduler) {new : Call}
    (there : scheduler.calls[index]? = some call) (pool : after.pool = scheduler.pool)
    (calls : after.calls = scheduler.calls.set index new) (held : new.held = call.held)
    (own : new.Booked) : Ledger after where
  conserved := by
    have same : after.slots = scheduler.slots := by
      obtain ⟨inside, value⟩ := List.getElem?_eq_some_iff.mp (slots_present there)
      unfold slots at *
      rw [calls, List.map_set, held, ← value, List.set_getElem_self]
    rw [pool, same]
    exact ledger.conserved
  booked := by
    rw [calls]
    exact ledger.bookedSet own

theorem grown (ledger : Ledger scheduler) {value : Nat}
    (pool : after.pool = scheduler.pool ++ [Semaphore.fresh value])
    (calls : after.calls = scheduler.calls) : Ledger after where
  conserved := by
    rw [pool, slots, calls]
    exact ledger.conserved.made value
  booked := by
    rw [calls]
    exact ledger.booked

theorem looked (ledger : Ledger scheduler) (found : Looked scheduler after) : Ledger after := by
  rcases found.pool with same | ⟨value, grew⟩
  · constructor
    · rw [same, slots, found.calls]
      exact ledger.conserved
    · rw [found.calls]
      exact ledger.booked
  · exact ledger.grown grew found.calls

end Ledger

theorem Moves.ledger (moves : Moves texts scheduler action after) (ledger : Ledger scheduler) :
    Ledger after := by
  cases moves with
  | called began =>
      refine ⟨by simpa [slots] using ledger.conserved.client, ?_⟩
      intro call member
      rcases List.mem_append.mp member with earlier | last
      · exact ledger.booked call earlier
      · rw [List.mem_singleton.mp last]
        simp [Call.Booked]
  | asked present looked =>
      have own := ledger.present present
      have found := semaphoreFor_looked looked
      have known := ledger.looked found
      rw [← found.calls] at present
      exact known.moved present rfl rfl rfl own
  | raised present => exact ledger.left present rfl rfl
  | @acquired index admission lock ref next held pool present got =>
      have own := ledger.present present
      constructor
      · have taken := ledger.conserved.acquired (slots_present present) got lock
        simpa [slots, List.map_set] using taken
      · apply ledger.bookedSet
        simpa [Call.Booked] using own
  | cancelled present => exact ledger.left present rfl rfl
  | registered present =>
      have own := ledger.present present
      exact ledger.moved present rfl rfl rfl (by simpa [Call.Booked] using own)
  | admitted present =>
      have own := ledger.present present
      exact ledger.moved present rfl rfl rfl (by simpa [Call.Booked] using own)
  | unlogged present => exact ledger.left present rfl rfl
  | refused present => exact ledger.left present rfl rfl
  | finished present => exact ledger.left present (by simp) (by simp)
  | reconfigured idle => exact ledger.grown rfl rfl

theorem init_ledger {limits : Option SchedulerLimits} {distributed : Bool}
    (made : init limits distributed = some scheduler) : Ledger scheduler := by
  obtain ⟨semaphore, new, rfl⟩ := Option.map_eq_some_iff.mp made
  obtain ⟨_, rfl⟩ := newSemaphore_fresh new
  constructor
  · constructor
    · intro ref known found
      cases ref with
      | zero =>
          cases found
          rfl
      | succ ref => simp at found
    · intro slots member
      cases member
  · intro call member
    cases member

end RunScheduler

end AgentTaskPlatform.Scheduler
