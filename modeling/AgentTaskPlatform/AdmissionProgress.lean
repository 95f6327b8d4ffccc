import AgentTaskPlatform.AdmissionLedger
import AgentTaskPlatform.OrderedAcquisition

/-!
Admission makes progress. Every call of `run_with_limits` enters its semaphores in the same
order: the global or the nested one, the agent's, the route tag's, the caller's. A run may
await a call below it, so the order has to go on from the semaphores of a run to those of
the calls that it awaits; where it does, the calls that wait get their semaphores and return.
-/

namespace AgentTaskPlatform.Scheduler

open KeyedTable Semaphores Transitions

def LaneLabel.rank : LaneLabel → Nat
  | .agent _ => 1
  | .route _ => 2

/-- The place of a semaphore in the order of `run_with_limits`. -/
def Lock.rank : Lock → Nat
  | .global => 0
  | .nestedChildren _ => 0
  | .agent _ => 1
  | .routeTag _ => 2
  | .caller _ => 3
  | .ancestorLane _ label => label.rank

theorem Admission.locks_ascending (admission : Admission) :
    admission.locks.Pairwise fun first later => first.rank < later.rank := by
  unfold locks agentLock routeLock
  cases admission.isChild <;> cases admission.ancestorAgentId <;>
    cases admission.ancestorRouteId <;> cases admission.callerExempt <;>
      simp [Lock.rank, LaneLabel.rank]

theorem Call.Booked.held_locks {call : Call} (booked : call.Booked) {slot : Lock × Nat}
    (held : slot ∈ call.held) : slot.1 ∈ call.admission.locks := by
  have member := List.mem_map_of_mem (f := Prod.fst) held
  unfold Call.Booked at booked
  split at booked
  · exact booked ▸ List.mem_append_left _ member
  · exact booked ▸ List.mem_append_left _ member
  · exact booked ▸ member
  · exact booked ▸ member
  · rw [booked] at held
    cases held

theorem Call.Booked.waiting_locks {call : Call} (booked : call.Booked) {lock : Lock} {ref : Nat}
    {next : List Lock} (waits : call.stage = .waiting lock ref next) :
    lock ∈ call.admission.locks := by
  have entered : call.held.map Prod.fst ++ lock :: next = call.admission.locks := by
    simpa [Call.Booked, waits] using booked
  simp [← entered]

theorem Call.Booked.below {call : Call} (booked : call.Booked) {lock : Lock} {ref : Nat}
    {next : List Lock} (waits : call.stage = .waiting lock ref next) {rank : Lock → Nat}
    (ascending : call.admission.locks.Pairwise fun first later => rank first < rank later) :
    ∀ slot ∈ call.held, rank slot.1 < rank lock := by
  intro slot held
  have entered : call.held.map Prod.fst ++ lock :: next = call.admission.locks := by
    simpa [Call.Booked, waits] using booked
  rw [← entered, List.pairwise_append] at ascending
  exact ascending.2.2 slot.1 (List.mem_map_of_mem held) lock List.mem_cons_self

def Admission.below (admission : Admission) (runId : String) : Bool :=
  match admission.parentRunId with
  | .string parent => parent = runId
  | _ => false

structure SchedulerLimits.Positive (limits : SchedulerLimits) : Prop where
  global : 0 < limits.globalMaxConcurrency
  routeTags : ∀ entry ∈ limits.routeTagMaxConcurrency, 0 < entry.2
  callers : ∀ entry ∈ limits.callerMaxConcurrency, 0 < entry.2
  children : 0 < limits.maxActiveChildrenPerRoot

instance (limits : SchedulerLimits) : Decidable limits.Positive :=
  decidable_of_iff
    (0 < limits.globalMaxConcurrency ∧ (∀ entry ∈ limits.routeTagMaxConcurrency, 0 < entry.2) ∧
      (∀ entry ∈ limits.callerMaxConcurrency, 0 < entry.2) ∧ 0 < limits.maxActiveChildrenPerRoot)
    ⟨fun ⟨global, routeTags, callers, children⟩ => ⟨global, routeTags, callers, children⟩,
      fun positive => ⟨positive.global, positive.routeTags, positive.callers, positive.children⟩⟩

theorem lookup_positive {table : List (String × Int)} (positive : ∀ entry ∈ table, 0 < entry.2)
    (name : String) : 0 < (table.lookup name).getD 10000 := by
  induction table with
  | nil => simp
  | cons entry rest ih =>
      rw [List.lookup_cons]
      cases name == entry.1 with
      | true => exact positive entry List.mem_cons_self
      | false => exact ih fun other member => positive other (List.mem_cons_of_mem _ member)

theorem SchedulerLimits.Positive.limit {limits : SchedulerLimits} (positive : limits.Positive)
    {agent : AgentSpec} (own : 0 < agent.maxConcurrency) (lock : Lock) :
    0 < limits.limit agent lock := by
  cases lock with
  | global => exact positive.global
  | agent name => exact own
  | routeTag tag => exact lookup_positive positive.routeTags tag
  | caller name => exact lookup_positive positive.callers name
  | nestedChildren root => exact positive.children
  | ancestorLane holder label => exact Int.one_pos

namespace Action

def Positive : Action → Prop
  | .call _ agent => 0 < agent.maxConcurrency
  | .reconfigure settings => settings.limits.Positive
  | _ => True

instance : (action : Action) → Decidable action.Positive
  | .call _ agent => inferInstanceAs (Decidable (0 < agent.maxConcurrency))
  | .reconfigure settings => inferInstanceAs (Decidable settings.limits.Positive)
  | .ask _ | .acquire _ | .cancel _ | .register _ | .runAdmitted _ | .logFails _ | .refuse _
  | .finish _ => inferInstanceAs (Decidable True)

/-- A step of a call that is already there; nothing fails and nothing is cancelled. -/
def inner : Action → Bool
  | .ask _ | .acquire _ | .register _ | .runAdmitted _ | .finish _ => true
  | _ => false

end Action

def Stage.left : Stage → Nat
  | .asking next => 2 * next.length + 3
  | .waiting _ _ next => 2 * next.length + 4
  | .registered => 2
  | .running => 1
  | .ended => 0

namespace RunScheduler

variable {texts : Texts} {scheduler after : RunScheduler} {action : Action}

def work (scheduler : RunScheduler) : Nat :=
  (scheduler.calls.map fun call => call.stage.left).sum

def awaits (scheduler : RunScheduler) (parent child : Nat) : Bool :=
  parent < child && match scheduler.calls[parent]?, scheduler.calls[child]? with
    | some above, some call =>
        above.stage ≠ .ended && call.stage ≠ .ended && call.admission.below above.admission.runId
    | _, _ => false

def Above (scheduler : RunScheduler) : Nat → Nat → Prop :=
  Relation.TransGen fun parent child => scheduler.awaits parent child = true

def patient (scheduler : RunScheduler) : Action → Prop
  | .finish index => ∀ child, scheduler.awaits index child = false
  | _ => True

/-- A call that is not admitted yet takes its semaphores in the order of the ranks, above
those of the calls that await it. -/
structure Layered (scheduler : RunScheduler) (rank : Lock → Nat) : Prop where
  ascending : ∀ (index : Nat) call, scheduler.calls[index]? = some call → call.stage ≠ .ended →
    call.admitted = false →
    call.admission.locks.Pairwise fun first later => rank first < rank later
  nested : ∀ (parent child : Nat) above call, scheduler.Above parent child →
    scheduler.calls[parent]? = some above → scheduler.calls[child]? = some call →
    call.admitted = false → ∀ first ∈ above.admission.locks, ∀ later ∈ call.admission.locks,
      rank first < rank later

structure Fits (owner : Nat → Lock) (length : Nat) (call : Call) : Prop where
  agent : 0 < call.admission.agent.maxConcurrency
  held : ∀ slot ∈ call.held, slot.2 < length ∧ owner slot.2 = slot.1
  waiting : ∀ lock ref next, call.stage = .waiting lock ref next →
    ref < length ∧ owner ref = lock

structure Live (scheduler : RunScheduler) (owner : Nat → Lock) : Prop where
  ledger : Ledger scheduler
  limits : scheduler.limits.Positive
  positive : ∀ ref made, initial scheduler.pool ref = some made → 0 < made
  global : (scheduler.semaphores .global).isSome = true
  named : ∀ lock ref, scheduler.semaphores lock = some ref →
    ref < scheduler.pool.length ∧ owner ref = lock
  calls : ∀ call ∈ scheduler.calls, Fits owner scheduler.pool.length call

inductive Found (scheduler : RunScheduler) (agent : AgentSpec) (lock : Lock) :
    RunScheduler → Nat → Prop
  | known {ref : Nat} (there : scheduler.semaphores lock = some ref) :
      Found scheduler agent lock scheduler ref
  | new : lock ≠ .global → Found scheduler agent lock
      { scheduler with
        pool := scheduler.pool ++ [Semaphore.fresh (scheduler.limits.limit agent lock).toNat]
        semaphores := Function.update scheduler.semaphores lock (some scheduler.pool.length) }
      scheduler.pool.length

theorem semaphoreFor_found {agent : AgentSpec} {lock : Lock} {ref : Nat}
    (looked : scheduler.semaphoreFor agent lock = some (after, ref)) :
    Found scheduler agent lock after ref := by
  unfold semaphoreFor at looked
  split at looked
  · next same =>
      obtain ⟨known, there, equal⟩ := Option.map_eq_some_iff.mp looked
      cases equal
      exact .known (by rw [same]; exact there)
  · next other =>
      obtain ⟨semaphore, made, equal⟩ := Option.map_eq_some_iff.mp looked
      obtain ⟨_, rfl⟩ := newSemaphore_fresh made
      split at equal
      · next there =>
          cases equal
          exact .known there
      · cases equal
        exact .new other

theorem Live.found {owner : Nat → Lock} (live : Live scheduler owner) {agent : AgentSpec}
    (own : 0 < agent.maxConcurrency) (lock : Lock) :
    ∃ found ref, scheduler.semaphoreFor agent lock = some (found, ref) := by
  unfold semaphoreFor
  split
  · obtain ⟨ref, there⟩ := Option.isSome_iff_exists.mp live.global
    exact ⟨scheduler, ref, by rw [there]; rfl⟩
  · have positive := live.limits.limit own lock
    rw [newSemaphore, if_neg (by omega), Option.map_some]
    split
    · exact ⟨_, _, rfl⟩
    · exact ⟨_, _, rfl⟩

section Fitting

variable {owner : Nat → Lock} {length : Nat} {call : Call}

theorem Fits.grown (fits : Fits owner length call) {other : Nat → Lock} {more : Nat}
    (longer : length ≤ more) (agrees : ∀ ref < length, other ref = owner ref) :
    Fits other more call where
  agent := fits.agent
  held := by
    intro slot member
    obtain ⟨inside, same⟩ := fits.held slot member
    exact ⟨by omega, (agrees _ inside).trans same⟩
  waiting := by
    intro lock ref next stage
    obtain ⟨inside, same⟩ := fits.waiting lock ref next stage
    exact ⟨by omega, (agrees _ inside).trans same⟩

theorem Fits.moved (fits : Fits owner length call) {stage : Stage}
    (idle : ∀ lock ref next, stage ≠ .waiting lock ref next) :
    Fits owner length { call with stage := stage } where
  agent := fits.agent
  held := fits.held
  waiting lock ref next same := absurd same (idle lock ref next)

theorem Fits.left (fits : Fits owner length call) :
    Fits owner length { call with stage := .ended, held := [] } where
  agent := fits.agent
  held _ member := by cases member
  waiting _ _ _ same := by cases same

end Fitting

namespace Live

variable {owner : Nat → Lock} {index : Nat} {old : Call}

theorem fits (live : Live scheduler owner) (present : scheduler.calls[index]? = some old) :
    Fits owner scheduler.pool.length old :=
  live.calls old (List.mem_of_getElem? present)

theorem replaced (live : Live scheduler owner) (ledger : Ledger after) {new : Call}
    (calls : after.calls = scheduler.calls.set index new)
    (made : ∀ ref, initial after.pool ref = initial scheduler.pool ref)
    (length : after.pool.length = scheduler.pool.length)
    (limits : after.limits = scheduler.limits)
    (global : (after.semaphores .global).isSome = true)
    (fewer : ∀ lock ref, after.semaphores lock = some ref → scheduler.semaphores lock = some ref)
    (fits : Fits owner scheduler.pool.length new) : Live after owner where
  ledger := ledger
  limits := limits ▸ live.limits
  positive := by
    intro ref value known
    exact live.positive ref value (made ref ▸ known)
  global := global
  named := by
    intro lock ref known
    rw [length]
    exact live.named lock ref (fewer lock ref known)
  calls := by
    rw [calls, length]
    intro call member
    rcases List.mem_or_eq_of_mem_set member with before | rfl
    · exact live.calls call before
    · exact fits

theorem gone (live : Live scheduler owner) (present : scheduler.calls[index]? = some old)
    (ledger : Ledger after)
    (calls : after.calls = scheduler.calls.set index { old with stage := .ended, held := [] })
    (pool : after.pool = releaseAll scheduler.pool old.held)
    (limits : after.limits = scheduler.limits)
    (global : after.semaphores .global = scheduler.semaphores .global)
    (fewer : ∀ lock ref, after.semaphores lock = some ref → scheduler.semaphores lock = some ref) :
    Live after owner := by
  apply live.replaced ledger calls
  · intro ref
    rw [pool, releaseAll_initial]
  · rw [pool, releaseAll_length]
  · exact limits
  · rw [global]
    exact live.global
  · exact fewer
  · exact (live.fits present).left

theorem grown (live : Live scheduler owner) (ledger : Ledger after) (lock : Lock) {value : Nat}
    (positive : 0 < value) (limits : after.limits.Positive)
    (pool : after.pool = scheduler.pool ++ [Semaphore.fresh value])
    (calls : after.calls = scheduler.calls)
    (global : (after.semaphores .global).isSome = true)
    (named : ∀ name ref, after.semaphores name = some ref →
      (ref = scheduler.pool.length ∧ name = lock) ∨ scheduler.semaphores name = some ref) :
    Live after (Function.update owner scheduler.pool.length lock) := by
  have agrees : ∀ ref < scheduler.pool.length,
      Function.update owner scheduler.pool.length lock ref = owner ref := by
    intro ref inside
    rw [Function.update_of_ne (by omega)]
  have length : after.pool.length = scheduler.pool.length + 1 := by simp [pool]
  refine ⟨ledger, limits, ?_, global, ?_, ?_⟩
  · intro ref made known
    by_cases inside : ref < scheduler.pool.length
    · rw [pool, initial_append inside] at known
      exact live.positive ref made known
    · rw [pool, initial, List.getElem?_append_right (by omega), List.getElem?_singleton] at known
      split at known
      · cases known
        exact positive
      · cases known
  · intro name ref known
    rcases named name ref known with ⟨rfl, rfl⟩ | before
    · exact ⟨by omega, Function.update_self _ _ _⟩
    · obtain ⟨inside, same⟩ := live.named name ref before
      exact ⟨by omega, (agrees ref inside).trans same⟩
  · rw [calls]
    intro call member
    exact (live.calls call member).grown (by omega) agrees

end Live

theorem dropLanes_fewer {semaphores : Lock → Option Nat} {runId : String} {lock : Lock} {ref : Nat}
    (known : dropLanes semaphores runId lock = some ref) : semaphores lock = some ref := by
  cases lock with
  | ancestorLane holder label =>
      simp only [dropLanes] at known
      split at known
      · cases known
      · exact known
  | _ => exact known

theorem dropRoot_fewer {admission : Admission} {lock : Lock} {ref : Nat}
    (known : (scheduler.dropRoot admission).semaphores lock = some ref) :
    scheduler.semaphores lock = some ref := by
  unfold dropRoot at known
  split at known
  · have there := dropLanes_fewer known
    by_cases same : lock = .nestedChildren admission.rootRunId
    · rw [same, Function.update_self] at there
      cases there
    · rwa [Function.update_of_ne same] at there
  · exact known

theorem dropRoot_global {admission : Admission} :
    (scheduler.dropRoot admission).semaphores .global = scheduler.semaphores .global := by
  unfold dropRoot
  split <;> rfl

theorem Live.looked {owner : Nat → Lock} (live : Live scheduler owner) {agent : AgentSpec}
    (own : 0 < agent.maxConcurrency) {lock : Lock} {ref : Nat}
    (looked : scheduler.semaphoreFor agent lock = some (after, ref)) :
    ∃ owner, Live after owner ∧ ref < after.pool.length ∧ owner ref = lock := by
  have limit := live.limits.limit own lock
  have ledger := live.ledger.looked (semaphoreFor_looked looked)
  cases semaphoreFor_found looked with
  | known there => exact ⟨owner, live, live.named lock ref there⟩
  | new other =>
      refine ⟨_, live.grown ledger lock (by omega) live.limits rfl rfl ?_ ?_, ?_, ?_⟩
      · simp only
        rw [Function.update_of_ne (Ne.symm other)]
        exact live.global
      · intro name ref known
        simp only at known
        by_cases same : name = lock
        · subst same
          rw [Function.update_self] at known
          exact Or.inl ⟨(Option.some.inj known).symm, rfl⟩
        · rw [Function.update_of_ne same] at known
          exact Or.inr known
      · simp
      · exact Function.update_self _ _ _

/-- Every step keeps the semaphores apart. -/
theorem Moves.live {owner : Nat → Lock} (moves : Moves texts scheduler action after)
    (live : Live scheduler owner) (positive : action.Positive)
    (other : ∀ settings, action ≠ .reconfigure settings) : ∃ owner, Live after owner := by
  have ledger := moves.ledger live.ledger
  cases moves with
  | @called run agent admission began =>
      have own : admission.agent = agent := by
        simp only [runWithLimits] at began
        split at began
        · cases began
        · split at began
          · cases began
          · obtain ⟨chain, _, rfl⟩ := Option.map_eq_some_iff.mp began
            rfl
      refine ⟨owner, ledger, live.limits, live.positive, live.global, live.named, ?_⟩
      intro call member
      rcases List.mem_append.mp member with before | new
      · exact live.calls call before
      · rw [List.mem_singleton.mp new]
        exact ⟨own ▸ positive, fun _ none => (by cases none), fun _ _ _ same => (by cases same)⟩
  | @asked index admission lock next held found ref present looked =>
      obtain ⟨later, grew, inside, named⟩ := live.looked (live.fits present).agent looked
      rw [← (semaphoreFor_looked looked).calls] at present
      have own := grew.fits present
      refine ⟨later, grew.replaced ledger rfl (fun _ => rfl) rfl rfl grew.global
        (fun _ _ known => known) ⟨own.agent, own.held, ?_⟩⟩
      intro name other rest same
      cases same
      exact ⟨inside, named⟩
  | raised present =>
      exact ⟨owner, live.gone present ledger rfl rfl rfl rfl fun _ _ known => known⟩
  | @acquired index admission lock ref next held pool present got =>
      have fits := live.fits present
      refine ⟨owner, live.replaced ledger rfl (fun _ => acquire_initial got) (acquire_length got) rfl
        live.global (fun _ _ known => known)
        ⟨fits.agent, ?_, fun _ _ _ same => (by cases same)⟩⟩
      intro slot member
      rcases List.mem_append.mp member with before | new
      · exact fits.held slot before
      · rw [List.mem_singleton.mp new]
        exact fits.waiting lock ref next rfl
  | cancelled present =>
      exact ⟨owner, live.gone present ledger rfl rfl rfl rfl fun _ _ known => known⟩
  | registered present =>
      exact ⟨owner, live.replaced ledger rfl (fun _ => rfl) rfl rfl live.global
        (fun _ _ known => known) ((live.fits present).moved nofun)⟩
  | admitted present =>
      exact ⟨owner, live.replaced ledger rfl (fun _ => rfl) rfl rfl live.global
        (fun _ _ known => known) ((live.fits present).moved nofun)⟩
  | unlogged present =>
      exact ⟨owner, live.gone present ledger rfl rfl rfl rfl fun _ _ known => dropLanes_fewer known⟩
  | refused present =>
      exact ⟨owner, live.gone present ledger rfl rfl rfl rfl fun _ _ known => dropLanes_fewer known⟩
  | @finished index admission held present =>
      refine ⟨owner, live.gone present ledger (by simp) (by simp) (by simp) dropRoot_global ?_⟩
      intro lock ref known
      have there : ((scheduler.count admission (-1)).dropRoot admission).semaphores lock =
          some ref := dropLanes_fewer known
      have before : (scheduler.count admission (-1)).semaphores lock = some ref :=
        dropRoot_fewer there
      exact before
  | @reconfigured settings value idle => exact absurd rfl (other settings)

theorem reconfigure_live {owner : Nat → Lock} {settings : QueueSettings}
    (moved : scheduler.step texts (.reconfigure settings) = some after)
    (live : Live scheduler owner) (positive : settings.limits.Positive) :
    ∃ owner, Live after owner := by
  have ledger := (step_cases moved).ledger live.ledger
  simp only [step, reconfigure] at moved
  split at moved
  · cases moved
  · split at moved
    · cases moved
    · obtain ⟨semaphore, made, rfl⟩ := Option.map_eq_some_iff.mp moved
      obtain ⟨_, rfl⟩ := newSemaphore_fresh made
      have global := positive.global
      refine ⟨_, live.grown ledger .global (by omega) positive rfl rfl rfl fun name ref known => ?_⟩
      cases name with
      | global => exact Or.inl ⟨(Option.some.inj known).symm, rfl⟩
      | agent name => exact Or.inr known
      | _ => cases known

theorem step_live {owner : Nat → Lock} (moved : scheduler.step texts action = some after)
    (live : Live scheduler owner) (positive : action.Positive) : ∃ owner, Live after owner := by
  cases action with
  | reconfigure settings => exact reconfigure_live moved live positive
  | _ => exact (step_cases moved).live live positive nofun

theorem init_live {limits : Option SchedulerLimits} {distributed : Bool}
    (made : init limits distributed = some scheduler) (positive : (limits.getD {}).Positive) :
    ∃ owner, Live scheduler owner := by
  have ledger := init_ledger made
  obtain ⟨semaphore, new, rfl⟩ := Option.map_eq_some_iff.mp made
  obtain ⟨_, rfl⟩ := newSemaphore_fresh new
  have global := positive.global
  refine ⟨fun _ => .global, ledger, positive, ?_, rfl, ?_, fun _ none => (by cases none)⟩
  · intro ref value known
    cases ref with
    | zero =>
        cases known
        simp only [Semaphore.fresh]
        omega
    | succ ref => simp [initial] at known
  · intro lock ref known
    simp only at known
    split at known
    · next same =>
        cases known
        exact ⟨Nat.one_pos, same.symm⟩
    · cases known

theorem live_inductive :
    Inductive (step texts) (fun _ action => action.Positive) fun scheduler =>
      ∃ owner, Live scheduler owner where
  kept := by
    rintro scheduler action after ⟨owner, live⟩ positive moved
    exact step_live moved live positive

section Progress

variable {owner : Nat → Lock} {index : Nat} {call : Call}

theorem awaits_iff {parent child : Nat} : scheduler.awaits parent child = true ↔
    parent < child ∧ ∃ above call, scheduler.calls[parent]? = some above ∧
      scheduler.calls[child]? = some call ∧ above.stage ≠ .ended ∧ call.stage ≠ .ended ∧
      call.admission.below above.admission.runId = true := by
  unfold awaits
  cases scheduler.calls[parent]? <;> cases scheduler.calls[child]? <;> simp [and_assoc]

def waits (scheduler : RunScheduler) (index : Nat) : Option Nat :=
  match scheduler.calls[index]? with
  | some ⟨_, .waiting _ ref _, _⟩ => some ref
  | _ => none

theorem waits_call {ref : Nat} (waiting : scheduler.waits index = some ref) :
    ∃ admission lock next held,
      scheduler.calls[index]? = some ⟨admission, .waiting lock ref next, held⟩ := by
  unfold waits at waiting
  split at waiting
  · next present =>
      cases waiting
      exact ⟨_, _, _, _, present⟩
  · cases waiting

/-- The call waits for the semaphore, itself or through the calls that it awaits. -/
def Leads (scheduler : RunScheduler) (index ref : Nat) : Prop :=
  scheduler.waits index = some ref ∨
    ∃ target, scheduler.Above index target ∧ scheduler.waits target = some ref

theorem Leads.through {child ref : Nat} (edge : scheduler.awaits index child = true)
    (leads : scheduler.Leads child ref) : scheduler.Leads index ref := by
  rcases leads with waiting | ⟨target, above, waiting⟩
  · exact Or.inr ⟨child, .single edge, waiting⟩
  · exact Or.inr ⟨target, above.head edge, waiting⟩

theorem Leads.waiter {ref : Nat} (leads : scheduler.Leads index ref) :
    ∃ target, scheduler.waits target = some ref := by
  rcases leads with waiting | ⟨target, _, waiting⟩
  · exact ⟨index, waiting⟩
  · exact ⟨target, waiting⟩

def Stuck (scheduler : RunScheduler) : Prop :=
  ∀ (index : Nat) call, scheduler.calls[index]? = some call → call.stage ≠ .ended →
    (∃ ref, scheduler.waits index = some ref) ∨ ∃ child, scheduler.awaits index child = true

/-- Down from a run to what it awaits one comes to a call that waits for a semaphore. -/
theorem Stuck.leads (stuck : scheduler.Stuck) (present : scheduler.calls[index]? = some call)
    (unfinished : call.stage ≠ .ended) : ∃ ref, scheduler.Leads index ref := by
  induction above : scheduler.calls.length - index using Nat.strongRecOn generalizing index call with
  | ind total ih =>
      rcases stuck index call present unfinished with ⟨ref, waiting⟩ | ⟨child, edge⟩
      · exact ⟨ref, Or.inl waiting⟩
      · obtain ⟨earlier, _, below, _, there, _, open_, _⟩ := awaits_iff.mp edge
        obtain ⟨inside, _⟩ := List.getElem?_eq_some_iff.mp there
        obtain ⟨ref, leads⟩ := ih (scheduler.calls.length - child) (by omega) there open_ rfl
        exact ⟨ref, leads.through edge⟩

theorem Live.steps (live : Live scheduler owner) (present : scheduler.calls[index]? = some call)
    (unfinished : call.stage ≠ .ended) (free : scheduler.waits index = none)
    (alone : ∀ child, scheduler.awaits index child = false) : ∃ action, action.inner = true ∧
      scheduler.patient action ∧ (scheduler.step texts action).isSome = true := by
  obtain ⟨admission, stage, held⟩ := call
  cases stage with
  | asking next =>
      cases next with
      | nil => exact ⟨.register index, rfl, trivial, by simp [step, present]⟩
      | cons lock next =>
          obtain ⟨found, ref, looked⟩ := live.found (live.fits present).agent lock
          exact ⟨.ask index, rfl, trivial, by simp [step, present, looked]⟩
  | waiting lock ref next => simp [waits, present] at free
  | registered => exact ⟨.runAdmitted index, rfl, trivial, by simp [step, present]⟩
  | running => exact ⟨.finish index, rfl, alone, by simp [step, present]⟩
  | ended => exact absurd rfl unfinished

/-- If no call can take a step on its own, those that hold slots wait, in the common order. -/
theorem Live.ordered {rank : Lock → Nat} (live : Live scheduler owner)
    (layered : scheduler.Layered rank) (stuck : scheduler.Stuck) :
    Ordered scheduler.pool scheduler.slots (fun ref => rank (owner ref)) scheduler.Leads where
  known := by
    intro index ref leads
    obtain ⟨target, waiting⟩ := leads.waiter
    obtain ⟨admission, lock, next, held, present⟩ := waits_call waiting
    exact ((live.fits present).waiting lock ref next rfl).1
  ascending := by
    intro index slots ref there leads slot member
    obtain ⟨call, present, rfl⟩ := by
      simpa [RunScheduler.slots] using there
    rw [((live.fits present).held slot member).2]
    have booked := live.ledger.present present
    rcases leads with waiting | ⟨target, above, waiting⟩
    · obtain ⟨admission, lock, next, held, same⟩ := waits_call waiting
      rw [present] at same
      cases same
      rw [((live.fits present).waiting lock ref next rfl).2]
      have ascending := layered.ascending index _ present (by simp) rfl
      exact booked.below rfl ascending slot member
    · obtain ⟨admission, lock, next, held, other⟩ := waits_call waiting
      rw [((live.fits other).waiting lock ref next rfl).2]
      exact layered.nested index target call _ above present other rfl slot.1
        (booked.held_locks member) lock ((live.ledger.present other).waiting_locks rfl)
  holders := by
    intro index slots slot there member
    obtain ⟨call, present, rfl⟩ := by
      simpa [RunScheduler.slots] using there
    apply stuck.leads present
    intro ended
    have booked := live.ledger.present present
    simp only [Call.Booked, ended] at booked
    rw [booked] at member
    cases member

/-- Where every call that somebody awaits has been admitted, the order of `run_with_limits`
itself serves. -/
theorem layered_unnested (admitted : ∀ (parent child : Nat) call,
    scheduler.awaits parent child = true → scheduler.calls[child]? = some call →
    call.admitted = true) : scheduler.Layered Lock.rank where
  ascending _ call _ _ _ := call.admission.locks_ascending
  nested := by
    intro parent child top call path _ here waiting
    obtain ⟨last, edge⟩ : ∃ last, scheduler.awaits last child = true := by
      cases path with
      | single edge => exact ⟨parent, edge⟩
      | @tail last _ _ edge => exact ⟨last, edge⟩
    rw [admitted last child call edge here] at waiting
    cases waiting

variable (texts) in
theorem Live.progress {rank : Lock → Nat} (live : Live scheduler owner)
    (layered : scheduler.Layered rank) (present : scheduler.calls[index]? = some call)
    (unfinished : call.stage ≠ .ended) : ∃ action, action.inner = true ∧
      scheduler.patient action ∧ (scheduler.step texts action).isSome = true := by
  by_cases stuck : scheduler.Stuck
  · obtain ⟨ref, leads⟩ := stuck.leads present unfinished
    have positive : ∀ semaphore ∈ scheduler.pool, 0 < semaphore.initial := by
      intro semaphore member
      obtain ⟨name, found⟩ := List.mem_iff_getElem?.mp member
      exact live.positive name _ (by simp [initial, found])
    obtain ⟨other, free, pool, leads, got⟩ := (live.ordered layered stuck).progress
      live.ledger.conserved positive leads
    obtain ⟨target, waiting⟩ := leads.waiter
    obtain ⟨admission, lock, next, held, there⟩ := waits_call waiting
    exact ⟨.acquire target, rfl, trivial, by simp [step, there, got]⟩
  · unfold Stuck at stuck
    push Not at stuck
    obtain ⟨other, own, there, open_, free, alone⟩ := stuck
    exact live.steps there open_ (Option.eq_none_iff_forall_not_mem.mpr free)
      fun child => by simpa using alone child

theorem work_set (present : scheduler.calls[index]? = some call) (new : Call)
    (calls : after.calls = scheduler.calls.set index new) :
    after.work + call.stage.left = scheduler.work + new.stage.left := by
  unfold work
  rw [calls]
  exact sum_map_set present new fun call => call.stage.left

theorem finished_calls (admission : Admission) (index : Nat) (call : Call) :
    ((((scheduler.count admission (-1)).dropRoot admission).unregister admission.runId).leave index
      call).calls = scheduler.calls.set index { call with stage := .ended, held := [] } := by
  simp

theorem inner_decreases (moved : scheduler.step texts action = some after)
    (inner : action.inner = true) : after.work < scheduler.work := by
  have closer : ∀ {index : Nat} {old new : Call}, scheduler.calls[index]? = some old →
      after.calls = scheduler.calls.set index new → new.stage.left < old.stage.left →
      after.work < scheduler.work := by
    intro index old new present calls less
    have sum := work_set present new calls
    omega
  cases step_cases moved with
  | called began => cases inner
  | @asked index admission lock next held found ref present looked =>
      have calls : (found.setCall index ⟨admission, .waiting lock ref next, held⟩).calls =
          scheduler.calls.set index ⟨admission, .waiting lock ref next, held⟩ := by
        rw [setCall_calls, (semaphoreFor_looked looked).calls]
      apply closer present calls
      simp only [Stage.left, List.length_cons]
      omega
  | raised present => exact closer present rfl (by simp [Stage.left])
  | acquired present got => exact closer present rfl (by simp [Stage.left])
  | cancelled present => cases inner
  | registered present => exact closer present rfl (by simp [Stage.left])
  | admitted present => exact closer present rfl (by simp [Stage.left])
  | unlogged present => cases inner
  | refused present => cases inner
  | finished present => exact closer present (finished_calls _ _ _) (by simp [Stage.left])
  | reconfigured idle => cases inner

def Advanced (scheduler after : RunScheduler) : Prop :=
  ∀ (index : Nat) new, after.calls[index]? = some new → new.stage ≠ .ended →
    ∃ old, scheduler.calls[index]? = some old ∧ new.admission = old.admission ∧
      old.stage ≠ .ended ∧ (new.admitted = false → old.admitted = false)

theorem advanced_set {old new : Call} (present : scheduler.calls[index]? = some old)
    (calls : after.calls = scheduler.calls.set index new) (admission : new.admission = old.admission)
    (open_ : old.stage ≠ .ended) (admitted : new.stage ≠ .ended → new.admitted = false →
      old.admitted = false) : Advanced scheduler after := by
  intro other later found unfinished
  rw [calls] at found
  by_cases same : index = other
  · subst same
    obtain ⟨inside, _⟩ := List.getElem?_eq_some_iff.mp present
    rw [List.getElem?_set_self inside] at found
    cases found
    exact ⟨old, present, admission, open_, admitted unfinished⟩
  · rw [List.getElem?_set_ne same] at found
    exact ⟨later, found, rfl, unfinished, id⟩

theorem inner_advanced (moved : scheduler.step texts action = some after)
    (inner : action.inner = true) : Advanced scheduler after := by
  cases step_cases moved with
  | called began => cases inner
  | @asked index admission lock next held found ref present looked =>
      have calls : (found.setCall index ⟨admission, .waiting lock ref next, held⟩).calls =
          scheduler.calls.set index ⟨admission, .waiting lock ref next, held⟩ := by
        rw [setCall_calls, (semaphoreFor_looked looked).calls]
      exact advanced_set present calls rfl (by simp) fun _ _ => rfl
  | raised present => exact advanced_set present rfl rfl (by simp) fun _ _ => rfl
  | acquired present got => exact advanced_set present rfl rfl (by simp) fun _ _ => rfl
  | cancelled present => cases inner
  | registered present =>
      exact advanced_set present rfl rfl (by simp) fun _ admitted => by cases admitted
  | admitted present =>
      exact advanced_set present rfl rfl (by simp) fun _ admitted => by cases admitted
  | unlogged present => cases inner
  | refused present => cases inner
  | finished present =>
      exact advanced_set present (finished_calls _ _ _) rfl (by simp) fun open_ => absurd rfl open_
  | reconfigured idle => cases inner

theorem Advanced.awaits (advanced : Advanced scheduler after) {parent child : Nat}
    (edge : after.awaits parent child = true) : scheduler.awaits parent child = true := by
  obtain ⟨later, above, call, top, bottom, first, last, below⟩ := awaits_iff.mp edge
  obtain ⟨old, there, same, open_, _⟩ := advanced parent above top first
  obtain ⟨own, here, equal, going, _⟩ := advanced child call bottom last
  exact awaits_iff.mpr ⟨later, old, own, there, here, open_, going, same ▸ equal ▸ below⟩

theorem Above.ends {parent child : Nat} (above : scheduler.Above parent child) :
    ∃ first last, scheduler.calls[parent]? = some first ∧ first.stage ≠ .ended ∧
      scheduler.calls[child]? = some last ∧ last.stage ≠ .ended := by
  induction above with
  | single edge =>
      obtain ⟨_, first, last, there, here, open_, going, _⟩ := awaits_iff.mp edge
      exact ⟨first, last, there, open_, here, going⟩
  | tail _ edge ih =>
      obtain ⟨first, _, there, open_, _⟩ := ih
      obtain ⟨_, _, last, _, here, _, going, _⟩ := awaits_iff.mp edge
      exact ⟨first, last, there, open_, here, going⟩

theorem Layered.advanced {rank : Lock → Nat} (layered : scheduler.Layered rank)
    (advanced : Advanced scheduler after) : after.Layered rank where
  ascending := by
    intro index call present unfinished waiting
    obtain ⟨old, there, same, open_, admitted⟩ := advanced index call present unfinished
    rw [same]
    exact layered.ascending index old there open_ (admitted waiting)
  nested := by
    intro parent child top call above there here waiting
    obtain ⟨first, last, start, open_, stop, going⟩ := above.ends
    rw [there] at start
    rw [here] at stop
    cases start
    cases stop
    obtain ⟨old, before, same, _, _⟩ := advanced parent top there open_
    obtain ⟨own, known, equal, _, admitted⟩ := advanced child call here going
    have earlier : scheduler.Above parent child :=
      Relation.TransGen.mono (fun _ _ edge => advanced.awaits edge) parent child above
    rw [same, equal]
    exact layered.nested parent child old own earlier before known (admitted waiting)

theorem Live.ends (live : Live scheduler owner) (present : scheduler.calls[index]? = some call)
    (unfinished : call.stage ≠ .ended) (moved : scheduler.step texts action = some after)
    (inner : action.inner = true) : action = .finish index ∨
      ∃ later, after.calls[index]? = some later ∧ later.stage ≠ .ended := by
  have going : ∀ {other : Nat} {old new : Call}, scheduler.calls[other]? = some old →
      after.calls = scheduler.calls.set other new → (other = index → new.stage ≠ .ended) →
      ∃ later, after.calls[index]? = some later ∧ later.stage ≠ .ended := by
    intro other old new there calls on
    rw [calls]
    by_cases same : other = index
    · subst same
      obtain ⟨inside, _⟩ := List.getElem?_eq_some_iff.mp there
      exact ⟨new, List.getElem?_set_self inside, on rfl⟩
    · exact ⟨call, by rw [List.getElem?_set_ne same]; exact present, unfinished⟩
  have raises : ∀ {other : Nat} {admission : Admission} {lock : Lock} {next : List Lock}
      {held : Slots Lock}, scheduler.calls[other]? = some ⟨admission, .asking (lock :: next), held⟩ →
      scheduler.semaphoreFor admission.agent lock ≠ none := by
    intro other admission lock next held there none
    obtain ⟨found, ref, looked⟩ := live.found (live.fits there).agent lock
    rw [none] at looked
    cases looked
  cases action with
  | ask other =>
      refine Or.inr ?_
      simp only [step] at moved
      split at moved
      · next there =>
          split at moved
          · next looked =>
              cases moved
              have calls := (semaphoreFor_looked looked).calls
              exact going there (congrArg (List.set · other _) calls) fun _ same => by cases same
          · next none => exact absurd none (raises there)
      · cases moved
  | acquire other =>
      cases step_cases moved with
      | acquired there got => exact Or.inr (going there rfl fun _ same => by cases same)
  | register other =>
      cases step_cases moved with
      | registered there => exact Or.inr (going there rfl fun _ same => by cases same)
  | runAdmitted other =>
      cases step_cases moved with
      | admitted there => exact Or.inr (going there rfl fun _ same => by cases same)
  | finish other =>
      by_cases same : other = index
      · exact Or.inl (by rw [same])
      · cases step_cases moved with
        | finished there =>
            exact Or.inr (going there (finished_calls _ _ _) fun equal => absurd equal same)
  | _ => cases inner

theorem inner_positive (inner : action.inner = true) : action.Positive := by
  cases action with
  | call run agent => cases inner
  | reconfigure settings => cases inner
  | _ => trivial

theorem inner_length {events : List (RunScheduler × Action)}
    (run : Run (step texts) scheduler events after)
    (inner : ∀ event ∈ events, event.2.inner = true) :
    events.length + after.work ≤ scheduler.work := by
  induction run with
  | done state => simp
  | next moved rest ih =>
      have later := ih fun event member => inner event (List.mem_cons_of_mem _ member)
      have less := inner_decreases moved (inner _ List.mem_cons_self)
      simp only [List.length_cons]
      omega

theorem inner_finishes {events : List (RunScheduler × Action)}
    (run : Run (step texts) scheduler events after) (alive : ∃ owner, Live scheduler owner)
    (inner : ∀ event ∈ events, event.2.inner = true)
    (present : scheduler.calls[index]? = some call) (unfinished : call.stage ≠ .ended)
    (ended : ∀ call ∈ after.calls, call.stage = .ended) :
    ∃ event ∈ events, event.2 = .finish index := by
  induction run generalizing call with
  | done state => exact absurd (ended call (List.mem_of_getElem? present)) unfinished
  | next moved rest ih =>
      have first := inner _ List.mem_cons_self
      obtain ⟨owner, live⟩ := alive
      rcases live.ends present unfinished moved first with same | ⟨later, there, open_⟩
      · exact ⟨_, List.mem_cons_self, same⟩
      · obtain ⟨event, member, finish⟩ := ih (step_live moved live (inner_positive first))
          (fun event member => inner event (List.mem_cons_of_mem _ member)) there open_ ended
        exact ⟨event, List.mem_cons_of_mem _ member, finish⟩

variable (texts) in
/-- The calls that are there can all come to their end. -/
theorem drains {rank : Lock → Nat} (alive : ∃ owner, Live scheduler owner)
    (layered : scheduler.Layered rank) : ∃ events final, Run (step texts) scheduler events final ∧
      (∀ event ∈ events, event.2.inner = true ∧ event.1.patient event.2) ∧
      ∀ call ∈ final.calls, call.stage = .ended := by
  induction left : scheduler.work using Nat.strongRecOn generalizing scheduler with
  | ind total ih =>
      obtain ⟨owner, live⟩ := alive
      by_cases ended : ∀ call ∈ scheduler.calls, call.stage = .ended
      · refine ⟨[], scheduler, .done scheduler, ?_, ended⟩
        intro event none
        cases none
      · push Not at ended
        obtain ⟨call, member, unfinished⟩ := ended
        obtain ⟨index, present⟩ := List.mem_iff_getElem?.mp member
        obtain ⟨action, inner, waits, possible⟩ := live.progress texts layered present unfinished
        obtain ⟨after, moved⟩ := Option.isSome_iff_exists.mp possible
        have less : after.work < total := left ▸ inner_decreases moved inner
        have reached := step_live moved live (inner_positive inner)
        obtain ⟨events, final, run, steps, done⟩ := ih after.work less reached
          (layered.advanced (inner_advanced moved inner)) rfl
        refine ⟨(scheduler, action) :: events, final, .next moved run, ?_, done⟩
        intro event member
        rcases List.mem_cons.mp member with rfl | later
        · exact ⟨inner, waits⟩
        · exact steps event later

theorem inner_layered {rank : Lock → Nat} {events : List (RunScheduler × Action)}
    (run : Run (step texts) scheduler events after)
    (inner : ∀ event ∈ events, event.2.inner = true) (layered : scheduler.Layered rank) :
    after.Layered rank := by
  induction run with
  | done state => exact layered
  | next moved rest ih =>
      exact ih (fun event member => inner event (List.mem_cons_of_mem _ member))
        (layered.advanced (inner_advanced moved (inner _ List.mem_cons_self)))

end Progress

section Runs

variable {start middle : RunScheduler} {events later : List (RunScheduler × Action)}

/-- Whatever has happened to a scheduler with positive limits, cancellations and reconfigurations
included: if the calls that wait go on in the order of the calls that await them, and a run
returns once the calls below it have ended, the calls that are there take a bounded number of
steps, cannot get stuck on the way, and every one of them is admitted and returns. -/
theorem admissions_complete {limits : Option SchedulerLimits} {distributed : Bool}
    {rank : Lock → Nat} (made : init limits distributed = some start)
    (positive : (limits.getD {}).Positive) (run : Run (step texts) start events scheduler)
    (bounded : ∀ event ∈ events, event.2.Positive) (layered : scheduler.Layered rank)
    (onward : Run (step texts) scheduler later middle)
    (inner : ∀ event ∈ later, event.2.inner = true) :
    later.length ≤ scheduler.work ∧ ∃ rest final, Run (step texts) middle rest final ∧
      (∀ event ∈ rest, event.2.inner = true ∧ event.1.patient event.2) ∧
      (∀ call ∈ final.calls, call.stage = .ended) ∧
      ∀ (index : Nat) call, scheduler.calls[index]? = some call → call.stage ≠ .ended →
        ∃ event ∈ later ++ rest, event.2 = .finish index := by
  have alive := live_inductive.run run (init_live made positive) bounded
  have still := live_inductive.run onward alive fun event member =>
    inner_positive (inner event member)
  obtain ⟨rest, final, drained, steps, ended⟩ :=
    drains texts still (inner_layered onward inner layered)
  have length := inner_length onward inner
  refine ⟨by omega, rest, final, drained, steps, ended, ?_⟩
  intro index call present unfinished
  have all : ∀ event ∈ later ++ rest, event.2.inner = true := by
    intro event member
    rcases List.mem_append.mp member with first | last
    · exact inner event first
    · exact (steps event last).1
  exact inner_finishes (onward.append drained) alive all present unfinished ended

end Runs

section Samples

def plainTexts : Texts := ⟨fun _ => "", fun _ => none⟩

def planning (runId caller : String) (metadata : List (String × Json)) : Action :=
  .call { runId, routeTag := "math", caller, requestId := runId, status := .queued, metadata }
    { name := "planner", version := "1.0.0", routeTags := ["math"] }

def solving (runId caller : String) (metadata : List (String × Json)) : Action :=
  .call { runId, routeTag := "logic", caller, requestId := runId, status := .queued, metadata }
    { name := "solver", version := "1.0.0", routeTags := ["logic"] }

def childMetadata (parent : String) : List (String × Json) :=
  [("parent_run_id", .string parent), ("root_run_id", .string parent), ("call_depth", .number 1)]

def admitting (index : Nat) : List Action :=
  (List.replicate 4 [Action.ask index, .acquire index]).flatten ++
    [.register index, .runAdmitted index]

/-- A run awaits two calls of its own agent; the second one waits for the lane that the
first one holds. -/
def laneWaits : List Action :=
  [planning "first" "web" []] ++ admitting 0 ++
    [planning "left" "agent:planner@1.0.0" (childMetadata "first")] ++ admitting 1 ++
    [planning "right" "agent:planner@1.0.0" (childMetadata "first"), .ask 2, .acquire 2, .ask 2]

/-- The semaphores of a call below `planner` come after those of a root run. -/
def nestedRank : Lock → Nat
  | .global => 0
  | .agent _ => 1
  | .routeTag _ => 2
  | .caller name => if name = "agent:planner@1.0.0" then 7 else 3
  | .nestedChildren _ => 4
  | .ancestorLane _ label => 4 + label.rank

def above (rank : Lock → Nat) (parent child : Option Call) : Bool :=
  parent.all fun parent => child.all fun child => child.admitted ||
    parent.admission.locks.all fun first =>
      child.admission.locks.all fun later => rank first < rank later

def layers (rank : Lock → Nat) (scheduler : RunScheduler) : Bool :=
  (scheduler.calls.all fun call => call.admitted ||
    call.admission.locks.Pairwise fun first later => rank first < rank later) &&
  (List.range scheduler.calls.length).all fun parent =>
    (List.range scheduler.calls.length).all fun child => !scheduler.awaits parent child ||
      ((List.range scheduler.calls.length).all fun other => !scheduler.awaits child other) &&
        above rank scheduler.calls[parent]? scheduler.calls[child]?

theorem awaits_inside {parent child : Nat} (edge : scheduler.awaits parent child = true) :
    parent ∈ List.range scheduler.calls.length ∧ child ∈ List.range scheduler.calls.length := by
  obtain ⟨_, _, _, there, here, _⟩ := awaits_iff.mp edge
  exact ⟨List.mem_range.mpr (List.getElem?_eq_some_iff.mp there).1,
    List.mem_range.mpr (List.getElem?_eq_some_iff.mp here).1⟩

theorem layered_of_checked {rank : Lock → Nat} (checked : layers rank scheduler = true) :
    scheduler.Layered rank := by
  simp only [layers, Bool.and_eq_true, List.all_eq_true, Bool.or_eq_true, decide_eq_true_eq,
    Bool.not_eq_true'] at checked
  obtain ⟨ascending, nested⟩ := checked
  constructor
  · intro index call present _ waiting
    rcases ascending call (List.mem_of_getElem? present) with admitted | ordered
    · rw [waiting] at admitted
      cases admitted
    · exact ordered
  · intro parent child top call path there here waiting
    have edge : scheduler.awaits parent child = true := by
      -- The awaited calls await nobody, so the path is a single edge.
      cases path with
      | single edge => exact edge
      | @tail middle _ before edge =>
          obtain ⟨first, into⟩ : ∃ first, scheduler.awaits first middle = true := by
            cases before with
            | single into => exact ⟨parent, into⟩
            | @tail first _ _ into => exact ⟨first, into⟩
          have inside := awaits_inside into
          rcases nested first inside.1 middle inside.2 with none | ⟨flat, _⟩
          · rw [into] at none
            cases none
          · rw [flat child (awaits_inside edge).2] at edge
            cases edge
    have inside := awaits_inside edge
    rcases nested parent inside.1 child inside.2 with none | ⟨_, ordered⟩
    · rw [edge] at none
      cases none
    · simpa [above, there, here, waiting] using ordered

theorem laneWaits_replays : (init none false).any (fun start =>
    (replay (step plainTexts) start laneWaits).any fun outcome =>
      (outcome.1.all fun event => event.2.Positive) && layers nestedRank outcome.2 &&
        outcome.2.awaits 0 2 && (outcome.2.waits 2).any fun ref =>
          outcome.2.semaphores (.ancestorLane "first" (.agent "planner")) = some ref) = true := by
  decide +kernel

theorem admissions_complete_laneWaits : ∃ start events scheduler ref,
    init none false = some start ∧ Run (step plainTexts) start events scheduler ∧
    scheduler.awaits 0 2 = true ∧ scheduler.waits 2 = some ref ∧
    scheduler.semaphores (.ancestorLane "first" (.agent "planner")) = some ref ∧
    ∃ rest final, Run (step plainTexts) scheduler rest final ∧
      ∀ (index : Nat) call, scheduler.calls[index]? = some call → call.stage ≠ .ended →
        ∃ event ∈ rest, event.2 = .finish index := by
  obtain ⟨start, made, replayed⟩ := (Option.any_eq_true _ _).mp laneWaits_replays
  obtain ⟨events, scheduler, run, checked⟩ := replay_checked replayed
  simp only [Bool.and_eq_true, List.all_eq_true, decide_eq_true_eq, Option.any_eq_true] at checked
  obtain ⟨⟨⟨bounded, layered⟩, awaited⟩, ref, waiting, lane⟩ := checked
  obtain ⟨_, rest, final, onward, _, _, returns⟩ := admissions_complete made (by decide) run
    bounded (layered_of_checked layered) (.done scheduler) (fun event none => by cases none)
  exact ⟨start, events, scheduler, ref, made, run, awaited, waiting, lane, rest, final, onward,
    returns⟩

def jammed (scheduler : RunScheduler) : Bool :=
  (List.range scheduler.calls.length).all fun index =>
    match scheduler.calls[index]? with
    | some ⟨_, .waiting _ ref _, _⟩ => (acquire scheduler.pool ref).isNone
    | some ⟨_, .running, _⟩ =>
        (List.range scheduler.calls.length).any fun child => scheduler.awaits index child
    | some ⟨_, .ended, _⟩ => true
    | _ => false

theorem jammed_still (stuck : jammed scheduler = true) {action : Action}
    (inner : action.inner = true) (waits : scheduler.patient action) :
    scheduler.step texts action = none := by
  have known : ∀ {index : Nat} {call : Call}, scheduler.calls[index]? = some call →
      index ∈ List.range scheduler.calls.length := fun present =>
    List.mem_range.mpr (List.getElem?_eq_some_iff.mp present).1
  unfold jammed at stuck
  rw [List.all_eq_true] at stuck
  by_contra moved
  obtain ⟨after, moved⟩ := Option.ne_none_iff_exists'.mp moved
  cases step_cases moved with
  | asked present => simpa [present] using stuck _ (known present)
  | raised present => simpa [present] using stuck _ (known present)
  | acquired present got => simpa [present, got] using stuck _ (known present)
  | registered present => simpa [present] using stuck _ (known present)
  | admitted present => simpa [present] using stuck _ (known present)
  | finished present =>
      have awaited := stuck _ (known present)
      rw [present] at awaited
      obtain ⟨child, _, edge⟩ := List.any_eq_true.mp awaited
      rw [waits child] at edge
      cases edge
  | _ => cases inner

def crossed : List Action :=
  [planning "first" "web" []] ++ admitting 0 ++ [solving "second" "web" []] ++ admitting 1 ++
    [solving "third" "agent:planner@1.0.0" (childMetadata "first"), .ask 2, .acquire 2, .ask 2,
      planning "fourth" "agent:solver@1.0.0" (childMetadata "second"), .ask 3, .acquire 3, .ask 3]

theorem crossed_replays : (init none false).any (fun start =>
    (replay (step plainTexts) start crossed).any fun outcome =>
      (outcome.1.all fun event => event.2.Positive) && jammed outcome.2 &&
        outcome.2.calls.any fun call => call.stage ≠ .ended) = true := by
  decide +kernel

/-- Where the order does not go on below a run, the calls can wait for one another for ever. -/
theorem circular_wait : ∃ start events scheduler, init none false = some start ∧
    Run (step plainTexts) start events scheduler ∧
    (∃ call ∈ scheduler.calls, call.stage ≠ .ended) ∧
    ∀ action : Action, action.inner = true → scheduler.patient action →
      scheduler.step plainTexts action = none := by
  obtain ⟨start, made, replayed⟩ := (Option.any_eq_true _ _).mp crossed_replays
  obtain ⟨events, scheduler, run, checked⟩ := replay_checked replayed
  simp only [Bool.and_eq_true, List.any_eq_true, decide_eq_true_eq] at checked
  exact ⟨start, events, scheduler, made, run, checked.2, fun action => jammed_still checked.1.2⟩

end Samples

end RunScheduler

end AgentTaskPlatform.Scheduler
