import AgentTaskPlatform.AdmissionLedger
import Mathlib.Algebra.Ring.Int.Defs

/-!
The limits of the scheduler. A call that is admitted has a slot of a semaphore for each of
its locks, so the limits hold as long as all admitted calls agree on the semaphore of a
lock and no child outlives the runs above it.
-/

namespace AgentTaskPlatform.Scheduler

open KeyedTable Semaphores Transitions

def Admission.parent (admission : Admission) : Option String :=
  match admission.parentRunId with
  | .string runId => if runId = "" then none else some runId
  | _ => none

inductive Descends (lineage : List Admission) : Admission → String → Prop
  | parent {run : Admission} {runId : String} (named : run.parent = some runId) :
      Descends lineage run runId
  | further {run other : Admission} {runId : String} (below : Descends lineage run other.runId)
      (member : other ∈ lineage) (named : other.parent = some runId) : Descends lineage run runId

def HasAdmittedAncestor (lineage : List Admission) (calls : List Call) (run : Admission) : Prop :=
  ∃ call ∈ calls, call.admitted = true ∧ call.admission.runId ≠ run.runId ∧
    Descends lineage run call.admission.runId

def Anchored (lineage : List Admission) (calls : List Call) : Prop :=
  ∀ call ∈ calls, call.admitted = true → call.admission.isChild = true →
    HasAdmittedAncestor lineage calls call.admission

def tally (calls : List Call) (key : Admission → String) (name : String) : Int :=
  (calls.map fun call =>
    if call.stage = .running ∧ key call.admission = name then (1 : Int) else 0).sum

namespace RunScheduler

def lineage (scheduler : RunScheduler) : List Admission :=
  scheduler.calls.map Call.admission

def Current (scheduler : RunScheduler) (agent : AgentSpec) (slot : Lock × Nat) : Prop :=
  (∀ call ∈ scheduler.calls, call.admitted = true → ∀ ref, (slot.1, ref) ∈ call.held →
    ref = slot.2) ∧
  ∃ made : Nat, initial scheduler.pool slot.2 = some made ∧
    (made : Int) ≤ scheduler.limits.limit agent slot.1

/-- A child is admitted below an admitted run, and a call with slots of current semaphores.
A run that leaves takes its place from under no admitted child. The log takes the
admission, and no admitted run's entry is missing when the limits are replaced. -/
def Orderly (scheduler : RunScheduler) : Action → Prop
  | .register index => ∀ call, scheduler.calls[index]? = some call →
      (call.admission.isChild = true →
        HasAdmittedAncestor scheduler.lineage scheduler.calls call.admission) ∧
      ∀ slot ∈ call.held, slot.1.isLane = false → scheduler.Current call.admission.agent slot
  | .refuse index | .finish index => Anchored scheduler.lineage (scheduler.calls.eraseIdx index)
  | .logFails _ => False
  | .reconfigure _ => ∀ call ∈ scheduler.calls, call.admitted = true →
      call.admission.runId ∈ scheduler.activeRunHolders.rows.map Holder.runId
  | _ => True

open scoped Classical in
structure LimitsHold (scheduler : RunScheduler) : Prop where
  global : (scheduler.calls.countP fun call => call.admitted &&
      !decide (HasAdmittedAncestor scheduler.lineage scheduler.calls call.admission)) ≤
    scheduler.limits.globalMaxConcurrency.toNat
  routeTag : ∀ tag, (scheduler.calls.countP fun call => call.admitted &&
      (call.admission.ancestorRouteId.isNone && call.admission.routeTag = tag)) ≤
    ((scheduler.limits.routeTagMaxConcurrency.lookup tag).getD 10000).toNat
  caller : ∀ name, (scheduler.calls.countP fun call => call.admitted &&
      (!call.admission.callerExempt && call.admission.caller = name)) ≤
    ((scheduler.limits.callerMaxConcurrency.lookup name).getD 10000).toNat
  agent : ∀ run ∈ scheduler.calls, run.admitted = true → run.admission.ancestorAgentId = none →
    (scheduler.calls.countP fun call => call.admitted &&
      (call.admission.ancestorAgentId.isNone &&
        call.admission.agent.name = run.admission.agent.name)) ≤
    run.admission.agent.maxConcurrency.toNat
  children : ∀ rootRunId, (scheduler.calls.countP fun call => call.admitted &&
      (call.admission.isChild && call.admission.rootRunId = rootRunId)) ≤
    scheduler.limits.maxActiveChildrenPerRoot.toNat
  idle : (∀ call ∈ scheduler.calls, call.stage = .ended) →
    (∀ semaphore ∈ scheduler.pool, semaphore.value = semaphore.initial) ∧
    ∀ name, scheduler.runningByAgent name = 0 ∧ scheduler.runningByRouteTag name = 0 ∧
      scheduler.runningByCaller name = 0

def Sound (scheduler : RunScheduler) : Prop :=
  ∀ call ∈ scheduler.calls, call.admitted = true → ∀ slot ∈ call.held, slot.1.isLane = false →
    scheduler.Current call.admission.agent slot

structure Counted (scheduler : RunScheduler) : Prop where
  byAgent : ∀ name, scheduler.runningByAgent name = tally scheduler.calls (·.agent.name) name
  byRouteTag : ∀ name, scheduler.runningByRouteTag name = tally scheduler.calls (·.routeTag) name
  byCaller : ∀ name, scheduler.runningByCaller name = tally scheduler.calls (·.caller) name

theorem lineage_set {scheduler : RunScheduler} {index : Nat} {old new : Call}
    (present : scheduler.calls[index]? = some old)
    (same : new.admission = old.admission) :
    (scheduler.calls.set index new).map Call.admission = scheduler.lineage := by
  have found : scheduler.lineage[index]? = some old.admission := by simp [lineage, present]
  obtain ⟨inside, value⟩ := List.getElem?_eq_some_iff.mp found
  unfold lineage at *
  rw [List.map_set, same, ← value, List.set_getElem_self]

end RunScheduler

theorem Descends.mono {lineage later : List Admission} {run : Admission} {runId : String}
    (descends : Descends lineage run runId) (grows : ∀ other ∈ lineage, other ∈ later) :
    Descends later run runId := by
  induction descends with
  | parent named => exact .parent named
  | further below member named ih => exact .further ih (grows _ member) named

theorem HasAdmittedAncestor.mono {lineage later : List Admission} {calls others : List Call}
    {run : Admission} (above : HasAdmittedAncestor lineage calls run)
    (grows : ∀ other ∈ lineage, other ∈ later)
    (kept : ∀ call ∈ calls, call.admitted = true →
      ∃ other ∈ others, other.admitted = true ∧ other.admission = call.admission) :
    HasAdmittedAncestor later others run := by
  obtain ⟨call, member, admitted, different, descends⟩ := above
  obtain ⟨other, there, still, same⟩ := kept call member admitted
  refine ⟨other, there, still, ?_, ?_⟩
  · rw [same]
    exact different
  · rw [same]
    exact descends.mono grows

theorem Anchored.mono {lineage later : List Admission} {calls others : List Call}
    (anchored : Anchored lineage calls) (grows : ∀ other ∈ lineage, other ∈ later)
    (back : ∀ other ∈ others, other.admitted = true →
      ∃ call ∈ calls, call.admitted = true ∧ call.admission = other.admission)
    (kept : ∀ call ∈ calls, call.admitted = true →
      ∃ other ∈ others, other.admitted = true ∧ other.admission = call.admission) :
    Anchored later others := by
  intro other member admitted child
  obtain ⟨call, there, still, same⟩ := back other member admitted
  rw [← same] at child ⊢
  exact (anchored call there still child).mono grows kept

theorem admitted_set {calls : List Call} {index : Nat} {new other : Call}
    (quiet : new.admitted = false) (member : other ∈ calls.set index new)
    (admitted : other.admitted = true) : other ∈ calls.eraseIdx index := by
  obtain ⟨position, found⟩ := List.mem_iff_getElem?.mp member
  by_cases same : index = position
  · subst same
    rw [List.getElem?_set] at found
    simp only [if_true] at found
    split at found
    · cases found
      rw [quiet] at admitted
      cases admitted
    · cases found
  · rw [List.getElem?_set_ne same] at found
    exact List.mem_eraseIdx_iff_getElem?.mpr ⟨position, fun equal => same equal.symm, found⟩

theorem set_admitted {calls : List Call} {index : Nat} {new other : Call}
    (member : other ∈ calls.eraseIdx index) : other ∈ calls.set index new := by
  obtain ⟨position, different, found⟩ := List.mem_eraseIdx_iff_getElem?.mp member
  rw [← List.getElem?_set_ne (Ne.symm different) (a := new)] at found
  exact List.mem_of_getElem? found

theorem set_kept {calls : List Call} {index : Nat} {old new call : Call}
    (present : calls[index]? = some old) (member : call ∈ calls) (other : call ≠ old) :
    call ∈ calls.set index new := by
  obtain ⟨position, found⟩ := List.mem_iff_getElem?.mp member
  have different : index ≠ position := by
    intro same
    rw [same, found] at present
    exact other (Option.some.inj present)
  rw [← List.getElem?_set_ne different (a := new)] at found
  exact List.mem_of_getElem? found

theorem set_own {calls : List Call} {index : Nat} {old : Call} (new : Call)
    (present : calls[index]? = some old) : new ∈ calls.set index new := by
  obtain ⟨inside, _⟩ := List.getElem?_eq_some_iff.mp present
  exact List.mem_of_getElem? (List.getElem?_set_self inside)

namespace RunScheduler

/-- No call is admitted that was not before, and the semaphores keep their size. -/
structure Recedes (scheduler after : RunScheduler) : Prop where
  back : ∀ other ∈ after.calls, other.admitted = true → ∃ call ∈ scheduler.calls,
    call.admitted = true ∧ call.admission = other.admission ∧ call.held = other.held
  limits : after.limits = scheduler.limits
  pool : ∀ ref made, initial scheduler.pool ref = some made → initial after.pool ref = some made

structure Steady (scheduler after : RunScheduler) : Prop extends Recedes scheduler after where
  grows : ∀ run ∈ scheduler.lineage, run ∈ after.lineage
  kept : ∀ call ∈ scheduler.calls, call.admitted = true →
    ∃ other ∈ after.calls, other.admitted = true ∧ other.admission = call.admission

theorem Recedes.sound {scheduler after : RunScheduler} (recedes : Recedes scheduler after)
    (sound : Sound scheduler) : Sound after := by
  intro other member admitted slot inside counted
  obtain ⟨call, there, still, sameRun, sameSlots⟩ := recedes.back other member admitted
  rw [← sameSlots] at inside
  obtain ⟨one, made, known, within⟩ := sound call there still slot inside counted
  refine ⟨?_, made, recedes.pool _ _ known, ?_⟩
  · intro second secondMember secondAdmitted ref holds
    obtain ⟨before, among, also, _, slots⟩ := recedes.back second secondMember secondAdmitted
    rw [← slots] at holds
    exact one before among also ref holds
  · rw [← sameRun, recedes.limits]
    exact within

theorem Steady.anchored {scheduler after : RunScheduler} (steady : Steady scheduler after)
    (anchored : Anchored scheduler.lineage scheduler.calls) :
    Anchored after.lineage after.calls := by
  apply anchored.mono steady.grows ?_ steady.kept
  intro other member admitted
  obtain ⟨call, there, still, same, _⟩ := steady.back other member admitted
  exact ⟨call, there, still, same⟩

variable {texts : Texts} {scheduler after : RunScheduler} {action : Action}
variable {index : Nat} {old new : Call}

theorem steady_set (present : scheduler.calls[index]? = some old)
    (calls : after.calls = scheduler.calls.set index new) (run : new.admission = old.admission)
    (same : new.admitted = old.admitted) (held : new.admitted = true → new.held = old.held)
    (limits : after.limits = scheduler.limits)
    (pool : ∀ ref made, initial scheduler.pool ref = some made →
      initial after.pool ref = some made) : Steady scheduler after where
  limits := limits
  pool := pool
  back := by
    intro other member admitted
    rw [calls] at member
    rcases List.mem_or_eq_of_mem_set member with earlier | rfl
    · exact ⟨other, earlier, admitted, rfl, rfl⟩
    · have before : old.admitted = true := by rw [← same, admitted]
      exact ⟨old, List.mem_of_getElem? present, before, run.symm, (held admitted).symm⟩
  grows := by
    intro one member
    unfold lineage
    rw [calls, lineage_set present run]
    exact member
  kept := by
    intro call member admitted
    rw [calls]
    by_cases own : call = old
    · rw [own] at admitted ⊢
      exact ⟨new, set_own new present, by rw [same, admitted], run⟩
    · exact ⟨call, set_kept present member own, admitted, rfl⟩

/-- A call that leaves takes nobody else with it. -/
theorem recedes_left (calls : after.calls =
      scheduler.calls.set index { old with stage := .ended, held := [] })
    (pool : after.pool = releaseAll scheduler.pool old.held)
    (limits : after.limits = scheduler.limits) : Recedes scheduler after where
  limits := limits
  pool := by
    intro ref made known
    rw [pool, releaseAll_initial, known]
  back := by
    intro other member admitted
    rw [calls] at member
    have remains := admitted_set rfl member admitted
    exact ⟨other, List.mem_of_mem_eraseIdx remains, admitted, rfl, rfl⟩

theorem anchored_left (present : scheduler.calls[index]? = some old)
    (calls : after.calls = scheduler.calls.set index { old with stage := .ended, held := [] })
    (orderly : Anchored scheduler.lineage (scheduler.calls.eraseIdx index)) :
    Anchored after.lineage after.calls := by
  have same : after.lineage = scheduler.lineage := by
    unfold lineage
    rw [calls]
    exact lineage_set present rfl
  rw [same, calls]
  apply orderly.mono fun _ member => member
  · intro other member admitted
    exact ⟨other, admitted_set rfl member admitted, admitted, rfl⟩
  · intro call member admitted
    exact ⟨call, set_admitted member, admitted, rfl⟩

theorem tally_set (present : scheduler.calls[index]? = some old)
    (calls : after.calls = scheduler.calls.set index new) (run : new.admission = old.admission)
    (key : Admission → String) (name : String) :
    tally after.calls key name + (if old.stage = .running ∧ key old.admission = name then 1 else 0) =
      tally scheduler.calls key name +
        (if new.stage = .running ∧ key old.admission = name then 1 else 0) := by
  have moved := sum_map_set present new fun call : Call =>
    if call.stage = .running ∧ key call.admission = name then (1 : Int) else 0
  rw [run] at moved
  unfold tally
  rw [calls]
  exact moved

theorem Counted.moved (counted : Counted scheduler) {amount : Int}
    (present : scheduler.calls[index]? = some old)
    (calls : after.calls = scheduler.calls.set index new) (run : new.admission = old.admission)
    (weight : (if old.stage = .running then (1 : Int) else 0) + amount =
      if new.stage = .running then 1 else 0)
    (byAgent : after.runningByAgent =
      addTo scheduler.runningByAgent old.admission.agent.name amount)
    (byRouteTag : after.runningByRouteTag =
      addTo scheduler.runningByRouteTag old.admission.routeTag amount)
    (byCaller : after.runningByCaller =
      addTo scheduler.runningByCaller old.admission.caller amount) : Counted after := by
  have follows (key : Admission → String) (name : String) (table : String → Int)
      (same : table name = tally scheduler.calls key name) :
      addTo table (key old.admission) amount name = tally after.calls key name := by
    have moved := tally_set present calls run key name
    unfold addTo
    by_cases own : key old.admission = name
    · simp only [own, and_true] at moved
      simp only [own, if_true]
      omega
    · simp only [own, and_false, if_false] at moved
      rw [if_neg (Ne.symm own)]
      omega
  constructor
  · intro name
    rw [byAgent]
    exact follows (·.agent.name) name _ (counted.byAgent name)
  · intro name
    rw [byRouteTag]
    exact follows (·.routeTag) name _ (counted.byRouteTag name)
  · intro name
    rw [byCaller]
    exact follows (·.caller) name _ (counted.byCaller name)

theorem addTo_zero (table : String → Int) (key : String) : addTo table key 0 = table := by
  funext name
  simp [addTo]

theorem Counted.quiet (counted : Counted scheduler) (present : scheduler.calls[index]? = some old)
    (calls : after.calls = scheduler.calls.set index new) (run : new.admission = old.admission)
    (still : old.stage ≠ .running) (waits : new.stage ≠ .running)
    (byAgent : after.runningByAgent = scheduler.runningByAgent)
    (byRouteTag : after.runningByRouteTag = scheduler.runningByRouteTag)
    (byCaller : after.runningByCaller = scheduler.runningByCaller) : Counted after := by
  have weight : (if old.stage = .running then (1 : Int) else 0) + 0 =
      if new.stage = .running then 1 else 0 := by simp [still, waits]
  apply counted.moved present calls run weight
  · rw [addTo_zero, byAgent]
  · rw [addTo_zero, byRouteTag]
  · rw [addTo_zero, byCaller]

/-- A lookup leaves the counters and the admitted calls alone. -/
theorem Looked.steady (looked : Looked scheduler after) : Steady scheduler after where
  limits := looked.limits
  pool := by
    intro ref made known
    rcases looked.pool with same | ⟨value, grew⟩
    · rw [same, known]
    · obtain ⟨semaphore, found, _⟩ := Option.map_eq_some_iff.mp known
      obtain ⟨inside, _⟩ := List.getElem?_eq_some_iff.mp found
      rw [grew, initial_append inside, known]
  back := by
    rw [looked.calls]
    exact fun other member admitted => ⟨other, member, admitted, rfl, rfl⟩
  grows := by
    simp only [lineage, looked.calls]
    exact fun run member => member
  kept := by
    rw [looked.calls]
    exact fun call member admitted => ⟨call, member, admitted, rfl⟩

theorem Looked.counted (looked : Looked scheduler after) (counted : Counted scheduler) :
    Counted after := by
  constructor
  · rw [looked.byAgent, looked.calls]
    exact counted.byAgent
  · rw [looked.byRouteTag, looked.calls]
    exact counted.byRouteTag
  · rw [looked.byCaller, looked.calls]
    exact counted.byCaller

structure Inv (scheduler : RunScheduler) : Prop where
  ledger : Ledger scheduler
  anchored : Anchored scheduler.lineage scheduler.calls
  sound : Sound scheduler
  counted : Counted scheduler

namespace Inv

theorem steady (inv : Inv scheduler) (ledger : Ledger after) (steady : Steady scheduler after)
    (counted : Counted after) : Inv after where
  ledger := ledger
  anchored := steady.anchored inv.anchored
  sound := steady.sound inv.sound
  counted := counted

theorem left (inv : Inv scheduler) (ledger : Ledger after)
    (present : scheduler.calls[index]? = some old)
    (calls : after.calls = scheduler.calls.set index { old with stage := .ended, held := [] })
    (pool : after.pool = releaseAll scheduler.pool old.held)
    (limits : after.limits = scheduler.limits)
    (orderly : Anchored scheduler.lineage (scheduler.calls.eraseIdx index))
    (counted : Counted after) : Inv after where
  ledger := ledger
  anchored := anchored_left present calls orderly
  sound := (recedes_left calls pool limits).sound inv.sound
  counted := counted

/-- A call that leaves without having been admitted. -/
theorem gaveUp (inv : Inv scheduler) (ledger : Ledger (scheduler.leave index old))
    (present : scheduler.calls[index]? = some old) (outside : old.admitted = false) :
    Inv (scheduler.leave index old) := by
  apply inv.steady ledger
  · apply steady_set present (leave_calls index old) rfl
    · rw [outside]
      rfl
    · intro admitted
      cases admitted
    · rfl
    · intro ref made known
      rw [leave_pool, releaseAll_initial, known]
  · apply inv.counted.quiet present (leave_calls index old) rfl
    · intro running
      simp [Call.admitted, running] at outside
    · simp
    · rfl
    · rfl
    · rfl

theorem called (inv : Inv scheduler) {admission : Admission} {next : List Lock}
    (ledger : Ledger { scheduler with
      calls := scheduler.calls ++ [⟨admission, .asking next, []⟩] }) :
    Inv { scheduler with calls := scheduler.calls ++ [⟨admission, .asking next, []⟩] } := by
  apply inv.steady ledger
  · constructor
    · constructor
      · intro other member admitted
        rcases List.mem_append.mp member with earlier | last
        · exact ⟨other, earlier, admitted, rfl, rfl⟩
        · rw [List.mem_singleton.mp last] at admitted
          cases admitted
      · rfl
      · exact fun ref made known => known
    · intro run member
      simp only [lineage, List.map_append]
      exact List.mem_append_left _ member
    · exact fun call member admitted => ⟨call, List.mem_append_left _ member, admitted, rfl⟩
  · constructor <;> intro name
    · simpa [tally] using inv.counted.byAgent name
    · simpa [tally] using inv.counted.byRouteTag name
    · simpa [tally] using inv.counted.byCaller name

theorem registered (inv : Inv scheduler) {admission : Admission} {held : Slots Lock}
    (present : scheduler.calls[index]? = some ⟨admission, .asking [], held⟩)
    (ledger : Ledger ((scheduler.register admission).setCall index ⟨admission, .registered, held⟩))
    (orderly : scheduler.Orderly (.register index)) :
    Inv ((scheduler.register admission).setCall index ⟨admission, .registered, held⟩) := by
  obtain ⟨below, current⟩ := orderly _ present
  have others : ∀ call ∈ scheduler.calls, call.admitted = true →
      call ∈ scheduler.calls.set index ⟨admission, .registered, held⟩ := by
    intro call member admitted
    apply set_kept present member
    intro same
    rw [same] at admitted
    cases admitted
  have sameLineage : ((scheduler.register admission).setCall index
      ⟨admission, .registered, held⟩).lineage = scheduler.lineage := lineage_set present rfl
  constructor
  · exact ledger
  · rw [sameLineage]
    intro call member admitted child
    have above : HasAdmittedAncestor scheduler.lineage scheduler.calls call.admission := by
      rcases List.mem_or_eq_of_mem_set member with earlier | rfl
      · exact inv.anchored call earlier admitted child
      · exact below child
    apply above.mono fun _ member => member
    exact fun one inside still => ⟨one, others one inside still, still, rfl⟩
  · intro call member admitted slot inside counted
    rcases List.mem_or_eq_of_mem_set member with earlier | rfl
    · obtain ⟨one, made⟩ := inv.sound call earlier admitted slot inside counted
      refine ⟨?_, made⟩
      intro second secondMember also ref holds
      rcases List.mem_or_eq_of_mem_set secondMember with before | rfl
      · exact one second before also ref holds
      · exact ((current _ holds counted).1 call earlier admitted _ inside).symm
    · obtain ⟨one, made⟩ := current slot inside counted
      refine ⟨?_, made⟩
      intro second secondMember also ref holds
      rcases List.mem_or_eq_of_mem_set secondMember with before | rfl
      · exact one second before also ref holds
      · exact (ledger.booked _ member).unique admitted holds inside
  · exact inv.counted.quiet present (setCall_calls _ _) rfl (by simp) (by simp) rfl rfl rfl

theorem reconfigured (inv : Inv scheduler) {settings : QueueSettings} {value : Nat}
    {semaphores : Lock → Option Nat}
    (ledger : Ledger { scheduler with
      limits := settings.limits
      pool := scheduler.pool ++ [Semaphore.fresh value]
      semaphores })
    (idle : scheduler.activeRunHolders.rows = [])
    (orderly : scheduler.Orderly (.reconfigure settings)) :
    Inv { scheduler with
      limits := settings.limits
      pool := scheduler.pool ++ [Semaphore.fresh value]
      semaphores } := by
  have nobody : ∀ call ∈ scheduler.calls, call.admitted ≠ true := by
    intro call member admitted
    have entry := orderly call member admitted
    rw [idle] at entry
    cases entry
  constructor
  · exact ledger
  · intro call member admitted
    exact absurd admitted (nobody call member)
  · intro call member admitted
    exact absurd admitted (nobody call member)
  · exact ⟨inv.counted.byAgent, inv.counted.byRouteTag, inv.counted.byCaller⟩

end Inv

theorem Moves.inv (moves : Moves texts scheduler action after) (inv : Inv scheduler)
    (orderly : scheduler.Orderly action) : Inv after := by
  have ledger := moves.ledger inv.ledger
  cases moves with
  | called began => exact inv.called ledger
  | @asked index admission lock next held found ref present looked =>
      have seen := semaphoreFor_looked looked
      have known : Inv found :=
        inv.steady (inv.ledger.looked seen) seen.steady (seen.counted inv.counted)
      rw [← seen.calls] at present
      apply known.steady ledger
      · exact steady_set present (setCall_calls _ _) rfl rfl (fun _ => rfl) rfl fun _ _ known => known
      · exact known.counted.quiet present (setCall_calls _ _) rfl (by simp) (by simp) rfl rfl rfl
  | raised present => exact inv.gaveUp ledger present rfl
  | @acquired index admission lock ref next held pool present got =>
      have pools : ∀ name made, initial scheduler.pool name = some made →
          initial pool name = some made := by
        intro name made known
        rw [acquire_initial got, known]
      have outside : (⟨admission, .asking next, held ++ [(lock, ref)]⟩ : Call).admitted = true →
          held ++ [(lock, ref)] = held := by
        intro admitted
        cases admitted
      apply inv.steady ledger
      · exact steady_set present (setCall_calls _ _) rfl rfl outside rfl pools
      · exact inv.counted.quiet present (setCall_calls _ _) rfl (by simp) (by simp) rfl rfl rfl
  | cancelled present => exact inv.gaveUp ledger present rfl
  | registered present => exact inv.registered present ledger orderly
  | admitted present =>
      apply inv.steady ledger
      · exact steady_set present (setCall_calls _ _) rfl rfl (fun _ => rfl) rfl fun _ _ known => known
      · exact inv.counted.moved present (setCall_calls _ _) rfl (by simp) rfl rfl rfl
  | unlogged present => exact absurd orderly id
  | refused present =>
      apply inv.left ledger present rfl rfl rfl orderly
      exact inv.counted.quiet present (leave_calls _ _) rfl (by simp) (by simp) rfl rfl rfl
  | @finished index admission held present =>
      have counts : Counted ((((scheduler.count admission (-1)).dropRoot admission).unregister
          admission.runId).leave index ⟨admission, .running, held⟩) := by
        let new : Call := ⟨admission, .ended, []⟩
        have weight : (1 : Int) + (-1) = 0 := by decide
        apply @Counted.moved scheduler _ index _ new inv.counted (-1) present (by simp [new]) rfl weight
        all_goals
          unfold dropRoot
          split <;> rfl
      exact inv.left ledger present (by simp) (by simp) (by simp) orderly counts
  | reconfigured idle => exact inv.reconfigured ledger idle orderly

theorem init_inv {limits : Option SchedulerLimits} {distributed : Bool}
    (made : init limits distributed = some scheduler) : Inv scheduler := by
  have ledger := init_ledger made
  obtain ⟨semaphore, _, rfl⟩ := Option.map_eq_some_iff.mp made
  constructor
  · exact ledger
  · intro call member
    cases member
  · intro call member
    cases member
  · exact ⟨fun _ => rfl, fun _ => rfl, fun _ => rfl⟩

theorem inv_inductive : Inductive (step texts) Orderly Inv where
  kept inv orderly moved := (step_cases moved).inv inv orderly

namespace Inv

theorem count_le (inv : Inv scheduler) {lock : Lock} (counted : lock.isLane = false)
    {member : Call → Bool} {run : Call} (there : run ∈ scheduler.calls)
    (admitted : run.admitted = true) (needs : lock ∈ run.admission.locks)
    (takes : ∀ call, member call = true → lock ∈ call.admission.locks) :
    (scheduler.calls.countP fun call => call.admitted && member call) ≤
      (scheduler.limits.limit run.admission.agent lock).toNat := by
  obtain ⟨ref, slot⟩ := (inv.ledger.booked run there).slot admitted needs
  obtain ⟨one, made, known, within⟩ := inv.sound run there admitted _ slot counted
  simp only at within
  have bounded : (scheduler.calls.countP fun call => call.admitted && member call) ≤ made := by
    refine inv.ledger.conserved.bounded ?_ known
    intro call inside chosen
    obtain ⟨still, chosen⟩ := Bool.and_eq_true_iff.mp chosen
    obtain ⟨own, held⟩ := (inv.ledger.booked call inside).slot still (takes call chosen)
    rw [one call inside still own held] at held
    exact taken_pos held
  omega

theorem count_limit (inv : Inv scheduler) {lock : Lock} (counted : lock.isLane = false)
    {member : Call → Bool} {bound : Int}
    (same : ∀ agent, scheduler.limits.limit agent lock = bound)
    (takes : ∀ call, member call = true → lock ∈ call.admission.locks) :
    (scheduler.calls.countP fun call => call.admitted && member call) ≤ bound.toNat := by
  by_cases nobody : (scheduler.calls.countP fun call => call.admitted && member call) = 0
  · omega
  · obtain ⟨run, there, chosen⟩ := List.countP_pos_iff.mp (Nat.pos_of_ne_zero nobody)
    obtain ⟨admitted, chosen⟩ := Bool.and_eq_true_iff.mp chosen
    have within := inv.count_le counted there admitted (takes run chosen) takes
    rw [same] at within
    exact within

theorem idle (inv : Inv scheduler) (ended : ∀ call ∈ scheduler.calls, call.stage = .ended) :
    (∀ semaphore ∈ scheduler.pool, semaphore.value = semaphore.initial) ∧
    ∀ name, scheduler.runningByAgent name = 0 ∧ scheduler.runningByRouteTag name = 0 ∧
      scheduler.runningByCaller name = 0 := by
  have nothing (key : Admission → String) (name : String) : tally scheduler.calls key name = 0 := by
    apply List.sum_eq_zero
    intro weight counted
    obtain ⟨call, member, rfl⟩ := List.mem_map.mp counted
    simp [ended call member]
  constructor
  · intro semaphore member
    refine inv.ledger.conserved.idle ?_ member
    intro slots inside
    obtain ⟨call, there, rfl⟩ := List.mem_map.mp inside
    simpa [Call.Booked, ended call there] using inv.ledger.booked call there
  · intro name
    rw [inv.counted.byAgent, inv.counted.byRouteTag, inv.counted.byCaller]
    exact ⟨nothing _ name, nothing _ name, nothing _ name⟩

theorem global (inv : Inv scheduler) :
    open scoped Classical in (scheduler.calls.countP fun call => call.admitted &&
      !decide (HasAdmittedAncestor scheduler.lineage scheduler.calls call.admission)) ≤
    scheduler.limits.globalMaxConcurrency.toNat := by
  classical
  have roots : (scheduler.calls.countP fun call => call.admitted && !call.admission.isChild) ≤
      scheduler.limits.globalMaxConcurrency.toNat := by
    apply @count_limit _ inv .global rfl _ _ fun _ => rfl
    intro call root
    have own : call.admission.isChild = false := by simpa using root
    simp [Admission.locks, own]
  refine le_trans (List.countP_mono_left ?_) roots
  intro call member chosen
  obtain ⟨admitted, alone⟩ := Bool.and_eq_true_iff.mp chosen
  cases child : call.admission.isChild with
  | true => simp [inv.anchored call member admitted child] at alone
  | false => simp [admitted]

theorem limits (inv : Inv scheduler) : LimitsHold scheduler where
  global := inv.global
  routeTag := by
    intro tag
    apply @count_limit _ inv (.routeTag tag) rfl _ _ fun _ => rfl
    intro call own
    obtain ⟨outside, rfl⟩ : call.admission.ancestorRouteId = none ∧
        call.admission.routeTag = tag := by simpa using own
    simp [Admission.locks, Admission.routeLock, outside]
  caller := by
    intro name
    apply @count_limit _ inv (.caller name) rfl _ _ fun _ => rfl
    intro call own
    obtain ⟨counted, rfl⟩ : call.admission.callerExempt = false ∧
        call.admission.caller = name := by simpa using own
    simp [Admission.locks, counted]
  agent := by
    intro run there admitted outside
    have needs : .agent run.admission.agent.name ∈ run.admission.locks := by
      simp [Admission.locks, Admission.agentLock, outside]
    apply @count_le _ inv _ rfl _ run there admitted needs
    intro call own
    obtain ⟨free, same⟩ : call.admission.ancestorAgentId = none ∧
        call.admission.agent.name = run.admission.agent.name := by simpa using own
    simp [Admission.locks, Admission.agentLock, free, same]
  children := by
    intro rootRunId
    apply @count_limit _ inv (.nestedChildren rootRunId) rfl _ _ fun _ => rfl
    intro call own
    obtain ⟨child, rfl⟩ : call.admission.isChild = true ∧
        call.admission.rootRunId = rootRunId := by simpa using own
    simp [Admission.locks, child]
  idle := inv.idle

end Inv

theorem limits_hold {limits : Option SchedulerLimits} {distributed : Bool}
    {start final : RunScheduler} {events : List (RunScheduler × Action)}
    (made : init limits distributed = some start) (run : Run (step texts) start events final)
    (orderly : ∀ event ∈ events, event.1.Orderly event.2) : LimitsHold final :=
  (inv_inductive.run run (init_inv made) orderly).limits

def belowParent (calls : List Call) (run : Admission) : Bool :=
  calls.any fun call => call.admitted && (call.admission.runId ≠ run.runId &&
    run.parent = some call.admission.runId)

theorem belowParent_spec {lineage : List Admission} {calls : List Call} {run : Admission}
    (below : belowParent calls run = true) : HasAdmittedAncestor lineage calls run := by
  obtain ⟨call, member, found⟩ := List.any_eq_true.mp below
  obtain ⟨admitted, different, named⟩ : call.admitted = true ∧
      call.admission.runId ≠ run.runId ∧ run.parent = some call.admission.runId := by
    simpa using found
  exact ⟨call, member, admitted, different, .parent named⟩

def isCurrent (scheduler : RunScheduler) (agent : AgentSpec) (slot : Lock × Nat) : Bool :=
  (scheduler.calls.all fun call => !call.admitted ||
    call.held.all fun held => held.1 ≠ slot.1 || held.2 = slot.2) &&
  (initial scheduler.pool slot.2).any fun made : Nat =>
    (made : Int) ≤ scheduler.limits.limit agent slot.1

theorem isCurrent_spec {agent : AgentSpec} {slot : Lock × Nat}
    (current : isCurrent scheduler agent slot = true) : scheduler.Current agent slot := by
  obtain ⟨one, within⟩ := (Bool.and_eq_true _ _).mp current
  constructor
  · intro call member admitted ref held
    have agreed := List.all_eq_true.mp one call member
    simp only [admitted, Bool.not_true, Bool.false_or] at agreed
    simpa using List.all_eq_true.mp agreed _ held
  · obtain ⟨made, known, bounded⟩ := (Option.any_eq_true _ _).mp within
    exact ⟨made, known, by simpa using bounded⟩

def inOrder (scheduler : RunScheduler) : Action → Bool
  | .register index => (scheduler.calls[index]?).all fun call =>
      (!call.admission.isChild || belowParent scheduler.calls call.admission) &&
      call.held.all fun slot => slot.1.isLane || isCurrent scheduler call.admission.agent slot
  | .refuse index | .finish index => (scheduler.calls.eraseIdx index).all fun call =>
      !call.admitted || (!call.admission.isChild ||
        belowParent (scheduler.calls.eraseIdx index) call.admission)
  | .logFails _ => false
  | .reconfigure _ => scheduler.calls.all fun call => !call.admitted
  | _ => true

theorem inOrder_anchored {lineage : List Admission} {calls : List Call}
    (passed : (calls.all fun call => !call.admitted || (!call.admission.isChild ||
      belowParent calls call.admission)) = true) : Anchored lineage calls := by
  intro call member admitted child
  have below := List.all_eq_true.mp passed call member
  simp only [admitted, child, Bool.not_true, Bool.false_or] at below
  exact belowParent_spec below

theorem inOrder_spec (passed : inOrder scheduler action = true) : scheduler.Orderly action := by
  cases action with
  | register index =>
      intro call present
      obtain ⟨below, current⟩ : (call.admission.isChild = true →
            belowParent scheduler.calls call.admission = true) ∧
          ∀ slot ∈ call.held, slot.1.isLane = true ∨
            isCurrent scheduler call.admission.agent slot = true := by
        simpa [inOrder, present, imp_iff_not_or] using passed
      refine ⟨fun child => belowParent_spec (below child), ?_⟩
      intro slot member counted
      rcases current slot member with lane | current
      · rw [counted] at lane
        cases lane
      · exact isCurrent_spec current
  | refuse index => exact inOrder_anchored passed
  | finish index => exact inOrder_anchored passed
  | logFails index => cases passed
  | reconfigure settings =>
      intro call member admitted
      have outside := List.all_eq_true.mp passed call member
      rw [admitted] at outside
      cases outside
  | call run agent => trivial
  | ask index => trivial
  | acquire index => trivial
  | cancel index => trivial
  | runAdmitted index => trivial

def sampleTexts : Texts := ⟨fun _ => "", fun _ => none⟩

def sampleRun (runId : String) (metadata : List (String × Json)) : AgentRun :=
  { runId, routeTag := "math", requestId := runId, metadata }

def sampleAgent (name : String) : AgentSpec :=
  { name, version := "1.0.0", routeTags := ["math"] }

def enters (index count : Nat) : List Action :=
  (List.replicate count [Action.ask index, Action.acquire index]).flatten

def admits (index : Nat) : List Action := [.register index, .runAdmitted index]

def rootAndChild : List Action :=
  .call (sampleRun "root" []) (sampleAgent "planner") :: enters 0 4 ++ admits 0 ++
  .call (sampleRun "child" [("parent_run_id", .string "root"), ("root_run_id", .string "root")])
    (sampleAgent "solver") :: enters 1 3 ++ admits 1

theorem rootAndChild_replays : (init none false).any (fun start =>
    (replay (step sampleTexts) start rootAndChild).any fun outcome =>
      (outcome.1.all fun event => inOrder event.1 event.2) &&
        outcome.2.calls.countP Call.admitted = 2) = true := by
  decide +kernel

theorem limits_hold_rootAndChild : ∃ start events final, init none false = some start ∧
    Run (step sampleTexts) start events final ∧ final.calls.countP Call.admitted = 2 ∧
    LimitsHold final := by
  obtain ⟨start, made, replayed⟩ := (Option.any_eq_true _ _).mp rootAndChild_replays
  obtain ⟨events, final, run, checked⟩ := replay_checked replayed
  obtain ⟨orderly, both⟩ := (Bool.and_eq_true _ _).mp checked
  refine ⟨start, events, final, made, run, by simpa using both, ?_⟩
  apply limits_hold made run
  intro event member
  exact inOrder_spec (List.all_eq_true.mp orderly event member)

theorem not_below {lineage : List Admission} {run : Admission} {runId : String}
    (orphan : run.parent = none) : ¬ Descends lineage run runId := by
  intro descends
  induction descends with
  | parent named =>
      rw [orphan] at named
      cases named
  | further below member named ih => exact ih

def reconfiguredMeanwhile : List Action :=
  .call (sampleRun "first" []) (sampleAgent "planner") :: enters 0 4 ++ admits 0 ++
  .call (sampleRun "second" []) (sampleAgent "planner") :: enters 1 1 ++ [.ask 1, .finish 0] ++
  .reconfigure { globalMaxConcurrency := some 1 } :: .acquire 1 :: enters 1 2 ++ admits 1 ++
  .call (sampleRun "third" []) (sampleAgent "solver") :: enters 2 4 ++ admits 2

theorem reconfiguredMeanwhile_replays : (init none false).any (fun start =>
    (replay (step sampleTexts) start reconfiguredMeanwhile).any fun outcome =>
      outcome.2.limits.globalMaxConcurrency = 1 &&
        (outcome.2.calls.countP fun call =>
          call.admitted && call.admission.parent.isNone) = 2) = true := by
  decide +kernel

theorem global_limit_exceeded : ∃ start events final, init none false = some start ∧
    Run (step sampleTexts) start events final ∧ ¬ LimitsHold final := by
  obtain ⟨start, made, replayed⟩ := (Option.any_eq_true _ _).mp reconfiguredMeanwhile_replays
  obtain ⟨events, final, run, checked⟩ := replay_checked replayed
  obtain ⟨one, two⟩ : final.limits.globalMaxConcurrency = 1 ∧ (final.calls.countP fun call =>
      call.admitted && call.admission.parent.isNone) = 2 := by simpa using checked
  refine ⟨start, events, final, made, run, ?_⟩
  intro hold
  have within := hold.global
  have more := List.countP_mono_left (l := final.calls)
    (p := fun call => call.admitted && call.admission.parent.isNone)
    (q := fun call => call.admitted &&
      !@decide (HasAdmittedAncestor final.lineage final.calls call.admission)
        (Classical.propDecidable _)) (by
      intro call member chosen
      obtain ⟨admitted, orphan⟩ : call.admitted = true ∧ call.admission.parent = none := by
        simpa using chosen
      have alone : ¬ HasAdmittedAncestor final.lineage final.calls call.admission := by
        rintro ⟨above, _, _, _, descends⟩
        exact not_below orphan descends
      simp [admitted, alone])
  rw [one] at within
  omega

end RunScheduler

end AgentTaskPlatform.Scheduler
