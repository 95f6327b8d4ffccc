import AgentTaskPlatform.StatusMachine

/-!
Callbacks and the business outcome. While only callbacks write a run, every run
object in the hands of a preparation or a dispatcher carries the error and the
output of the row, and each of the settlements (skip, prepare, acknowledge)
derives the status it stores from that error alone.
-/

namespace AgentTaskPlatform.Settlement

open Interleaving CallbackService

def notifying : Entry → Bool
  | .tick _ => true
  | .resendCallback _ => true
  | .dispatchPending _ _ _ => true
  | .dispatchDelivery _ => true
  | .prepareForRun _ => true
  | .prune _ => true
  | _ => false

def outcomeStatus : Option ErrorType → RunStatus
  | none => .succeeded
  | some .runTimeout => .timeout
  | some _ => .failed

def outcome (run : AgentRun) : Option ErrorType × Option String × Option Json :=
  (run.errorType, run.errorMessage, run.output)

def notified : List RunStatus := [.agentSucceeded, .succeeded, .waitingCallback]

structure Preserves (before after : AgentRun) : Prop where
  errorType : after.errorType = before.errorType
  errorMessage : after.errorMessage = before.errorMessage
  output : after.output = before.output
  status : after.status = before.status ∨
    (before.status ∈ notified ∧
      (after.status = .waitingCallback ∨ after.status = outcomeStatus before.errorType))

def Settles (event : PlatformEvent) : Prop :=
  event.after.run.status ≠ event.before.run.status ∧
    event.after.run.status ≠ .waitingCallback

section Statuses

variable (run : AgentRun)

theorem settledStatus_cases : settledStatus run = run.status ∨
    (run.status ∈ notified ∧ settledStatus run = outcomeStatus run.errorType) := by
  unfold settledStatus
  split
  · next waiting =>
      right
      constructor
      · simp only [Bool.or_eq_true, decide_eq_true_eq] at waiting
        rcases waiting with same | same <;> simp [notified, same]
      · cases error : run.errorType with
        | none => rfl
        | some cause => cases cause <;> rfl
  · exact Or.inl rfl

theorem skipped_preserves : Preserves run (skipped run) := by
  constructor
  · rfl
  · rfl
  · rfl
  · unfold skipped
    simp only
    split
    · exact (settledStatus_cases run).imp_right fun settles => ⟨settles.1, Or.inr settles.2⟩
    · exact Or.inl rfl

theorem settled_preserves (now : Nat) : Preserves run (settled run now) := by
  constructor
  · rfl
  · rfl
  · rfl
  · exact (settledStatus_cases run).imp_right fun settles => ⟨settles.1, Or.inr settles.2⟩

theorem announced_preserves (eventId : Uuid) : Preserves run (announced run eventId) := by
  constructor
  · rfl
  · rfl
  · rfl
  · unfold announced
    simp only [Bool.or_eq_true, decide_eq_true_eq]
    split
    · next success =>
        right
        constructor
        · rcases success with same | same <;> simp [notified, same]
        · exact Or.inl rfl
    · exact Or.inl rfl

end Statuses

theorem Preserves.of_snapshot {snapshot current stored : AgentRun}
    (preserves : Preserves snapshot stored) (same : outcome snapshot = outcome current)
    (status : current.status = snapshot.status) : Preserves current stored := by
  simp only [outcome, Prod.mk.injEq] at same
  obtain ⟨errorType, errorMessage, output⟩ := same
  constructor
  · rw [preserves.errorType, errorType]
  · rw [preserves.errorMessage, errorMessage]
  · rw [preserves.output, output]
  · rw [status, ← errorType]
    exact preserves.status

theorem Preserves.outcome {before after : AgentRun} (preserves : Preserves before after) :
    outcome after = outcome before := by
  simp only [Settlement.outcome, preserves.errorType, preserves.errorMessage, preserves.output]

structure Inv (origin : AgentRun) (state : State) (phases : List Phase) : Prop where
  row : outcome state.run = outcome origin
  hands : ∀ (thread : Nat) process job progress run,
    phases[thread]? = some (.manager process job progress) → progress.seen = some run →
    outcome run = outcome origin
  notifies : ∀ (thread : Nat) phase, phases[thread]? = some phase →
    ∃ process job progress, phase = .manager process job progress ∧ job.notifies

section Steps

variable {process : Process} {job : ManagerProtocol.Job} {progress : ManagerProtocol.Progress}
  {op : Op} {oracle : op.Answer} {state : State} {origin : AgentRun}

theorem stores_derived {site : Site} {expected : Expected} {row : AgentRun}
    (notifies : job.notifies) (permitted : ManagerProtocol.Permitted process job progress op)
    (stores : op.stores site expected row) :
    ∃ run, progress.seen = some run ∧ run.status ∈ expected.statuses ∧
      (∀ status ∈ expected.statuses, status = run.status) ∧ Preserves run row := by
  cases permitted with
  | @skipCallback run _ seen _ =>
      obtain ⟨rfl, rfl, rfl⟩ := stores
      exact ⟨run, seen, by simp, by simp, skipped_preserves run⟩
  | @prepareCallback run eventId existing url body now _ seen _ _ _ _ =>
      obtain ⟨rfl, rfl, rfl⟩ := stores
      exact ⟨run, seen, by simp, by simp, announced_preserves run eventId⟩
  | @delivered run delivery now attempt _ seen _ _ =>
      obtain ⟨rfl, rfl, rfl⟩ := stores
      exact ⟨run, seen, by simp, by simp, settled_preserves run now⟩
  | @exhausted run _ seen _ =>
      obtain ⟨rfl, rfl, rfl⟩ := stores
      exact ⟨run, seen, by simp, by simp, rfl, rfl, rfl, Or.inl rfl⟩
  | cancel now own _ _ => cases own; exact notifies.elim
  | recover agent now own _ _ _ _ => cases own; exact notifies.elim
  | reclaim now own _ _ _ _ => cases own; exact notifies.elim
  | _ => exact stores.elim

theorem performed_preserves (notifies : job.notifies)
    (permitted : ManagerProtocol.Permitted process job progress op)
    (row : outcome state.run = outcome origin)
    (hand : ∀ run, progress.seen = some run → outcome run = outcome origin) :
    Preserves state.run (Op.perform op oracle state).2.run := by
  rcases perform_run op oracle state with
    same | ⟨site, expected, stored, stores, admitted, same⟩ | ⟨stored, rfl, _⟩ | ⟨_, lease, rfl, _⟩
  · rw [same]
    exact ⟨rfl, rfl, rfl, Or.inl rfl⟩
  · rw [same]
    obtain ⟨run, seen, _, only, preserves⟩ := stores_derived notifies permitted stores
    apply preserves.of_snapshot
    · rw [hand run seen, row]
    · exact only _ (admitted_status admitted)
  · cases permitted with
    | retry agent now own _ _ => cases own; exact notifies.elim
  · cases permitted with
    | renewUpdate _ own _ _ => cases own; exact notifies.elim

theorem hand_after {run : AgentRun}
    (permitted : ManagerProtocol.Permitted process job progress op)
    (row : outcome state.run = outcome origin)
    (hand : ∀ run, progress.seen = some run → outcome run = outcome origin)
    (seen : (progress.after op (Op.perform op oracle state).1).seen = some run) :
    outcome run = outcome origin := by
  cases permitted with
  | read =>
      cases seen
      exact row
  | @delivered earlier delivery now attempt _ known _ _ =>
      cases seen
      exact hand earlier known
  | _ => exact hand run seen

end Steps

section Runs

variable {deployment : Deployment} {origin : AgentRun}

theorem inv_acts {state : State} {phases : List Phase} {thread : Nat} {tag : Tag} {op : Op}
    {oracle : op.Answer} {phase : Phase} (inv : Inv origin state phases)
    (present : phases[thread]? = some phase) (permitted : phase.permits deployment.digest op) :
    Inv origin (Op.perform op oracle state).2
      ((discipline deployment notifying).observe phases
        ((platformSystem deployment notifying).performed thread tag op oracle state)) := by
  obtain ⟨process, job, progress, rfl, notifies⟩ := inv.notifies thread phase present
  have hand : ∀ run, progress.seen = some run → outcome run = outcome origin :=
    fun run seen => inv.hands thread process job progress run present seen
  constructor
  · rw [(performed_preserves notifies permitted inv.row hand).outcome]
    exact inv.row
  · intro index owner other later run found seen
    rcases observe_phase present found with ⟨rfl, same⟩ | ⟨_, kept⟩
    · cases same
      exact hand_after permitted inv.row hand seen
    · exact inv.hands index owner other later run kept seen
  · intro index later found
    rcases observe_phase present found with ⟨rfl, rfl⟩ | ⟨_, kept⟩
    · exact ⟨process, job, _, rfl, notifies⟩
    · exact inv.notifies index later kept

theorem started_notifies {state : State} {entry : Entry} {started : Phase}
    (admitted : notifying entry = true) (start : entry.phase state = some started) :
    ∃ process job progress, started = .manager process job progress ∧ job.notifies ∧
      progress.seen = none := by
  cases entry with
  | resendCallback process =>
      cases start
      exact ⟨process, .resend, {}, rfl, trivial, rfl⟩
  | prepareForRun process =>
      cases start
      exact ⟨process, .prepare, {}, rfl, trivial, rfl⟩
  | dispatchDelivery index =>
      obtain ⟨claim, _, rfl⟩ := Option.map_eq_some_iff.mp start
      exact ⟨claim.1, .delivery, _, rfl, trivial, rfl⟩
  | tick elapsed => cases start
  | dispatchPending process workerId leaseSeconds => cases start
  | prune eventIds => cases start
  | _ => cases admitted

theorem launched_row {config : PlatformConfig} {entry : Entry} {state : State}
    {spawned : Option Activity}
    (launched : (platformSystem deployment notifying).launch entry config =
      some (state, spawned)) : state.run = config.state.run := by
  have admitted := (launch_start launched).1
  rcases launch_moves launched with same | ⟨_, _, rfl, _⟩
  · exact same
  · cases admitted

theorem inv_launches {config : PlatformConfig} {phases : List Phase} {entry : Entry}
    {state : State} {spawned : Option Activity} (inv : Inv origin config.state phases)
    (launched : (platformSystem deployment notifying).launch entry config =
      some (state, spawned)) :
    Inv origin state ((discipline deployment notifying).observe phases
      (.launched entry (System.spawnedThread config spawned) config.state state)) := by
  have admitted := (launch_start launched).1
  constructor
  · rw [launched_row launched]
    exact inv.row
  · intro index process job progress run found seen
    rcases launch_phase launched found with old | ⟨_, start⟩
    · exact inv.hands index process job progress run old seen
    · obtain ⟨_, _, _, same, _, unread⟩ := started_notifies admitted start
      cases same
      rw [unread] at seen
      cases seen
  · intro index phase found
    rcases launch_phase launched found with old | ⟨_, start⟩
    · exact inv.notifies index phase old
    · obtain ⟨process, job, progress, same, notifies, _⟩ := started_notifies admitted start
      exact ⟨process, job, progress, same, notifies⟩

theorem inv_inductive : (discipline deployment notifying).Inductive (fun _ _ => True)
    fun _ state phases => Inv origin state phases where
  acts _ _ _ _ _ _ _ _ inv present _ permitted _ := inv_acts inv present permitted
  launches _ _ _ _ _ _ _ inv launched _ := inv_launches inv launched

theorem inv_initial (state : State) : Inv state.run state [] := by
  constructor
  · rfl
  · intro thread process job progress run found
    cases found
  · intro thread phase found
    cases found

theorem event_preserves {state : State} {events : List PlatformEvent} {final : PlatformConfig}
    (run : (platformSystem deployment notifying).Run (atRest state) events final)
    {event : PlatformEvent} (member : event ∈ events) :
    Preserves event.before.run event.after.run ∧
      outcome event.before.run = outcome state.run := by
  obtain ⟨left, right, rfl⟩ := List.append_of_mem member
  have inv := inv_inductive.before_event run rfl (fun _ _ _ _ => trivial) (inv_initial state)
  cases event with
  | acted thread tag op answer before after =>
      obtain ⟨phase, oracle, present, _, permitted, same⟩ :=
        Discipline.run_permits (D := discipline deployment notifying) run rfl
      cases same
      obtain ⟨process, job, progress, rfl, notifies⟩ := inv.notifies thread phase present
      have preserved : Preserves before.run (Op.perform op oracle before).2.run :=
        performed_preserves notifies permitted inv.row
          fun seen known => inv.hands thread process job progress seen present known
      exact ⟨preserved, inv.row⟩
  | launched entry spawned before after =>
      obtain ⟨start, thread, _, rfl, launched, _⟩ :=
        Discipline.run_launches (D := discipline deployment notifying) run rfl
      refine ⟨?_, inv.row⟩
      show Preserves start.state.run after.run
      rw [launched_row launched]
      exact ⟨rfl, rfl, rfl, Or.inl rfl⟩

theorem settles_outcome {event : PlatformEvent}
    (preserves : Preserves event.before.run event.after.run) (settles : Settles event) :
    event.after.run.status = outcomeStatus event.before.run.errorType := by
  rcases preserves.status with same | ⟨_, waiting | settled⟩
  · exact absurd same settles.1
  · exact absurd waiting settles.2
  · exact settled

end Runs

/-- While only callbacks write a run, its outcome never changes, its status moves
to WAITING_CALLBACK or to the status its error determines, and any two runs from
one state, whatever their receivers answer, settle to one status. -/
theorem callbacks_preserve_outcome {deployment : Deployment} {state : State}
    {events : List PlatformEvent} {final : PlatformConfig}
    (run : (platformSystem deployment notifying).Run (atRest state) events final) :
    (∀ event ∈ events, Preserves event.before.run event.after.run) ∧
    ∀ {others last}, (platformSystem deployment notifying).Run (atRest state) others last →
      ∀ event ∈ events, ∀ other ∈ others, Settles event → Settles other →
        event.after.run.status = other.after.run.status := by
  constructor
  · intro event member
    exact (event_preserves run member).1
  · intro others last another event member other among settles otherwise
    obtain ⟨preserved, first⟩ := event_preserves run member
    obtain ⟨kept, second⟩ := event_preserves another among
    rw [settles_outcome preserved settles, settles_outcome kept otherwise]
    have same : outcome event.before.run = outcome other.before.run := first.trans second.symm
    simp only [outcome, Prod.mk.injEq] at same
    rw [same.1]

def dispatched (first : (op : External) → Except Exc op.Result) : List (Move platform Entry) :=
  [.launch (.prepareForRun "api")] ++ steps 7 0 calm ++
    [.launch (.dispatchPending "api" "callbacks" 30), .launch (.dispatchDelivery 0)] ++
    steps 3 1 calm ++ steps 1 1 first ++ steps 8 1 calm

def settlesEvent (event : PlatformEvent) : Bool :=
  event.after.run.status != event.before.run.status &&
    event.after.run.status != .waitingCallback

theorem callbacks_preserve_outcome_refused_once : ∃ events final others last,
    (platformSystem sampleDeployment notifying).Run
      (atRest (State.initial { subscribedRun with status := .agentSucceeded } 0 none)) events
      final ∧
    (platformSystem sampleDeployment notifying).Run
      (atRest (State.initial { subscribedRun with status := .agentSucceeded } 0 none)) others
      last ∧
    ∃ event ∈ events, ∃ other ∈ others, Settles event ∧ Settles other ∧
      event.after.run.status = other.after.run.status := by
  have accepted : ((platformSystem sampleDeployment notifying).replay
      (atRest (State.initial { subscribedRun with status := .agentSucceeded } 0 none))
      ((dispatched calm).take 17)).any (fun outcome => outcome.1.any settlesEvent) = true := rfl
  have refused : ((platformSystem sampleDeployment notifying).replay
      (atRest (State.initial { subscribedRun with status := .agentSucceeded } 0 none))
      (dispatched refusing)).any (fun outcome => outcome.1.any settlesEvent) = true := rfl
  obtain ⟨events, final, run, checked⟩ := System.replay_checked accepted
  obtain ⟨others, last, another, found⟩ := System.replay_checked refused
  simp only [List.any_eq_true, settlesEvent, Bool.and_eq_true, bne_iff_ne] at checked found
  obtain ⟨event, member, settles⟩ := checked
  obtain ⟨other, among, otherwise⟩ := found
  exact ⟨events, final, others, last, run, another, event, member, other, among, settles,
    otherwise, (callbacks_preserve_outcome run).2 another event member other among settles
      otherwise⟩

end AgentTaskPlatform.Settlement
