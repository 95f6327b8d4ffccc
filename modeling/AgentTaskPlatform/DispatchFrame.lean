import AgentTaskPlatform.Readings

/-!
What a dispatcher of callbacks writes to the run row. It reads the row once,
waits for the receiver, and then stores the object it read under a test of the
status alone. The write is a frame for the execution columns exactly as long as
nobody has replaced one of them since the read.
-/

namespace AgentTaskPlatform.DispatchFrame

open Interleaving CallbackService

/-- The columns of a run but the three that a dispatcher may set. -/
def frame (run : AgentRun) : AgentRun :=
  { run with
    callbackStatus := .pending
    status := .created
    finishTime := none }

def Dispatches (thread : Nat) : PlatformEvent → Prop
  | .acted own _ (.run (.updateIfCurrent .exhausted _ _)) answer _ _ =>
      own = thread ∧ answer = true
  | .acted own _ (.run (.updateRunWithCallback .delivered _ _ _)) answer _ _ =>
      own = thread ∧ answer = true
  | _ => False

structure Framed (event : PlatformEvent) : Prop where
  columns : frame event.after.run = frame event.before.run
  status : event.after.run.status = event.before.run.status ∨
    event.after.run.status = settledStatus event.before.run

theorem frame_errorType {run other : AgentRun} (same : frame run = frame other) :
    run.errorType = other.errorType :=
  show (frame run).errorType = (frame other).errorType from congrArg AgentRun.errorType same

theorem settledStatus_frame {run other : AgentRun} (same : frame run = frame other)
    (status : run.status = other.status) : settledStatus run = settledStatus other := by
  simp only [settledStatus, status, frame_errorType same]

/-- The run object of a dispatcher is the row it read, but for those three columns. -/
def Held (past : List PlatformEvent) (phases : List Phase) : Prop :=
  ∀ (thread : Nat) process job progress run,
    phases[thread]? = some (.manager process job progress) → progress.seen = some run →
    ∃ read, lastRead thread past = some read ∧ frame run = frame read

section Steps

variable {process : Process} {job : ManagerProtocol.Job} {progress : ManagerProtocol.Progress}
  {op : Op} {oracle : op.Answer} {state : State}

theorem hand_after {run : AgentRun}
    (permitted : ManagerProtocol.Permitted process job progress op)
    (seen : (progress.after op (Op.perform op oracle state).1).seen = some run) :
    (op = .run .get ∧ run = state.run) ∨
      (op ≠ .run .get ∧ ∃ earlier, progress.seen = some earlier ∧ frame run = frame earlier) := by
  cases permitted with
  | read =>
      cases seen
      exact Or.inl ⟨rfl, rfl⟩
  | @delivered earlier delivery now attempt _ known _ _ =>
      cases seen
      exact Or.inr ⟨nofun, earlier, known, rfl⟩
  | _ => exact Or.inr ⟨nofun, run, seen, rfl⟩

theorem dispatched_row {thread index : Nat} {tag : Tag} {deployment : Deployment}
    {admitted : Entry → Bool} {phase : Phase} (permitted : phase.permits deployment.digest op)
    (dispatches : Dispatches thread
      ((platformSystem deployment admitted).performed index tag op oracle state)) :
    index = thread ∧ ∃ process job progress hand, phase = .manager process job progress ∧
      progress.seen = some hand ∧ state.run.status = hand.status ∧
      frame (Op.perform op oracle state).2.run = frame hand ∧
      ((Op.perform op oracle state).2.run.status = hand.status ∨
        (Op.perform op oracle state).2.run.status = settledStatus hand) := by
  unfold Dispatches System.performed at dispatches
  split at dispatches
  · next own tag expected row answer before after same =>
      cases same
      obtain ⟨rfl, hit⟩ := dispatches
      refine ⟨rfl, ?_⟩
      cases phase with
      | manager process job progress =>
          cases permitted with
          | @exhausted hand dispatches seen _ =>
              have admits : Expected.admits { statuses := [hand.status] } state.run = true := by
                by_contra miss
                simp [platformSystem, Op.perform, RunOp.perform, State.updateIfCurrent,
                  miss] at hit
              have status := List.mem_singleton.mp (admitted_status admits)
              refine ⟨process, job, progress, hand, rfl, seen, status, ?_⟩
              simp only [Op.perform, RunOp.perform, State.updateIfCurrent, admits, if_true]
              exact ⟨rfl, Or.inl trivial⟩
      | execution process worker progress => cases permitted
      | tool context progress => cases permitted
      | stage stageIndex context stageKey progress => cases permitted
      | checkpoint stageIndex context stageKey progress => cases permitted
  · next own tag expected row delivery answer before after same =>
      cases same
      obtain ⟨rfl, hit⟩ := dispatches
      refine ⟨rfl, ?_⟩
      cases phase with
      | manager process job progress =>
          cases permitted with
          | @delivered hand delivery now attempt _ seen _ _ =>
              have admits : Expected.admits { statuses := [hand.status] } state.run = true := by
                by_contra miss
                simp [platformSystem, Op.perform, RunOp.perform, miss] at hit
              have status := List.mem_singleton.mp (admitted_status admits)
              refine ⟨process, job, progress, hand, rfl, seen, status, ?_⟩
              simp only [Op.perform, RunOp.perform, admits, if_true]
              exact ⟨rfl, Or.inr rfl⟩
      | execution process worker progress => cases permitted
      | tool context progress => cases permitted
      | stage stageIndex context stageKey progress => cases permitted
      | checkpoint stageIndex context stageKey progress => cases permitted
  · exact dispatches.elim

end Steps

section Runs

variable {deployment : Deployment} {admitted : Entry → Bool}

theorem held_inductive : (discipline deployment admitted).Inductive (fun _ _ => True)
    fun past _ phases => Held past phases where
  acts past state phases thread tag op oracle phase held present _ permitted _ := by
    intro index process job progress run found seen
    rw [lastRead_snoc]
    rcases observe_phase present found with ⟨rfl, same⟩ | ⟨different, kept⟩
    · cases phase with
      | manager owner task earlier =>
          cases same
          rcases hand_after permitted seen with ⟨rfl, rfl⟩ | ⟨other, hand, known, same⟩
          · rw [readBy_get]
            exact ⟨_, rfl, rfl⟩
          · rw [readBy_other (Or.inr other)]
            obtain ⟨read, last, derived⟩ := held index _ _ _ hand present known
            exact ⟨read, last, same.trans derived⟩
      | _ => cases same
    · rw [readBy_other (Or.inl different)]
      exact held index process job progress run kept seen
  launches past config phases entry state spawned _ held launched _ := by
    intro index process job progress run found seen
    rw [lastRead_snoc]
    rcases launch_phase launched found with old | ⟨_, start⟩
    · exact held index process job progress run old seen
    · have opening : progress = { hand := progress.hand } := Entry.phase_opening start
      rw [opening] at seen
      cases seen

theorem held_initial : Held [] [] := by
  intro thread process job progress run found
  cases found

theorem framed_iff {state : State} {past later : List PlatformEvent} {write : PlatformEvent}
    {final : PlatformConfig} {thread : Nat}
    (run : (platformSystem deployment admitted).Run (atRest state) (past ++ write :: later)
      final) (dispatches : Dispatches thread write) :
    Framed write ↔ ¬ Overtaken frame thread past := by
  have held := held_inductive.before_event run rfl (fun _ _ _ _ => trivial) held_initial
  cases write with
  | launched entry spawned before after => exact dispatches.elim
  | acted index tag op answer before after =>
      obtain ⟨phase, oracle, present, _, permitted, same⟩ :=
        Discipline.run_permits (D := discipline deployment admitted) run rfl
      cases same
      obtain ⟨rfl, process, job, progress, hand, rfl, seen, status, columns, moves⟩ :=
        dispatched_row permitted dispatches
      obtain ⟨read, known, derived⟩ := held index process job progress hand present seen
      rw [overtaken_iff frame run known, not_not]
      constructor
      · intro framed
        have kept : frame (Op.perform op oracle before).2.run = frame before.run := framed.columns
        exact kept.symm.trans (columns.trans derived)
      · intro current
        have same : frame hand = frame before.run := derived.trans current.symm
        constructor
        · exact columns.trans same
        · have own : settledStatus hand = settledStatus before.run :=
            settledStatus_frame same status.symm
          rw [← status, own] at moves
          exact moves

end Runs

/-- Callback dispatch is a frame for the execution columns in exactly the runs in
which nobody replaces one of them between the read of a dispatcher and its write. -/
theorem dispatch_framed_iff {deployment : Deployment} {admitted : Entry → Bool} {state : State}
    {events : List PlatformEvent} {final : PlatformConfig}
    (run : (platformSystem deployment admitted).Run (atRest state) events final) :
    (∀ write ∈ events, (∃ thread, Dispatches thread write) → Framed write) ↔
      ∀ past write later thread, events = past ++ write :: later → Dispatches thread write →
        ¬ Overtaken frame thread past := by
  constructor
  · intro framed past write later thread split dispatches
    subst split
    exact (framed_iff run dispatches).mp (framed write (by simp) ⟨thread, dispatches⟩)
  · rintro current write member ⟨thread, dispatches⟩
    obtain ⟨past, later, rfl⟩ := List.append_of_mem member
    exact (framed_iff run dispatches).mpr (current past write later thread rfl dispatches)

def deadLetteredMeanwhile : List (Move platform Entry) :=
  [.launch (.dispatchReady "worker" 30)] ++ steps 24 0 failing ++
    [.launch (.dispatchPending "api" "callbacks" 30), .launch (.dispatchDelivery 0)] ++
    steps 4 1 calm ++ steps 2 0 calm ++ steps 2 1 calm

def revivesLease : PlatformEvent → Bool
  | .acted _ _ (.run (.updateRunWithCallback .delivered _ _ _)) answer before after =>
      answer && before.run.deadLetterReason.isSome && before.run.worker = none &&
        after.run.deadLetterReason = none && after.run.worker = some "worker"
  | _ => false

theorem deadLetteredMeanwhile_replays : ((platformSystem sampleDeployment fun _ => true).replay
    (atRest (State.initial subscribedRun 0 none)) deadLetteredMeanwhile).any
      (fun outcome => outcome.1.any revivesLease) = true := rfl

theorem revivesLease_spec {event : PlatformEvent} (revives : revivesLease event = true) :
    (∃ thread, Dispatches thread event) ∧ event.before.run.worker = none ∧
      event.after.run.worker = some "worker" := by
  unfold revivesLease at revives
  split at revives
  · simp only [Bool.and_eq_true, decide_eq_true_eq] at revives
    exact ⟨⟨_, rfl, revives.1.1.1.1⟩, revives.1.1.2, revives.2⟩
  · cases revives

theorem framed_worker {event : PlatformEvent} (framed : Framed event) :
    event.after.run.worker = event.before.run.worker :=
  show (frame event.after.run).worker = (frame event.before.run).worker from
    congrArg AgentRun.worker framed.columns

/-- The acknowledgement restores the worker, the lease and the missing dead-letter
reason that the dispatcher had read. -/
theorem dispatch_restores_worker : ∃ events final,
    (platformSystem sampleDeployment fun _ => true).Run
      (atRest (State.initial subscribedRun 0 none)) events final ∧
    ∃ write ∈ events, (∃ thread, Dispatches thread write) ∧ write.before.run.worker = none ∧
      write.after.run.worker = some "worker" ∧ ¬ Framed write := by
  obtain ⟨events, final, run, checked⟩ := System.replay_checked deadLetteredMeanwhile_replays
  obtain ⟨write, member, revives⟩ := List.any_eq_true.mp checked
  obtain ⟨dispatches, free, taken⟩ := revivesLease_spec revives
  refine ⟨events, final, run, write, member, dispatches, free, taken, ?_⟩
  intro framed
  have kept := framed_worker framed
  rw [free, taken] at kept
  cases kept

/-- In the schedule above the dispatcher is overtaken. -/
theorem dispatch_framed_iff_dead_lettered : ∃ events final,
    (platformSystem sampleDeployment fun _ => true).Run
      (atRest (State.initial subscribedRun 0 none)) events final ∧
    ∃ past write later thread, events = past ++ write :: later ∧ Dispatches thread write ∧
      Overtaken frame thread past := by
  obtain ⟨events, final, run, checked⟩ := System.replay_checked deadLetteredMeanwhile_replays
  obtain ⟨write, member, revives⟩ := List.any_eq_true.mp checked
  obtain ⟨dispatches, free, taken⟩ := revivesLease_spec revives
  refine ⟨events, final, run, ?_⟩
  by_contra current
  push Not at current
  have kept := framed_worker ((dispatch_framed_iff run).mpr current write member dispatches)
  rw [free, taken] at kept
  cases kept

end AgentTaskPlatform.DispatchFrame
