import AgentTaskPlatform.StatusMachine

/-!
Finished runs and the executions that reach them late. `run_now` tests the
status before it waits for scheduler slots; `execute` reads the row again but
tests only CANCELED. An execution that has committed nothing can therefore
write to a finished row in two places: the start of an attempt and, when no
attempt is left, the write after the attempt loop.
-/

namespace AgentTaskPlatform.FinishedRuns

open Interleaving ExecutionProtocol

def finished (status : RunStatus) : Bool :=
  [.succeeded, .failed, .timeout, .agentSucceeded, .waitingCallback].contains status

def CommitsBy (thread : Nat) : PlatformEvent → Prop
  | .acted own _ (.run (.updateIfCurrent _ _ _)) answer _ _ => own = thread ∧ answer = true
  | .acted own _ (.run (.updateRunWithCallback _ _ _ _)) answer _ _ =>
      own = thread ∧ answer = true
  | _ => False

def Entered (past : List PlatformEvent) (thread : Nat) : Prop :=
  ∃ event ∈ past, CommitsBy thread event

/-- The start of an attempt, or the write after the loop of an execution that has
written nothing, is admitted on a finished row: the row has the status that the
execution read again and the worker column that it expects. -/
def EntersFinished (past : List PlatformEvent) : PlatformEvent → Prop
  | .acted _ _ (.run (.updateIfCurrent (.attemptStart _) expected _)) _ before _ =>
      finished before.run.status = true ∧ expected.admits before.run = true
  | .acted thread _ (.run (.updateIfCurrent .finish expected _)) _ before _ =>
      ¬ Entered past thread ∧ finished before.run.status = true ∧
        expected.admits before.run = true
  | _ => False

/-- An attempt begins on a QUEUED or executing row, and an execution that has
written nothing leaves a finished row and the deliveries alone. -/
structure Respects (past : List PlatformEvent) (event : PlatformEvent) : Prop where
  starts : ∀ thread tag attempt expected row before after,
    event = .acted thread tag (.run (.updateIfCurrent (.attemptStart attempt) expected row)) true
      before after →
    before.run.status = .queued ∨ before.run.status.executing = true
  spares : ∀ thread tag op answer before after, event = .acted thread tag op answer before after →
    (∃ worker, tag.role.executes worker) → ¬ Entered past thread →
    finished before.run.status = true →
    ¬ CommitsBy thread event ∧ after.run = before.run ∧ after.callbacks = before.callbacks

section Created

theorem moves_created {site : Site} {before : RunStatus} (moves : site.moves before .created) :
    before = .created := by
  cases site with
  | attemptStart attempt =>
      have started := moves.2
      split at started <;> cases started
  | attemptFailed attempt attempts error =>
      have stored := moves.2
      rcases RunExecutor.classify_status attempt attempts error with same | same | same <;>
        rw [same] at stored <;> cases stored
  | _ => simp_all [Site.moves, RunStatus.settles, RunStatus.announces]

theorem performed_created {digest : Digest} {phase : Phase} {op : Op} {oracle : op.Answer}
    {state : State} (permitted : phase.permits digest op) (submitted : state.run.status ≠ .created) :
    (Op.perform op oracle state).2.run.status ≠ .created := by
  intro created
  rcases perform_moves oracle state permitted with
    same | ⟨site, expected, _, _, moves⟩ | ⟨row, _, queued⟩
  · exact submitted (same.symm.trans created)
  · rw [created] at moves
    exact submitted (moves_created moves)
  · rw [created] at queued
    cases queued

end Created

section Commits

variable {deployment : Deployment} {admitted : Entry → Bool} {past : List PlatformEvent}
  {thread : Nat} {tag : Tag} {op : Op} {oracle : op.Answer} {state : State}

theorem entered_mono {event : PlatformEvent} (entered : Entered past thread) :
    Entered (past ++ [event]) thread := by
  obtain ⟨earlier, member, commits⟩ := entered
  exact ⟨earlier, List.mem_append_left _ member, commits⟩

/-- An update takes effect where the row passes its `WHERE` clause. -/
theorem commits_iff :
    CommitsBy thread ((platformSystem deployment admitted).performed thread tag op oracle state) ↔
      ∃ site expected, op.updates site expected ∧ expected.admits state.run = true := by
  cases op with
  | run op =>
      cases op with
      | updateIfCurrent site expected row =>
          by_cases hit : expected.admits state.run = true
          · simp [System.performed, platformSystem, CommitsBy, Op.perform, RunOp.perform,
              State.updateIfCurrent, Op.updates, hit]
          · simp [System.performed, platformSystem, CommitsBy, Op.perform, RunOp.perform,
              State.updateIfCurrent, Op.updates, hit]
      | updateRunWithCallback site expected row delivery =>
          by_cases hit : expected.admits state.run = true
          · simp [System.performed, platformSystem, CommitsBy, Op.perform, RunOp.perform,
              Op.updates, hit]
          · simp [System.performed, platformSystem, CommitsBy, Op.perform, RunOp.perform,
              Op.updates, hit]
      | _ => simp [System.performed, CommitsBy, Op.updates]
  | _ => simp [System.performed, CommitsBy, Op.updates]

end Commits

section Executions

variable {process : Process} {worker : Option Process} {progress : Progress} {op : Op}
  {oracle : op.Answer} {state : State}

theorem quiet_commits (permitted : Permitted process worker progress op)
    (quiet : progress.step.quiet) {site : Site} {expected : Expected}
    (updates : op.updates site expected) (hit : expected.admits state.run = true)
    (done : finished state.run.status = true) :
    (∃ attempt, site = .attemptStart attempt) ∨ site = .finish := by
  cases permitted with
  | attemptStart attempt now _ _ _ _ => exact Or.inl ⟨attempt, updates.1⟩
  | agentSucceeded output now step _ =>
      rw [step] at quiet
      cases quiet
  | attemptFailed attempts timeout error step _ =>
      rw [step] at quiet
      cases quiet
  | recovered attempts timeout error result now step =>
      rw [step] at quiet
      cases quiet
  | finish now _ => exact Or.inr updates.1
  | skipCallback prepares _ => exact absurd prepares (Step.quiet_prepares quiet)
  | prepareCallback url body now prepares _ _ _ _ _ =>
      exact absurd prepares (Step.quiet_prepares quiet)
  | release _ releases => exact absurd releases (Step.quiet_releases quiet)
  | deadLetter reason _ releases => exact absurd releases (Step.quiet_releases quiet)
  | backgroundFailure error _ _ _ =>
      have member := admitted_status hit
      rw [updates.2] at member
      simp only [owned, executingRunStatuses, List.mem_append, List.mem_cons, List.not_mem_nil,
        or_false] at member
      rcases member with (same | same | same) | same <;> rw [same] at done <;> cases done
  | _ => exact updates.elim

/-- An execution stays quiet until an update of its own takes effect. -/
theorem quiet_step (permitted : Permitted process worker progress op)
    (quiet : progress.step.quiet)
    (missed : ∀ site expected, op.updates site expected → expected.admits state.run = false) :
    (progress.after op (Op.perform op oracle state).1).step.quiet := by
  cases op with
  | run op =>
      cases op with
      | get => exact quiet
      | updateIfCurrent site expected row =>
          have miss := missed site expected ⟨rfl, rfl⟩
          have other : site ≠ .skipCallback := by
            rintro rfl
            cases permitted with
            | skipCallback prepares _ => exact Step.quiet_prepares quiet prepares
          have another : site ≠ .prepareCallback := by
            rintro rfl
            cases permitted
          have closed : (progress.after (.run (.updateIfCurrent site expected row))
              (Op.perform _ oracle state).1).step = .closed := by
            simp [Progress.after, Op.perform, RunOp.perform, State.updateIfCurrent, miss,
              Step.after_missed other another]
          rw [closed]
          trivial
      | updateRunWithCallback site expected row delivery =>
          cases permitted with
          | prepareCallback url body now prepares _ _ _ _ _ =>
              exact absurd prepares (Step.quiet_prepares quiet)
      | _ => cases permitted
  | stage op => cases permitted
  | callback op =>
      cases permitted with
      | lookUp eventId _ => exact quiet
  | process op => cases permitted <;> exact quiet
  | external op => exact quiet

theorem execution_unchanged (permitted : Permitted process worker progress op)
    (missed : ∀ site expected, op.updates site expected → expected.admits state.run = false) :
    (Op.perform op oracle state).2.run = state.run ∧
      (Op.perform op oracle state).2.callbacks = state.callbacks := by
  cases op with
  | run op =>
      cases op with
      | updateIfCurrent site expected row =>
          have miss := missed site expected ⟨rfl, rfl⟩
          simp [Op.perform, RunOp.perform, State.updateIfCurrent, miss]
      | updateRunWithCallback site expected row delivery =>
          have miss := missed site expected ⟨rfl, rfl⟩
          simp [Op.perform, RunOp.perform, miss]
      | get => exact ⟨rfl, rfl⟩
      | renewSelect lease => exact ⟨rfl, rfl⟩
      | retry row => cases permitted
      | renewUpdate loaded lease => cases permitted
  | stage op => cases permitted
  | callback op =>
      cases permitted with
      | lookUp eventId _ => exact ⟨rfl, rfl⟩
  | process op =>
      obtain ⟨_, _, _, _, same⟩ := op.perform_frame state
      simp only [Op.perform, same, and_self]
  | external op => exact ⟨rfl, rfl⟩

end Executions

structure Inv (past : List PlatformEvent) (state : State) (phases : List Phase) : Prop where
  submitted : state.run.status ≠ .created
  quiet : ∀ (thread : Nat) process worker progress,
    phases[thread]? = some (.execution process worker progress) → ¬ Entered past thread →
    progress.step.quiet

section Runs

variable {deployment : Deployment} {admitted : Entry → Bool} {past : List PlatformEvent}
  {state : State} {phases : List Phase} {thread : Nat} {tag : Tag} {op : Op}
  {oracle : op.Answer} {phase : Phase}

theorem missed_updates
    (uncommitted : ¬ CommitsBy thread
      ((platformSystem deployment admitted).performed thread tag op oracle state)) (site : Site)
    (expected : Expected) (updates : op.updates site expected) :
    expected.admits state.run = false := by
  by_contra hit
  exact uncommitted (commits_iff.mpr ⟨site, expected, updates, by simpa using hit⟩)

theorem inv_step (inv : Inv past state phases) (present : phases[thread]? = some phase)
    (permitted : phase.permits deployment.digest op) :
    Inv (past ++ [(platformSystem deployment admitted).performed thread tag op oracle state])
      (Op.perform op oracle state).2
      ((discipline deployment admitted).observe phases
        ((platformSystem deployment admitted).performed thread tag op oracle state)) := by
  refine ⟨performed_created permitted inv.submitted, ?_⟩
  intro index process worker progress found fresh
  have before : ¬ Entered past index := fun entered => fresh (entered_mono entered)
  rcases observe_phase present found with ⟨rfl, same⟩ | ⟨_, old⟩
  · cases phase with
    | execution own lease earlier =>
        cases same
        have uncommitted : ¬ CommitsBy index
            ((platformSystem deployment admitted).performed index tag op oracle state) := by
          intro commits
          exact fresh ⟨_, List.mem_append_right _ (List.mem_singleton_self _), commits⟩
        exact quiet_step permitted (inv.quiet index _ _ earlier present before)
          (missed_updates uncommitted)
    | _ => cases same
  · exact inv.quiet index process worker progress old before

theorem inv_launch {config : PlatformConfig} {entry : Entry} {after : State}
    {spawned : Option Activity} (inv : Inv past config.state phases)
    (launched : (platformSystem deployment admitted).launch entry config = some (after, spawned)) :
    Inv (past ++ [.launched entry (System.spawnedThread config spawned) config.state after]) after
      ((discipline deployment admitted).observe phases
        (.launched entry (System.spawnedThread config spawned) config.state after)) := by
  refine ⟨?_, ?_⟩
  · rcases launch_moves launched with same | ⟨process, leaseSeconds, _, _, same⟩
    · rw [same]
      exact inv.submitted
    · rw [same]
      nofun
  · intro index process worker progress found fresh
    rcases launch_phase launched found with old | ⟨_, start⟩
    · exact inv.quiet index process worker progress old fun entered => fresh (entered_mono entered)
    · have opening : progress = { step := .opening } := Entry.phase_opening start
      rw [opening]
      trivial

theorem finished_status {status : RunStatus} (submitted : status ≠ .created)
    (live : status ≠ .canceled) (unfinished : finished status = false) :
    status = .queued ∨ status.executing = true := by
  cases status <;> simp_all [finished, RunStatus.executing, executingRunStatuses]

theorem executes_phase {worker : Option Process} (belongs : phase.belongs tag)
    (executes : tag.role.executes worker) :
    ∃ process worker progress, phase = .execution process worker progress := by
  cases phase with
  | execution process worker progress => exact ⟨process, worker, progress, rfl⟩
  | tool context progress =>
      obtain ⟨index, rfl⟩ := belongs
      cases executes
  | stage index context stageKey progress =>
      cases belongs
      cases executes
  | checkpoint index context stageKey progress =>
      cases belongs
      cases executes
  | manager process job progress =>
      cases belongs
      cases job <;> cases executes

theorem loop_writes {site : Site} {expected : Expected} {row : AgentRun}
    (permitted : phase.permits deployment.digest (.run (.updateIfCurrent site expected row)))
    (own : (∃ attempt, site = .attemptStart attempt) ∨ site = .finish) :
    ∃ process worker progress, phase = .execution process worker progress := by
  cases phase with
  | execution process worker progress => exact ⟨process, worker, progress, rfl⟩
  | tool context progress =>
      cases permitted
      rcases own with ⟨_, same⟩ | same <;> cases same
  | stage index context stageKey progress =>
      cases permitted
      rcases own with ⟨_, same⟩ | same <;> cases same
  | checkpoint index context stageKey progress =>
      cases permitted
      rcases own with ⟨_, same⟩ | same <;> cases same
  | manager process job progress =>
      cases permitted <;> rcases own with ⟨_, same⟩ | same <;> cases same

/-- An execution enters a finished run where its first write is admitted there. -/
theorem enters_of_commit {site : Site} {expected : Expected}
    (permitted : phase.permits deployment.digest op) (fresh : ¬ Entered past thread)
    (updates : op.updates site expected) (hit : expected.admits state.run = true)
    (done : finished state.run.status = true)
    (own : (∃ attempt, site = .attemptStart attempt) ∨ site = .finish) :
    EntersFinished past
      ((platformSystem deployment admitted).performed thread tag op oracle state) := by
  cases op with
  | run op =>
      cases op with
      | updateIfCurrent site' expected' row =>
          obtain ⟨rfl, rfl⟩ := updates
          rcases own with ⟨attempt, rfl⟩ | rfl
          · exact ⟨done, hit⟩
          · exact ⟨fresh, done, hit⟩
      | updateRunWithCallback site' expected' row delivery =>
          obtain ⟨rfl, rfl⟩ := updates
          have sites := (callback_moves permitted (admitted_status hit)).2
          rcases own with ⟨attempt, rfl⟩ | rfl <;> rcases sites with same | same <;> cases same
      | _ => exact updates.elim
  | _ => exact updates.elim

theorem respects_event (inv : Inv past state phases) (present : phases[thread]? = some phase)
    (belongs : phase.belongs tag) (permitted : phase.permits deployment.digest op) :
    Respects past ((platformSystem deployment admitted).performed thread tag op oracle state) ↔
      ¬ EntersFinished past
        ((platformSystem deployment admitted).performed thread tag op oracle state) := by
  constructor
  · intro respects enters
    cases op with
    | run op =>
        cases op with
        | updateIfCurrent site expected row =>
            cases site with
            | attemptStart attempt =>
                obtain ⟨done, hit⟩ := enters
                have began := respects.starts thread tag attempt expected row state
                  (Op.perform (.run (.updateIfCurrent (.attemptStart attempt) expected row)) oracle
                    state).2
                simp only [System.performed, platformSystem, Op.perform, RunOp.perform,
                  State.updateIfCurrent, hit, if_true, true_implies] at began
                rcases began with queued | executing
                · rw [queued] at done
                  cases done
                · revert executing
                  cases status : state.run.status <;> rw [status] at done <;>
                    simp_all [finished, RunStatus.executing, executingRunStatuses]
            | finish =>
                obtain ⟨fresh, done, hit⟩ := enters
                obtain ⟨process, worker, progress, rfl⟩ := loop_writes permitted (Or.inr rfl)
                have spared := respects.spares thread tag _ _ _ _ rfl ⟨worker, belongs.2⟩ fresh done
                exact spared.1 (commits_iff.mpr ⟨.finish, expected, ⟨rfl, rfl⟩, hit⟩)
            | _ => exact enters
        | _ => exact enters
    | _ => exact enters
  · intro avoids
    refine ⟨?_, ?_⟩
    · intro index owner attempt expected row before after same
      unfold System.performed at same avoids
      injection same with _ _ ops answers befores _
      subst ops befores
      have hit : expected.admits state.run = true := by
        by_contra miss
        have answered := eq_of_heq answers
        simp [platformSystem, Op.perform, RunOp.perform, State.updateIfCurrent, miss] at answered
      have moves := update_moves permitted (admitted_status hit)
      apply finished_status inv.submitted moves.1
      by_contra done
      exact avoids ⟨by simpa using done, hit⟩
    · intro index owner operation answer before after same executes fresh done
      unfold System.performed at same avoids ⊢
      injection same with indices owners ops answers befores afters
      subst indices owners ops befores afters
      obtain ⟨worker, executes⟩ := executes
      obtain ⟨process, lease, progress, rfl⟩ := executes_phase belongs executes
      have quiet := inv.quiet thread process lease progress present fresh
      have uncommitted : ¬ CommitsBy thread
          ((platformSystem deployment admitted).performed thread tag op oracle state) := by
        intro commits
        obtain ⟨site, expected, updates, hit⟩ := commits_iff.mp commits
        have own := quiet_commits permitted quiet updates hit done
        exact avoids (enters_of_commit permitted fresh updates hit done own)
      exact ⟨uncommitted, execution_unchanged permitted (missed_updates uncommitted)⟩

end Runs

/-- In exactly the runs in which no execution enters a finished run, attempts
begin on QUEUED or executing rows only and late executions change nothing. -/
theorem finished_respected_iff {deployment : Deployment} {state : State}
    (submitted : state.run.status ≠ .created) {events : List PlatformEvent}
    {final : PlatformConfig}
    (run : (platformSystem deployment fun _ => true).Run (atRest state) events final) :
    (∀ past event later, events = past ++ event :: later → Respects past event) ↔
      ∀ past event later, events = past ++ event :: later → ¬ EntersFinished past event := by
  have step : (discipline deployment fun _ => true).Inductive (fun _ _ => True) Inv :=
    { acts := fun _ _ _ _ _ _ _ _ inv present _ permitted _ => inv_step inv present permitted
      launches := fun _ _ _ _ _ _ _ inv launched _ => inv_launch inv launched }
  have start : Inv [] state [] := by
    refine ⟨submitted, ?_⟩
    intro thread process worker progress present
    cases present
  apply forall_congr'
  intro past
  apply forall₃_congr
  intro event later split
  subst split
  have inv := step.before_event run rfl (fun _ _ _ _ => trivial) start
  cases event with
  | acted thread tag op answer before after =>
      obtain ⟨phase, oracle, present, belongs, permitted, same⟩ :=
        Discipline.run_permits (D := discipline deployment fun _ => true) run rfl
      rw [same]
      exact respects_event inv present belongs permitted
  | launched entry spawned before after =>
      constructor
      · intro _ enters
        exact enters
      · intro _
        refine ⟨?_, ?_⟩
        · intro _ _ _ _ _ _ _ same
          cases same
        · intro _ _ _ _ _ _ same
          cases same

def overtaken : List (Move platform Entry) :=
  [.launch (.runBackground "api")] ++ steps 2 0 persistent ++
    [.launch (.dispatchReady "worker" 30)] ++ steps 21 1 persistent ++ steps 8 0 persistent

def startsFinished : PlatformEvent → Bool
  | .acted _ _ (.run (.updateIfCurrent (.attemptStart _) _ _)) answer before _ =>
      answer && finished before.run.status
  | _ => false

theorem startsFinished_spec {past : List PlatformEvent} {event : PlatformEvent}
    (starts : startsFinished event = true) : ¬ Respects past event := by
  intro respects
  unfold startsFinished at starts
  split at starts
  · simp only [Bool.and_eq_true] at starts
    obtain ⟨rfl, done⟩ := starts
    have began := respects.starts _ _ _ _ _ _ _ rfl
    revert began done
    next before _ =>
      cases before.run.status <;>
        simp [finished, RunStatus.executing, executingRunStatuses]
  · cases starts

theorem overtaken_replays : ((platformSystem sampleDeployment fun _ => true).replay
    (atRest (State.initial sampleRun 0 none)) overtaken).any (fun outcome =>
      outcome.1.any fun event => startsFinished event &&
        event.before.run.status = .succeeded && event.after.run.status = .retrying) = true := rfl

/-- The local execution starts an attempt on the SUCCEEDED row. -/
theorem finished_run_restarts : ∃ past event later final,
    (platformSystem sampleDeployment fun _ => true).Run
      (atRest (State.initial sampleRun 0 none)) (past ++ event :: later) final ∧
    event.before.run.status = .succeeded ∧ event.after.run.status = .retrying ∧
    ¬ Respects past event := by
  obtain ⟨events, final, run, checked⟩ := System.replay_checked overtaken_replays
  simp only [List.any_eq_true, Bool.and_eq_true, decide_eq_true_eq] at checked
  obtain ⟨event, member, ⟨starts, succeeded⟩, retrying⟩ := checked
  obtain ⟨past, later, rfl⟩ := List.append_of_mem member
  exact ⟨past, event, later, final, run, succeeded, retrying, startsFinished_spec starts⟩

theorem finished_respected_iff_overtaken : ∃ events final,
    (platformSystem sampleDeployment fun _ => true).Run
      (atRest (State.initial sampleRun 0 none)) events final ∧
    ∃ past event later, events = past ++ event :: later ∧ EntersFinished past event := by
  obtain ⟨events, final, run, checked⟩ := System.replay_checked overtaken_replays
  simp only [List.any_eq_true, Bool.and_eq_true] at checked
  obtain ⟨event, member, ⟨starts, _⟩, _⟩ := checked
  obtain ⟨past, later, rfl⟩ := List.append_of_mem member
  refine ⟨_, final, run, ?_⟩
  by_contra avoids
  push Not at avoids
  have respected := (finished_respected_iff (by decide) run).mpr avoids
  exact startsFinished_spec starts (respected past event later rfl)

end AgentTaskPlatform.FinishedRuns
