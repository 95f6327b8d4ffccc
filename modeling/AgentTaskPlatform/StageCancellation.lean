import AgentTaskPlatform.Cancellation
import AgentTaskPlatform.StageRows

/-!
CANCELED stages. A stage becomes CANCELED when its execution takes the run for
canceled: it has read the row, found its cancellation event set, or its
operation has raised `RunCancelledError`. Only the first of the three implies
that the row is CANCELED.
-/

namespace AgentTaskPlatform.StageCancellation

open Interleaving Cancellation StageProtocol

def Operated (past : List PlatformEvent) (thread : Nat) : Prop :=
  ∃ tag stageKey executionId answer before after,
    .acted thread tag (.external (.operation stageKey executionId)) answer before after ∈ past

/-- A stage execution takes its run for canceled although the row is not: its
operation raises `RunCancelledError`, or a later check finds the event set. -/
def Interrupts (past : List PlatformEvent) : PlatformEvent → Prop
  | .acted _ _ (.external (.operation _ _)) (.error error) before _ =>
      error.kind = .runCancelledError ∧ before.run.status ≠ .canceled
  | .acted thread _ (.process (.isSet event)) _ before _ =>
      Operated past thread ∧ before.signalSet event = true ∧ before.run.status ≠ .canceled
  | _ => False

structure Inv (past : List PlatformEvent) (state : State) (phases : List Phase) : Prop where
  stages : ∀ stageKey stage, state.stages.find stageKey = some stage →
    stage.status = .canceled → state.run.status = .canceled
  suspects : ∀ (thread : Nat) phase progress, phases[thread]? = some phase →
    phase.stageProgress = some progress → progress.suspects → state.run.status = .canceled
  operated : ∀ (thread : Nat) phase progress, phases[thread]? = some phase →
    phase.stageProgress = some progress → progress.operated → Operated past thread

def Harmless (past : List PlatformEvent) (event : PlatformEvent) : Prop :=
  ¬ Revives event ∧ ¬ Interrupts past event

theorem operated_mono {past : List PlatformEvent} {event : PlatformEvent} {thread : Nat}
    (operated : Operated past thread) : Operated (past ++ [event]) thread := by
  obtain ⟨tag, stageKey, executionId, answer, before, after, member⟩ := operated
  exact ⟨tag, stageKey, executionId, answer, before, after, List.mem_append_left _ member⟩

section Steps

variable {deployment : Deployment} {admitted : Entry → Bool} {past : List PlatformEvent}
  {state : State} {phases : List Phase} {thread : Nat} {tag : Tag} {op : Op}
  {oracle : op.Answer} {phase : Phase}

theorem operated_step {index : Nat} {context : AgentContext} {stageKey : String}
    {progress : Progress} (permitted : Permitted index context stageKey progress op)
    (before : progress.operated → Operated past thread)
    (after : (progress.after op (Op.perform op oracle state).1).operated) :
    Operated (past ++ [(platformSystem deployment admitted).performed thread tag op oracle state])
      thread := by
  cases permitted with
  | @operation executionId begun =>
      refine ⟨tag, stageKey, executionId, oracle, state, state, ?_⟩
      exact List.mem_append_right _ (List.mem_singleton_self _)
  | @getOrCreate =>
      obtain ⟨_, step⟩ := after
      cases step
  | @issue =>
      obtain ⟨_, step⟩ := after
      cases step
  | @begin executionId issued =>
      obtain ⟨_, step⟩ := after
      simp only [Progress.after] at step
      split at step <;> cases step
  | @succeed executionId output operated =>
      exact operated_mono (before ⟨executionId, operated⟩)
  | external op other =>
      rw [Progress.after_external other] at after
      exact operated_mono (before after)
  | _ => exact operated_mono (before after)

theorem suspects_step {index : Nat} {context : AgentContext} {stageKey : String}
    {progress : Progress} (permitted : Permitted index context stageKey progress op)
    (ran : progress.operated → Operated past thread)
    (before : progress.suspects → state.run.status = .canceled)
    (harmless : ¬ Interrupts past
      ((platformSystem deployment admitted).performed thread tag op oracle state))
    (after : (progress.after op (Op.perform op oracle state).1).suspects) :
    state.run.status = .canceled := by
  cases permitted with
  | external op other =>
      rw [Progress.after_external other] at after
      exact before after
  | @succeed executionId output own => exact before ⟨⟨executionId, own⟩, after.2⟩
  | read =>
      obtain ⟨operated, cause⟩ := after
      by_cases canceled : state.run.status = .canceled
      · exact canceled
      · apply before ⟨operated, ?_⟩
        simpa [Progress.after, Op.perform, RunOp.perform, canceled] using cause
  | @isSet event signal =>
      obtain ⟨operated, cause⟩ := after
      by_cases set : state.signalSet event = true
      · by_contra live
        exact harmless ⟨ran operated, set, live⟩
      · apply before ⟨operated, ?_⟩
        simpa [Progress.after, Op.perform, LocalOp.perform, set] using cause
  | @operation executionId begun =>
      obtain ⟨_, reason, caused⟩ := after
      have answered : Cause.ofAnswer oracle = some reason := caused
      cases oracle with
      | ok value => cases answered
      | error error =>
          by_cases raised : error.kind = .runCancelledError
          · by_contra live
            exact harmless ⟨raised, live⟩
          · simp [Cause.ofAnswer, raised] at answered
  | @getOrCreate =>
      obtain ⟨⟨_, step⟩, _⟩ := after
      cases step
  | @issue =>
      obtain ⟨⟨_, step⟩, _⟩ := after
      cases step
  | @begin executionId issued =>
      obtain ⟨⟨_, step⟩, _⟩ := after
      simp only [Progress.after] at step
      split at step <;> cases step
  | _ => exact before after

theorem cancels_suspect {digest : Digest} {stageOp : StageOp}
    (permitted : phase.permits digest (.stage stageOp))
    (cancels : stageOp.status = some .canceled) :
    ∃ progress, phase.stageProgress = some progress ∧ progress.suspects := by
  cases phase with
  | execution process worker progress => cases permitted
  | tool context progress => cases permitted <;> cases cancels
  | stage index context stageKey progress =>
      cases permitted with
      | cancel operated cause => exact ⟨progress, rfl, ⟨_, operated⟩, _, cause⟩
      | _ => cases cancels
  | checkpoint index context stageKey progress =>
      cases permitted with
      | cancel operated cause => exact ⟨progress, rfl, ⟨_, operated⟩, _, cause⟩
      | _ => cases cancels
  | manager process job progress => cases permitted

theorem stages_step (inv : Inv past state phases) (present : phases[thread]? = some phase)
    (permitted : phase.permits deployment.digest op)
    (kept : state.run.status = .canceled →
      (Op.perform op oracle state).2.run.status = .canceled)
    {stageKey : String} {stage : AgentStage}
    (found : (Op.perform op oracle state).2.stages.find stageKey = some stage)
    (canceled : stage.status = .canceled) :
    (Op.perform op oracle state).2.run.status = .canceled := by
  apply kept
  rcases perform_status found with
    ⟨old, before, same⟩ | ⟨stageOp, old, rfl, before, hit, wrote⟩ | rfl | pending
  · exact inv.stages stageKey old before (same.trans canceled)
  · rw [canceled] at wrote
    obtain ⟨progress, own, suspects⟩ := cancels_suspect permitted wrote
    exact inv.suspects thread phase progress present own suspects
  · rw [(Phase.inserted_new permitted).1] at canceled
    cases canceled
  · rw [pending] at canceled
    cases canceled

theorem inv_step (inv : Inv past state phases) (present : phases[thread]? = some phase)
    (permitted : phase.permits deployment.digest op)
    (harmless : Harmless past
      ((platformSystem deployment admitted).performed thread tag op oracle state)) :
    Inv (past ++ [(platformSystem deployment admitted).performed thread tag op oracle state])
      (Op.perform op oracle state).2
      ((discipline deployment admitted).observe phases
        ((platformSystem deployment admitted).performed thread tag op oracle state)) := by
  have kept : state.run.status = .canceled →
      (Op.perform op oracle state).2.run.status = .canceled :=
    fun canceled => (performed_canceled_iff permitted canceled).mpr harmless.1
  refine ⟨fun stageKey stage found canceled =>
    stages_step inv present permitted kept found canceled, ?_, ?_⟩
  · intro index later progress found own suspects
    apply kept
    rcases Discipline.performed_phase present found with ⟨rfl, rfl⟩ | ⟨_, old⟩
    · obtain ⟨before, started, moved⟩ :=
        Option.map_eq_some_iff.mp ((Phase.stageProgress_after op _).symm.trans own)
      subst moved
      obtain ⟨_, _, _, allowed⟩ := Phase.stageProgress_permits started permitted
      exact suspects_step allowed
        (inv.operated index phase before present started)
        (inv.suspects index phase before present started) harmless.2 suspects
    · exact inv.suspects index later progress old own suspects
  · intro index later progress found own operated
    rcases Discipline.performed_phase present found with ⟨rfl, rfl⟩ | ⟨_, old⟩
    · obtain ⟨before, started, moved⟩ :=
        Option.map_eq_some_iff.mp ((Phase.stageProgress_after op _).symm.trans own)
      subst moved
      obtain ⟨_, _, _, allowed⟩ := Phase.stageProgress_permits started permitted
      exact operated_step allowed (inv.operated index phase before present started) operated
    · exact operated_mono (inv.operated index later progress old own operated)

/-- A new thread has run nothing, and no entry touches a stage row. -/
theorem inv_launch {config : PlatformConfig} {entry : Entry} {after : State}
    {spawned : Option Activity} (inv : Inv past config.state phases)
    (launched : (platformSystem deployment admitted).launch entry config = some (after, spawned)) :
    Inv (past ++ [.launched entry (System.spawnedThread config spawned) config.state after]) after
      ((discipline deployment admitted).observe phases
        (.launched entry (System.spawnedThread config spawned) config.state after)) := by
  have kept := launched_canceled launched
  have opening : ∀ phase progress, entry.phase config.state = some phase →
      phase.stageProgress = some progress → ¬ progress.operated := by
    intro phase progress start own operated
    rw [Phase.opening_stageProgress (Entry.phase_opening start) own] at operated
    obtain ⟨_, step⟩ := operated
    cases step
  refine ⟨?_, ?_, ?_⟩
  · intro stageKey stage found canceled
    rw [launch_stages launched] at found
    exact kept (inv.stages stageKey stage found canceled)
  · intro index phase progress found own suspects
    rcases launch_phase launched found with old | ⟨_, start⟩
    · exact kept (inv.suspects index phase progress old own suspects)
    · exact absurd suspects.1 (opening phase progress start own)
  · intro index phase progress found own operated
    rcases launch_phase launched found with old | ⟨_, start⟩
    · exact operated_mono (inv.operated index phase progress old own operated)
    · exact absurd operated (opening phase progress start own)

end Steps

/-- A stage is CANCELED only if its run is, in every state of a run without
steps that revive the run or interrupt a stage. -/
theorem canceled_stage_of_canceled_run {deployment : Deployment} {run : AgentRun} {clock : Nat}
    {conversation : Option String} {events : List PlatformEvent} {final : PlatformConfig}
    (execution : (platformSystem deployment fun _ => true).Run
      (atRest (State.initial run clock conversation)) events final)
    (harmless : ∀ past event later, events = past ++ event :: later →
      ¬ Revives event ∧ ¬ Interrupts past event)
    {stageKey : String} {stage : AgentStage}
    (found : final.state.stages.find stageKey = some stage)
    (canceled : stage.status = .canceled) : final.state.run.status = .canceled := by
  have step : (discipline deployment fun _ => true).Inductive Harmless Inv :=
    { acts := fun _ _ _ _ _ _ _ _ inv present _ permitted harmless =>
        inv_step inv present permitted harmless
      launches := fun _ _ _ _ _ _ _ inv launched _ => inv_launch inv launched }
  have start : Inv [] (State.initial run clock conversation) [] := by
    refine ⟨?_, ?_, ?_⟩
    · intro stageKey stage found
      cases found
    · intro thread phase progress present
      cases present
    · intro thread phase progress present
      cases present
  exact (step.run execution rfl harmless start).stages stageKey stage found canceled

def duringOperation (middle : List (Move platform Entry)) : List (Move platform Entry) :=
  [.launch (.runBackground "api")] ++ steps 13 0 calm ++
    [.launch (.runStage 0 "collect" (.json .null) "1" none none)] ++ steps 9 1 calm ++
    middle ++ steps 4 1 calm

def harmless : PlatformEvent → Bool
  | .acted _ _ (.run (.updateIfCurrent .toolCall _ _)) _ _ _ => false
  | .acted _ _ (.run (.retry _)) _ _ _ => false
  | .acted _ _ (.external (.operation _ _)) (.error _) _ _ => false
  | .acted _ _ (.process (.isSet event)) _ before _ =>
      !before.signalSet event || before.run.status = .canceled
  | _ => true

theorem harmless_spec {past : List PlatformEvent} {event : PlatformEvent}
    (checked : harmless event = true) : Harmless past event := by
  constructor
  · intro revives
    unfold Revives at revives
    split at revives <;> simp [harmless] at checked
    exact revives
  · intro interrupts
    unfold Interrupts at interrupts
    split at interrupts
    · simp [harmless] at checked
    · simp [harmless, interrupts.2.1, interrupts.2.2] at checked
    · exact interrupts

/-- A shutdown during the operation of a stage cancels the stage of a run that
is still RUNNING. -/
theorem shutdown_cancels_stage : ∃ events final stage,
    (platformSystem sampleDeployment fun _ => true).Run
      (atRest (State.initial sampleRun 0 none)) events final ∧
    final.state.stages.find "collect" = some stage ∧ stage.status = .canceled ∧
    final.state.run.status = .running := by
  have passed : ((platformSystem sampleDeployment fun _ => true).replay
      (atRest (State.initial sampleRun 0 none))
      (duringOperation [.launch (.shutdown "api")])).any (fun outcome =>
        (outcome.2.state.stages.find "collect").any (fun stage => stage.status = .canceled) &&
        outcome.2.state.run.status = .running) = true := rfl
  obtain ⟨events, final, run, checked⟩ := System.replay_checked passed
  simp only [Bool.and_eq_true, Option.any_eq_true, decide_eq_true_eq] at checked
  obtain ⟨⟨stage, found, canceled⟩, running⟩ := checked
  exact ⟨events, final, stage, run, found, canceled, running⟩

theorem canceled_stage_of_canceled_run_during_operation : ∃ events final stage,
    (platformSystem sampleDeployment fun _ => true).Run
      (atRest (State.initial sampleRun 0 none)) events final ∧
    final.state.stages.find "collect" = some stage ∧ stage.status = .canceled ∧
    final.state.run.status = .canceled := by
  have passed : ((platformSystem sampleDeployment fun _ => true).replay
      (atRest (State.initial sampleRun 0 none))
      (duringOperation ([.launch (.cancel "api")] ++ steps 4 2 calm))).any (fun outcome =>
        outcome.1.all harmless &&
        (outcome.2.state.stages.find "collect").any (fun stage => stage.status = .canceled)) =
        true := rfl
  obtain ⟨events, final, run, checked⟩ := System.replay_checked passed
  simp only [Bool.and_eq_true, List.all_eq_true, Option.any_eq_true,
    decide_eq_true_eq] at checked
  obtain ⟨quiet, stage, found, canceled⟩ := checked
  refine ⟨events, final, stage, run, found, canceled, ?_⟩
  refine canceled_stage_of_canceled_run run ?_ found canceled
  intro past event later split
  apply harmless_spec
  apply quiet
  rw [split]
  exact List.mem_append_right _ List.mem_cons_self

end AgentTaskPlatform.StageCancellation
