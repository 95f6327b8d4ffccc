import AgentTaskPlatform.ExecutionProtocol

/-!
The protocol of one `run_stage` call: the row is fetched before an execution id
is drawn, the operation runs only under an id that began, and a value is
returned only from a row that had succeeded or from a committed result.
-/

namespace AgentTaskPlatform.StageProtocol

open Interleaving CoroutineRules StageRunner

inductive Step where
  | opening
  | found (stage : AgentStage)
  | issued (executionId : Uuid)
  | begun (executionId : Uuid)
  | operated (executionId : Uuid)
  | committed (output : Json)
  | closed

/-- Why a call believes, since its operation ran, that its run was canceled. -/
inductive Cause where
  | row
  | signal (event : Nat)
  | operation

structure Progress where
  step : Step := .opening
  /-- The row as read since the call was suspended last. -/
  seen : Option AgentRun := none
  cause : Option Cause := none

def Cause.ofAnswer : Except Exc PyValue → Option Cause
  | .ok _ => none
  | .error error => if error.kind = .runCancelledError then some .operation else none

def Progress.called (progress : Progress) (op : External) : Progress :=
  { progress with seen := if op.awaits then none else progress.seen }

def Progress.after (progress : Progress) : (op : Op) → op.Answer → Progress
  | .run .get, run =>
      { progress with
        seen := some run
        cause := if AgentRun.status run = .canceled then some .row else progress.cause }
  | .process (.isSet event), set =>
      { progress with cause := if set = true then some (.signal event) else progress.cause }
  | .external (.operation _ executionId), answer =>
      { step := .operated executionId, cause := Cause.ofAnswer answer }
  | .stage (.getOrCreate _), stage => { progress with step := .found stage }
  | .process .uuid4, executionId => { progress with step := .issued executionId }
  | .stage (.beginAttempt _ _ executionId), active =>
      { progress with step := if Option.isSome active then .begun executionId else .closed }
  | .stage (.markSucceeded _ _ output), committed =>
      { progress with step := if committed = true then .committed output else progress.step }
  | .external op, _ => progress.called op
  | _, _ => progress

theorem Progress.after_external {progress : Progress} {op : External}
    (other : ExecutionProtocol.External.dispatches op = false)
    (answer : (Op.external op).Answer) :
    progress.after (.external op) answer = progress.called op := by
  cases op <;> first | rfl | cases other

def Progress.operated (progress : Progress) : Prop :=
  ∃ executionId, progress.step = .operated executionId

def Progress.suspects (progress : Progress) : Prop :=
  progress.operated ∧ ∃ cause, progress.cause = some cause

def unsettled (stage : AgentStage) : Prop :=
  stage.status ≠ .succeeded ∧ stage.status ≠ .canceled ∧ stage.status ≠ .outcomeUnknown

def Step.returns : Step → Json → Prop
  | .found stage, value => stage.status = .succeeded ∧ value = stage.output
  | .committed output, value => value = output
  | _, _ => False

section

variable (index : Nat) (context : AgentContext) (stageKey : String)

inductive Permitted : Progress → Op → Prop
  | read {progress} : Permitted progress (.run .get)
  | isSet {progress} {event} : context.cancellationSignal = some event →
      Permitted progress (.process (.isSet event))
  | enter {progress} : Permitted progress (.process (.enterStage index stageKey))
  | external {progress} (op) : ExecutionProtocol.External.dispatches op = false →
      Permitted progress (.external op)
  | getOrCreate {progress} (stageIndex definitionVersion maxAttempts idempotencyKey inputHash) :
      progress.step = .opening →
      Permitted progress (.stage (.getOrCreate (newStage context stageKey stageIndex
        definitionVersion maxAttempts idempotencyKey inputHash)))
  | issue {progress} {stage} : progress.step = .found stage → unsettled stage →
      Permitted progress (.process .uuid4)
  | begin {progress} {executionId} : progress.step = .issued executionId →
      Permitted progress (.stage (.beginAttempt stageKey context.run.attempts executionId))
  | currentStep {progress} {run} : progress.seen = some run → run.status ≠ .canceled →
      Permitted progress (.run (.updateIfCurrent .currentStep
        { statuses := [run.status], worker := some context.run.worker }
        { run with currentStep := some ("stage:" ++ stageKey) }))
  | operation {progress} {executionId} : progress.step = .begun executionId →
      Permitted progress (.external (.operation stageKey executionId))
  | succeed {progress} {executionId} (output) : progress.step = .operated executionId →
      Permitted progress (.stage (.markSucceeded stageKey executionId output))
  | persisted {progress} : Permitted progress (.stage (.get stageKey))
  | fail {progress} {executionId} (name message) : progress.step = .operated executionId →
      Permitted progress (.stage (.markFailed stageKey executionId name message))
  | cancel {progress} {executionId cause} : progress.step = .operated executionId →
      progress.cause = some cause →
      Permitted progress (.stage (.markCanceled stageKey executionId))
  | unknown {progress} {executionId} (name message) : progress.step = .operated executionId →
      Permitted progress (.stage (.markOutcomeUnknown stageKey executionId name message))
  | checkpoint {progress} (executionId value) :
      Permitted progress (.stage (.saveCheckpoint stageKey executionId value))

def protocol : Protocol platform Progress where
  permits := Permitted index context stageKey
  after := Progress.after

end

def Attempted (executionId : Uuid) : Except Exc Json → Progress → Prop
  | .ok value, after => after.step = .committed value
  | .error error, after => after.step = .operated executionId ∧
      (error.kind = .runCancelledError → ∃ cause, after.cause = some cause)

section Walk

variable {index : Nat} {context : AgentContext} {stageKey : String} {progress : Progress}

/-- A check that passes leaves the step; one that raises has seen a reason. -/
theorem raiseIfCancelled_follows :
    (protocol index context stageKey).Follows progress (raiseIfCancelled context)
      fun outcome after => after.step = progress.step ∧
        ∀ error, outcome = .error error → error.kind = .runCancelledError ∧
          ∃ cause, after.cause = some cause := by
  unfold raiseIfCancelled
  rw [follows_requireRun]
  refine ⟨.read, fun run => ?_⟩
  have signaled : (protocol index context stageKey).Follows
      (progress.after (.run .get) run) (signalIsSet context) fun outcome after =>
      after.step = progress.step ∧ ∃ set, outcome = .ok set ∧
        ((set || decide (run.status = .canceled)) = true → ∃ cause, after.cause = some cause) := by
    unfold signalIsSet
    cases signal : context.cancellationSignal with
    | none =>
        refine ⟨rfl, false, rfl, ?_⟩
        intro reason
        simp only [Bool.false_or, decide_eq_true_eq] at reason
        exact ⟨.row, by simp [Progress.after, reason]⟩
    | some event =>
        simp only
        rw [follows_perform_last]
        refine ⟨.isSet signal, fun set => ⟨rfl, set, rfl, ?_⟩⟩
        intro reason
        simp only [Bool.or_eq_true, decide_eq_true_eq] at reason
        show ∃ cause, (if set = true then some (Cause.signal event)
          else (progress.after (.run .get) run).cause) = some cause
        rcases reason with isSet | canceled
        · exact ⟨.signal event, by simp [isSet]⟩
        · by_cases isSet : set = true
          · exact ⟨.signal event, by simp [isSet]⟩
          · exact ⟨.row, by simp [isSet, Progress.after, canceled]⟩
  apply Protocol.Follows.next signaled
  · intro set after found
    obtain ⟨step, _, same, reason⟩ := found
    cases same
    split
    · next raised =>
        refine ⟨step, ?_⟩
        intro error same
        cases same
        exact ⟨rfl, reason raised⟩
    · refine ⟨step, ?_⟩
      intro error same
      cases same
  · intro error after found
    obtain ⟨_, _, same, _⟩ := found
    cases same

theorem stageHook_follows (name : String) :
    (protocol index context stageKey).Follows progress (stageHook name) fun _ after =>
      after.step = progress.step := by
  unfold stageHook
  rw [follows_attempt_next, follows_external_last]
  refine ⟨.external _ rfl, fun answer => ?_⟩
  cases answer with
  | ok _ => exact rfl
  | error error =>
      simp only
      split <;> exact rfl

theorem setCurrentStep_follows :
    (protocol index context stageKey).Follows progress (setCurrentStep context stageKey)
      fun _ after => after.step = progress.step := by
  unfold setCurrentStep
  rw [follows_requireRun]
  refine ⟨.read, fun run => ?_⟩
  split
  · exact raiseIfCancelled_follows.mono fun _ _ kept => kept.1
  · next live =>
      rw [follows_updateIfCurrent]
      refine ⟨.currentStep rfl live, fun stored => ?_⟩
      cases stored <;> exact rfl

/-- The `try` block returns the committed result; an error leaves an execution
that has run, and a cancellation has a cause. -/
theorem runOperation_follows {executionId : Uuid} (step : progress.step = .begun executionId) :
    (protocol index context stageKey).Follows progress
      (runOperation context stageKey executionId) (Attempted executionId) := by
  unfold runOperation
  rw [follows_external]
  refine ⟨.operation step, fun answer => ?_⟩
  cases answer with
  | error error =>
      refine ⟨rfl, fun canceled => ⟨.operation, ?_⟩⟩
      show Cause.ofAnswer (.error error) = _
      simp [Cause.ofAnswer, canceled]
  | ok value =>
      cases value with
      | unserializable => exact ⟨rfl, fun canceled => by cases canceled⟩
      | json output =>
          apply Protocol.Follows.next raiseIfCancelled_follows
          · intro _ after checked
            have operated : after.step = .operated executionId := checked.1
            rw [follows_perform]
            refine ⟨.succeed output operated, fun committed => ?_⟩
            cases committed with
            | true => exact rfl
            | false =>
                simp only [Bool.false_eq_true, if_false]
                rw [follows_perform]
                refine ⟨.persisted, fun persisted => ?_⟩
                cases persisted with
                | none => exact ⟨operated, fun canceled => by cases canceled⟩
                | some stage =>
                    simp only
                    split
                    · exact ⟨operated, fun canceled => by cases canceled⟩
                    · exact ⟨operated, fun canceled => by cases canceled⟩
          · intro error after checked
            exact ⟨checked.1, fun _ => (checked.2 error rfl).2⟩

theorem recordError_follows {executionId : Uuid} {error : Exc}
    (attempted : Attempted executionId (.error error) progress) :
    (protocol index context stageKey).Follows progress
      (recordError stageKey executionId error) fun _ _ => True := by
  obtain ⟨step, reason⟩ := attempted
  unfold recordError
  split
  · next canceled =>
      obtain ⟨cause, known⟩ := reason canceled
      rw [follows_perform]
      exact ⟨.cancel step known, fun _ => trivial⟩
  · trivial
  · trivial
  · rw [follows_perform]
    exact ⟨.unknown _ _ step, fun _ => trivial⟩
  · rw [follows_perform]
    exact ⟨.fail _ _ step, fun _ => trivial⟩

def Returned : Except Exc Json → Progress → Prop
  | .ok value, after => after.step.returns value
  | .error _, _ => True

theorem runExecution_follows {executionId : Uuid} (step : progress.step = .begun executionId) :
    (protocol index context stageKey).Follows progress
      (runExecution context stageKey executionId) Returned := by
  unfold runExecution
  apply setCurrentStep_follows.next
  · intro _ after kept
    apply (stageHook_follows _).next
    · intro _ hooked same
      have begun : hooked.step = .begun executionId := by rw [same, kept, step]
      rw [follows_attempt_next]
      apply (runOperation_follows begun).mono
      intro outcome attempted finished
      cases outcome with
      | ok output =>
          apply (stageHook_follows _).next
          · intro _ last same
            have committed : last.step = .committed output := same.trans finished
            show last.step.returns output
            rw [committed]
            exact rfl
          · intro _ _ _
            trivial
      | error error =>
          apply (recordError_follows finished).next
          · intro _ _ _
            apply (stageHook_follows _).next
            · intro _ _ _
              trivial
            · intro _ _ _
              trivial
          · intro _ _ _
            trivial
    · intro _ _ _
      trivial
  · intro _ _ _
    trivial

theorem validateState_follows (stage : AgentStage) (stageIndex : Nat)
    (definitionVersion inputHash : String) :
    (protocol index context stageKey).Follows progress
      (validateState context stage stageIndex definitionVersion inputHash) fun _ after =>
        after = progress := by
  unfold validateState
  split <;> exact rfl

/-- The part of `run_stage` behind the row's checks. -/
theorem settle_follows {stage : AgentStage} (step : progress.step = .found stage) :
    (protocol index context stageKey).Follows progress (settle context stageKey stage)
      Returned := by
  unfold settle
  split
  · next succeeded =>
      show progress.step.returns stage.output
      rw [step]
      exact ⟨succeeded, rfl⟩
  · trivial
  · trivial
  · next pending canceled unknown =>
      rw [follows_uuid4]
      refine ⟨.issue step ⟨pending, canceled, unknown⟩, fun executionId => ?_⟩
      rw [follows_perform]
      refine ⟨.begin rfl, fun active => ?_⟩
      cases active with
      | none => trivial
      | some row => exact runExecution_follows rfl

theorem runStage_follows (digest : Digest) (stageInput : PyValue) (definitionVersion : String)
    (maxAttempts : Option Nat) (idempotencyKey : Option String)
    (step : progress.step = .opening) :
    (protocol index context stageKey).Follows progress
      (runStage digest index context stageKey stageInput definitionVersion maxAttempts
        idempotencyKey) Returned := by
  unfold runStage
  have valid : (protocol index context stageKey).Follows progress (validateKey stageKey)
      fun _ after => after = progress := by
    unfold validateKey
    split <;> exact rfl
  apply valid.next
  · intro _ after same
    rw [same, follows_perform]
    refine ⟨.enter, fun entered => ?_⟩
    cases entered with
    | none => trivial
    | some stageIndex =>
        apply Protocol.Follows.next raiseIfCancelled_follows
        · intro _ checked kept
          rw [follows_ofExcept_next]
          cases jsonValue stageInput "stage input" with
          | error _ => trivial
          | ok input =>
              simp only [Protocol.continued]
              rw [follows_perform]
              refine ⟨.getOrCreate _ _ _ _ _ (kept.1.trans step), fun stage => ?_⟩
              apply Protocol.Follows.next (validateState_follows stage _ _ _)
              · intro _ validated same
                rw [same]
                exact settle_follows rfl
              · intro _ _ _
                trivial
        · intro _ _ _
          trivial
  · intro _ _ _
    trivial

theorem saveCheckpoint_follows (executionId : Uuid) (checkpoint : PyValue) :
    (protocol index context stageKey).Follows progress
      (saveCheckpoint context stageKey executionId checkpoint) fun _ _ => True := by
  unfold saveCheckpoint
  apply raiseIfCancelled_follows.next
  · intro _ after _
    rw [follows_ofExcept_next]
    cases jsonValue checkpoint "stage checkpoint" with
    | error _ => trivial
    | ok value =>
        cases value with
        | object fields =>
            simp only [Protocol.continued]
            rw [follows_perform]
            refine ⟨.checkpoint executionId _, fun saved => ?_⟩
            cases saved <;> trivial
        | _ => trivial
  · intro _ _ _
    trivial

end Walk

end AgentTaskPlatform.StageProtocol
