import AgentTaskPlatform.Domain
import AgentTaskPlatform.Interleaving
import AgentTaskPlatform.KeyedTable

/-!
The shared state around one run and the operations on it. A repository call is
one transaction and so one operation; `renew_lease` selects and updates in two
statements and is two operations. Calls that leave the platform, such as hooks,
agents, tools and HTTP, answer with whatever the environment decides.
-/

namespace AgentTaskPlatform

open Interleaving KeyedTable

abbrev StageTable := Table AgentStage String AgentStage.stageKey

abbrev CallbackTable := Table CallbackDelivery Uuid CallbackDelivery.eventId

structure State where
  clock : Nat
  nextId : Nat
  /-- The row of `ai_agent_run`; rows of that table are never deleted. -/
  run : AgentRun
  stages : StageTable
  callbacks : CallbackTable
  /-- External id of the run's conversation. -/
  conversation : Option String
  /-- `_cancellation_events[run_id]` of each process -/
  signals : Process → Option Nat
  signalSet : Nat → Bool
  /-- Lease length of the queue execution each process started last. -/
  leaseSeconds : Process → Option Nat
  contexts : List AgentContext
  /-- Deliveries claimed by a process and not yet dispatched by it. -/
  claimed : List (Process × CallbackDelivery)

/-- The `WHERE` clause of `update_if_current`; a missing column is not matched. -/
structure Expected where
  statuses : List RunStatus
  worker : Option (Option Process) := none
  leaseExpireTime : Option (Option Nat) := none

namespace Expected

def matchesColumn {Value : Type} [DecidableEq Value] (expected : Option Value)
    (stored : Value) : Bool :=
  match expected with
  | none => true
  | some value => value = stored

def admits (expected : Expected) (run : AgentRun) : Bool :=
  expected.statuses.contains run.status && matchesColumn expected.worker run.worker &&
    matchesColumn expected.leaseExpireTime run.leaseExpireTime

end Expected

inductive Site where
  | attemptStart (attempt : Nat)
  | agentSucceeded
  | attemptFailed (attempt attempts : Nat) (error : Exc)
  | recovered
  | finish
  | release
  | deadLetter
  | backgroundFailure
  | toolCall
  | currentStep
  | skipCallback
  | prepareCallback
  | delivered
  | exhausted
  | cancel
  | recover
  | reclaim
  deriving DecidableEq, Repr

inductive RunOp where
  | get
  | updateIfCurrent (site : Site) (expected : Expected) (row : AgentRun)
  | updateRunWithCallback (site : Site) (expected : Expected) (row : AgentRun)
      (delivery : CallbackDelivery)
  /-- The unit of work of `RunManager.retry`. -/
  | retry (row : AgentRun)
  | renewSelect (worker : Process)
  /-- The flush of a renewal, with the lease that its `SELECT` loaded. -/
  | renewUpdate (loaded : Option Nat) (leaseExpireTime : Nat)

inductive StageOp where
  | getOrCreate (stage : AgentStage)
  | get (stageKey : String)
  | beginAttempt (stageKey : String) (runAttempt : Nat) (executionId : Uuid)
  | saveCheckpoint (stageKey : String) (executionId : Uuid) (checkpoint : Json)
  | markSucceeded (stageKey : String) (executionId : Uuid) (output : Json)
  | markFailed (stageKey : String) (executionId : Uuid) (errorType errorMessage : String)
  | markCanceled (stageKey : String) (executionId : Uuid)
  | markOutcomeUnknown (stageKey : String) (executionId : Uuid)
      (errorType errorMessage : String)
  | beginSideEffectOnce (stageKey : String) (executionId : Uuid)
  | markSideEffectDispatched (idempotencyKey : String) (executionId : Uuid)
  | markSideEffectReturned (idempotencyKey : String) (executionId : Uuid)

inductive CallbackOp where
  | get (eventId : Uuid)
  | save (delivery : CallbackDelivery)

inductive LocalOp where
  | utcNow
  | uuid4
  | conversation
  | registerEvent (process : Process)
  | dropEvent (process : Process) (event : Nat)
  | cancellationSignal (process : Process)
  | isSet (event : Nat)
  | setEvent (process : Process)
  | createContext (context : AgentContext)
  /-- The duplicate check of `run_stage` on `_seen`, answered by the stage index. -/
  | enterStage (context : Nat) (stageKey : String)

/-- Code outside the modelled store: plugins, registries, other services. -/
inductive External where
  | resolveAgent (routeTag : String) (version : Option String)
  | getAgent (name version : String)
  | admission
  | hook (name : String)
  | agentRun (agent : AgentSpec) (context : Nat)
  | validateAgentOutput (agent : AgentSpec) (output : Json)
  | errorHandler (kind : String) (error : Exc) (run : AgentRun)
  | sleep (delay : Nat)
  | isRunning (process : Process)
  | getTool (name : String)
  | validateToolInput (tool : ToolSpec) (input : Json)
  | fallbackIfBreakerOpen (tool : ToolSpec)
  | validateToolOutput (tool : ToolSpec) (output : Json)
  | acquireQps (tool : ToolSpec)
  | inputGuardrails (tool : ToolSpec) (input : Json)
  | acquireSlots (tool : ToolSpec)
  | invoke (tool : ToolSpec) (operationIdentity : Option String) (input : Json)
  | outputGuardrails (tool : ToolSpec) (output : Json)
  /-- The failure handler of a tool, if one is registered. -/
  | failureHandler (tool : ToolSpec) (lastError : Option Exc)
  | operation (stageKey : String) (executionId : Uuid)
  | validateUrl (url : String)
  | post (delivery : CallbackDelivery) (payload : CallbackPayload)

inductive Op where
  | run (op : RunOp)
  | stage (op : StageOp)
  | callback (op : CallbackOp)
  | process (op : LocalOp)
  | external (op : External)

@[reducible] def RunOp.Answer : RunOp → Type
  | .get => AgentRun
  | .updateIfCurrent _ _ _ => Bool
  | .updateRunWithCallback _ _ _ _ => Bool
  | .retry _ => Unit
  | .renewSelect _ => Option (Option Nat)
  | .renewUpdate _ _ => Unit

@[reducible] def StageOp.Answer : StageOp → Type
  | .getOrCreate _ => AgentStage
  | .get _ => Option AgentStage
  | .beginAttempt _ _ _ => Option AgentStage
  | .saveCheckpoint _ _ _ => Bool
  | .markSucceeded _ _ _ => Bool
  | .markFailed _ _ _ _ => Bool
  | .markCanceled _ _ => Bool
  | .markOutcomeUnknown _ _ _ _ => Bool
  | .beginSideEffectOnce _ _ => Option AgentStage
  | .markSideEffectDispatched _ _ => Bool
  | .markSideEffectReturned _ _ => Bool

@[reducible] def CallbackOp.Answer : CallbackOp → Type
  | .get _ => Option CallbackDelivery
  | .save _ => Unit

@[reducible] def LocalOp.Answer : LocalOp → Type
  | .utcNow => Nat
  | .uuid4 => Uuid
  | .conversation => Option String
  | .registerEvent _ => Nat
  | .dropEvent _ _ => Unit
  | .cancellationSignal _ => Option Nat
  | .isSet _ => Bool
  | .setEvent _ => Unit
  | .createContext _ => Nat
  | .enterStage _ _ => Option Nat

/-- An external call returns a value or raises. -/
@[reducible] def External.Result : External → Type
  | .resolveAgent _ _ => AgentSpec
  | .getAgent _ _ => AgentSpec
  | .admission => Unit
  | .hook _ => Unit
  | .agentRun _ _ => Json
  | .validateAgentOutput _ _ => Unit
  | .errorHandler _ _ _ => Option RunErrorResult
  | .sleep _ => Unit
  | .isRunning _ => Bool
  | .getTool _ => ToolSpec
  | .validateToolInput _ _ => Unit
  | .fallbackIfBreakerOpen _ => Option (List (String × Json))
  | .validateToolOutput _ _ => Unit
  | .acquireQps _ => Unit
  | .inputGuardrails _ _ => Option (Option String)
  | .acquireSlots _ => Unit
  | .invoke _ _ _ => List (String × Json)
  | .outputGuardrails _ _ => Option (Option String)
  | .failureHandler _ _ => Option String
  | .operation _ _ => PyValue
  | .validateUrl _ => Unit
  | .post _ _ => Unit

@[reducible] def Op.Answer : Op → Type
  | .run op => op.Answer
  | .stage op => op.Answer
  | .callback op => op.Answer
  | .process op => op.Answer
  | .external op => Except Exc op.Result

def External.awaits : External → Bool
  | .admission => true
  | .hook _ => true
  | .agentRun _ _ => true
  | .errorHandler _ _ _ => true
  | .sleep _ => true
  | .acquireQps _ => true
  | .inputGuardrails _ _ => true
  | .acquireSlots _ => true
  | .invoke _ _ _ => true
  | .outputGuardrails _ _ => true
  | .failureHandler _ _ => true
  | .operation _ _ => true
  | .post _ _ => true
  | _ => false

def Op.awaits : Op → Bool
  | .external op => op.awaits
  | _ => false

abbrev platform : Interface where
  Op := Op
  Answer := Op.Answer

namespace State

def updateIfCurrent (state : State) (expected : Expected) (row : AgentRun) : Bool × State :=
  if expected.admits state.run then (true, { state with run := row }) else (false, state)

end State

def leasedBy (run : AgentRun) (worker : Process) : Bool :=
  run.worker = some worker && run.status.executing

section Stages

variable (now : Nat)

/-- The columns an update of a stage row may set; the key columns are not among them. -/
structure StageValues where
  status : StageStatus
  runAttempt : Nat
  attempts : Nat
  executionId : Option Uuid
  output : Json
  checkpoint : Option Json
  errorType : Option String
  errorMessage : Option String
  startTime : Option Nat
  finishTime : Option Nat

def AgentStage.values (stage : AgentStage) : StageValues where
  status := stage.status
  runAttempt := stage.runAttempt
  attempts := stage.attempts
  executionId := stage.executionId
  output := stage.output
  checkpoint := stage.checkpoint
  errorType := stage.errorType
  errorMessage := stage.errorMessage
  startTime := stage.startTime
  finishTime := stage.finishTime

def AgentStage.withValues (stage : AgentStage) (values : StageValues) : AgentStage :=
  { stage with
    status := values.status
    runAttempt := values.runAttempt
    attempts := values.attempts
    executionId := values.executionId
    output := values.output
    checkpoint := values.checkpoint
    errorType := values.errorType
    errorMessage := values.errorMessage
    startTime := values.startTime
    finishTime := values.finishTime }

def setValues (set : StageValues → StageValues) : Table.Change AgentStage.stageKey where
  apply stage := stage.withValues (set stage.values)
  keeps _ := rfl

def beginAttemptWhere (stageKey : String) (stage : AgentStage) : Bool :=
  stage.stageKey = stageKey &&
    (stage.status = .pending || stage.status = .running || stage.status = .failed) &&
    (stage.status = .running || stage.attempts < stage.maxAttempts)

def beginAttemptSet (runAttempt : Nat) (executionId : Uuid) (stage : StageValues) :
    StageValues :=
  { stage with
    status := .running
    runAttempt := runAttempt
    attempts := if stage.status = .running then stage.attempts else stage.attempts + 1
    executionId := some executionId
    errorType := none
    errorMessage := none
    startTime := stage.startTime.or (some now)
    finishTime := none }

def activeWhere (stageKey : String) (executionId : Uuid) (activeStatuses : List StageStatus)
    (returned : Bool) (stage : AgentStage) : Bool :=
  stage.stageKey = stageKey && activeStatuses.contains stage.status &&
    (!returned || stage.status != .outcomeUnknown ||
      stage.errorType = some "SIDE_EFFECT_RETURNED") &&
    stage.executionId = some executionId

def beginSideEffectWhere (stageKey : String) (stage : AgentStage) : Bool :=
  stage.stageKey = stageKey && stage.status = .pending && stage.attempts = 0

def dispatchedWhere (idempotencyKey : String) (executionId : Uuid) (stage : AgentStage) : Bool :=
  stage.idempotencyKey = idempotencyKey && stage.status = .running &&
    stage.executionId = some executionId

def returnedWhere (idempotencyKey : String) (executionId : Uuid) (stage : AgentStage) : Bool :=
  stage.idempotencyKey = idempotencyKey && stage.status = .outcomeUnknown &&
    stage.executionId = some executionId

def resetFailedSet (stage : StageValues) : StageValues :=
  { stage with
    status := .pending
    attempts := 0
    executionId := none
    errorType := none
    errorMessage := none
    finishTime := none }

def resetFailedForRun (stages : StageTable) : StageTable :=
  stages.updateWhere (fun stage => stage.status = .failed) (setValues resetFailedSet)

end Stages

namespace State

def updateStages (state : State) (condition : AgentStage → Bool)
    (set : StageValues → StageValues) : Bool × State :=
  (state.stages.countWhere condition == 1,
    { state with stages := state.stages.updateWhere condition (setValues set) })

def updateStageReturning (state : State) (stageKey : String) (condition : AgentStage → Bool)
    (set : StageValues → StageValues) : Option AgentStage × State :=
  let stages := state.stages.updateWhere condition (setValues set)
  (((state.stages.find stageKey).filter condition).bind fun _ => stages.find stageKey,
    { state with stages := stages })

end State

def RunOp.perform : (op : RunOp) → State → op.Answer × State
  | .get, state => (state.run, state)
  | .updateIfCurrent _ expected row, state => state.updateIfCurrent expected row
  | .updateRunWithCallback _ expected row delivery, state =>
      if expected.admits state.run then
        (true, { state with run := row, callbacks := state.callbacks.upsert delivery })
      else (false, state)
  | .retry row, state =>
      ((), { state with run := row, stages := resetFailedForRun state.stages })
  | .renewSelect worker, state =>
      (if leasedBy state.run worker then some state.run.leaseExpireTime else none, state)
  | .renewUpdate loaded leaseExpireTime, state =>
      -- The `UPDATE` leaves out a column that was set to the value it was loaded with.
      ((), { state with run := { state.run with
        leaseExpireTime :=
          if loaded = some leaseExpireTime then state.run.leaseExpireTime
          else some leaseExpireTime } })

def StageOp.perform : (op : StageOp) → State → op.Answer × State
  | .getOrCreate stage, state =>
      let stages := state.stages.insertNew stage
      ((stages.find stage.stageKey).getD stage, { state with stages := stages })
  | .get stageKey, state => (state.stages.find stageKey, state)
  | .beginAttempt stageKey runAttempt executionId, state =>
      state.updateStageReturning stageKey (beginAttemptWhere stageKey)
        (beginAttemptSet state.clock runAttempt executionId)
  | .saveCheckpoint stageKey executionId checkpoint, state =>
      state.updateStages (activeWhere stageKey executionId [.running] false)
        fun stage => { stage with checkpoint := some checkpoint }
  | .markSucceeded stageKey executionId output, state =>
      state.updateStages (activeWhere stageKey executionId [.running, .outcomeUnknown] true)
        fun stage => { stage with
          status := .succeeded
          output := output
          checkpoint := none
          errorType := none
          errorMessage := none
          finishTime := some state.clock }
  | .markFailed stageKey executionId errorType errorMessage, state =>
      state.updateStages (activeWhere stageKey executionId [.running] false)
        fun stage => { stage with
          status := .failed
          errorType := some errorType
          errorMessage := some errorMessage
          finishTime := some state.clock }
  | .markCanceled stageKey executionId, state =>
      state.updateStages (activeWhere stageKey executionId [.running] false)
        fun stage => { stage with
          status := .canceled
          finishTime := some state.clock }
  | .markOutcomeUnknown stageKey executionId errorType errorMessage, state =>
      state.updateStages (activeWhere stageKey executionId [.running] false)
        fun stage => { stage with
          status := .outcomeUnknown
          errorType := some errorType
          errorMessage := some errorMessage
          finishTime := some state.clock }
  | .beginSideEffectOnce stageKey executionId, state =>
      state.updateStageReturning stageKey (beginSideEffectWhere stageKey)
        fun stage => { stage with
          status := .running
          attempts := 1
          executionId := some executionId
          startTime := some state.clock }
  | .markSideEffectDispatched idempotencyKey executionId, state =>
      state.updateStages (dispatchedWhere idempotencyKey executionId)
        fun stage => { stage with
          status := .outcomeUnknown
          errorType := some "SIDE_EFFECT_OUTCOME_UNKNOWN"
          errorMessage := some "External side effect dispatched; completion not yet committed" }
  | .markSideEffectReturned idempotencyKey executionId, state =>
      state.updateStages (returnedWhere idempotencyKey executionId)
        fun stage => { stage with
          errorType := some "SIDE_EFFECT_RETURNED"
          errorMessage := none }

def deliverable (now maxAttempts : Nat) (delivery : CallbackDelivery) : Bool :=
  (delivery.status = .pending || (delivery.status = .failed && delivery.attempts < maxAttempts)) &&
    delivery.runAfter ≤ now &&
    (delivery.worker = none || delivery.leaseExpireTime.all (· ≤ now))

def CallbackOp.perform : (op : CallbackOp) → State → op.Answer × State
  | .get eventId, state => (state.callbacks.find eventId, state)
  | .save delivery, state => ((), { state with callbacks := state.callbacks.upsert delivery })

def State.claimPending (state : State) (process : Process) (worker : String)
    (leaseSeconds maxAttempts : Nat) : State :=
  let claim : Table.Change CallbackDelivery.eventId :=
    { apply := fun delivery => { delivery with
        worker := some worker
        leaseExpireTime := some (state.clock + leaseSeconds) }
      keeps := fun _ => rfl }
  let due := deliverable state.clock maxAttempts
  { state with
    callbacks := state.callbacks.updateWhere due claim
    claimed := state.claimed ++
      (state.callbacks.rows.filter due).map fun delivery => (process, claim.apply delivery) }

/-- `prune` deletes the deliveries that were updated last before its cutoff; which
ones these are is left to the environment. -/
def State.prune (state : State) (eventIds : List Uuid) : State :=
  { state with
    callbacks := state.callbacks.deleteWhere fun delivery => eventIds.contains delivery.eventId }

def setAt {Key Value : Type} [DecidableEq Key] (values : Key → Value) (key : Key)
    (value : Value) : Key → Value :=
  fun other => if other = key then value else values other

def LocalOp.perform : (op : LocalOp) → State → op.Answer × State
  | .utcNow, state => (state.clock, state)
  | .uuid4, state => (⟨state.nextId⟩, { state with nextId := state.nextId + 1 })
  | .conversation, state => (state.conversation, state)
  | .registerEvent process, state =>
      (state.nextId, { state with
        nextId := state.nextId + 1
        signals := setAt state.signals process (some state.nextId) })
  | .dropEvent process event, state =>
      ((), if state.signals process = some event then
        { state with signals := setAt state.signals process none } else state)
  | .cancellationSignal process, state => (state.signals process, state)
  | .isSet event, state => (state.signalSet event, state)
  | .setEvent process, state =>
      ((), match state.signals process with
        | none => state
        | some event => { state with signalSet := setAt state.signalSet event true })
  | .createContext context, state =>
      (state.contexts.length, { state with contexts := state.contexts ++ [context] })
  | .enterStage index stageKey, state =>
      match state.contexts[index]? with
      | none => (none, state)
      | some context =>
          if context.seen.contains stageKey then (none, state)
          else (some context.seen.length, { state with
            contexts := state.contexts.set index
              { context with seen := context.seen ++ [stageKey] } })

def Op.perform : (op : Op) → op.Answer → State → op.Answer × State
  | .run op, _, state => op.perform state
  | .stage op, _, state => op.perform state
  | .callback op, _, state => op.perform state
  | .process op, _, state => op.perform state
  | .external _, answer, state => (answer, state)

section Frames

variable (state : State)

/-- What each group of operations may change. -/
theorem RunOp.perform_frame (op : RunOp) : ∃ run stages callbacks, (op.perform state).2 =
    { state with run := run, stages := stages, callbacks := callbacks } := by
  cases op with
  | updateIfCurrent site expected row =>
      simp only [RunOp.perform, State.updateIfCurrent]
      by_cases hit : expected.admits state.run = true <;> simp only [hit, if_true] <;>
        exact ⟨_, _, _, rfl⟩
  | updateRunWithCallback site expected row delivery =>
      simp only [RunOp.perform]
      by_cases hit : expected.admits state.run = true <;> simp only [hit, if_true] <;>
        exact ⟨_, _, _, rfl⟩
  | _ => exact ⟨_, _, _, rfl⟩

theorem StageOp.perform_frame (op : StageOp) : ∃ stages, (op.perform state).2 =
    { state with stages := stages } := by
  cases op <;> exact ⟨_, rfl⟩

theorem CallbackOp.perform_frame (op : CallbackOp) : ∃ callbacks, (op.perform state).2 =
    { state with callbacks := callbacks } := by
  cases op <;> exact ⟨_, rfl⟩

theorem LocalOp.perform_frame (op : LocalOp) : ∃ nextId signals signalSet contexts,
    (op.perform state).2 =
      { state with
        nextId := nextId
        signals := signals
        signalSet := signalSet
        contexts := contexts } := by
  cases op with
  | dropEvent process event =>
      simp only [LocalOp.perform]
      by_cases current : state.signals process = some event <;>
        simp only [current, if_true, if_false] <;> exact ⟨_, _, _, _, rfl⟩
  | setEvent process =>
      simp only [LocalOp.perform]
      cases state.signals process <;> exact ⟨_, _, _, _, rfl⟩
  | enterStage index stageKey =>
      simp only [LocalOp.perform]
      cases found : state.contexts[index]? with
      | none => exact ⟨_, _, _, _, rfl⟩
      | some context =>
          by_cases known : context.seen.contains stageKey = true <;>
            simp only [known, if_true] <;> exact ⟨_, _, _, _, rfl⟩
  | _ => exact ⟨_, _, _, _, rfl⟩

@[simp] theorem StageOp.perform_run (op : StageOp) : (op.perform state).2.run = state.run := by
  obtain ⟨_, same⟩ := op.perform_frame state
  rw [same]

@[simp] theorem CallbackOp.perform_run (op : CallbackOp) :
    (op.perform state).2.run = state.run := by
  obtain ⟨_, same⟩ := op.perform_frame state
  rw [same]

@[simp] theorem LocalOp.perform_run (op : LocalOp) : (op.perform state).2.run = state.run := by
  obtain ⟨_, _, _, _, same⟩ := op.perform_frame state
  rw [same]

end Frames

abbrev Coroutine (α : Type) : Type := Fallible platform Exc α

namespace Coroutine

def perform (op : Op) : Coroutine op.Answer := (Fallible.call op : Fallible platform Exc _)

def external (op : External) : Coroutine op.Result :=
  perform (.external op) >>= Fallible.ofExcept

def raise {α : Type} (error : Exc) : Coroutine α := Fallible.raise error

def requireRun : Coroutine AgentRun := perform (.run .get)

def updateIfCurrent (site : Site) (expected : Expected) (run : AgentRun) : Coroutine Bool :=
  perform (.run (.updateIfCurrent site expected run))

def utcNow : Coroutine Nat := perform (.process .utcNow)

def uuid4 : Coroutine Uuid := perform (.process .uuid4)

end Coroutine

end AgentTaskPlatform
