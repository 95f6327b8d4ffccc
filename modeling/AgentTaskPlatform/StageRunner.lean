import AgentTaskPlatform.Store

/-!
`StageRunner`: one durable stage of an attempt. A stage whose row has succeeded
is replayed from the row; otherwise the operation runs under a fresh execution
id and only the execution the row still names may store its result.
-/

namespace AgentTaskPlatform.StageRunner

open Interleaving Coroutine

def keyStart (c : Char) : Bool := c.isAlphanum

def keyRest (c : Char) : Bool := c.isAlphanum || "_.:-".toList.contains c

def validKey (stageKey : String) : Bool :=
  match stageKey.toList with
  | [] => false
  | first :: rest => keyStart first && rest.all keyRest && rest.length ≤ 127

def validateKey (stageKey : String) : Coroutine Unit :=
  if validKey stageKey then return ()
  else raise ⟨.exception, "ValueError",
    "stage_key must be 1-128 characters using letters, numbers, '.', '_', ':', or '-'"⟩

def newStage (context : AgentContext) (stageKey : String) (stageIndex : Nat)
    (definitionVersion : String) (maxAttempts : Option Nat) (idempotencyKey : Option String)
    (inputHash : String) : AgentStage where
  agentName := context.agent.name
  agentVersion := context.agent.version
  stageKey := stageKey
  stageIndex := stageIndex
  definitionVersion := definitionVersion
  maxAttempts := max 1 (match maxAttempts with
    | none => context.agent.retryPolicy.maxAttempts
    | some limit => if limit = 0 then context.agent.retryPolicy.maxAttempts else limit)
  idempotencyKey := match idempotencyKey with
    | none => context.run.runId ++ ":" ++ stageKey
    | some key => if key = "" then context.run.runId ++ ":" ++ stageKey else key
  inputHash := inputHash

/-- `_validate_state` as its first failing check. -/
def stateError (context : AgentContext) (stage : AgentStage) (stageIndex : Nat)
    (definitionVersion inputHash : String) : Option Exc :=
  if stage.schemaVersion ≠ "1" then
    some (.stageState ("unsupported schema version '" ++ stage.schemaVersion ++ "'"))
  else if stage.agentName ≠ context.agent.name ∨ stage.agentVersion ≠ context.agent.version then
    some (.stageState "agent identity changed")
  else if stage.stageIndex ≠ stageIndex then
    some (.stageState ("'" ++ stage.stageKey ++ "' moved from index " ++
      toString stage.stageIndex ++ " to " ++ toString stageIndex))
  else if stage.definitionVersion ≠ definitionVersion then
    some (.stageState ("'" ++ stage.stageKey ++ "' definition changed"))
  else if stage.inputHash ≠ inputHash then
    some (.stageState ("'" ++ stage.stageKey ++ "' input changed"))
  else none

def validateState (context : AgentContext) (stage : AgentStage) (stageIndex : Nat)
    (definitionVersion inputHash : String) : Coroutine Unit :=
  match stateError context stage stageIndex definitionVersion inputHash with
  | none => return ()
  | some error => raise error

def signalIsSet (context : AgentContext) : Coroutine Bool :=
  match context.cancellationSignal with
  | none => return false
  | some event => perform (.process (.isSet event))

def raiseIfCancelled (context : AgentContext) : Coroutine Unit := do
  let run ← requireRun
  let signal ← signalIsSet context
  if signal || run.status = .canceled then
    raise (.runCancelled ("Run '" ++ context.run.runId ++ "' was canceled"))
  else return ()

def setCurrentStep (context : AgentContext) (stageKey : String) : Coroutine Unit := do
  let run ← requireRun
  if run.status = .canceled then raiseIfCancelled context
  else do
    let stored ← updateIfCurrent .currentStep
      { statuses := [run.status], worker := some context.run.worker }
      { run with currentStep := some ("stage:" ++ stageKey) }
    if stored then return ()
    else raise (.runCancelled
      ("Run '" ++ context.run.runId ++ "' was canceled or is owned by another worker"))

def stageHook (name : String) : Coroutine Unit := do
  let outcome ← Fallible.attempt (external (.hook name))
  match outcome with
  | .ok _ => return ()
  | .error error => if error.isException then return () else raise error

def exhausted (stageKey : String) : Exc :=
  ⟨.exception, "StageAttemptsExhaustedError",
    "Stage '" ++ stageKey ++ "' exhausted its configured attempts"⟩

def outcomeUnknown (stage : AgentStage) : Exc :=
  let fallback := "Stage '" ++ stage.stageKey ++ "' external outcome is unknown"
  ⟨.externalSideEffectOutcomeUnknownError, "ExternalSideEffectOutcomeUnknownError",
    match stage.errorMessage with
    | some message => if message = "" then fallback else message
    | none => fallback⟩

def stale (stageKey what : String) : Exc :=
  ⟨.staleStageExecutionError, "StaleStageExecutionError",
    "Stage '" ++ stageKey ++ "' " ++ what ++ " belongs to a superseded execution"⟩

def runOperation (context : AgentContext) (stageKey : String) (executionId : Uuid) :
    Coroutine Json := do
  let value ← external (.operation stageKey executionId)
  let output ← Fallible.ofExcept (jsonValue value "stage output")
  raiseIfCancelled context
  let committed ← perform (.stage (.markSucceeded stageKey executionId output))
  if committed then return output
  else do
    let persisted ← perform (.stage (.get stageKey))
    match persisted with
    | some stage =>
        if stage.status = .outcomeUnknown then raise (outcomeUnknown stage)
        else raise (stale stageKey "result")
    | none => raise (stale stageKey "result")

def recordError (stageKey : String) (executionId : Uuid) (error : Exc) : Coroutine Unit :=
  match error.kind with
  | .runCancelledError => do
      let _ ← perform (.stage (.markCanceled stageKey executionId))
      return ()
  | .cancelledError => return ()
  | .staleStageExecutionError => return ()
  | .externalSideEffectOutcomeUnknownError => do
      let _ ← perform (.stage (.markOutcomeUnknown stageKey executionId error.name error.message))
      return ()
  | _ => do
      let _ ← perform (.stage (.markFailed stageKey executionId error.name error.message))
      return ()

def runExecution (context : AgentContext) (stageKey : String) (executionId : Uuid) :
    Coroutine Json := do
  setCurrentStep context stageKey
  stageHook "on_stage_start"
  let outcome ← Fallible.attempt (runOperation context stageKey executionId)
  match outcome with
  | .ok output => do
      stageHook "on_stage_end"
      return output
  | .error error => do
      recordError stageKey executionId error
      stageHook "on_stage_end"
      raise error

def settle (context : AgentContext) (stageKey : String) (stage : AgentStage) :
    Coroutine Json :=
  match stage.status with
  | .succeeded => return stage.output
  | .canceled => raise (.runCancelled ("Stage '" ++ stageKey ++ "' was canceled"))
  | .outcomeUnknown => raise (outcomeUnknown stage)
  | _ => do
      let executionId ← uuid4
      let active ← perform (.stage (.beginAttempt stageKey context.run.attempts executionId))
      match active with
      | none => raise (exhausted stageKey)
      | some _ => runExecution context stageKey executionId

def runStage (digest : Digest) (index : Nat) (context : AgentContext) (stageKey : String)
    (stageInput : PyValue) (definitionVersion : String) (maxAttempts : Option Nat)
    (idempotencyKey : Option String) : Coroutine Json := do
  validateKey stageKey
  let entered ← perform (.process (.enterStage index stageKey))
  match entered with
  | none => raise (.stageState ("duplicate stage key '" ++ stageKey ++ "'"))
  | some stageIndex => do
      raiseIfCancelled context
      let input ← Fallible.ofExcept (jsonValue stageInput "stage input")
      let stage ← perform (.stage (.getOrCreate (newStage context stageKey stageIndex
        definitionVersion maxAttempts idempotencyKey (digest.stableHash input))))
      validateState context stage stageIndex definitionVersion (digest.stableHash input)
      settle context stageKey stage

def saveCheckpoint (context : AgentContext) (stageKey : String) (executionId : Uuid)
    (checkpoint : PyValue) : Coroutine Json := do
  raiseIfCancelled context
  let value ← Fallible.ofExcept (jsonValue checkpoint "stage checkpoint")
  match value with
  | .object _ => do
      let saved ← perform (.stage (.saveCheckpoint stageKey executionId value))
      if saved then return .null else raise (stale stageKey "checkpoint")
  | _ => raise ⟨.exception, "TypeError", "stage checkpoint must be a JSON object"⟩

end AgentTaskPlatform.StageRunner
