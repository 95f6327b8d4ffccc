import Mathlib.Data.String.Basic

/-!
Domain objects of the platform: run and stage records with their status enums,
agent and tool specifications, callback deliveries and the exceptions the
runtime distinguishes. Times and durations are ticks of one clock. Columns that
no modelled function reads or writes are left out.
-/

namespace AgentTaskPlatform

/-- A process, named by the worker id of its `RunWorker`. -/
abbrev Process := String

structure Uuid where
  value : Nat
  deriving DecidableEq, Repr

inductive Json where
  | null
  | bool (value : Bool)
  | number (value : Int)
  | string (value : String)
  | array (items : List Json)
  | object (fields : List (String × Json))

namespace Json

def isNull : Json → Bool
  | .null => true
  | _ => false

end Json

inductive RunStatus where
  | created
  | queued
  | running
  | waitingTool
  | retrying
  | agentSucceeded
  | waitingCallback
  | succeeded
  | failed
  | timeout
  | canceled
  deriving DecidableEq, Repr

def executingRunStatuses : List RunStatus := [.running, .waitingTool, .retrying]

def terminalRunStatuses : List RunStatus := [.succeeded, .failed, .timeout, .canceled]

namespace RunStatus

def executing (status : RunStatus) : Bool := executingRunStatuses.contains status

def terminal (status : RunStatus) : Bool := terminalRunStatuses.contains status

def value : RunStatus → String
  | .created => "CREATED"
  | .queued => "QUEUED"
  | .running => "RUNNING"
  | .waitingTool => "WAITING_TOOL"
  | .retrying => "RETRYING"
  | .agentSucceeded => "AGENT_SUCCEEDED"
  | .waitingCallback => "WAITING_CALLBACK"
  | .succeeded => "SUCCEEDED"
  | .failed => "FAILED"
  | .timeout => "TIMEOUT"
  | .canceled => "CANCELED"

end RunStatus

inductive ErrorType where
  | validationError
  | routeNotFound
  | agentNotAvailable
  | agentExecutionError
  | toolUnavailable
  | runTimeout
  | sideEffectOutcomeUnknown
  | internalError
  deriving DecidableEq, Repr

def nonRetryableErrors : List ErrorType :=
  [.validationError, .routeNotFound, .sideEffectOutcomeUnknown]

def ErrorType.isRetryable (error : ErrorType) : Bool := !nonRetryableErrors.contains error

inductive StageStatus where
  | pending
  | running
  | succeeded
  | failed
  | canceled
  | outcomeUnknown
  deriving DecidableEq, Repr

inductive CallbackStatus where
  | pending
  | delivered
  | failed
  | skipped
  deriving DecidableEq, Repr

inductive OperationType where
  | readOnly
  | idempotent
  | sideEffecting
  deriving DecidableEq, Repr

/-- The exception classes that some `except` clause tells apart. -/
inductive ExceptionKind where
  | cancelledError
  | timeoutError
  | runCancelledError
  | externalSideEffectOutcomeUnknownError
  | staleStageExecutionError
  | registryError
  | skillError
  | toolExecutionError
  | exception
  deriving DecidableEq, Repr

structure Exc where
  kind : ExceptionKind
  /-- `type(exc).__name__` -/
  name : String
  /-- `str(exc)` -/
  message : String
  deriving DecidableEq, Repr

namespace Exc

def described (exc : Exc) : String := exc.name ++ ": " ++ exc.message

def runCancelled (message : String) : Exc := ⟨.runCancelledError, "RunCancelledError", message⟩

def registry (message : String) : Exc := ⟨.registryError, "RegistryError", message⟩

def runtime (message : String) : Exc := ⟨.exception, "RuntimeError", message⟩

def stageState (message : String) : Exc :=
  ⟨.exception, "StageStateError", "Stage state validation failed: " ++ message⟩

def sideEffectOutcomeUnknown (toolName : String) (cause : String) : Exc :=
  ⟨.externalSideEffectOutcomeUnknownError, "SideEffectOutcomeUnknownError",
    "Tool '" ++ toolName ++ "' outcome is unknown: " ++ cause⟩

def toolExecution (toolName : String) (cause : String) : Exc :=
  ⟨.toolExecutionError, "ToolExecutionError", "Tool '" ++ toolName ++ "' failed: " ++ cause⟩

def isException (exc : Exc) : Bool := exc.kind != .cancelledError

end Exc

def listContains (text word : List Char) : Bool :=
  match text with
  | [] => word.isEmpty
  | first :: rest => word.isPrefixOf (first :: rest) || listContains rest word

def mentions (text word : String) : Bool :=
  listContains (text.toList.map Char.toLower) word.toList

structure RetryPolicy where
  maxAttempts : Nat := 1
  backoffSeconds : Nat := 0
  backoffType : String := "fixed"
  deriving DecidableEq, Repr

def RetryPolicy.delayForAttempt (policy : RetryPolicy) (attempt : Nat) : Nat :=
  if policy.backoffType = "exponential" then policy.backoffSeconds * 2 ^ (attempt - 1)
  else policy.backoffSeconds * attempt

structure AgentRef where
  name : String
  version : String
  deriving DecidableEq, Repr

structure AgentSpec where
  name : String
  version : String
  routeTags : List String
  maxConcurrency : Int := 1
  timeoutSeconds : Nat := 300
  retryPolicy : RetryPolicy := {}
  enabled : Bool := true
  /-- The other columns, which are read only where whole specs are compared. -/
  otherColumns : String := ""
  deriving DecidableEq, Repr

namespace AgentSpec

def ref (agent : AgentSpec) : AgentRef := ⟨agent.name, agent.version⟩

end AgentSpec

structure ToolSpec where
  name : String
  version : String := "1.0.0"
  retryPolicy : RetryPolicy := {}
  operationType : OperationType := .readOnly
  idempotencyKeyHeader : Option String := none
  allowedAgents : List String := []
  enabled : Bool := true
  /-- The other columns, which are read only where whole specs are compared. -/
  otherColumns : String := ""
  deriving DecidableEq, Repr

structure CallbackConfig where
  url : Option String := none
  events : List String := ["succeeded", "failed"]
  deriving DecidableEq, Repr

structure AgentRun where
  runId : String
  conversationId : Option String := none
  routeTag : String
  caller : String := "default"
  requestId : String
  input : Json := .object []
  callback : Option CallbackConfig := none
  timeoutSeconds : Option Nat := none
  metadata : List (String × Json) := []
  agent : Option AgentRef := none
  status : RunStatus := .created
  currentStep : Option String := none
  attempts : Nat := 0
  maxAttempts : Nat := 1
  deadLetterReason : Option String := none
  worker : Option Process := none
  leaseExpireTime : Option Nat := none
  output : Option Json := none
  errorType : Option ErrorType := none
  errorMessage : Option String := none
  callbackStatus : CallbackStatus := .pending
  callbackEventId : Option Uuid := none
  queueTime : Option Nat := none
  runAfter : Option Nat := none
  startTime : Option Nat := none
  finishTime : Option Nat := none

namespace AgentRun

def callbackUrl (run : AgentRun) : Option String :=
  match run.callback with
  | none => none
  | some callback =>
      match callback.url with
      | none => none
      | some url => if url = "" then none else some url

end AgentRun

structure AgentStage where
  agentName : String
  agentVersion : String
  stageKey : String
  stageIndex : Int
  schemaVersion : String := "1"
  definitionVersion : String := "1"
  status : StageStatus := .pending
  runAttempt : Nat := 0
  attempts : Nat := 0
  maxAttempts : Nat := 1
  executionId : Option Uuid := none
  idempotencyKey : String
  inputHash : String
  output : Json := .null
  checkpoint : Option Json := none
  errorType : Option String := none
  errorMessage : Option String := none
  startTime : Option Nat := none
  finishTime : Option Nat := none

structure CallbackPayload where
  eventId : Uuid
  externalId : String
  requestId : String
  conversationId : Option String
  runId : String
  routeTag : String
  status : String
  output : Option Json
  agentName : Option String
  agentVersion : Option String
  finishedAt : Nat

structure CallbackDelivery where
  eventId : Uuid
  url : String
  status : CallbackStatus := .pending
  attempts : Nat := 0
  lastError : Option String := none
  runAfter : Nat := 0
  worker : Option String := none
  leaseExpireTime : Option Nat := none
  payload : Option CallbackPayload := none

structure RunErrorResult where
  finalOutput : List (String × Json)
  includeErrorInOutput : Bool := true

/-- The clients of one attempt: `AgentRuntime.run` builds it around the run
object the executor holds at that moment. -/
structure AgentContext where
  process : Process
  run : AgentRun
  agent : AgentSpec
  cancellationSignal : Option Nat
  /-- Stage keys this attempt has entered; its length is the next stage index. -/
  seen : List String := []

namespace AgentContext

def workerId (context : AgentContext) : Option Process := context.run.worker

end AgentContext

inductive PyValue where
  | json (value : Json)
  | unserializable

def jsonValue (value : PyValue) (label : String) : Except Exc Json :=
  match value with
  | .json value => .ok value
  | .unserializable =>
      .error ⟨.exception, "TypeError", label ++ " must be JSON serializable"⟩

structure Digest where
  /-- SHA-256 of the canonical JSON text, in hex -/
  stableHash : Json → String
  sha256 : String → String

end AgentTaskPlatform
