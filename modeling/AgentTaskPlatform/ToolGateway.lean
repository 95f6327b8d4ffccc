import AgentTaskPlatform.Store

/-!
`ToolGateway.call`: admission checks, the `WAITING_TOOL` write, and the retry
loop. A side-effecting call first claims a durable stage row for its operation
identity; only the execution that moved this row to `OUTCOME_UNKNOWN` invokes
the tool.
-/

namespace AgentTaskPlatform.ToolGateway

open Interleaving Coroutine

abbrev Fields := List (String × Json)

def validateAllowed (tool : ToolSpec) (agentName : String) : Coroutine Unit :=
  if !tool.allowedAgents.isEmpty && !tool.allowedAgents.contains agentName then
    raise (.registry
      ("Agent '" ++ agentName ++ "' is not allowed to call tool '" ++ tool.name ++ "'"))
  else return ()

def waitingRun (run : AgentRun) (tool : ToolSpec) : AgentRun :=
  { run with
    status := .waitingTool
    currentStep := some ("tool:" ++ tool.name) }

def markWaiting (context : AgentContext) (tool : ToolSpec) : Coroutine Unit := do
  let run ← requireRun
  let stored ← updateIfCurrent .toolCall
    { statuses := [run.status], worker := some context.workerId } (waitingRun run tool)
  if stored then return ()
  else raise (.runCancelled
    ("Run '" ++ context.run.runId ++ "' was canceled or is owned by another worker"))

/-- Input and output guardrails reject with a message of their own or a default. -/
def guardrailBlocked (message : Option String) (fallback : String) : Fields :=
  [("_guardrail_blocked", .bool true),
    ("message", .string (match message with
      | some text => if text = "" then fallback else text
      | none => fallback))]

def hexDigit (c : Char) : Nat :=
  if c.isDigit then c.toNat - '0'.toNat else c.toNat - 'a'.toNat + 10

def hexValue (text : List Char) : Nat := text.foldl (fun value c => 16 * value + hexDigit c) 0

structure SideEffect where
  stageKey : String
  durableKey : String
  executionId : Option Uuid
  cachedOutput : Json

section SideEffects

variable (digest : Digest) (context : AgentContext) (tool : ToolSpec)

def operationIdentity (input : Json) (idempotencyKey : Option String) : String :=
  let fallback := tool.name ++ ":" ++ digest.stableHash input
  match idempotencyKey with
  | some key => if key = "" then fallback else key
  | none => fallback

def sideEffectStageKey (identity : String) : String :=
  "tool:" ++ tool.name ++ ":" ++ String.ofList ((digest.sha256 identity).toList.take 32)

def sideEffectStage (identity inputHash : String) : AgentStage where
  agentName := context.agent.name
  agentVersion := context.agent.version
  stageKey := sideEffectStageKey digest tool identity
  stageIndex := -((hexValue ((digest.sha256 identity).toList.take 7) : Int) + 1)
  maxAttempts := 1
  idempotencyKey := context.run.runId ++ ":" ++ sideEffectStageKey digest tool identity
  inputHash := inputHash

def prepareSideEffectOperation (input : Json) (idempotencyKey : Option String) :
    Coroutine SideEffect := do
  let identity := operationIdentity digest tool input idempotencyKey
  let stageKey := sideEffectStageKey digest tool identity
  let durableKey := context.run.runId ++ ":" ++ stageKey
  let stage ← perform (.stage (.getOrCreate
    (sideEffectStage digest context tool identity (digest.stableHash input))))
  if stage.status = .succeeded then
    return ⟨stageKey, durableKey, stage.executionId, stage.output⟩
  else if stage.status = .running || stage.status = .outcomeUnknown then
    raise (.sideEffectOutcomeUnknown tool.name
      "a prior dispatch did not commit a confirmed response")
  else do
    let executionId ← uuid4
    let active ← perform (.stage (.beginSideEffectOnce stageKey executionId))
    match active with
    | none => raise (.sideEffectOutcomeUnknown tool.name
        "durable side-effect operation was already claimed")
    | some _ => do
        let dispatched ← perform (.stage (.markSideEffectDispatched durableKey executionId))
        if dispatched then return ⟨stageKey, durableKey, some executionId, .null⟩
        else raise (.sideEffectOutcomeUnknown tool.name
          "durable side-effect operation was already claimed")

def completeSideEffectOperation (effect : Option SideEffect) (output : Fields) :
    Coroutine Unit :=
  match effect with
  | none => return ()
  | some effect =>
      match effect.executionId with
      | none => raise (.sideEffectOutcomeUnknown tool.name
          "durable operation identity is missing")
      | some executionId => do
          let returned ← perform
            (.stage (.markSideEffectReturned effect.durableKey executionId))
          if returned then do
            let completed ← perform
              (.stage (.markSucceeded effect.stageKey executionId (.object output)))
            if completed then return ()
            else raise (.sideEffectOutcomeUnknown tool.name
              "durable operation ownership changed before its response was committed")
          else raise (.sideEffectOutcomeUnknown tool.name
            "durable operation ownership changed before its response was committed")

end SideEffects

def invokeOnce (tool : ToolSpec) (identity : Option String) (effect : Option SideEffect)
    (input : Json) : Coroutine Fields := do
  let output ← external (.invoke tool identity input)
  external (.validateToolOutput tool (.object output))
  let rejected ← external (.outputGuardrails tool (.object output))
  let answer := match rejected with
    | some message => guardrailBlocked message "Tool output rejected by guardrail"
    | none => output
  completeSideEffectOperation tool effect answer
  external (.hook "on_tool_end")
  return answer

def backOff (tool : ToolSpec) (attempt attempts : Nat) : Coroutine Unit :=
  if attempt < attempts then external (.sleep (tool.retryPolicy.backoffSeconds * attempt))
  else return ()

def giveUp (tool : ToolSpec) (lastError : Option Exc) : Coroutine Fields :=
  let cause := match lastError with
    | some error => error.message
    | none => "None"
  if tool.operationType = .sideEffecting then
    raise (.sideEffectOutcomeUnknown tool.name cause)
  else do
    let handled ← external (.failureHandler tool lastError)
    match handled with
    | some message => do
        external (.hook "on_tool_end")
        return [("_tool_error", .bool true), ("error", .string message)]
    | none => raise (.toolExecution tool.name cause)

def invokeFrom (tool : ToolSpec) (identity : Option String) (effect : Option SideEffect)
    (input : Json) (attempts : Nat) : Nat → Option Exc → Coroutine Fields
  | 0, lastError => giveUp tool lastError
  | remaining + 1, _ => do
      let outcome ← Fallible.attempt (invokeOnce tool identity effect input)
      match outcome with
      | .ok output => return output
      | .error error =>
          if error.isException then do
            backOff tool (attempts - remaining) attempts
            invokeFrom tool identity effect input attempts remaining (some error)
          else if tool.operationType = .sideEffecting then
            raise (.sideEffectOutcomeUnknown tool.name error.message)
          else raise error

def callWithRetries (digest : Digest) (context : AgentContext) (tool : ToolSpec) (input : Json)
    (idempotencyKey : Option String) : Coroutine Json :=
  if tool.operationType = .sideEffecting then do
    let effect ← prepareSideEffectOperation digest context tool input idempotencyKey
    if !effect.cachedOutput.isNull then return effect.cachedOutput
    else do
      let output ← invokeFrom tool (some (operationIdentity digest tool input idempotencyKey))
        (some effect) input 1 1 none
      return .object output
  else if tool.operationType = .idempotent && tool.idempotencyKeyHeader.getD "" != "" &&
      idempotencyKey.getD "" = "" then
    raise (.registry ("Tool '" ++ tool.name ++ "' requires an idempotency key for safe retries"))
  else do
    let attempts := max 1 tool.retryPolicy.maxAttempts
    let output ← invokeFrom tool none none input attempts attempts none
    return .object output

def callAdmitted (digest : Digest) (context : AgentContext) (tool : ToolSpec) (input : Json)
    (idempotencyKey : Option String) : Coroutine Json := do
  external (.acquireQps tool)
  markWaiting context tool
  external (.hook "on_tool_start")
  let rejected ← external (.inputGuardrails tool input)
  match rejected with
  | some message => do
      external (.hook "on_tool_end")
      return .object (guardrailBlocked message "Tool input rejected by guardrail")
  | none => do
      external (.acquireSlots tool)
      callWithRetries digest context tool input idempotencyKey

def call (digest : Digest) (context : AgentContext) (toolName : String) (input : Json)
    (idempotencyKey : Option String) : Coroutine Json := do
  let tool ← external (.getTool toolName)
  validateAllowed tool context.agent.name
  external (.validateToolInput tool input)
  let fallback ← external (.fallbackIfBreakerOpen tool)
  match fallback with
  | some output => do
      external (.validateToolOutput tool (.object output))
      return .object output
  | none => callAdmitted digest context tool input idempotencyKey

end AgentTaskPlatform.ToolGateway
