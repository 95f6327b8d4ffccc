import AgentTaskPlatform.KeyedTable
import AgentTaskPlatform.PiBridge
import AgentTaskPlatform.Semaphores
import AgentTaskPlatform.StatefulCalls

/-!
The model turns and tool calls of one run of the Pi agent: what `handle` makes of the
records of the worker, how a tool gets and returns its slot, and how the run ends once
`PiProcess.run` has waited for the handlers.
-/

namespace AgentTaskPlatform.PiTurns

open JsonText JsonNumbers PiFraming KeyedTable Semaphores StatefulCalls
open PiBridge (text Answer)

abbrev Record := List (Text × Value PyNumber)

section Records

def getOr (fallback : Value PyNumber) (record : Record) (key : String) : Value PyNumber :=
  match record.find? fun entry => entry.1 = text key with
  | none => fallback
  | some entry => entry.2

def get (record : Record) (key : String) : Value PyNumber := getOr .null record key

def valueError (message : String) : Exc := ⟨.exception, "ValueError", message⟩

def maxInteger : ℤ := 2147483647

def metric (value : Value PyNumber) (field : String) : Except Exc Nat :=
  match value with
  | .number (.int n) =>
      if 0 ≤ n ∧ n ≤ maxInteger then .ok n.toNat
      else .error (valueError s!"Invalid Pi {field} metadata")
  | _ => .error (valueError s!"Invalid Pi {field} metadata")

inductive CallStatus where
  | started
  | succeeded
  | failed
  deriving DecidableEq, Repr

inductive StopReason where
  | stop
  | toolUse
  | length
  | error
  | aborted
  deriving DecidableEq, Repr

def StopReason.value : StopReason → String
  | .stop => "stop"
  | .toolUse => "toolUse"
  | .length => "length"
  | .error => "error"
  | .aborted => "aborted"

inductive ErrorCategory where
  | timeout
  | rateLimit
  | authentication
  | providerUnavailable
  | invalidRequest
  | contentFilter
  | network
  | unknown
  deriving DecidableEq, Repr

def ErrorCategory.value : ErrorCategory → String
  | .timeout => "timeout"
  | .rateLimit => "rate_limit"
  | .authentication => "authentication"
  | .providerUnavailable => "provider_unavailable"
  | .invalidRequest => "invalid_request"
  | .contentFilter => "content_filter"
  | .network => "network"
  | .unknown => "unknown"

def stopReason : Value PyNumber → Option StopReason
  | .string given =>
      [StopReason.stop, .toolUse, .length, .error, .aborted].find? fun reason =>
        text reason.value = given
  | _ => none

def errorCategory : Value PyNumber → Option ErrorCategory
  | .string given =>
      [ErrorCategory.timeout, .rateLimit, .authentication, .providerUnavailable, .invalidRequest,
        .contentFilter, .network, .unknown].find? fun category => text category.value = given
  | _ => none

def httpStatus : Value PyNumber → Option ℤ
  | .number (.int n) => if 100 ≤ n ∧ n ≤ 599 then some n else none
  | _ => none

def identifierPoint : Point → Bool
  | .scalar c =>
      ('A' ≤ c && c ≤ 'Z') || ('a' ≤ c && c ≤ 'z') || ('0' ≤ c && c ≤ '9') ||
        ['_', '.', ':', '/', '=', '-'].contains c
  | .surrogate _ _ => false

def providerRequestId : Value PyNumber → Option Text
  | .string given =>
      if 1 ≤ given.length ∧ given.length ≤ 256 ∧ given.all identifierPoint then some given else none
  | _ => none

end Records

/-- A `ModelCallRecord`, and the entries of its metadata that `handle` writes. -/
structure ModelCall where
  callId : Nat
  turn : Nat
  messageCount : Nat
  status : CallStatus := .started
  error : Option String := none
  promptTokens : Nat := 0
  completionTokens : Nat := 0
  totalTokens : Nat := 0
  estimatedCost : ℚ := 0
  finishTime : Option Nat := none
  httpStatus : Option ℤ := none
  providerRequestId : Option Text := none
  stopReason : Option StopReason := none
  providerLatencyMs : Option Nat := none
  httpAttempts : Option Nat := none
  requestBytes : Option Nat := none
  responseBytes : Option Nat := none
  errorCategory : Option ErrorCategory := none
  deriving DecidableEq

abbrev ToolKey := Nat × Text

structure Config where
  maxTurns : Nat
  maxToolCalls : Nat
  maxParallelTools : Nat
  costPer1kTokens : Double
  /-- `tools.platform_names | tools.skill_names` -/
  toolNames : List Text

structure Result where
  text : Text
  turns : ℤ

inductive Phase where
  | serving
  /-- `PiProcess.run` has left its loop and waits for the handlers. -/
  | leaving (ending : Except Exc Result)
  | ended (outcome : Except Exc Unit)

/-- The state of `_run_once`. A handler of a tool call is in `running`, and in `executing`
while it holds a slot; `accepted` keeps the turns that were opened, in their order. -/
structure Turns where
  active : Table ModelCall Nat ModelCall.turn
  unfinished : List Nat
  identities : List ToolKey
  running : List ToolKey
  executing : List ToolKey
  slots : Semaphore
  stored : Table ModelCall Nat ModelCall.callId
  accepted : List Nat
  phase : Phase

def Config.initial (config : Config) : Turns where
  active := .empty
  unfinished := []
  identities := []
  running := []
  executing := []
  slots := .fresh config.maxParallelTools
  stored := .empty
  accepted := []
  phase := .serving

/-- What one call of `handle` finds around it: the identity of a new record, what
`compose` and the constructor of the record come to, whether the audit log takes its entry,
and the time. -/
structure Surroundings where
  callId : Nat
  composed : Except Exc Text
  logged : Except Exc Unit
  now : Nat

inductive Reply where
  | answer (data : Answer)
  | tool (key : ToolKey)

section Handle

variable (config : Config)

def Turns.opened (turns : Turns) : Nat := turns.active.rows.length

def Turns.save (turns : Turns) (call : ModelCall) : Turns :=
  { turns with stored := turns.stored.upsert call }

def Turns.setCall (turns : Turns) (call : ModelCall) : Turns :=
  { turns with active := turns.active.upsert call }

def validTurn (value : Value PyNumber) : Except Exc Nat :=
  match value with
  | .number (.int n) =>
      if 1 ≤ n ∧ n ≤ config.maxTurns then .ok n.toNat
      else .error (valueError "Invalid Pi turn identity")
  | _ => .error (valueError "Invalid Pi turn identity")

def Turns.awaitsTools (turns : Turns) (turn : Nat) : Bool :=
  turn = turns.opened && !turns.unfinished.contains turn &&
    (turns.active.find turn).any fun call =>
      call.status = .succeeded && call.stopReason = some .toolUse

def toolIdentity (record : Record) : Option (Text × Text) :=
  match PiTurns.get record "name", PiTurns.get record "tool_call_id" with
  | .string name, .string callId => some (name, callId)
  | _, _ => none

/-- The part of `tool_call` before the handler waits for a slot. -/
def toolCall (turn : Nat) (record : Record) : Method Exc Turns Reply := do
  let turns ← MonadState.get
  match toolIdentity record with
  | none => throw (valueError "Invalid Pi tool request identity")
  | some (name, callId) =>
      if turns.awaitsTools turn && config.toolNames.contains name && !callId.isEmpty then
        let key := (turn, callId)
        if key ∈ turns.identities ∨ turns.identities.length ≥ config.maxToolCalls then
          throw (valueError "Duplicate or over-budget Pi tool request")
        else do
          modify fun turns => { turns with identities := turns.identities ++ [key] }
          match encodeUtf8 callId with
          -- The hash for the log needs the identity as UTF-8.
          | none => throw (⟨.exception, "UnicodeEncodeError", "surrogates not allowed"⟩ : Exc)
          | some _ => do
              modify fun turns => { turns with running := turns.running ++ [key] }
              return .tool key
      else throw (valueError "Invalid Pi tool request identity")

def prepareRequest (turn : Nat) (record : Record) (around : Surroundings) :
    Method Exc Turns Reply := do
  let turns ← MonadState.get
  if turn ≠ turns.opened + 1 ∨ turns.unfinished ≠ [] ∨ turns.running ≠ [] then
    throw (valueError "Duplicate or out-of-order Pi turn")
  else do
    let messageCount ← ExceptT.mk (pure (metric (PiTurns.get record "message_count") "message count"))
    let instructions ← ExceptT.mk (pure around.composed)
    let call : ModelCall := { callId := around.callId, turn, messageCount }
    modify fun turns =>
      { (turns.setCall call).save call with
        unfinished := turns.unfinished ++ [turn]
        accepted := turns.accepted ++ [turn] }
    ExceptT.mk (pure around.logged)
    return .answer (.object [(text "instructions", .string instructions)])

structure Completion where
  promptTokens : Nat
  completionTokens : Nat
  totalTokens : Nat
  estimatedCost : ℚ
  reason : StopReason

def invalidUsage : Exc := valueError "Invalid Pi usage metadata"

def estimatedCost (totalTokens : Nat) : Option ℚ := do
  let product ← nearest (totalTokens * config.costPer1kTokens.1)
  nearest (product / 1000)

def usageEntries : Value PyNumber → Except Exc Record
  | .null => .ok []
  | .object entries => .ok entries
  | _ => .error invalidUsage

def readCompletion (record : Record) : Except Exc Completion := do
  let usage ← usageEntries (PiTurns.get record "usage")
  let count (key : String) := metric (getOr (.number (.int 0)) usage key) "usage"
  let input ← count "input"
  let cacheRead ← count "cacheRead"
  let cacheWrite ← count "cacheWrite"
  let promptTokens ← metric (.number (.int (input + cacheRead + cacheWrite : Nat))) "usage"
  let completionTokens ← count "output"
  let reported ← count "totalTokens"
  let summed := if reported = 0 then promptTokens + completionTokens else reported
  let totalTokens ← metric (.number (.int summed)) "usage"
  match estimatedCost config totalTokens with
  | none => .error invalidUsage
  | some estimatedCost =>
      if totalTokens < promptTokens + completionTokens then .error invalidUsage
      else match stopReason (PiTurns.get record "stop_reason") with
      | none => .error (valueError "Invalid Pi model stop reason")
      | some reason =>
          .ok { promptTokens, completionTokens, totalTokens, estimatedCost, reason }

def StopReason.status : StopReason → CallStatus
  | .stop | .toolUse => .succeeded
  | .length | .error | .aborted => .failed

/-- The assignments of `model_end` up to the stop reason. -/
def ModelCall.complete (call : ModelCall) (completion : Completion) (record : Record)
    (now : Nat) : ModelCall :=
  { call with
    promptTokens := completion.promptTokens
    completionTokens := completion.completionTokens
    totalTokens := completion.totalTokens
    estimatedCost := completion.estimatedCost
    status := completion.reason.status
    error :=
      if completion.reason.status = .failed then
        some s!"Pi model stopped: {completion.reason.value}"
      else none
    finishTime := some now
    httpStatus := PiTurns.httpStatus (PiTurns.get record "http_status")
    providerRequestId := PiTurns.providerRequestId (PiTurns.get record "provider_request_id")
    stopReason := some completion.reason }

/-- `model_end` on its record: an error leaves the assignments before it. -/
def finishCall (record : Record) (now : Nat) : Method Exc ModelCall Unit := do
  let completion ← ExceptT.mk (pure (readCompletion config record))
  modify fun call => call.complete completion record now
  let latency ← ExceptT.mk (pure (metric (PiTurns.get record "latency_ms") "latency"))
  modify fun call => { call with providerLatencyMs := some latency }
  let count (field : String) := metric (getOr (.number (.int 0)) record field) field
  let attempts ← ExceptT.mk (pure (count "http_attempts"))
  modify fun call => { call with httpAttempts := some attempts }
  let requested ← ExceptT.mk (pure (count "request_bytes"))
  modify fun call => { call with requestBytes := some requested }
  let responded ← ExceptT.mk (pure (count "response_bytes"))
  modify fun call =>
    { call with
      responseBytes := some responded
      errorCategory := PiTurns.errorCategory (PiTurns.get record "error_category") }

def unexpected : Exc := valueError "Unexpected Pi capability request"

def modelEnd (turn : Nat) (record : Record) (around : Surroundings) : Method Exc Turns Reply := do
  let turns ← MonadState.get
  if turn ∉ turns.unfinished then throw unexpected
  else match turns.active.find turn with
  | none => throw (⟨.exception, "KeyError", toString turn⟩ : Exc)
  | some call =>
      if call.status ≠ .started then throw (valueError "Duplicate Pi model completion")
      else
        -- The record is shared, so `active` sees what an error leaves.
        let finished := finishCall config record around.now call
        modify fun turns => turns.setCall finished.2
        ExceptT.mk (pure finished.1)
        modify fun turns =>
          { turns.save finished.2 with unfinished := turns.unfinished.filter (· ≠ turn) }
        ExceptT.mk (pure around.logged)
        return .answer (.object [])

def handle (record : Record) (around : Surroundings) : Method Exc Turns Reply := do
  let turn ← ExceptT.mk (pure (validTurn config (PiTurns.get record "turn")))
  match PiTurns.get record "kind" with
  | .string kind =>
      if kind = text "tool_call" then toolCall config turn record
      else if kind = text "prepare_request" then prepareRequest turn record around
      else if kind = text "model_end" then modelEnd config turn record around
      else throw unexpected
  | _ => throw unexpected

end Handle

section Tools

def Turns.start (turns : Turns) (key : ToolKey) : Option Turns :=
  if key ∈ turns.running ∧ key ∉ turns.executing then
    turns.slots.acquire.map fun slots =>
      { turns with slots, executing := turns.executing ++ [key] }
  else none

/-- A handler of a tool call ends, however it does: it returns its slot if it has one. -/
def Turns.finish (turns : Turns) (key : ToolKey) : Option Turns :=
  if key ∈ turns.running then
    some { turns with
      slots := if key ∈ turns.executing then turns.slots.release else turns.slots
      executing := turns.executing.filter (· ≠ key)
      running := turns.running.filter (· ≠ key) }
  else none

end Tools

section Exits

def Turns.conclude (turns : Turns) (result : Result) : Except Exc Unit :=
  let last := turns.active.find turns.opened
  if turns.opened = 0 ∨ turns.unfinished ≠ [] ∨ result.turns ≠ turns.opened ∨
      ¬ last.any (fun call => call.status = .succeeded && call.stopReason = some .stop) then
    .error (valueError "Pi worker result does not match the completed model turns")
  else .ok ()

def ModelCall.interrupted (call : ModelCall) (error : Exc) (now : Nat) : ModelCall :=
  { call with
    status := .failed
    error := some s!"Pi attempt interrupted ({error.name})"
    finishTime := some now }

/-- The loop over `unfinished` after an exception. -/
def interrupt (error : Exc) (now : Nat) : List Nat → Turns → Turns
  | [], turns => turns
  | turn :: rest, turns =>
      match turns.active.find turn with
      | none => interrupt error now rest turns
      | some call =>
          let closed := call.interrupted error now
          interrupt error now rest ((turns.setCall closed).save closed)

/-- How `_run_once` ends; `decoded` is what becomes of the text of the result. -/
def Turns.outcome (turns : Turns) (ending : Except Exc Result) (decoded : Except Exc Unit) :
    Except Exc Unit := do
  let result ← ending
  turns.conclude result
  decoded

def Turns.exit (turns : Turns) (ending : Except Exc Result) (decoded : Except Exc Unit)
    (now : Nat) : Turns :=
  match turns.outcome ending decoded with
  | .ok () => { turns with phase := .ended (.ok ()) }
  | .error error => { interrupt error now turns.unfinished turns with phase := .ended (.error error) }

end Exits

inductive Action where
  | handle (record : Record) (around : Surroundings)
  | start (key : ToolKey)
  | finish (key : ToolKey)
  | leave (ending : Except Exc Result)
  | exit (decoded : Except Exc Unit) (now : Nat)

/-- `PiProcess.run` takes a result only when no handler is pending. -/
def pendingRequests : Exc := protocolError "Pi completed with pending capability requests"

/-- One uninterrupted piece of the run. The identity of a new record is a fresh one. -/
def step (config : Config) (turns : Turns) : Action → Option Turns
  | .handle record around =>
      match turns.phase with
      | .serving =>
          if around.callId ∈ turns.stored.rows.map ModelCall.callId then none
          else some (handle config record around turns).2
      | _ => none
  | .start key =>
      match turns.phase with
      | .ended _ => none
      | _ => turns.start key
  | .finish key =>
      match turns.phase with
      | .ended _ => none
      | _ => turns.finish key
  | .leave ending =>
      match turns.phase with
      | .serving =>
          let kept : Except Exc Result :=
            match ending with
            | .error error => .error error
            | .ok result => if turns.running = [] then .ok result else .error pendingRequests
          some { turns with phase := .leaving kept }
      | _ => none
  | .exit decoded now =>
      match turns.phase with
      | .leaving ending => if turns.running = [] then some (turns.exit ending decoded now) else none
      | _ => none

end AgentTaskPlatform.PiTurns
