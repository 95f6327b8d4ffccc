import AgentTaskPlatform.Scheduler
import AgentTaskPlatform.Stripping

/-!
`ModelGateway.complete`: the models of a call one after another, each with its retries, and
the record of the call, which is saved before the first request and after every model. A
script says what each request comes to and whether the pause after it is cancelled.
-/

namespace AgentTaskPlatform.ModelCalls

section Exceptions

/-- The exceptions of the language that the gateway's conversions raise. -/
inductive Builtin where
  | attributeError
  | keyError
  | typeError
  | valueError
  | overflowError
  | recursionError
  | unicodeDecodeError
  | jsonDecodeError
  deriving DecidableEq

def Builtin.name : Builtin → String
  | .attributeError => "AttributeError"
  | .keyError => "KeyError"
  | .typeError => "TypeError"
  | .valueError => "ValueError"
  | .overflowError => "OverflowError"
  | .recursionError => "RecursionError"
  | .unicodeDecodeError => "UnicodeDecodeError"
  | .jsonDecodeError => "JSONDecodeError"

structure Fault where
  kind : Builtin
  message : String
  deriving DecidableEq

abbrev Converted := Except Fault

/-- What ends a call: a cancellation, which is no `Exception`, an exception of the language,
or one of the HTTP client, with the status of an `HTTPStatusError`. -/
inductive Raised where
  | cancelled
  | builtin (fault : Fault)
  | client (name message : String) (transport : Bool) (status : Option Nat)
  deriving DecidableEq

def Raised.typeName : Raised → String
  | .cancelled => "CancelledError"
  | .builtin fault => fault.kind.name
  | .client name _ _ _ => name

def Raised.message : Raised → String
  | .cancelled => ""
  | .builtin fault => fault.message
  | .client _ message _ _ => message

def Raised.httpStatus : Raised → Option Nat
  | .client _ _ _ status => status
  | _ => none

/-- `isinstance(exception, (httpx.TimeoutException, httpx.TransportError))` -/
def Raised.transport : Raised → Bool
  | .client _ _ transport _ => transport
  | _ => false

def retryableStatusCodes : List Nat := [429, 500, 502, 503, 504]

def retryableExceptions : List String :=
  ["TimeoutException", "ConnectTimeout", "ReadTimeout", "PoolTimeout", "ConnectError", "ReadError",
    "RemoteProtocolError"]

def shouldRetry (raised : Raised) : Bool :=
  raised.typeName ∈ retryableExceptions || raised.transport ||
    raised.httpStatus.any (· ∈ retryableStatusCodes)

theorem shouldRetry_cancelled : shouldRetry .cancelled = false := by decide

theorem shouldRetry_builtin (fault : Fault) : shouldRetry (.builtin fault) = false := by
  have other (kind : Builtin) : kind.name ∉ retryableExceptions := by cases kind <;> decide
  simp [shouldRetry, Raised.typeName, other, Raised.transport, Raised.httpStatus]

end Exceptions

section Replies

abbrev Fields := List (String × Json)

def get (fields : Fields) (key : String) : Json := (fields.lookup key).getD .null

def orElse (first second : Json) : Json := if first.truthy then first else second

structure Python (Double : Type) where
  typeName : Json → String
  int : Json → Converted Int
  float : Json → Converted Double
  str : Json → String
  loads : String → Converted Json
  dumps : Json → String
  repr : Json → String
  /-- `min(initial * 2.0 ** attempt, most)` -/
  backoff : Double → Double → Nat → Double
  /-- `_estimate_cost` -/
  estimateCost : Int → Double → Double
  zero : Double
  /-- `utc_now`, by what has been saved -/
  utcNow : Nat → Nat

structure Response where
  status : Nat
  /-- The text of the `HTTPStatusError`. -/
  reason : String
  json : Converted Json
  header : String → Option String

inductive Answer where
  | response (response : Response) (latencyMs : Nat)
  | raised (raised : Raised)

/-- What a request comes to, and whether the call is cancelled while it pauses after it. -/
structure Turn where
  answer : Answer
  backoffCancelled : Bool

structure Reply where
  body : Json
  httpStatus : Nat
  latencyMs : Nat
  providerRequestId : Option String

def requestId (response : Response) : Option String :=
  match response.header "x-request-id" with
  | none | some "" => response.header "request-id"
  | found => found

def readResponse (response : Response) (latencyMs : Nat) : Except Raised Reply :=
  if 200 ≤ response.status ∧ response.status < 300 then
    match response.json with
    | .ok body => .ok ⟨body, response.status, latencyMs, requestId response⟩
    | .error fault => .error (.builtin fault)
  else .error (.client "HTTPStatusError" response.reason false (some response.status))

def settle : Answer → Except Raised Reply
  | .response response latencyMs => readResponse response latencyMs
  | .raised raised => .error raised

/-- A status that is to be retried and its exception are classified alike. -/
theorem shouldRetry_status {response : Response} (latencyMs : Nat)
    (again : response.status ∈ retryableStatusCodes) :
    ∃ raised, readResponse response latencyMs = .error raised ∧ shouldRetry raised = true := by
  have failure : ¬ (200 ≤ response.status ∧ response.status < 300) := by
    simp only [retryableStatusCodes, List.mem_cons, List.not_mem_nil, or_false] at again
    omega
  refine ⟨_, if_neg failure, ?_⟩
  simp [shouldRetry, Raised.httpStatus, again]

variable {Double : Type} (python : Python Double)

def asFields : Json → Converted Fields
  | .object fields => .ok fields
  | value => .error ⟨.attributeError,
      "'" ++ python.typeName value ++ "' object has no attribute 'get'"⟩

def firstChoice : Json → Converted Json
  | .array (first :: _) => .ok first
  | .string text => .ok (.string (String.ofList (text.toList.take 1)))
  | .object _ => .error ⟨.keyError, "0"⟩
  | value => .error ⟨.typeError,
      "'" ++ python.typeName value ++ "' object is not subscriptable"⟩

def messageOf (body : Json) : Converted (Option Fields) := do
  let fields ← asFields python body
  let choices := orElse (get fields "choices") (.array [])
  if !choices.truthy then return none
  else
    let choice ← asFields python (← firstChoice python choices)
    return some (← asFields python (orElse (get choice "message") (.object [])))

def contentFromResponse (body : Json) : Converted String := do
  match ← messageOf python body with
  | none => return ""
  | some message => return python.str (orElse (get message "content") (.string ""))

def annotationsFromResponse (body : Json) : Converted (List Json) := do
  match ← messageOf python body with
  | none => return []
  | some message =>
      match orElse (get message "annotations") (.array []) with
      | .array items => return items
      | _ => return []

structure Usage where
  promptTokens : Int := 0
  completionTokens : Int := 0
  totalTokens : Int := 0
  deriving DecidableEq

def usageFromResponse (body : Json) : Converted Usage := do
  let fields ← asFields python body
  let usage ← asFields python (orElse (get fields "usage") (.object []))
  let prompt ← python.int
    (orElse (get usage "prompt_tokens") (orElse (get usage "input_tokens") (.number 0)))
  let completion ← python.int
    (orElse (get usage "completion_tokens") (orElse (get usage "output_tokens") (.number 0)))
  let total ← python.int (orElse (get usage "total_tokens") (.number (prompt + completion)))
  return ⟨prompt, completion, total⟩

def parseOutput (content : String) : Converted Fields :=
  match python.loads content with
  | .ok (.object fields) => .ok fields
  | .ok parsed => .ok [("data", parsed)]
  | .error fault =>
      if fault.kind = .jsonDecodeError then .ok [("data", .string content)] else .error fault

def remove (fields : Fields) (key : String) : Fields := fields.filter fun field => field.1 ≠ key

def setDefault (fields : Fields) (key : String) (value : Json) : Fields :=
  if (fields.lookup key).isSome then fields else fields ++ [(key, value)]

def withAnnotations (output : Fields) (annotations : List Json) : Fields :=
  if annotations = [] then remove output "annotations"
  else remove output "annotations" ++ [("annotations", .array annotations)]

def summarize (value : Json) : String :=
  let text := match value with
    | .string text => text
    | value => python.dumps value
  if text.length ≤ 500 then text
  else String.ofList (text.toList.take 500) ++ "...[truncated]"

end Replies

section Requests

structure RetryPolicy (Double : Type) where
  maxRetries : Int
  initialBackoffSeconds : Double
  maxBackoffSeconds : Double

structure CallConfig (Double : Type) where
  defaults : Fields
  timeoutSeconds : Double
  retryPolicy : RetryPolicy Double
  fallbackModels : List Json

/-- The arguments of a call. The prompt is the outcome of `_messages_for_request` and of the
record's validation. -/
structure Call where
  callId : String
  agentName : String
  agentVersion : String
  runtime : Fields
  prompt : Converted Json

structure Request (Double : Type) where
  url : String
  apiKey : Json
  model : Json
  messages : Json
  temperature : Json
  maxTokens : Option Int
  responseFormat : Option Json
  extra : Fields
  timeoutSeconds : Double

inductive CallStatus where
  | started
  | succeeded
  | failed
  deriving DecidableEq

structure ModelCallRecord (Double : Type) where
  callId : String
  model : Json
  status : CallStatus := .started
  error : Option String := none
  usage : Usage := {}
  estimatedCost : Double
  outputSummary : Option String := none
  finishTime : Option Nat := none
  httpStatus : Option Nat := none
  providerRequestId : Option String := none
  latencyMs : Option Nat := none

inductive ModelEvent where
  | started (model : Json)
  | fallback (model previous : Json)
  | succeeded (usage : Usage) (httpStatus latencyMs : Nat) (model : Json)
  | failed (error : String) (httpStatus : Option Nat) (model : Json) (isFallback : Bool)

structure State (Double : Type) where
  requests : List (Request Double) := []
  slept : List Double := []
  saved : List (ModelCallRecord Double) := []
  logs : List ModelEvent := []

variable {Double : Type} (python : Python Double) (config : CallConfig Double) (runtime : Fields)

def setting (key : String) : Json := orElse (get runtime key) (get config.defaults key)

def override (key : String) : Json := (runtime.lookup key).getD (get config.defaults key)

def normalizeOpenaiBaseUrl (baseUrl : Json) : String :=
  let text := Stripping.stripText (python.str (orElse baseUrl (.string "")))
  let normalized := String.ofList (text.toList.reverse.dropWhile (· = '/')).reverse
  if normalized = "" then ""
  else if "/v1".toList.isSuffixOf normalized.toList then normalized
  else normalized ++ "/v1"

def extraPayloadKeys : List String := ["plugins", "tools", "web_search_options"]

def extraPayload : Fields :=
  extraPayloadKeys.filterMap fun key =>
    match get runtime key, get config.defaults key with
    | .null, .null => none
    | .null, value => some (key, value)
    | value, _ => some (key, value)

def maxTokens : Converted (Option Int) :=
  match override config runtime "max_tokens" with
  | .null => .ok none
  | value => (python.int value).map some

def timeoutSeconds : Converted Double :=
  match get runtime "timeout_seconds" with
  | value => if value.truthy then python.float value else .ok config.timeoutSeconds

def buildRequest (messages model : Json) : Converted (Request Double) := do
  let baseUrl := normalizeOpenaiBaseUrl python (setting config runtime "base_url")
  if baseUrl = "" then throw ⟨.valueError, "model base_url is required"⟩
  else
    let maxTokens ← maxTokens python config runtime
    let responseFormat := setting config runtime "response_format"
    let timeoutSeconds ← timeoutSeconds python config runtime
    return {
      url := baseUrl ++ "/chat/completions"
      apiKey := setting config runtime "api_key"
      model
      messages
      temperature := (runtime.lookup "temperature").getD
        ((config.defaults.lookup "temperature").getD (.number 0))
      maxTokens
      responseFormat := if responseFormat.truthy then some responseFormat else none
      extra := extraPayload config runtime
      timeoutSeconds }

variable (script : Nat → Turn) (messages : Json)

def doRequest (model : Json) (state : State Double) :
    Except Raised Answer × State Double :=
  match buildRequest python config runtime messages model with
  | .error fault => (.error (.builtin fault), state)
  | .ok request =>
      (.ok (script state.requests.length).answer,
        { state with requests := state.requests ++ [request] })

/-- Whether another attempt follows: by the status, or else by the exception. -/
def retried : Answer → Bool
  | .response response latencyMs =>
      response.status ∈ retryableStatusCodes ||
        match readResponse response latencyMs with
        | .ok _ => false
        | .error raised => shouldRetry raised
  | .raised raised => shouldRetry raised

def powerLimit : Nat := 1024

def pause (attempt : Nat) (state : State Double) : Except Raised Unit × State Double :=
  if powerLimit ≤ attempt then
    (.error (.builtin ⟨.overflowError, "(34, 'Numerical result out of range')"⟩), state)
  else
    let delay := python.backoff config.retryPolicy.initialBackoffSeconds
      config.retryPolicy.maxBackoffSeconds attempt
    (if (script (state.requests.length - 1)).backoffCancelled then .error .cancelled else .ok (),
      { state with slept := state.slept ++ [delay] })

def attempts (model : Json) : Nat → Nat → State Double → Except Raised Reply × State Double
  | 0, _, state =>
      match doRequest python config runtime script messages model state with
      | (.error raised, state) => (.error raised, state)
      | (.ok answer, state) => (settle answer, state)
  | remaining + 1, attempt, state =>
      match doRequest python config runtime script messages model state with
      -- The request could not be built, which is never retried.
      | (.error raised, state) => (.error raised, state)
      | (.ok answer, state) =>
          if retried answer then
            match pause python config script attempt state with
            | (.error raised, state) => (.error raised, state)
            | (.ok (), state) => attempts model remaining (attempt + 1) state
          else (settle answer, state)

def maxRetries : Converted Nat :=
  match runtime.lookup "max_retries" with
  | none => .ok config.retryPolicy.maxRetries.toNat
  | some value => (python.int value).map Int.toNat

def callWithRetry (model : Json) (state : State Double) :
    Except Raised Reply × State Double :=
  match maxRetries python config runtime with
  | .error fault => (.error (.builtin fault), state)
  | .ok retries => attempts python config runtime script messages model retries 0 state

end Requests

section Complete

variable {Double : Type} (python : Python Double) (config : CallConfig Double) (call : Call)
  (script : Nat → Turn)

structure Completion where
  output : Fields
  usage : Usage

def readBody (body : Json) : Converted Completion := do
  let content ← contentFromResponse python body
  let annotations ← annotationsFromResponse python body
  let usage ← usageFromResponse python body
  let output ← parseOutput python content
  return ⟨withAnnotations output annotations, usage⟩

def costPer1kTokens : Converted Double :=
  let rate := orElse (setting config call.runtime "cost_per_1k_tokens") (.number 0)
  if rate.truthy then python.float rate else .ok python.zero

def agentOutput (output : Fields) : Fields :=
  setDefault
    (setDefault output "agent"
      (.object [("name", .string call.agentName), ("version", .string call.agentVersion)]))
    "model_call_id" (.string call.callId)

def failedRecord (raised : Raised) (record : ModelCallRecord Double) (now : Nat) :
    ModelCallRecord Double :=
  { record with
    status := .failed
    error := some (raised.typeName ++ ": " ++ raised.message)
    httpStatus := raised.httpStatus
    finishTime := some (record.finishTime.getD now) }

/-- The `except` block of `complete`, up to the decision what comes next. -/
def saveFailure (raised : Raised) (isFallback : Bool) (model : Json)
    (record : ModelCallRecord Double) (state : State Double) :
    ModelCallRecord Double × State Double :=
  let record := failedRecord raised record (python.utcNow state.saved.length)
  (record, { state with
    saved := state.saved ++ [record]
    logs := state.logs ++
      [.failed (record.error.getD "") record.httpStatus model isFallback] })

def succeededRecord (reply : Reply) (completion : Completion) (cost : Double)
    (record : ModelCallRecord Double) (now : Nat) : ModelCallRecord Double :=
  { record with
    status := .succeeded
    usage := completion.usage
    estimatedCost := python.estimateCost completion.usage.totalTokens cost
    outputSummary := some (summarize python (.object completion.output))
    finishTime := some now
    httpStatus := some reply.httpStatus
    providerRequestId := reply.providerRequestId
    latencyMs := some reply.latencyMs }

def saveSuccess (reply : Reply) (completion : Completion) (cost : Double) (model : Json)
    (record : ModelCallRecord Double) (state : State Double) : State Double :=
  { state with
    saved := state.saved ++
      [succeededRecord python reply completion cost record (python.utcNow state.saved.length)]
    logs := state.logs ++
      [.succeeded completion.usage reply.httpStatus reply.latencyMs model] }

/-- One turn of the loop of `complete` ends the call, or leaves an exception and the record. -/
inductive EntryEnd (Double : Type) where
  | returned (output : Fields)
  | cancelled
  | failed (raised : Raised) (record : ModelCallRecord Double)

def tryModel (messages : Json) (isFallback : Bool) (model : Json)
    (record : ModelCallRecord Double) (state : State Double) : EntryEnd Double × State Double :=
  let failed (raised : Raised) (record : ModelCallRecord Double) (state : State Double) :=
    let (record, state) := saveFailure python raised isFallback model record state
    (EntryEnd.failed raised record, state)
  match callWithRetry python config call.runtime script messages model state with
  -- A cancellation is no `Exception`: it leaves the record as it was saved last.
  | (.error .cancelled, state) => (.cancelled, state)
  | (.error raised, state) => failed raised record state
  | (.ok reply, state) =>
      match readBody python reply.body with
      | .error fault => failed (.builtin fault) record state
      | .ok completion =>
          match costPer1kTokens python config call with
          | .error fault => failed (.builtin fault) { record with usage := completion.usage } state
          | .ok cost =>
              (.returned (agentOutput call completion.output),
                saveSuccess python reply completion cost model record state)

def resume (next : Raised → ModelCallRecord Double → State Double →
    Except Raised Fields × State Double) :
    EntryEnd Double × State Double → Except Raised Fields × State Double
  | (.returned output, state) => (.ok output, state)
  | (.cancelled, state) => (.error .cancelled, state)
  | (.failed raised record, state) => next raised record state

/-- The loop of `complete` over the models that follow the first one. -/
def tryFallbacks (messages : Json) : List Json → Json → Raised → ModelCallRecord Double →
    State Double → Except Raised Fields × State Double
  | [], _, last, _, state => (.error last, state)
  | model :: rest, previous, last, record, state =>
      if !shouldRetry last then (.error last, state)
      else
        let state := { state with logs := state.logs ++ [.fallback model previous] }
        let record := { record with model, error := none }
        resume (fun raised record state => tryFallbacks messages rest model raised record state)
          (tryModel python config call script messages true model record state)

def sameModel : Json → Json → Bool
  | .null, .null => true
  | .string one, .string other => one = other
  | _, _ => false

def listOf : Json → Converted (List Json)
  | .array items => .ok items
  | .object fields => .ok (fields.map fun field => .string field.1)
  | .string text => .ok (text.toList.map fun char => .string (String.ofList [char]))
  | value => .error ⟨.typeError, "'" ++ python.typeName value ++ "' object is not iterable"⟩

def fallbackModels : Converted (List Json) :=
  match call.runtime.lookup "fallback_models" with
  | none => .ok config.fallbackModels
  | some value => listOf python (orElse value (.array []))

def opening : Converted (List Json × Json) := do
  match orElse (get call.runtime "provider") (.string "openai_compatible") with
  | .string "openai_compatible" =>
      let fallbacks ← fallbackModels python config call
      let messages ← call.prompt
      return (fallbacks.filter fun model =>
        !sameModel (setting config call.runtime "model") model, messages)
  | provider => throw ⟨.valueError, "Unsupported model provider " ++ python.repr provider⟩

def complete : Except Raised Fields × State Double :=
  match opening python config call with
  | .error fault => (.error (.builtin fault), {})
  | .ok (fallbacks, messages) =>
      let model := setting config call.runtime "model"
      let record : ModelCallRecord Double :=
        { callId := call.callId, model, estimatedCost := python.zero }
      let state : State Double := { saved := [record], logs := [.started model] }
      resume (fun raised record state =>
          tryFallbacks python config call script messages fallbacks model raised record state)
        (tryModel python config call script messages false model record state)

end Complete
end AgentTaskPlatform.ModelCalls
