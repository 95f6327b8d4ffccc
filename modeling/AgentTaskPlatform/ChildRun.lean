import AgentTaskPlatform.Activities
import AgentTaskPlatform.Registry

/-!
A run that another run's stage waits for. `run_child_agent` looks up the agent, submits the
child and drives it with `run_now`; the child is a run like any other, so every writer of the
platform may move its row meanwhile. The row is there already, as after a crash of the parent.
What the parent's stage stores is taken from the result of the call, at some moment after the
call has returned.
-/

namespace AgentTaskPlatform

open Interleaving Coroutine

def ErrorType.value : ErrorType → String
  | .validationError => "VALIDATION_ERROR"
  | .routeNotFound => "ROUTE_NOT_FOUND"
  | .agentNotAvailable => "AGENT_NOT_AVAILABLE"
  | .agentExecutionError => "AGENT_EXECUTION_ERROR"
  | .toolUnavailable => "TOOL_UNAVAILABLE"
  | .runTimeout => "RUN_TIMEOUT"
  | .sideEffectOutcomeUnknown => "SIDE_EFFECT_OUTCOME_UNKNOWN"
  | .internalError => "INTERNAL_ERROR"

namespace ChildRun

open Registry

structure Outside where
  versioning : Versioning
  /-- `validate` against the input schema of the agent, if it has one: the message of a
  `ValidationError`, or another exception. -/
  validate : AgentSpec → Json → Except Exc (Option String)

structure ChildCall where
  /-- The run of the parent. -/
  runId : String
  effectiveStageKey : String
  agentName : String
  version : Option String
  inputData : Json
  agentSpec : Option AgentSpec := none
  /-- The registry that is found before the stage, and the one that is found in it. -/
  upfront : Option AgentRegistry
  registry : Option AgentRegistry
  /-- The child's timeout as text. -/
  timeout : String

section Lookup

variable (outside : Outside) (call : ChildCall)

def childResult (runId : String) (agent : AgentRef) (status : String) (output : Json)
    (errorType errorMessage : Json) : Json :=
  .object [("status", .string status), ("output", output), ("error_type", errorType),
    ("error_message", errorMessage), ("run_id", .string runId),
    ("agent", .object [("name", .string agent.name), ("version", .string agent.version)])]

def targetSpec : Option AgentSpec :=
  call.agentSpec.or (call.upfront.bind fun registry =>
    match call.version with
    | none => (getAgent outside.versioning registry call.agentName none).toOption
    | some version => registry.agents.find ⟨call.agentName, version⟩)

/-- A result that is returned before the child is submitted. -/
def refusal (agent : AgentRef) (errorType errorMessage : String) : Json :=
  childResult (call.runId ++ ":child:" ++ call.effectiveStageKey) agent "FAILED" .null
    (.string errorType) (.string errorMessage)

def unresolved (message : String) : Json :=
  refusal call ⟨call.agentName, (call.version.filter (· ≠ "")).getD "unknown"⟩ "AGENT_NOT_FOUND"
    message

def resolveTarget : Except Json AgentSpec :=
  match targetSpec outside call, call.registry with
  | some target, _ => .ok target
  | none, some registry =>
      (getAgent outside.versioning registry call.agentName call.version).mapError fun exc =>
        unresolved call exc.message
  | none, none => .error (unresolved call ("Agent '" ++ call.agentName ++ "' (version=" ++
      (call.version.elim "None" fun version => "'" ++ version ++ "'") ++ ") is not registered"))

/-- The agent to run, or the result that the step returns at once. -/
def findTarget : Except Exc (Except Json AgentSpec) := do
  match resolveTarget outside call with
  | .error result => return .error result
  | .ok target =>
      if target.enabled then
        match ← outside.validate target call.inputData with
        | none => return .ok target
        | some message => return .error (refusal call target.ref "VALIDATION_ERROR"
            ("Child agent input validation failed: " ++ message))
      else return .error (refusal call target.ref "AGENT_DISABLED"
        ("Agent " ++ target.name ++ "@" ++ target.version ++ " is disabled"))

end Lookup

structure Submitted where
  runId : String
  target : AgentSpec
  timeout : String

def orElse (message : Option String) (default : String) : Json :=
  match message with
  | none => .string default
  | some text => .string (if text = "" then default else text)

def Submitted.result (child : Submitted) (status : String) (output errorType errorMessage : Json) :
    Json :=
  childResult child.runId child.target.ref status output errorType errorMessage

def completedResult (child : Submitted) (run : AgentRun) : Json :=
  match run.status with
  | .succeeded | .agentSucceeded =>
      child.result "SUCCEEDED" (run.output.getD .null) .null .null
  | .timeout =>
      child.result "TIMEOUT" .null (.string "TIMEOUT")
        (orElse run.errorMessage ("Child agent timed out after " ++ child.timeout ++ "s"))
  | status =>
      child.result "FAILED" .null
        (.string ((run.errorType.map ErrorType.value).getD "EXECUTION_ERROR"))
        (orElse run.errorMessage ("Child run finished with status " ++ status.value))

def brokenResult (child : Submitted) (error : Exc) : Json :=
  child.result "FAILED" .null (.string "EXECUTION_ERROR") (.string error.message)

def driveChild (process : Process) (child : Submitted) : Coroutine Json := do
  let outcome ← Fallible.attempt (RunManager.runNow process none)
  match outcome with
  | .ok run => return completedResult child run
  | .error error =>
      if error.kind = .cancelledError || error.kind = .runCancelledError then do
        let _ ← RunManager.cancel process
        raise error
      else return brokenResult child error

def runChildAgent (outside : Outside) (process : Process) (call : ChildCall) : Coroutine Json :=
  match findTarget outside call with
  | .error error => raise error
  | .ok (.error result) => return result
  | .ok (.ok target) => do
      -- `submit` returns the run of the request.
      let child ← requireRun
      driveChild process ⟨child.runId, target, call.timeout⟩

/-- The platform around the child's row, with the results that stages have stored. -/
structure Nest where
  shared : State
  recorded : List Json

structure NestTag where
  tag : Tag
  /-- The thread is a call of `run_child_agent`. -/
  child : Bool

inductive NestEntry where
  | platform (entry : Entry)
  | runChildAgent (process : Process) (call : ChildCall)
  /-- The parent's stage stores the result that the call has returned. -/
  | record (thread : Nat)

abbrev NestThread := Thread platform NestTag (Except Exc Json)

abbrev NestConfig := Config platform Nest NestTag (Except Exc Json)

namespace Nest

def atRest (nest : Nest) : NestConfig := { state := nest, threads := [] }

def platformConfig (config : NestConfig) : PlatformConfig :=
  { state := config.state.shared
    threads := config.threads.map fun thread => ⟨thread.tag.tag, thread.program⟩ }

section Deployed

variable (outside : Outside) (deployment : Deployment) (admitted : Entry → Bool)

def launch : NestEntry → NestConfig → Option (Nest × Option NestThread)
  | .platform entry, config =>
      match (platformSystem deployment admitted).launch entry (platformConfig config) with
      | none => none
      | some (state, spawned) =>
          some ({ config.state with shared := state },
            spawned.map fun thread => ⟨⟨thread.tag, false⟩, thread.program⟩)
  | .runChildAgent process call, config =>
      if idle (platformConfig config) process then
        some (config.state, some ⟨⟨⟨process, .direct⟩, true⟩,
          ChildRun.runChildAgent outside process call⟩)
      else none
  | .record thread, config =>
      match config.threads[thread]? with
      | some ⟨⟨_, true⟩, .ret (.ok result)⟩ =>
          some ({ config.state with recorded := config.state.recorded ++ [result] }, none)
      | _ => none

def nestSystem : System platform Nest NestTag NestEntry Process (Except Exc Json) where
  perform _ op oracle nest :=
    let outcome := Op.perform op oracle nest.shared
    (outcome.1, { nest with shared := outcome.2 })
  yields := Op.awaits
  loop tag := tag.tag.process
  launch := launch outside deployment admitted

variable {outside deployment admitted} {config : NestConfig}

theorem launch_platform {entry : Entry} {nest : Nest} {thread : NestThread}
    (launched : (nestSystem outside deployment admitted).launch (.platform entry) config =
      some (nest, some thread)) : thread.tag.child = false := by
  simp only [nestSystem, launch] at launched
  split at launched
  · cases launched
  · next state spawned started =>
      simp only [Option.some.injEq, Prod.mk.injEq, Option.map_eq_some_iff] at launched
      obtain ⟨_, own, _, rfl⟩ := launched
      rfl

theorem launch_child {process : Process} {call : ChildCall} {nest : Nest} {thread : NestThread}
    (launched : (nestSystem outside deployment admitted).launch (.runChildAgent process call)
      config = some (nest, some thread)) :
    thread.tag.child = true ∧
      thread.program = ChildRun.runChildAgent outside process call := by
  simp only [nestSystem, launch] at launched
  split at launched
  · cases launched
    exact ⟨rfl, rfl⟩
  · cases launched

theorem launch_record {index : Nat} {nest : Nest} {spawned : Option NestThread}
    (launched : (nestSystem outside deployment admitted).launch (.record index) config =
      some (nest, spawned)) :
    ∃ tag result, config.threads[index]? = some ⟨⟨tag, true⟩, .ret (.ok result)⟩ ∧
      nest = { config.state with recorded := config.state.recorded ++ [result] } ∧
      spawned = none := by
  simp only [nestSystem, launch] at launched
  split at launched
  · next tag result present =>
      cases launched
      exact ⟨tag, result, present, rfl, rfl⟩
  · cases launched

end Deployed

end Nest

end ChildRun

end AgentTaskPlatform
