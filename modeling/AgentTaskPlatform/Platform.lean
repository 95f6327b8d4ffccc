import AgentTaskPlatform.RunManager
import AgentTaskPlatform.StageRunner
import AgentTaskPlatform.ToolGateway

/-!
The platform around one run: processes that share a database, each with one
event loop. The environment starts executions, manager calls and callback
dispatch, lets time pass, and chooses the answers of external code. An agent is
the most general client of its contexts: while an attempt or any orphan of it
lives, tool calls, stages and checkpoints may start at any moment. A process
that restarts after a crash has a new worker id and so a new name.
-/

namespace AgentTaskPlatform

open Interleaving

inductive Role where
  /-- A background task of the manager; a queue execution has its worker id. -/
  | background (workerId : Option Process)
  /-- A direct `run_now` call, which the manager does not register. -/
  | direct
  | renewal
  | toolCall (context : Nat)
  | stage (context : Nat) (stageKey : String)
  | checkpoint (context : Nat)
  | cancel
  | retry
  | recover
  | reclaim
  | resend
  | delivery
  | prepare
  deriving DecidableEq, Repr

structure Tag where
  process : Process
  role : Role
  deriving DecidableEq, Repr

inductive Entry where
  | tick (elapsed : Nat)
  | dispatchReady (process : Process) (leaseSeconds : Nat)
  | runBackground (process : Process)
  | runNow (process : Process)
  | renewal (process : Process)
  | shutdown (process : Process)
  | cancel (process : Process)
  | retry (process : Process)
  | recoverIncomplete (process : Process)
  | reclaimExpiredLeases (process : Process)
  | resendCallback (process : Process)
  | dispatchPending (process : Process) (workerId : String) (leaseSeconds : Nat)
  | dispatchDelivery (index : Nat)
  | prepareForRun (process : Process)
  | prune (eventIds : List Uuid)
  | toolCall (context : Nat) (toolName : String) (input : Json) (idempotencyKey : Option String)
  | runStage (context : Nat) (stageKey : String) (stageInput : PyValue)
      (definitionVersion : String) (maxAttempts : Option Nat) (idempotencyKey : Option String)
  | saveCheckpoint (context : Nat) (stageKey : String) (executionId : Uuid)
      (checkpoint : PyValue)

structure Deployment where
  digest : Digest
  callbacks : CallbackService.Settings

abbrev Activity := Thread platform Tag (Except Exc Json)

abbrev PlatformConfig := Config platform State Tag (Except Exc Json)

abbrev PlatformEvent := Event platform State Tag Entry

def claimable (run : AgentRun) (now : Nat) : Bool :=
  (run.status = .queued && run.runAfter.all (· ≤ now)) ||
    (run.status.executing && run.leaseExpireTime.any (· ≤ now))

def claimedRun (run : AgentRun) (worker : Process) (now leaseSeconds : Nat) : AgentRun :=
  { run with
    status := .running
    attempts := if run.status.executing then run.attempts - 1 else run.attempts
    worker := some worker
    leaseExpireTime := some (now + leaseSeconds)
    startTime := run.startTime.or (some now) }

namespace State

def claimReady (state : State) (process : Process) (leaseSeconds : Nat) : State :=
  { state with
    run := claimedRun state.run process state.clock leaseSeconds
    leaseSeconds := setAt state.leaseSeconds process (some leaseSeconds) }

def shutdown (state : State) (process : Process) : State :=
  match state.signals process with
  | none => state
  | some event => { state with signalSet := setAt state.signalSet event true }

end State

def Role.isBackground : Role → Bool
  | .background _ => true
  | _ => false

def Role.executes : Role → Option Process → Prop
  | .background workerId, worker => workerId = worker
  | .direct, worker => worker = none
  | _, _ => False

def active (config : PlatformConfig) (process : Process) : Bool :=
  config.threads.any fun thread =>
    thread.tag.process = process && thread.tag.role.isBackground && !thread.program.finished

def idle (config : PlatformConfig) (process : Process) : Bool :=
  config.threads.all fun thread =>
    thread.tag.process != process || match thread.program with
      | .ret _ => true
      | .act op _ => Op.awaits op

def activity (process : Process) (role : Role) (program : Coroutine Json) : Option Activity :=
  some { tag := { process := process, role := role }, program := program }

section Deployed

variable (deployment : Deployment)

def Entry.process (config : PlatformConfig) : Entry → Option Process
  | .tick _ => none
  | .dispatchReady process _ => some process
  | .runBackground process => some process
  | .runNow process => some process
  | .renewal process => some process
  | .shutdown process => some process
  | .cancel process => some process
  | .retry process => some process
  | .recoverIncomplete process => some process
  | .reclaimExpiredLeases process => some process
  | .resendCallback process => some process
  | .dispatchPending process _ _ => some process
  | .dispatchDelivery index => (config.state.claimed[index]?).map Prod.fst
  | .prepareForRun process => some process
  | .prune _ => none
  | .toolCall context _ _ _ => (config.state.contexts[context]?).map AgentContext.process
  | .runStage context _ _ _ _ _ => (config.state.contexts[context]?).map AgentContext.process
  | .saveCheckpoint context _ _ _ => (config.state.contexts[context]?).map AgentContext.process

def Entry.start (config : PlatformConfig) : Entry → Option (State × Option Activity)
  | .tick elapsed => some ({ config.state with clock := config.state.clock + elapsed }, none)
  | .dispatchReady process leaseSeconds =>
      if active config process || !claimable config.state.run config.state.clock then none
      else some (config.state.claimReady process leaseSeconds,
        activity process (.background (some process))
          (RunManager.runBackground process (some process)))
  | .runBackground process =>
      if active config process then none
      else some (config.state,
        activity process (.background none) (RunManager.runBackground process none))
  | .runNow process =>
      some (config.state, activity process .direct (do
        let _ ← RunManager.runNow process none
        return .null))
  | .renewal process =>
      match config.state.leaseSeconds process with
      | none => none
      | some leaseSeconds =>
          if leaseSeconds = 0 then none
          else some (config.state,
            activity process .renewal (RunManager.renewLease process leaseSeconds))
  | .shutdown process => some (config.state.shutdown process, none)
  | .cancel process =>
      some (config.state, activity process .cancel (RunManager.cancel process))
  | .retry process => some (config.state, activity process .retry RunManager.retry)
  | .recoverIncomplete process =>
      some (config.state, activity process .recover RunManager.recoverIncomplete)
  | .reclaimExpiredLeases process =>
      some (config.state, activity process .reclaim (RunManager.reclaimExpiredLeases process))
  | .resendCallback process =>
      some (config.state,
        activity process .resend (RunManager.resendCallback deployment.callbacks))
  | .dispatchPending process workerId leaseSeconds =>
      some (config.state.claimPending process workerId leaseSeconds
        deployment.callbacks.maxAttempts, none)
  | .dispatchDelivery index =>
      match config.state.claimed[index]? with
      | none => none
      | some (process, delivery) =>
          some ({ config.state with claimed := config.state.claimed.eraseIdx index },
            activity process .delivery (do
              let _ ← CallbackService.dispatchDelivery deployment.callbacks delivery
              return .null))
  | .prepareForRun process =>
      some (config.state, activity process .prepare (do
        let run ← Coroutine.requireRun
        let _ ← CallbackService.prepareForRun run
        return .null))
  | .prune eventIds => some (config.state.prune eventIds, none)
  | .toolCall index toolName input idempotencyKey =>
      match config.state.contexts[index]? with
      | none => none
      | some context =>
          some (config.state, activity context.process (.toolCall index)
            (ToolGateway.call deployment.digest context toolName input idempotencyKey))
  | .runStage index stageKey stageInput definitionVersion maxAttempts idempotencyKey =>
      match config.state.contexts[index]? with
      | none => none
      | some context =>
          some (config.state, activity context.process (.stage index stageKey)
            (StageRunner.runStage deployment.digest index context stageKey stageInput
              definitionVersion maxAttempts idempotencyKey))
  | .saveCheckpoint index stageKey executionId checkpoint =>
      match config.state.contexts[index]? with
      | none => none
      | some context =>
          some (config.state, activity context.process (.checkpoint index)
            (StageRunner.saveCheckpoint context stageKey executionId checkpoint))

def Entry.launch (entry : Entry) (config : PlatformConfig) : Option (State × Option Activity) :=
  if (entry.process config).all (idle config) then entry.start deployment config else none

def platformSystem (admitted : Entry → Bool) :
    System platform State Tag Entry Process (Except Exc Json) where
  perform _ op oracle state := Op.perform op oracle state
  yields := Op.awaits
  loop := Tag.process
  launch entry config := if admitted entry then entry.launch deployment config else none

end Deployed

def atRest (state : State) : PlatformConfig := { state := state, threads := [] }

def State.initial (run : AgentRun) (clock : Nat) (conversation : Option String) : State where
  clock := clock
  nextId := 0
  run := run
  stages := KeyedTable.Table.empty
  callbacks := KeyedTable.Table.empty
  conversation := conversation
  signals := fun _ => none
  signalSet := fun _ => false
  leaseSeconds := fun _ => none
  contexts := []
  claimed := []

section Replay

def smooth (agent : AgentSpec) (tool : ToolSpec) : (op : External) → op.Result
  | .resolveAgent _ _ => agent
  | .getAgent _ _ => agent
  | .admission => ()
  | .hook _ => ()
  | .agentRun _ _ => .object []
  | .validateAgentOutput _ _ => ()
  | .errorHandler _ _ _ => none
  | .sleep _ => ()
  | .isRunning _ => false
  | .getTool _ => tool
  | .validateToolInput _ _ => ()
  | .fallbackIfBreakerOpen _ => none
  | .validateToolOutput _ _ => ()
  | .acquireQps _ => ()
  | .inputGuardrails _ _ => none
  | .acquireSlots _ => ()
  | .invoke _ _ _ => []
  | .outputGuardrails _ _ => none
  | .failureHandler _ _ => none
  | .operation _ _ => .json .null
  | .validateUrl _ => ()
  | .post _ _ => ()

/-- External answers as an oracle. Operations on the shared state ignore it; what
it holds for them is read off an arbitrary state. -/
def answering (state : State) (answers : (op : External) → Except Exc op.Result) :
    (op : Op) → op.Answer
  | .run op => (op.perform state).1
  | .stage op => (op.perform state).1
  | .callback op => (op.perform state).1
  | .process op => (op.perform state).1
  | .external op => answers op

def sampleAgent : AgentSpec := { name := "echo", version := "1.0.0", routeTags := ["echo"] }

def sampleTool : ToolSpec := { name := "lookup" }

def sampleRun : AgentRun :=
  { runId := "RUN-1", routeTag := "echo", requestId := "REQ-1", status := .queued }

def sampleDeployment : Deployment where
  digest := { stableHash := fun _ => "0f", sha256 := fun text => text }
  callbacks := {}

def calm : (op : External) → Except Exc op.Result :=
  fun op => .ok (smooth sampleAgent sampleTool op)

def persistent : (op : External) → Except Exc op.Result :=
  fun op => .ok (smooth { sampleAgent with retryPolicy := { maxAttempts := 2 } } sampleTool op)

def subscribedRun : AgentRun :=
  { sampleRun with callback := some { url := some "https://receiver" } }

def refusing : (op : External) → Except Exc op.Result
  | .post _ _ => .error (.runtime "HTTP 503")
  | op => calm op

def failing : (op : External) → Except Exc op.Result
  | .agentRun _ _ => .error (.runtime "no answer")
  | op => calm op

def steps (count thread : Nat)
    (answers : (op : External) → Except Exc op.Result) : List (Move platform Entry) :=
  List.replicate count (.act thread (answering (State.initial sampleRun 0 none) answers))

end Replay

end AgentTaskPlatform
