import AgentTaskPlatform.RunExecutor

/-!
`RunManager`: the local and queued start of executions, cancellation, retry,
recovery, lease reclaim and lease renewal.
-/

namespace AgentTaskPlatform.RunManager

open Interleaving Coroutine

def runNow (process : Process) (workerId : Option Process) : Coroutine AgentRun := do
  let run ← requireRun
  if run.status.terminal then return run
  else do
    let agent ← external (.resolveAgent run.routeTag (run.agent.map AgentRef.version))
    -- Scheduler slots; the row may change while the run waits for them.
    external .admission
    RunExecutor.execute process workerId agent.name agent.version

def brokenRun (run : AgentRun) (error : Exc) : AgentRun :=
  { run with
    status := .failed
    errorType := some .internalError
    errorMessage := some error.described }

def runBackground (process : Process) (workerId : Option Process) : Coroutine Json := do
  let outcome ← Fallible.attempt (runNow process workerId)
  match outcome with
  | .ok _ => return .null
  | .error error =>
      if error.isException then do
        let run ← requireRun
        let _ ← updateIfCurrent .backgroundFailure
          { statuses := executingRunStatuses ++ [.queued], worker := some workerId }
          (brokenRun run error)
        return .null
      else raise error

def renewLease (process : Process) (leaseSeconds : Nat) : Coroutine Json := do
  let now ← utcNow
  let entity ← perform (.run (.renewSelect process))
  match entity with
  | none => return .bool false
  | some loaded => do
      perform (.run (.renewUpdate loaded (now + leaseSeconds)))
      return .bool true

def canceledRun (run : AgentRun) (now : Nat) : AgentRun :=
  { run with
    status := .canceled
    finishTime := some now
    worker := none
    leaseExpireTime := none }

def cancelFrom (process : Process) : Nat → Coroutine Json
  | 0 => raise (.runtime "Run changed repeatedly while cancellation was requested")
  | rounds + 1 => do
      let run ← requireRun
      if run.status.terminal then return .null
      else do
        let now ← utcNow
        let stored ← updateIfCurrent .cancel { statuses := [run.status] } (canceledRun run now)
        if stored then do
          perform (.process (.setEvent process))
          return .null
        else cancelFrom process rounds

def cancel (process : Process) : Coroutine Json := cancelFrom process 10

def retriedRun (run : AgentRun) (agent : AgentSpec) (now : Nat) : AgentRun :=
  { run with
    status := .queued
    errorType := none
    errorMessage := none
    deadLetterReason := none
    attempts := 0
    queueTime := some now
    runAfter := some now
    maxAttempts := agent.retryPolicy.maxAttempts
    worker := none
    leaseExpireTime := none }

def retryable (run : AgentRun) : Bool :=
  (run.status = .failed || run.status = .timeout || run.status = .waitingCallback) &&
    run.errorType != some .sideEffectOutcomeUnknown

def retry : Coroutine Json := do
  let run ← requireRun
  if retryable run then do
    let agent ← external (.resolveAgent run.routeTag (run.agent.map AgentRef.version))
    let now ← utcNow
    perform (.run (.retry (retriedRun run agent now)))
    return .null
  else return .null

def recoverable (run : AgentRun) : Bool :=
  run.status = .created || run.status = .queued || run.status.executing

def leased (run : AgentRun) (now : Nat) : Bool :=
  run.worker.isSome && run.leaseExpireTime.any (now < ·)

def requeuedRun (run : AgentRun) (agent : AgentSpec) (now : Nat) : AgentRun :=
  { run with
    status := .queued
    attempts := if run.status.executing then run.attempts - 1 else run.attempts
    queueTime := run.queueTime.or (some now)
    runAfter := run.runAfter.or (run.queueTime.or (some now))
    maxAttempts := agent.retryPolicy.maxAttempts
    worker := none
    leaseExpireTime := none }

/-- The columns a recovery compares with its own read. -/
def unchanged (run : AgentRun) : Expected where
  statuses := [run.status]
  worker := some run.worker
  leaseExpireTime := some run.leaseExpireTime

def recoverIncomplete : Coroutine Json := do
  let run ← requireRun
  if recoverable run then do
    let now ← utcNow
    if leased run now then return .null
    else do
      let resolved ← Fallible.attempt
        (external (.resolveAgent run.routeTag (run.agent.map AgentRef.version)))
      match resolved with
      | .error error => if error.kind = .registryError then return .null else raise error
      | .ok agent => do
          let _ ← updateIfCurrent .recover (unchanged run) (requeuedRun run agent now)
          return .null
  else return .null

def reclaimedRun (run : AgentRun) : AgentRun :=
  { run with
    status := .queued
    attempts := run.attempts - 1
    worker := none
    leaseExpireTime := none }

def leaseExpired (run : AgentRun) (now : Nat) : Bool :=
  run.leaseExpireTime.any (· ≤ now)

def reclaimExpiredLeases (process : Process) : Coroutine Json := do
  let now ← utcNow
  let run ← requireRun
  if run.status.executing && leaseExpired run now then do
    let active ← external (.isRunning process)
    if active then return .null
    else do
      let _ ← updateIfCurrent .reclaim (unchanged run) (reclaimedRun run)
      return .null
  else return .null

def resendCallback (settings : CallbackService.Settings) : Coroutine Json := do
  let run ← requireRun
  CallbackService.resend settings run
  return .null

end AgentTaskPlatform.RunManager
