import AgentTaskPlatform.CallbackService

/-!
`RunExecutor`: the attempt loop of one run with its error classification,
error-handler recovery, callback preparation and release of the queue lease.
The run object an `except` clause writes is the one its attempt started with.
-/

namespace AgentTaskPlatform.RunExecutor

open Interleaving Coroutine CallbackService

def attemptLimit (agent : AgentSpec) : Nat := max 1 agent.retryPolicy.maxAttempts

def effectiveTimeout (run : AgentRun) (agent : AgentSpec) : Nat :=
  match run.timeoutSeconds with
  | none => agent.timeoutSeconds
  | some seconds => if seconds = 0 then agent.timeoutSeconds else seconds

def startedRun (run : AgentRun) (attempt now : Nat) : AgentRun :=
  { run with
    status := if attempt = 1 then .running else .retrying
    startTime := run.startTime.or (some now)
    attempts := attempt
    currentStep := some "agent" }

def succeededRun (run : AgentRun) (output : Json) (now : Nat) : AgentRun :=
  { run with
    output := some output
    errorType := none
    errorMessage := none
    deadLetterReason := none
    status := .agentSucceeded
    currentStep := some "callback"
    finishTime := some now }

def retryStatus (attempt attempts : Nat) : RunStatus :=
  if attempt < attempts then .retrying else .failed

def classify (attempt attempts : Nat) (error : Exc) : RunStatus × ErrorType :=
  match error.kind with
  | .externalSideEffectOutcomeUnknownError => (.failed, .sideEffectOutcomeUnknown)
  | .timeoutError => (.timeout, .runTimeout)
  | .registryError =>
      (.failed, if mentions error.message "schema" then .validationError else .agentNotAvailable)
  | .toolExecutionError => (retryStatus attempt attempts, .toolUnavailable)
  | _ =>
      if mentions error.message "validation" || mentions error.message "schema" then
        (.failed, .validationError)
      else if mentions error.message "not found" || mentions error.message "no enabled" then
        (.failed, .routeNotFound)
      else if mentions error.message "permission" || mentions error.message "unauthorized" then
        (.failed, .agentExecutionError)
      else (retryStatus attempt attempts, .agentExecutionError)

theorem retryStatus_cases (attempt attempts : Nat) :
    retryStatus attempt attempts = .retrying ∨ retryStatus attempt attempts = .failed := by
  unfold retryStatus
  split
  · exact Or.inl rfl
  · exact Or.inr rfl

theorem classify_status (attempt attempts : Nat) (error : Exc) :
    (classify attempt attempts error).1 = .retrying ∨
      (classify attempt attempts error).1 = .failed ∨
      (classify attempt attempts error).1 = .timeout := by
  have last := retryStatus_cases attempt attempts
  unfold classify
  cases error.kind with
  | timeoutError => exact Or.inr (Or.inr rfl)
  | externalSideEffectOutcomeUnknownError => exact Or.inr (Or.inl rfl)
  | registryError => exact Or.inr (Or.inl rfl)
  | toolExecutionError => exact last.imp_right Or.inl
  | _ =>
      simp only
      split
      · exact Or.inr (Or.inl rfl)
      · split
        · exact Or.inr (Or.inl rfl)
        · split
          · exact Or.inr (Or.inl rfl)
          · exact last.imp_right Or.inl

def failedRun (run : AgentRun) (attempt attempts timeout : Nat) (error : Exc) : AgentRun :=
  { run with
    status := (classify attempt attempts error).1
    errorType := some (classify attempt attempts error).2
    errorMessage := some (match error.kind with
      | .timeoutError => "Task exceeded timeout_seconds=" ++ toString timeout
      | _ => error.described) }

def handlerKind (error : Exc) : Option String :=
  match error.kind with
  | .externalSideEffectOutcomeUnknownError => none
  | .timeoutError => some "timeout"
  | .registryError => some "validation_error"
  | .toolExecutionError => some "tool_failure"
  | _ => some (if mentions error.message "tool" then "tool_failure" else "agent_error")

def recoveredOutput (run : AgentRun) (result : RunErrorResult) : Json :=
  if result.includeErrorInOutput && !(result.finalOutput.any fun field => field.1 = "_error") then
    .object (result.finalOutput ++
      [("_error", .string (match run.errorMessage with
        | some message => if message = "" then "error handled by recovery" else message
        | none => "error handled by recovery"))])
  else .object result.finalOutput

def recoveredRun (run : AgentRun) (result : RunErrorResult) (now : Nat) : AgentRun :=
  { run with
    output := some (recoveredOutput run result)
    errorType := none
    errorMessage := none
    deadLetterReason := none
    status := .succeeded
    currentStep := some "error_recovery"
    finishTime := some now }

def finishedRun (run : AgentRun) (now : Nat) : AgentRun := { run with finishTime := some now }

def releasedRun (run : AgentRun) : AgentRun :=
  { run with worker := none, leaseExpireTime := none }

def deadRun (run : AgentRun) (reason : String) : AgentRun :=
  { releasedRun run with deadLetterReason := some reason }

def deadReason (run : AgentRun) : String :=
  match run.errorMessage with
  | some message => if message = "" then run.status.value else message
  | none => run.status.value

section Execution

variable (process : Process) (workerId : Option Process)

def updateOwned (site : Site) (run : AgentRun) (expectedStatuses : List RunStatus) :
    Coroutine Bool :=
  updateIfCurrent site { statuses := expectedStatuses, worker := some workerId } run

def markQueueCompleted : Coroutine Unit := do
  let run ← requireRun
  if run.worker.isNone && run.leaseExpireTime.isNone then return ()
  else do
    let _ ← updateOwned workerId .release (releasedRun run) [run.status]
    return ()

def markQueueDead (reason : String) : Coroutine Unit := do
  let run ← requireRun
  let _ ← updateOwned workerId .deadLetter (deadRun run reason) [run.status]
  return ()

def notify (run : AgentRun) : Coroutine AgentRun :=
  if run.callbackUrl.isSome then do
    let prepared ← prepareForRun run
    return prepared.1
  else return run

def finalizeRunWithResult (run : AgentRun) (result : RunErrorResult) : Coroutine AgentRun := do
  let now ← utcNow
  let stored ← updateOwned workerId .recovered (recoveredRun run result now) executingRunStatuses
  if stored then do
    let _ ← notify (recoveredRun run result now)
    markQueueCompleted workerId
    requireRun
  else requireRun

def completeRun (output : Json) : Coroutine AgentRun := do
  let run ← requireRun
  let now ← utcNow
  let stored ← updateOwned workerId .agentSucceeded (succeededRun run output now)
    executingRunStatuses
  if stored then do
    let _ ← prepareForRun (succeededRun run output now)
    markQueueCompleted workerId
    requireRun
  else requireRun

def finishRun (run : AgentRun) : Coroutine AgentRun := do
  let now ← utcNow
  let stored ← updateOwned workerId .finish (finishedRun run now) [run.status]
  if stored then do
    external (.hook "on_run_end")
    let notified ← notify (finishedRun run now)
    if notified.status = .failed || notified.status = .timeout then
      markQueueDead workerId (deadReason notified)
    else markQueueCompleted workerId
    requireRun
  else requireRun

/-- `AgentRuntime.run` under `wait_for`, then the output check. -/
def runAgent (agent : AgentSpec) (run : AgentRun) : Coroutine Json := do
  let cancellationSignal ← perform (.process (.cancellationSignal process))
  let context ← perform (.process (.createContext
    { process := process, run := run, agent := agent, cancellationSignal := cancellationSignal }))
  let output ← external (.agentRun agent context)
  external (.validateAgentOutput agent output)
  return output

def tryErrorHandler (error : Exc) (run : AgentRun) : Coroutine (Option RunErrorResult) :=
  match handlerKind error with
  | none => return none
  | some kind => external (.errorHandler kind error run)

def backOff (agent : AgentSpec) (attempt attempts : Nat) : Coroutine Unit :=
  if attempt < attempts then external (.sleep (agent.retryPolicy.delayForAttempt attempt))
  else return ()

def attemptFrom (agent : AgentSpec) (cancelEvent attempts timeout : Nat) :
    Nat → AgentRun → Coroutine AgentRun
  | 0, run => finishRun workerId run
  | remaining + 1, _ => do
      let attempt := attempts - remaining
      let run ← requireRun
      let canceled ← perform (.process (.isSet cancelEvent))
      if run.status = .canceled || canceled then return run
      else do
        let now ← utcNow
        let started := startedRun run attempt now
        let stored ← updateOwned workerId (.attemptStart attempt) started [run.status]
        if !stored then requireRun
        else do
          external (.hook "on_run_dequeued")
          let outcome ← Fallible.attempt (runAgent process agent started)
          match outcome with
          | .ok output => completeRun workerId output
          | .error error =>
              if error.kind = .runCancelledError then requireRun
              else if error.kind = .cancelledError then raise error
              else do
                let failed := failedRun started attempt attempts timeout error
                let recovery ← tryErrorHandler error failed
                match recovery with
                | some result => finalizeRunWithResult workerId failed result
                | none => do
                    let recorded ← updateOwned workerId (.attemptFailed attempt attempts error)
                      failed executingRunStatuses
                    if !recorded then requireRun
                    else if !(classify attempt attempts error).2.isRetryable then
                      finishRun workerId failed
                    else do
                      backOff agent attempt attempts
                      attemptFrom agent cancelEvent attempts timeout remaining failed

def executeWithCancel (run : AgentRun) (agent : AgentSpec) (cancelEvent : Nat) :
    Coroutine AgentRun :=
  attemptFrom process workerId agent cancelEvent (attemptLimit agent)
    (effectiveTimeout run agent) (attemptLimit agent - run.attempts) run

def execute (agentName agentVersion : String) : Coroutine AgentRun := do
  let run ← requireRun
  let agent ← external (.getAgent agentName agentVersion)
  let cancelEvent ← perform (.process (.registerEvent process))
  Fallible.finallyDo (executeWithCancel process workerId run agent cancelEvent)
    (perform (.process (.dropEvent process cancelEvent)))

end Execution

end AgentTaskPlatform.RunExecutor
