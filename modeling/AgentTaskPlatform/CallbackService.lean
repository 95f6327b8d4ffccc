import AgentTaskPlatform.Store

/-!
`CallbackService`: preparation and delivery of completion callbacks. A method
that mutates the run object it is given returns the object.
-/

namespace AgentTaskPlatform.CallbackService

open Interleaving Coroutine

structure Settings where
  timeoutSeconds : Nat := 10
  maxAttempts : Nat := 3
  backoffSeconds : Nat := 1
  backoffType : String := "exponential"

namespace Settings

def delayForAttempt (settings : Settings) (attempt : Nat) : Nat :=
  if settings.backoffType = "exponential" then settings.backoffSeconds * 2 ^ (attempt - 1)
  else settings.backoffSeconds * attempt

end Settings

def settledStatus (run : AgentRun) : RunStatus :=
  if run.status = .agentSucceeded || run.status = .waitingCallback then
    if run.errorType = some .runTimeout then .timeout
    else if run.errorType.isSome then .failed
    else .succeeded
  else run.status

def runEvent (run : AgentRun) : String :=
  match run.status with
  | .waitingCallback => if run.errorType.isSome then "failed" else "succeeded"
  | .succeeded => "succeeded"
  | .agentSucceeded => "succeeded"
  | .failed => "failed"
  | .timeout => "failed"
  | .canceled => "canceled"
  | _ => "unknown"

def requestedEvents (run : AgentRun) : List String :=
  match run.callback with
  | none => []
  | some callback => if callback.events = [] then ["succeeded", "failed"] else callback.events

def subscribes (run : AgentRun) : Bool :=
  run.callbackUrl.isSome && (requestedEvents run).contains (runEvent run)

def finishedAt (run : AgentRun) : Coroutine Nat :=
  match run.finishTime with
  | some time => return time
  | none => utcNow

def payload (run : AgentRun) (eventId : Uuid) : Coroutine CallbackPayload := do
  let conversation ← perform (.process .conversation)
  let finishedAt ← finishedAt run
  return {
    eventId := eventId
    externalId := conversation.getD run.requestId
    requestId := run.requestId
    conversationId := run.conversationId
    runId := run.runId
    routeTag := run.routeTag
    status := runEvent run
    output := run.output
    agentName := run.agent.map AgentRef.name
    agentVersion := run.agent.map AgentRef.version
    finishedAt := finishedAt }

def tells (body : CallbackPayload) (run : AgentRun) : Prop :=
  body.status = runEvent run ∧ body.output = run.output

def skipped (run : AgentRun) : AgentRun :=
  { run with
    callbackStatus := .skipped
    status := if run.status = .agentSucceeded || run.status = .waitingCallback then
      settledStatus run else run.status }

def skipCallback (run : AgentRun) : Coroutine AgentRun := do
  let _ ← updateIfCurrent .skipCallback
    { statuses := [run.status], worker := some run.worker } (skipped run)
  return skipped run

/-- The row that announces a delivery. A failure stays a failure while its
notification is pending. -/
def announced (run : AgentRun) (eventId : Uuid) : AgentRun :=
  { run with
    callbackEventId := some eventId
    callbackStatus := .pending
    status := if run.status = .agentSucceeded || run.status = .succeeded then
      .waitingCallback else run.status }

def deliveryFor (existing : Option CallbackDelivery) (eventId : Uuid) (url : String)
    (body : CallbackPayload) (now : Nat) : CallbackDelivery :=
  match existing with
  | some delivery =>
      { delivery with
        url := url
        payload := some (delivery.payload.getD body)
        runAfter := now
        worker := none
        leaseExpireTime := none }
  | none =>
      { eventId := eventId
        url := url
        payload := some body
        runAfter := now }

def eventIdFor (run : AgentRun) : Coroutine Uuid :=
  match run.callbackEventId with
  | some eventId => return eventId
  | none => uuid4

def prepareForRun (run : AgentRun) : Coroutine (AgentRun × Option CallbackDelivery) :=
  match run.callbackUrl with
  | none => do
      let run ← skipCallback run
      return (run, none)
  | some url =>
      if (requestedEvents run).contains (runEvent run) then do
        let eventId ← eventIdFor run
        let body ← payload { run with callbackEventId := some eventId } eventId
        let existing ← perform (.callback (.get eventId))
        let now ← utcNow
        let stored ← perform (.run (.updateRunWithCallback .prepareCallback
          { statuses := [run.status], worker := some run.worker } (announced run eventId)
          (deliveryFor existing eventId url body now)))
        return (announced run eventId,
          if stored then some (deliveryFor existing eventId url body now) else none)
      else do
        let run ← skipCallback run
        return (run, none)

section Dispatch

variable (settings : Settings)

def failedDelivery (delivery : CallbackDelivery) (attempt : Nat) (error : Exc) (now : Nat) :
    CallbackDelivery :=
  { delivery with
    attempts := attempt
    status := .failed
    lastError := some error.described
    runAfter := now + settings.delayForAttempt attempt }

def settled (run : AgentRun) (now : Nat) : AgentRun :=
  { run with
    callbackStatus := .delivered
    status := settledStatus run
    finishTime := run.finishTime.or (some now) }

def deliveredDelivery (delivery : CallbackDelivery) (attempt : Nat) : CallbackDelivery :=
  { delivery with
    attempts := attempt
    status := .delivered
    lastError := none
    worker := none
    leaseExpireTime := none }

def pause (attempt : Nat) : Coroutine Unit :=
  if attempt < settings.maxAttempts then external (.sleep (settings.delayForAttempt attempt))
  else return ()

def recordFailure (delivery : CallbackDelivery) (attempt : Nat) (error : Exc) :
    Coroutine CallbackDelivery := do
  let now ← utcNow
  perform (.callback (.save (failedDelivery settings delivery attempt error now)))
  pause settings attempt
  return failedDelivery settings delivery attempt error now

def postOnce (delivery : CallbackDelivery) (body : CallbackPayload) : Coroutine Unit := do
  external (.validateUrl delivery.url)
  external (.post delivery body)

def saveUnless (stored : Bool) (delivery : CallbackDelivery) : Coroutine Unit :=
  if stored then return () else perform (.callback (.save delivery))

def deliverFrom (body : CallbackPayload) :
    Nat → AgentRun → CallbackDelivery → Coroutine CallbackDelivery
  | 0, run, delivery => do
      let _ ← updateIfCurrent .exhausted { statuses := [run.status] }
        { run with callbackStatus := .failed }
      perform (.callback (.save { delivery with worker := none, leaseExpireTime := none }))
      external (.hook "on_callback_end")
      return { delivery with worker := none, leaseExpireTime := none }
  | remaining + 1, run, delivery => do
      let attempt := settings.maxAttempts - remaining
      let posted ← Fallible.attempt (postOnce delivery body)
      match posted with
      | .error error =>
          if error.isException then do
            let failed ← recordFailure settings delivery attempt error
            deliverFrom body remaining run failed
          else raise error
      | .ok _ => do
          let now ← utcNow
          let stored ← perform (.run (.updateRunWithCallback .delivered
            { statuses := [run.status] } (settled run now) (deliveredDelivery delivery attempt)))
          saveUnless stored (deliveredDelivery delivery attempt)
          -- A hook that raises here fails a delivery that has been acknowledged.
          let ended ← Fallible.attempt (external (.hook "on_callback_end"))
          match ended with
          | .ok _ => return deliveredDelivery delivery attempt
          | .error error =>
              if error.isException then do
                let failed ← recordFailure settings (deliveredDelivery delivery attempt) attempt
                  error
                deliverFrom body remaining (settled run now) failed
              else raise error

def bodyFor (run : AgentRun) (delivery : CallbackDelivery) : Coroutine CallbackPayload :=
  match delivery.payload with
  | some body => return body
  | none => payload run delivery.eventId

def dispatchDelivery (delivery : CallbackDelivery) : Coroutine CallbackDelivery := do
  let run ← requireRun
  let body ← bodyFor run delivery
  external (.hook "on_callback_start")
  deliverFrom settings body (settings.maxAttempts - delivery.attempts) run delivery

def dispatchForRun (run : AgentRun) : Coroutine Unit := do
  let prepared ← prepareForRun run
  match prepared.2 with
  | none => return ()
  | some delivery => do
      let _ ← dispatchDelivery settings delivery
      return ()

def resent (delivery : CallbackDelivery) (now : Nat) : CallbackDelivery :=
  { delivery with
    status := .pending
    attempts := 0
    lastError := none
    runAfter := now
    worker := none
    leaseExpireTime := none }

def resend (run : AgentRun) : Coroutine Unit := do
  match run.callbackEventId with
  | none => dispatchForRun settings run
  | some eventId => do
      let existing ← perform (.callback (.get eventId))
      match existing with
      | none => dispatchForRun settings run
      | some delivery => do
          let now ← utcNow
          perform (.callback (.save (resent delivery now)))
          dispatchForRun settings run

end Dispatch

end AgentTaskPlatform.CallbackService
