import AgentTaskPlatform.Domain

/-!
`RunService.submit`: routing of a submission and the transaction that stores the
new run. What the registry, the skill runtime and the database answer are
arguments.
-/

namespace AgentTaskPlatform.RunService

structure RunSubmission where
  routeTag : String
  requestId : String
  externalId : Option String := none
  taskType : Option String := none
  source : Option String := none
  conversationId : Option String := none
  input : Json := .object []
  callback : Option CallbackConfig := none
  timeoutSeconds : Option Nat := none
  metadata : List (String × Json) := []
  caller : String := "default"
  agentVersion : Option String := none

/-- What one transaction of `submit` ends with; after a conflict the run of the
request is read again. -/
inductive Transaction where
  | created (conversationId : String)
  | conflict (error : Exc) (existing : Option AgentRun)

def newRun (submission : RunSubmission) (runId : String) : AgentRun :=
  { runId := runId
    routeTag := submission.routeTag
    caller := submission.caller
    requestId := submission.requestId
    input := submission.input
    callback := submission.callback
    timeoutSeconds := submission.timeoutSeconds
    metadata := submission.metadata }

def queuedRun (run : AgentRun) (agent : AgentSpec) (now : Nat) : AgentRun :=
  { run with
    agent := some ⟨agent.name, agent.version⟩
    status := .queued
    queueTime := some now
    maxAttempts := agent.retryPolicy.maxAttempts
    runAfter := run.runAfter.or (some now)
    callbackStatus := if run.callbackUrl.isSome then .pending else .skipped }

def rejectedRun (run : AgentRun) (error : Exc) : AgentRun :=
  { run with
    status := .failed
    errorType := some (if listContains error.message.toList "No enabled agent".toList then
      .routeNotFound else .validationError)
    errorMessage := some error.message }

/-- `routed` is the outcome of `resolve`, `validate_input` and `snapshots_for_agent`. -/
def routedRun (run : AgentRun) (routed : Except Exc AgentSpec) (now : Nat) : Except Exc AgentRun :=
  match routed with
  | .ok agent => .ok (queuedRun run agent now)
  | .error error =>
      if error.kind = .registryError || error.kind = .skillError then .ok (rejectedRun run error)
      else .error error

def create (run : AgentRun) : Transaction → Transaction → Except Exc (AgentRun × Bool)
  | .created conversationId, _ => .ok ({ run with conversationId := some conversationId }, true)
  | .conflict _ (some existing), _ => .ok (existing, false)
  | .conflict _ none, .created conversationId =>
      .ok ({ run with conversationId := some conversationId }, true)
  | .conflict _ none, .conflict _ (some existing) => .ok (existing, false)
  | .conflict _ none, .conflict error none => .error error

def submit (submission : RunSubmission) (existing : Option AgentRun) (runId : String)
    (routed : Except Exc AgentSpec) (now : Nat) (first second : Transaction) :
    Except Exc (AgentRun × Bool) :=
  match existing with
  | some run => .ok (run, false)
  | none => do
      let run ← routedRun (newRun submission runId) routed now
      create run first second

def Submitted (run : AgentRun) : Prop :=
  ∃ submission existing runId routed now first second,
    submit submission existing runId routed now first second = .ok (run, true)

theorem create_new {run stored : AgentRun} {first second : Transaction}
    (created : create run first second = .ok (stored, true)) :
    ∃ conversationId, stored = { run with conversationId := some conversationId } := by
  unfold create at created
  split at created <;> cases created
  · exact ⟨_, rfl⟩
  · exact ⟨_, rfl⟩

/-- A new run waits in the queue, or has failed; nobody owns it. -/
theorem submitted_status {run : AgentRun} (submitted : Submitted run) :
    (run.status = .queued ∨ run.status = .failed) ∧ run.worker = none ∧
      run.leaseExpireTime = none := by
  obtain ⟨submission, existing, runId, routed, now, first, second, stored⟩ := submitted
  cases existing with
  | some earlier => cases stored
  | none =>
      cases routed with
      | ok agent =>
          obtain ⟨conversationId, rfl⟩ := create_new stored
          exact ⟨Or.inl rfl, rfl, rfl⟩
      | error error =>
          by_cases caught : error.kind = .registryError ∨ error.kind = .skillError
          · have kept : routedRun (newRun submission runId) (.error error) now =
                .ok (rejectedRun (newRun submission runId) error) := by
              simp [routedRun, caught]
            simp only [submit, kept] at stored
            obtain ⟨conversationId, rfl⟩ := create_new stored
            exact ⟨Or.inr rfl, rfl, rfl⟩
          · have raised : routedRun (newRun submission runId) (.error error) now = .error error := by
              simp [routedRun, caught]
            simp only [submit, raised] at stored
            cases stored

end AgentTaskPlatform.RunService
