import AgentTaskPlatform.ModelGateway

/-!
The reference semantics of a model call: one loop over all the requests that the call may
issue, in their order. A call follows it as long as no pause is out of range, and leaves an
open record exactly when it is cancelled while its first model is tried.
-/

namespace AgentTaskPlatform.ModelCalls

variable {Double : Type} (python : Python Double) (config : CallConfig Double) (call : Call)
  (script : Nat → Turn)

section Reference

def answered (request : Nat) : Except Raised Completion :=
  match settle (script request).answer with
  | .error raised => .error raised
  | .ok reply =>
      match readBody python reply.body with
      | .error fault => .error (.builtin fault)
      | .ok completion =>
          match costPer1kTokens python config call with
          | .error fault => .error (.builtin fault)
          | .ok _ => .ok completion

def Retryable (request : Nat) : Prop :=
  ∃ raised, answered python config call script request = .error raised ∧ shouldRetry raised = true

def plan (retries : Nat) (models : List Json) : List Json :=
  models.flatMap fun model => List.replicate (retries + 1) model

def isLastAttempt (retries request : Nat) : Bool := (request + 1) % (retries + 1) = 0

def Interrupted (retries request : Nat) : Prop :=
  (script request).backoffCancelled = true ∧ isLastAttempt retries request = false

/-- A call asks until an answer is a success or a failure that is not retried, or until the
plan is used up. A pause can be out of range. -/
def follow (outOfRange : Nat → Bool) (retries : Nat) :
    List Json → Nat → List Json × Except Raised Completion
  | [], _ => ([], .error .cancelled)
  | model :: rest, request =>
      match answered python config call script request with
      | .ok completion => ([model], .ok completion)
      | .error raised =>
          if !shouldRetry raised || rest.isEmpty then ([model], .error raised)
          else if isLastAttempt retries request then
            (model :: (follow outOfRange retries rest (request + 1)).1,
              (follow outOfRange retries rest (request + 1)).2)
          else if outOfRange (request % (retries + 1)) then
            ([model], .error (.builtin ⟨.overflowError, "(34, 'Numerical result out of range')"⟩))
          else if (script request).backoffCancelled then ([model], .error .cancelled)
          else
            (model :: (follow outOfRange retries rest (request + 1)).1,
              (follow outOfRange retries rest (request + 1)).2)

def reference (retries : Nat) (slots : List Json) : List Json × Except Raised Completion :=
  follow python config call script (fun _ => false) retries slots 0

def pastPower (attempt : Nat) : Bool := powerLimit ≤ attempt

def followed : Nat → List Json → Nat → List Json × Except Raised Completion :=
  follow python config call script pastPower

/-- How the attempts at one model are a part of the whole plan: they end as the plan does, or
leave an exception that is worth another model. -/
inductive Follows (retries : Nat) (model : Json) (rest : List Json) (request remaining : Nat)
    (found : List Json × Except Raised Completion) : Except Raised Reply → Nat → Prop where
  | reply {reply : Reply} {count : Nat} (settled : settle (script (request + count)).answer = .ok reply)
      (same : found = (List.replicate (count + 1) model,
        answered python config call script (request + count))) :
      Follows retries model rest request remaining found (.ok reply) count
  | fatal {raised : Raised} {count : Nat} (never : shouldRetry raised = false)
      (same : found = (List.replicate (count + 1) model, .error raised)) :
      Follows retries model rest request remaining found (.error raised) count
  | exhausted {raised : Raised} (again : shouldRetry raised = true)
      (same : found = (List.replicate (remaining + 1) model ++
          (if rest = [] then [] else
            (followed python config call script retries rest (request + remaining + 1)).1),
        if rest = [] then .error raised else
          (followed python config call script retries rest (request + remaining + 1)).2)) :
      Follows retries model rest request remaining found (.error raised) remaining

def Buildable (runtime : Fields) (messages : Json) : Prop :=
  ∀ model, ∃ request, buildRequest python config runtime messages model = .ok request

end Reference

section Requests

variable {python config call script}

def asked (state : State Double) : List Json := state.requests.map Request.model

theorem retried_iff {answer : Answer} :
    retried answer = true ↔ ∃ raised, settle answer = .error raised ∧ shouldRetry raised = true := by
  cases answer with
  | raised raised => simp [retried, settle]
  | response response latencyMs =>
      constructor
      · intro again
        rw [retried, Bool.or_eq_true, decide_eq_true_eq] at again
        rcases again with status | exception
        · exact shouldRetry_status latencyMs status
        · cases read : readResponse response latencyMs with
          | ok reply => simp [read] at exception
          | error raised => exact ⟨raised, read, by simpa [read] using exception⟩
      · rintro ⟨raised, read, again⟩
        rw [settle] at read
        simp [retried, read, again]

/-- What the gateway makes of a body is never retried. -/
theorem answered_retried {request : Nat} :
    Retryable python config call script request ↔ retried (script request).answer = true := by
  rw [retried_iff, Retryable]
  cases settled : settle (script request).answer with
  | error raised => simp [answered, settled]
  | ok reply =>
      have fatal {raised : Raised}
          (failed : answered python config call script request = .error raised) :
          shouldRetry raised = false := by
        simp only [answered, settled] at failed
        split at failed
        · cases failed
          exact shouldRetry_builtin _
        · split at failed
          · cases failed
            exact shouldRetry_builtin _
          · cases failed
      constructor
      · rintro ⟨raised, failed, again⟩
        exact absurd again (by rw [fatal failed]; exact Bool.false_ne_true)
      · rintro ⟨raised, failed, _⟩
        cases failed

theorem buildRequest_model (runtime : Fields) (messages model other : Json) :
    buildRequest python config runtime messages other =
      (buildRequest python config runtime messages model).map fun request =>
        { request with model := other } := by
  simp only [buildRequest]
  split
  · rfl
  · cases maxTokens python config runtime with
    | error fault => rfl
    | ok tokens =>
        cases timeoutSeconds python config runtime with
        | error fault => rfl
        | ok seconds => rfl

theorem buildRequest_asks {runtime : Fields} {messages model : Json} {request : Request Double}
    (built : buildRequest python config runtime messages model = .ok request) :
    request.model = model := by
  have same : buildRequest python config runtime messages model = _ :=
    buildRequest_model runtime messages model model
  rw [built] at same
  exact congrArg Request.model (Except.ok.inj same)

end Requests

section Attempts

variable {python config call script}

theorem doRequest_asks {runtime : Fields} {messages : Json}
    (buildable : Buildable python config runtime messages) (model : Json) (state : State Double) :
    ∃ after : State Double, doRequest python config runtime script messages model state =
        (.ok (script state.requests.length).answer, after) ∧
      asked after = asked state ++ [model] ∧ after.requests.length = state.requests.length + 1 ∧
      after.saved = state.saved := by
  obtain ⟨request, built⟩ := buildable model
  refine ⟨{ state with requests := state.requests ++ [request] }, ?_, ?_, by simp, rfl⟩
  · simp only [doRequest, built]
  · simp [asked, buildRequest_asks built]

theorem follow_answer {outOfRange : Nat → Bool} {retries request : Nat} {model : Json}
    {slots : List Json}
    (final : ∀ raised, answered python config call script request = .error raised →
      shouldRetry raised = false) :
    follow python config call script outOfRange retries (model :: slots) request =
      ([model], answered python config call script request) := by
  cases found : answered python config call script request with
  | ok completion => simp only [follow, found]
  | error raised => simp [follow, found, final raised found]

theorem follow_next {outOfRange : Nat → Bool} {retries request : Nat} {model : Json}
    {slots : List Json} (more : slots ≠ [])
    (again : Retryable python config call script request)
    (paused : isLastAttempt retries request = false →
      outOfRange (request % (retries + 1)) = false ∧ (script request).backoffCancelled = false) :
    follow python config call script outOfRange retries (model :: slots) request =
      (model :: (follow python config call script outOfRange retries slots (request + 1)).1,
        (follow python config call script outOfRange retries slots (request + 1)).2) := by
  obtain ⟨raised, found, retry⟩ := again
  cases last : isLastAttempt retries request with
  | true => simp [follow, found, retry, more, last]
  | false => simp [follow, found, retry, more, last, paused last]

theorem reply_final {request : Nat} {reply : Reply}
    (settled : settle (script request).answer = .ok reply) (raised : Raised)
    (failed : answered python config call script request = .error raised) :
    shouldRetry raised = false := by
  by_contra again
  have retry : Retryable python config call script request :=
    ⟨raised, failed, by simpa using again⟩
  obtain ⟨_, other, _⟩ := retried_iff.mp (answered_retried.mp retry)
  rw [settled] at other
  cases other

theorem answered_error {request : Nat} {raised : Raised}
    (settled : settle (script request).answer = .error raised) :
    answered python config call script request = .error raised := by
  simp only [answered, settled]

theorem isLastAttempt_iff {retries request attempt remaining : Nat}
    (position : request % (retries + 1) = attempt) (left : attempt + remaining = retries) :
    isLastAttempt retries request = decide (remaining = 0) := by
  have next : (request + 1) % (retries + 1) = (attempt + 1) % (retries + 1) := by
    rw [Nat.add_mod, position]
    simp
  rw [isLastAttempt, next]
  cases remaining with
  | zero =>
      obtain rfl : attempt = retries := left
      simp
  | succ remaining =>
      rw [Nat.mod_eq_of_lt (by omega)]
      simp

variable {retries request remaining : Nat} {model : Json} {rest : List Json}
  {found : List Json × Except Raised Completion} {outcome : Except Raised Reply} {count : Nat}

/-- One more attempt before those that follow the plan. -/
theorem Follows.before
    (follows : Follows python config call script retries model rest (request + 1) remaining found
      outcome count)
    {whole : List Json × Except Raised Completion} (same : whole = (model :: found.1, found.2)) :
    Follows python config call script retries model rest request (remaining + 1) whole outcome
      (count + 1) := by
  cases follows with
  | reply settled ends =>
      have index : request + 1 + count = request + (count + 1) := by omega
      rw [index] at settled ends
      exact .reply settled (by rw [same, ends]; rfl)
  | fatal never ends => exact .fatal never (by rw [same, ends]; rfl)
  | exhausted again ends =>
      have index : request + 1 + remaining + 1 = request + (remaining + 1) + 1 := by omega
      rw [index] at ends
      exact .exhausted again (by rw [same, ends]; rfl)

theorem settles_follow {slots : List Json}
    (whole : slots = List.replicate remaining model ++ rest)
    (closing : retried (script request).answer = true →
      remaining = 0 ∧ isLastAttempt retries request = true) :
    Follows python config call script retries model rest request remaining
      (followed python config call script retries (model :: slots) request)
      (settle (script request).answer) 0 := by
  cases settled : settle (script request).answer with
  | ok reply => exact .reply settled (follow_answer (reply_final settled))
  | error raised =>
      have failed : answered python config call script request = .error raised :=
        answered_error settled
      cases again : shouldRetry raised with
      | false =>
          refine .fatal again ?_
          rw [followed, follow_answer, failed]
          · rfl
          · intro other known
            rw [failed] at known
            cases known
            exact again
      | true =>
          obtain ⟨rfl, last⟩ := closing (retried_iff.mpr ⟨raised, settled, again⟩)
          refine .exhausted again ?_
          rw [whole, List.replicate_zero, List.nil_append]
          by_cases none : rest = []
          · subst none
            simp [followed, follow, failed]
          · rw [if_neg none, if_neg none, followed, follow_next none ⟨raised, failed, again⟩]
            · rfl
            · rw [last]
              exact fun contrary => absurd contrary (by decide)

section Steps

variable {runtime : Fields} {messages : Json} {attempt : Nat} {state after : State Double}
  {answer : Answer}

theorem attempts_last
    (issued : doRequest python config runtime script messages model state = (.ok answer, after)) :
    attempts python config runtime script messages model 0 attempt state =
      (settle answer, after) := by
  rw [attempts, issued]

theorem attempts_more
    (issued : doRequest python config runtime script messages model state = (.ok answer, after)) :
    attempts python config runtime script messages model (remaining + 1) attempt state =
      if retried answer then
        match pause python config script attempt after with
        | (.error raised, state) => (.error raised, state)
        | (.ok (), state) =>
            attempts python config runtime script messages model remaining (attempt + 1) state
      else (settle answer, after) := by
  rw [attempts]
  exact issued ▸ rfl

end Steps

theorem next_position {request attempt : Nat} (position : request % (retries + 1) = attempt)
    (left : attempt + (remaining + 1) = retries) :
    (request + 1) % (retries + 1) = attempt + 1 := by
  have small : attempt + 1 < retries + 1 := by omega
  rw [Nat.add_mod, position]
  simpa using Nat.mod_eq_of_lt small

theorem attempts_follow {messages : Json}
    (buildable : Buildable python config call.runtime messages) (attempt : Nat)
    (state : State Double) (position : state.requests.length % (retries + 1) = attempt)
    (left : attempt + remaining = retries) :
    ∃ outcome after count, attempts python config call.runtime script messages model remaining
        attempt state = (outcome, after) ∧
      Follows python config call script retries model rest state.requests.length remaining
        (followed python config call script retries
          (List.replicate (remaining + 1) model ++ rest) state.requests.length) outcome count ∧
      count ≤ remaining ∧ asked after = asked state ++ List.replicate (count + 1) model ∧
      after.requests.length = state.requests.length + count + 1 ∧
      after.saved = state.saved := by
  have slots : List.replicate (remaining + 1) model ++ rest =
      model :: (List.replicate remaining model ++ rest) := rfl
  induction remaining generalizing attempt state with
  | zero =>
      -- After the last attempt nothing is retried, whatever the answer is.
      have last := isLastAttempt_iff position left
      obtain ⟨after, issued, asks, length, saved⟩ :=
        @doRequest_asks _ _ _ script _ _ buildable model state
      refine ⟨settle (script state.requests.length).answer, after, 0, ?_, ?_, Nat.le_refl _, asks,
        length, saved⟩
      · exact attempts_last issued
      · rw [slots]
        exact settles_follow rfl fun _ => ⟨rfl, by simpa using last⟩
  | succ remaining ih =>
      have last := isLastAttempt_iff position left
      have inner : isLastAttempt retries state.requests.length = false := by simpa using last
      obtain ⟨after, issued, asks, length, saved⟩ :=
        @doRequest_asks _ _ _ script _ _ buildable model state
      have own : after.requests.length - 1 = state.requests.length := by omega
      cases again : retried (script state.requests.length).answer with
      | false =>
          refine ⟨settle (script state.requests.length).answer, after, 0, ?_, ?_, Nat.zero_le _,
            asks, length, saved⟩
          · rw [attempts_more issued]
            simp only [again, Bool.false_eq_true, if_false]
          · rw [slots]
            exact settles_follow rfl fun retry => absurd retry (by simp [again])
      | true =>
          have retry : Retryable python config call script state.requests.length :=
            answered_retried.mpr again
          have ⟨raised, failed, worth⟩ := retry
          have more : List.replicate (remaining + 1) model ++ rest ≠ [] := by simp
          -- Between two attempts the pause may overflow or be cancelled, and then the call ends.
          by_cases power : powerLimit ≤ attempt
          · refine ⟨.error (.builtin ⟨.overflowError, "(34, 'Numerical result out of range')"⟩),
              after, 0, ?_, .fatal (shouldRetry_builtin _) ?_, Nat.zero_le _, asks, length, saved⟩
            · rw [attempts_more issued]
              simp only [again, if_true, pause, if_pos power]
            · simp [slots, followed, follow, failed, worth, inner, position, pastPower, power]
          · by_cases cut : (script state.requests.length).backoffCancelled = true
            · refine ⟨.error .cancelled, { after with slept := after.slept ++ [python.backoff
                config.retryPolicy.initialBackoffSeconds config.retryPolicy.maxBackoffSeconds
                attempt] }, 0, ?_, .fatal shouldRetry_cancelled ?_, Nat.zero_le _, asks, length, saved⟩
              · rw [attempts_more issued]
                simp only [again, if_true, pause, if_neg power, own, cut]
              · simp [slots, followed, follow, failed, worth, inner, position, pastPower, power, cut]
            · let next : State Double := { after with slept := after.slept ++ [python.backoff
                config.retryPolicy.initialBackoffSeconds config.retryPolicy.maxBackoffSeconds
                attempt] }
              have step := next_position position left
              obtain ⟨outcome, final, count, run, follows, bound, asks', length', saved'⟩ :=
                ih (attempt + 1) next (by rw [← step]; exact congrArg (· % (retries + 1)) length)
                  (by omega) rfl
              refine ⟨outcome, final, count + 1, ?_, ?_, Nat.succ_le_succ bound, ?_, ?_, ?_⟩
              · rw [attempts_more issued]
                simp only [again, if_true, pause, if_neg power, own, cut]
                exact run
              · have index : next.requests.length = state.requests.length + 1 := length
                rw [index] at follows
                refine follows.before ?_
                rw [slots, followed, follow_next more retry]
                exact fun _ => ⟨by simp [pastPower, position, power], by simpa using cut⟩
              · rw [asks', List.replicate_succ]
                have before : asked next = asked state ++ [model] := asks
                rw [before, List.append_assoc]
                rfl
              · have index : next.requests.length = state.requests.length + 1 := length
                omega
              · exact saved'.trans saved

end Attempts

section Entries

variable {python config call script} {retries : Nat} {messages model : Json} {rest : List Json}

def EntryFollows (python : Python Double) (config : CallConfig Double) (call : Call)
    (script : Nat → Turn) (retries : Nat) (model : Json) (rest : List Json)
    (record : ModelCallRecord Double) (before after : State Double) (count : Nat)
    (found : List Json × Except Raised Completion) : EntryEnd Double → Prop
  | .returned output => ∃ completion saved, found = (List.replicate (count + 1) model,
        .ok completion) ∧ output = agentOutput call completion.output ∧
      after.saved = before.saved ++ [saved] ∧ saved.status = .succeeded ∧
      saved.model = record.model ∧ saved.usage = completion.usage
  | .cancelled => found = (List.replicate (count + 1) model, .error .cancelled) ∧
      after.saved = before.saved
  | .failed raised saved => raised ≠ .cancelled ∧ after.saved = before.saved ++ [saved] ∧
      saved.status = .failed ∧ (shouldRetry raised = false →
        found = (List.replicate (count + 1) model, .error raised)) ∧
      (shouldRetry raised = true → count = retries ∧
        found = (List.replicate (retries + 1) model ++
            (if rest = [] then [] else (followed python config call script retries rest
              (before.requests.length + retries + 1)).1),
          if rest = [] then .error raised else (followed python config call script retries rest
            (before.requests.length + retries + 1)).2))

theorem saveFailure_saved (raised : Raised) (isFallback : Bool) (model : Json)
    (record : ModelCallRecord Double) (state : State Double) :
    (saveFailure python raised isFallback model record state).2.saved =
        state.saved ++ [(saveFailure python raised isFallback model record state).1] ∧
      (saveFailure python raised isFallback model record state).1.status = .failed :=
  ⟨rfl, rfl⟩

theorem tryModel_raised (isFallback : Bool) (record : ModelCallRecord Double)
    {state after : State Double} {raised : Raised}
    (called : callWithRetry python config call.runtime script messages model state =
      (.error raised, after)) (exception : raised ≠ .cancelled) :
    tryModel python config call script messages isFallback model record state =
      (.failed raised (saveFailure python raised isFallback model record after).1,
        (saveFailure python raised isFallback model record after).2) := by
  cases raised with
  | cancelled => exact absurd rfl exception
  | builtin fault => simp only [tryModel, called]
  | client name message transport status => simp only [tryModel, called]

/-- A reply that is read ends the entry with a success, or with a failure that is not retried. -/
theorem tryModel_reply (isFallback : Bool) (record : ModelCallRecord Double)
    {state after : State Double} {reply : Reply} {request : Nat}
    (called : callWithRetry python config call.runtime script messages model state =
      (.ok reply, after)) (settled : settle (script request).answer = .ok reply) :
    ∃ ending final, tryModel python config call script messages isFallback model record state =
        (ending, final) ∧ final.requests = after.requests ∧
      ((∃ completion saved, answered python config call script request = .ok completion ∧
          ending = .returned (agentOutput call completion.output) ∧
          final.saved = after.saved ++ [saved] ∧ saved.status = .succeeded ∧
          saved.model = record.model ∧ saved.usage = completion.usage) ∨
        ∃ raised saved, answered python config call script request = .error raised ∧
          raised ≠ .cancelled ∧ shouldRetry raised = false ∧ ending = .failed raised saved ∧
          final.saved = after.saved ++ [saved] ∧ saved.status = .failed) := by
  simp only [tryModel, called, answered, settled]
  cases readBody python reply.body with
  | error fault =>
      exact ⟨_, _, rfl, rfl, .inr ⟨_, _, rfl, by simp, shouldRetry_builtin fault, rfl, rfl, rfl⟩⟩
  | ok completion =>
      cases costPer1kTokens python config call with
      | error fault =>
          exact ⟨_, _, rfl, rfl, .inr ⟨_, _, rfl, by simp, shouldRetry_builtin fault, rfl, rfl,
            rfl⟩⟩
      | ok cost =>
          exact ⟨_, _, rfl, rfl, .inl ⟨completion, _, rfl, rfl, rfl, rfl, rfl, rfl⟩⟩

theorem tryModel_follows (buildable : Buildable python config call.runtime messages)
    (known : maxRetries python config call.runtime = .ok retries) (isFallback : Bool)
    (record : ModelCallRecord Double) (state : State Double)
    (aligned : state.requests.length % (retries + 1) = 0) :
    ∃ ending after count, tryModel python config call script messages isFallback model record
        state = (ending, after) ∧
      count ≤ retries ∧ asked after = asked state ++ List.replicate (count + 1) model ∧
      after.requests.length = state.requests.length + count + 1 ∧
      EntryFollows python config call script retries model rest record state after count
        (followed python config call script retries
          (List.replicate (retries + 1) model ++ rest) state.requests.length) ending := by
  obtain ⟨outcome, after, count, run, follows, bound, asks, length, saved⟩ :=
    @attempts_follow _ _ _ _ script retries retries model rest messages buildable 0 state aligned
      (by omega)
  have called : callWithRetry python config call.runtime script messages model state =
      (outcome, after) := by
    simp only [callWithRetry, known]
    exact run
  cases follows with
  | @fatal raised _ never same =>
      by_cases cancelled : raised = .cancelled
      · subst cancelled
        refine ⟨.cancelled, after, count, ?_, bound, asks, length, same, saved⟩
        simp only [tryModel, called]
      · refine ⟨_, _, count, tryModel_raised isFallback record called cancelled, bound, asks, length,
          cancelled, ?_, rfl, fun _ => same, fun again => absurd again (by simp [never])⟩
        rw [(saveFailure_saved ..).1, saved]
  | @exhausted raised again same =>
      have exception : raised ≠ .cancelled := by
        rintro rfl
        exact absurd again (by decide)
      refine ⟨_, _, retries, tryModel_raised isFallback record called exception, bound, asks, length,
        exception, ?_, rfl, fun never => absurd never (by simp [again]), fun _ => ⟨rfl, same⟩⟩
      rw [(saveFailure_saved ..).1, saved]
  | @reply reply _ settled same =>
      obtain ⟨ending, final, whole, requests, succeeded | failed⟩ :=
        tryModel_reply isFallback record called settled
      · obtain ⟨completion, record', found, rfl, last, status, own, usage⟩ := succeeded
        refine ⟨_, final, count, whole, bound, ?_, ?_, completion, record', ?_, rfl, ?_, status, own,
          usage⟩
        · rw [asked, requests]
          exact asks
        · rw [requests]
          exact length
        · rw [same, found]
        · rw [last, saved]
      · obtain ⟨raised, record', found, exception, never, rfl, last, status⟩ := failed
        refine ⟨_, final, count, whole, bound, ?_, ?_, exception, ?_, status, fun _ => ?_,
          fun again => absurd again (by simp [never])⟩
        · rw [asked, requests]
          exact asks
        · rw [requests]
          exact length
        · rw [last, saved]
        · rw [same, found]

variable {fallbacks : List Json}

theorem plan_cons (retries : Nat) (model : Json) (models : List Json) :
    plan retries (model :: models) =
      List.replicate (retries + 1) model ++ plan retries models := rfl

theorem plan_nil_iff : plan retries fallbacks = [] ↔ fallbacks = [] := by
  cases fallbacks <;> simp [plan, List.replicate_succ]

def Ended (result : Except Raised Completion) (asked : List Json)
    (saved : List (ModelCallRecord Double)) : Prop :=
  ∃ record, saved.getLast? = some record ∧ match result with
    | .ok completion => record.status = .succeeded ∧ record.usage = completion.usage ∧
        asked.getLast? = some record.model
    | .error _ => record.status = .failed

def outputOf (call : Call) (result : Except Raised Completion) : Except Raised Fields :=
  result.map fun completion => agentOutput call completion.output

def CutShort (retries : Nat) (found : List Json × Except Raised Completion) : Prop :=
  found.2 = .error .cancelled ∧ found.1.length ≤ retries + 1

structure CallFollows (call : Call) (retries : Nat) (found : List Json × Except Raised Completion)
    (before : State Double) (run : Except Raised Fields × State Double) : Prop where
  outcome : run.1 = outputOf call found.2
  asks : asked run.2 = asked before ++ found.1
  untouched : CutShort retries found → run.2.saved = before.saved
  closed : ¬ CutShort retries found → Ended found.2 (asked run.2) run.2.saved

theorem follow_nonempty {outOfRange : Nat → Bool} {request : Nat} {slots : List Json}
    (some_left : slots ≠ []) :
    (follow python config call script outOfRange retries slots request).1 ≠ [] := by
  cases slots with
  | nil => exact absurd rfl some_left
  | cons model slots =>
      rw [follow]
      split
      · simp
      · split_ifs <;> simp

theorem resume_follows {record : ModelCallRecord Double} {before after : State Double}
    {count : Nat} {ending : EntryEnd Double}
    {next : Raised → ModelCallRecord Double → State Double → Except Raised Fields × State Double}
    (asks : asked after = asked before ++ List.replicate (count + 1) model)
    (own_model : record.model = model) (within : count ≤ retries)
    (follows : EntryFollows python config call script retries model (plan retries fallbacks) record
      before after count (followed python config call script retries
        (plan retries (model :: fallbacks)) before.requests.length) ending)
    (stops : ∀ raised saved, (shouldRetry raised = true → fallbacks = []) →
      next raised saved after = (.error raised, after))
    (goes_on : ∀ raised saved, shouldRetry raised = true → fallbacks ≠ [] → count = retries →
      CallFollows call retries (followed python config call script retries
        (plan retries fallbacks) (before.requests.length + retries + 1)) after
        (next raised saved after)) :
    CallFollows call retries (followed python config call script retries
      (plan retries (model :: fallbacks)) before.requests.length) before
      (resume next (ending, after)) := by
  cases ending with
  | returned output =>
      obtain ⟨completion, saved, same, rfl, last_saved, status, own, usage⟩ := follows
      rw [same]
      refine ⟨rfl, asks, fun cut => (nomatch cut.1), fun _ => ⟨saved, ?_, status, usage, ?_⟩⟩
      · rw [resume, last_saved, List.getLast?_concat]
      · rw [resume, asks, List.replicate_succ', ← List.append_assoc, List.getLast?_concat, own,
          own_model]
  | cancelled =>
      obtain ⟨same, last_saved⟩ := follows
      rw [same]
      refine ⟨rfl, asks, fun _ => last_saved, fun uncut => absurd ⟨rfl, ?_⟩ uncut⟩
      rw [List.length_replicate]
      omega
  | failed raised saved =>
      obtain ⟨exception, last_saved, status, never, more⟩ := follows
      rw [resume]
      have ended : after.saved.getLast? = some saved := by rw [last_saved, List.getLast?_concat]
      by_cases again : shouldRetry raised = true
      · obtain ⟨rfl, same⟩ := more again
        by_cases left : fallbacks = []
        · rw [stops raised saved fun _ => left, same, if_pos (plan_nil_iff.mpr left),
            if_pos (plan_nil_iff.mpr left), List.append_nil]
          refine ⟨rfl, asks, fun cut => ?_, fun _ => ⟨saved, ended, status⟩⟩
          exact absurd (Except.error.inj cut.1) exception
        · have some_left : plan count fallbacks ≠ [] := fun none => left (plan_nil_iff.mp none)
          obtain ⟨outcome, asks', untouched, closed⟩ := goes_on raised saved again left rfl
          have longer := List.length_pos_iff.mpr
            (@follow_nonempty _ python config call script count pastPower
              (before.requests.length + count + 1) _ some_left)
          rw [same, if_neg some_left, if_neg some_left]
          refine ⟨outcome, ?_, fun cut => ?_, fun _ => ?_⟩
          · rw [asks', asks, List.append_assoc]
          · have bound := cut.2
            rw [List.length_append, List.length_replicate] at bound
            rw [followed] at bound
            omega
          · by_cases cut : CutShort count (followed python config call script count
              (plan count fallbacks) (before.requests.length + count + 1))
            · rw [cut.1]
              exact ⟨saved, by rw [untouched cut, ended], status⟩
            · exact closed cut
      · have fatal : shouldRetry raised = false := by simpa using again
        rw [stops raised saved fun retry => absurd retry again, never fatal]
        refine ⟨rfl, asks, fun cut => ?_, fun _ => ⟨saved, ended, status⟩⟩
        exact absurd (Except.error.inj cut.1) exception

theorem tryFallbacks_stop {previous : Json} {raised : Raised} {record : ModelCallRecord Double}
    {state : State Double} (closing : shouldRetry raised = true → fallbacks = []) :
    tryFallbacks python config call script messages fallbacks previous raised record state =
      (.error raised, state) := by
  cases fallbacks with
  | nil => rfl
  | cons model rest =>
      have never : shouldRetry raised = false := by
        by_contra retry
        cases closing (by simpa using retry)
      simp [tryFallbacks, never]

theorem tryFallbacks_follow (buildable : Buildable python config call.runtime messages)
    (known : maxRetries python config call.runtime = .ok retries) (some_left : fallbacks ≠ [])
    (previous : Json) {last : Raised} (again : shouldRetry last = true)
    (record : ModelCallRecord Double) (state : State Double)
    (aligned : state.requests.length % (retries + 1) = 0) :
    CallFollows call retries (followed python config call script retries
        (plan retries fallbacks) state.requests.length) state
      (tryFallbacks python config call script messages fallbacks previous last record state) := by
  induction fallbacks generalizing previous last record state with
  | nil => exact absurd rfl some_left
  | cons model rest ih =>
      let begun : State Double := { state with logs := state.logs ++ [.fallback model previous] }
      obtain ⟨ending, after, count, run, bound, asks, length, follows⟩ :=
        @tryModel_follows _ _ _ _ script retries messages model (plan retries rest) buildable known
          true { record with model, error := none } begun aligned
      have step : tryFallbacks python config call script messages (model :: rest) previous last
          record state = resume (fun raised record state => tryFallbacks python config call script
            messages rest model raised record state) (ending, after) := by
        rw [← run, tryFallbacks, again]
        rfl
      have follows : CallFollows call retries (followed python config call script retries
          (plan retries (model :: rest)) begun.requests.length) begun
          (tryFallbacks python config call script messages (model :: rest) previous last record
            state) := by
        rw [step]
        refine resume_follows asks rfl bound follows ?_ ?_
        · exact fun raised saved closing => tryFallbacks_stop closing
        · intro raised saved retry left full
          have next : after.requests.length = begun.requests.length + retries + 1 := by omega
          have aligned' : after.requests.length % (retries + 1) = 0 := by
            rw [next, Nat.add_assoc, Nat.add_mod_right]
            exact aligned
          rw [← next]
          exact ih left model retry saved after aligned'
      exact ⟨follows.outcome, follows.asks, follows.untouched, follows.closed⟩

/-- A call whose requests can be built follows the plan from its first model on. -/
theorem complete_follows (opened : opening python config call = .ok (fallbacks, messages))
    (buildable : Buildable python config call.runtime messages)
    (known : maxRetries python config call.runtime = .ok retries) :
    ∃ record : ModelCallRecord Double, record.status = .started ∧
      CallFollows call retries (followed python config call script retries
          (plan retries (setting config call.runtime "model" :: fallbacks)) 0)
        { saved := [record] } (complete python config call script) := by
  let model := setting config call.runtime "model"
  let record : ModelCallRecord Double :=
    { callId := call.callId, model, estimatedCost := python.zero }
  let begun : State Double := { saved := [record], logs := [.started model] }
  obtain ⟨ending, after, count, run, bound, asks, length, follows⟩ :=
    @tryModel_follows _ _ _ _ script retries messages model (plan retries fallbacks) buildable
      known false record begun (Nat.zero_mod _)
  have step : complete python config call script =
      resume (fun raised record state => tryFallbacks python config call script messages fallbacks
        model raised record state) (ending, after) := by
    rw [← run, complete, opened]
  have follows : CallFollows call retries (followed python config call script retries
      (plan retries (model :: fallbacks)) begun.requests.length) begun
      (complete python config call script) := by
    rw [step]
    refine resume_follows asks rfl bound follows ?_ ?_
    · exact fun raised saved closing => tryFallbacks_stop closing
    · intro raised saved retry left full
      have next : after.requests.length = begun.requests.length + retries + 1 := by omega
      have aligned : after.requests.length % (retries + 1) = 0 := by
        rw [next, Nat.add_assoc, Nat.add_mod_right]
        exact Nat.zero_mod _
      rw [← next]
      exact tryFallbacks_follow buildable known left model retry saved after aligned
  exact ⟨record, rfl, follows.outcome, follows.asks, follows.untouched, follows.closed⟩

end Entries

section Conditions

variable {python config call script} {retries : Nat}

def GoesOn (python : Python Double) (config : CallConfig Double) (call : Call)
    (script : Nat → Turn) (retries request : Nat) : Prop :=
  Retryable python config call script request ∧ ¬ Interrupted script retries request

def Cancels (python : Python Double) (config : CallConfig Double) (call : Call)
    (script : Nat → Turn) (retries request : Nat) : Prop :=
  answered python config call script request = .error .cancelled ∨
    (Retryable python config call script request ∧ Interrupted script retries request)

def Overflows (python : Python Double) (config : CallConfig Double) (call : Call)
    (script : Nat → Turn) (retries request : Nat) : Prop :=
  Retryable python config call script request ∧ isLastAttempt retries request = false ∧
    powerLimit ≤ request % (retries + 1)

def Reaches (python : Python Double) (config : CallConfig Double) (call : Call)
    (script : Nat → Turn) (retries bound request : Nat) (property : Nat → Prop) : Prop :=
  ∃ count < bound, (∀ earlier < count, GoesOn python config call script retries
    (request + earlier)) ∧ property (request + count)

theorem reaches_succ {bound request : Nat} {property : Nat → Prop} :
    Reaches python config call script retries (bound + 1) request property ↔
      property request ∨ (GoesOn python config call script retries request ∧
        Reaches python config call script retries bound (request + 1) property) := by
  constructor
  · rintro ⟨count, within, earlier, holds⟩
    cases count with
    | zero => exact .inl holds
    | succ count =>
        refine .inr ⟨earlier 0 (Nat.succ_pos _), count, Nat.lt_of_succ_lt_succ within, ?_, ?_⟩
        · intro before small
          have known := earlier (before + 1) (Nat.succ_lt_succ small)
          rwa [← Nat.add_assoc, Nat.add_right_comm] at known
        · rwa [← Nat.add_assoc, Nat.add_right_comm] at holds
  · rintro (holds | ⟨goes_on, count, within, earlier, holds⟩)
    · exact ⟨0, Nat.succ_pos _, fun _ small => absurd small (Nat.not_lt_zero _), holds⟩
    · refine ⟨count + 1, Nat.succ_lt_succ within, fun before small => ?_, ?_⟩
      · cases before with
        | zero => exact goes_on
        | succ before =>
            have known := earlier before (Nat.lt_of_succ_lt_succ small)
            rwa [Nat.add_right_comm, Nat.add_assoc] at known
      · rwa [Nat.add_right_comm, Nat.add_assoc] at holds

def Whole (retries : Nat) (slots : List Json) (request : Nat) : Prop :=
  isLastAttempt retries (request + slots.length - 1) = true

theorem Whole.tail {model : Json} {rest : List Json} {request : Nat}
    (whole : Whole retries (model :: rest) request) (left : rest ≠ []) :
    Whole retries rest (request + 1) := by
  have some_left := List.length_pos_iff.mpr left
  have index : request + (model :: rest).length - 1 = request + 1 + rest.length - 1 := by
    rw [List.length_cons]
    omega
  rwa [Whole, index] at whole

theorem Whole.single {model : Json} {request : Nat} (whole : Whole retries [model] request) :
    isLastAttempt retries request = true := whole

theorem not_retryable {request : Nat}
    (final : ∀ raised, answered python config call script request = .error raised →
      shouldRetry raised = false) : ¬ Retryable python config call script request := by
  rintro ⟨raised, found, again⟩
  rw [final raised found] at again
  exact absurd again Bool.false_ne_true

theorem final_or_retryable (request : Nat) :
    (∀ raised, answered python config call script request = .error raised →
      shouldRetry raised = false) ∨ Retryable python config call script request := by
  by_cases again : Retryable python config call script request
  · exact .inr again
  · refine .inl fun raised found => ?_
    by_contra retry
    exact again ⟨raised, found, by simpa using retry⟩

theorem goesOn_last {request : Nat} (again : Retryable python config call script request)
    (last : isLastAttempt retries request = true) :
    GoesOn python config call script retries request :=
  ⟨again, fun interrupted => absurd interrupted.2 (by simp [last])⟩

theorem follow_single {outOfRange : Nat → Bool} {request : Nat} {model : Json} :
    follow python config call script outOfRange retries [model] request =
      ([model], answered python config call script request) := by
  cases found : answered python config call script request with
  | ok completion => simp only [follow, found]
  | error raised => simp [follow, found]

theorem found_cons {model : Json} {one other : List Json × Except Raised Completion} :
    (model :: one.1, one.2) = (model :: other.1, other.2) ↔ one = other := by
  cases one
  cases other
  simp

/-- The gateway follows the reference unless it reaches a pause that it cannot compute. -/
theorem followed_iff {slots : List Json} {request : Nat}
    (whole : Whole retries slots request) (some_left : slots ≠ []) :
    followed python config call script retries slots request =
        follow python config call script (fun _ => false) retries slots request ↔
      ¬ Reaches python config call script retries slots.length request
        (Overflows python config call script retries) := by
  induction slots generalizing request with
  | nil => exact absurd rfl some_left
  | cons model rest ih =>
      rw [List.length_cons, reaches_succ, followed]
      rcases final_or_retryable request with final | again
      · have never : ¬ Retryable python config call script request := not_retryable final
        rw [follow_answer final, follow_answer final]
        simp [Overflows, GoesOn, never]
      · by_cases left : rest = []
        · subst left
          rw [follow_single, follow_single]
          simp [Overflows, whole.single, Reaches]
        · have tail := ih (whole.tail left) left
          -- The two go on alike where neither pause ends the call.
          have onwards (paused : isLastAttempt retries request = false →
              pastPower (request % (retries + 1)) = false ∧
                (script request).backoffCancelled = false)
              (computed : ¬ Overflows python config call script retries request)
              (goes_on : GoesOn python config call script retries request) :
              follow python config call script pastPower retries (model :: rest) request =
                  follow python config call script (fun _ => false) retries (model :: rest)
                    request ↔
                ¬ (Overflows python config call script retries request ∨
                  (GoesOn python config call script retries request ∧
                    Reaches python config call script retries rest.length (request + 1)
                      (Overflows python config call script retries))) := by
            rw [follow_next left again paused,
              follow_next left again fun inner => ⟨rfl, (paused inner).2⟩, found_cons]
            refine tail.trans ?_
            simp [computed, goes_on]
          cases last : isLastAttempt retries request with
          | true =>
              refine onwards (fun inner => by simp [last] at inner) ?_ (goesOn_last again last)
              exact fun overflow => absurd overflow.2.1 (by simp [last])
          | false =>
              have ⟨raised, found, worth⟩ := again
              have some_left : rest.isEmpty = false := by simpa using left
              by_cases power : powerLimit ≤ request % (retries + 1)
              · have overflow : Overflows python config call script retries request :=
                  ⟨again, last, power⟩
                have apart : follow python config call script pastPower retries (model :: rest)
                    request ≠ follow python config call script (fun _ => false) retries
                      (model :: rest) request := by
                  intro same
                  simp only [follow, found, worth, some_left, last, pastPower, power] at same
                  by_cases cut : (script request).backoffCancelled = true
                  · simp [cut] at same
                  · have later := @follow_nonempty _ python config call script retries
                      (fun _ => false) (request + 1) rest left
                    simp only [cut, if_false, Bool.false_eq_true, Bool.not_true, Bool.or_self,
                      decide_true, if_true, Prod.mk.injEq, List.cons.injEq, true_and] at same
                    exact later same.1.symm
                simp [apart, overflow]
              · by_cases cut : (script request).backoffCancelled = true
                · have same : follow python config call script pastPower retries (model :: rest)
                      request = follow python config call script (fun _ => false) retries
                        (model :: rest) request := by
                    simp [follow, found, worth, some_left, last, pastPower, power, cut]
                  simp [same, Overflows, power, GoesOn, Interrupted, cut, last]
                · refine onwards (fun _ => ⟨by simp [pastPower, power], by simpa using cut⟩) ?_ ?_
                  · exact fun overflow => power overflow.2.2
                  · exact ⟨again, fun interrupted => cut interrupted.1⟩

theorem cutShort_iff {slots : List Json} {request bound : Nat}
    (whole : Whole retries slots request) (some_left : slots ≠ []) (within : bound ≤ slots.length) :
    (follow python config call script (fun _ => false) retries slots request).2 =
          .error .cancelled ∧
        (follow python config call script (fun _ => false) retries slots request).1.length ≤ bound ↔
      Reaches python config call script retries bound request
        (Cancels python config call script retries) := by
  induction slots generalizing request bound with
  | nil => exact absurd rfl some_left
  | cons model rest ih =>
      cases bound with
      | zero =>
          have some_asked := @follow_nonempty _ python config call script retries
            (fun _ => false) request _ some_left
          simp [Reaches, some_asked]
      | succ bound =>
          rw [reaches_succ]
          rcases final_or_retryable request with final | again
          · have never : ¬ Retryable python config call script request := not_retryable final
            rw [follow_answer final]
            simp [Cancels, GoesOn, never]
          · have ⟨raised, found, worth⟩ := again
            have open_end : answered python config call script request ≠ .error .cancelled := by
              rw [found]
              rintro same
              cases same
              exact absurd worth (by decide)
            by_cases left : rest = []
            · subst left
              obtain rfl : bound = 0 := Nat.le_zero.mp (Nat.le_of_succ_le_succ within)
              rw [follow_single]
              simp [Cancels, open_end, Interrupted, whole.single, Reaches]
            · by_cases interrupted : Interrupted script retries request
              · have some_left : rest.isEmpty = false := by simpa using left
                have cut : Cancels python config call script retries request :=
                  .inr ⟨again, interrupted⟩
                simp [follow, found, worth, some_left, interrupted.1, interrupted.2, cut]
              · have calm (inner : isLastAttempt retries request = false) :
                    (script request).backoffCancelled = false := by
                  by_contra cut
                  exact interrupted ⟨by simpa using cut, inner⟩
                have goes_on : GoesOn python config call script retries request :=
                  ⟨again, interrupted⟩
                have uncut : ¬ Cancels python config call script retries request := by
                  rintro (cancelled | ⟨_, cut⟩)
                  · exact open_end cancelled
                  · exact interrupted cut
                rw [follow_next left again fun inner => ⟨rfl, calm inner⟩, List.length_cons,
                  Nat.add_le_add_iff_right,
                  ih (whole.tail left) left (Nat.le_of_succ_le_succ within)]
                simp [uncut, goes_on]

theorem follow_ok {slots : List Json} {outOfRange : Nat → Bool} {request : Nat}
    {completion : Completion}
    (ended : (follow python config call script outOfRange retries slots request).2 =
      .ok completion) :
    answered python config call script
      (request + (follow python config call script outOfRange retries slots request).1.length - 1) =
        .ok completion := by
  induction slots generalizing request with
  | nil => cases ended
  | cons model rest ih =>
      rcases final_or_retryable request with final | again
      · rw [follow_answer final] at ended ⊢
        exact ended
      · by_cases left : rest = []
        · subst left
          rw [follow_single] at ended ⊢
          exact ended
        · have ⟨raised, found, worth⟩ := again
          have some_left : rest.isEmpty = false := by simpa using left
          have longer := List.length_pos_iff.mpr
            (@follow_nonempty _ python config call script retries outOfRange (request + 1) _ left)
          have next (ended : (follow python config call script outOfRange retries rest
              (request + 1)).2 = .ok completion) :
              answered python config call script (request + ((follow python config call script
                outOfRange retries rest (request + 1)).1.length + 1) - 1) = .ok completion := by
            have index : request + ((follow python config call script outOfRange retries rest
                (request + 1)).1.length + 1) - 1 = request + 1 + (follow python config call script
                  outOfRange retries rest (request + 1)).1.length - 1 := by omega
            rw [index]
            exact ih ended
          simp only [follow, found, worth, some_left, Bool.not_true, Bool.or_self,
            Bool.false_eq_true, if_false] at ended ⊢
          split_ifs at ended ⊢
          · exact next ended
          · exact next ended

end Conditions

section Results

def referenceRun : List Json × Except Raised Fields :=
  match opening python config call with
  | .error fault => ([], .error (.builtin fault))
  | .ok (fallbacks, messages) =>
      let model := setting config call.runtime "model"
      match maxRetries python config call.runtime,
        buildRequest python config call.runtime messages model with
      | .error fault, _ => ([], .error (.builtin fault))
      | .ok _, .error fault => ([], .error (.builtin fault))
      | .ok retries, .ok _ =>
          let run := reference python config call script retries (plan retries (model :: fallbacks))
          (run.1, outputOf call run.2)

structure ReferenceSemantics : Prop where
  follows : (asked (complete python config call script).2, (complete python config call script).1) =
    referenceRun python config call script
  closed : ∀ record, (complete python config call script).2.saved.getLast? = some record →
    match (complete python config call script).1 with
    | .ok _ => record.status = .succeeded ∧
        (asked (complete python config call script).2).getLast? = some record.model ∧
        ∃ completion, answered python config call script
            ((asked (complete python config call script).2).length - 1) = .ok completion ∧
          record.usage = completion.usage
    | .error _ => record.status = .failed

structure Issues (fallbacks : List Json) (messages : Json) (retries : Nat) : Prop where
  opened : opening python config call = .ok (fallbacks, messages)
  known : maxRetries python config call.runtime = .ok retries
  buildable : Buildable python config call.runtime messages

def CancelledEarly : Prop :=
  ∃ fallbacks messages retries, Issues python config call fallbacks messages retries ∧
    Reaches python config call script retries (retries + 1) 0
      (Cancels python config call script retries)

def PauseOverflows : Prop :=
  ∃ fallbacks messages retries, Issues python config call fallbacks messages retries ∧
    Reaches python config call script retries
      (plan retries (setting config call.runtime "model" :: fallbacks)).length 0
      (Overflows python config call script retries)

variable {python config call script}

/-- A call that cannot issue a request fails, and says so in its record. -/
theorem complete_fault {fallbacks : List Json} {messages : Json} {fault : Fault}
    (opened : opening python config call = .ok (fallbacks, messages))
    (called : ∀ state, callWithRetry python config call.runtime script messages
      (setting config call.runtime "model") state = (.error (.builtin fault), state)) :
    (complete python config call script).1 = .error (.builtin fault) ∧
      asked (complete python config call script).2 = [] ∧
      ∃ record, (complete python config call script).2.saved.getLast? = some record ∧
        record.status = .failed := by
  simp only [complete, opened]
  rw [tryModel_raised _ _ (called _) (by simp), resume, tryFallbacks_stop]
  · exact ⟨rfl, rfl, _, rfl, rfl⟩
  · rw [shouldRetry_builtin]
    exact fun contrary => absurd contrary Bool.false_ne_true

theorem plan_whole (retries : Nat) (model : Json) (fallbacks : List Json) :
    Whole retries (plan retries (model :: fallbacks)) 0 ∧
      retries + 1 ≤ (plan retries (model :: fallbacks)).length := by
  have length (models : List Json) :
      (plan retries models).length = models.length * (retries + 1) := by
    induction models with
    | nil => simp [plan]
    | cons first rest ih =>
        rw [plan_cons, List.length_append, List.length_replicate, ih, List.length_cons,
          Nat.add_mul, Nat.one_mul, Nat.add_comm]
  rw [Whole, isLastAttempt, length, List.length_cons, Nat.add_mul, Nat.one_mul]
  refine ⟨?_, Nat.le_add_left ..⟩
  have index : 0 + (fallbacks.length * (retries + 1) + (retries + 1)) - 1 + 1 =
      (fallbacks.length + 1) * (retries + 1) := by
    rw [Nat.add_mul]
    omega
  rw [index, Nat.mul_mod_left]
  rfl

theorem callWithRetry_unknown {messages model : Json} {fault : Fault}
    (unknown : maxRetries python config call.runtime = .error fault) (state : State Double) :
    callWithRetry python config call.runtime script messages model state =
      (.error (.builtin fault), state) := by
  simp only [callWithRetry, unknown]

theorem callWithRetry_unbuilt {messages model : Json} {retries : Nat} {fault : Fault}
    (known : maxRetries python config call.runtime = .ok retries)
    (unbuilt : buildRequest python config call.runtime messages model = .error fault)
    (state : State Double) :
    callWithRetry python config call.runtime script messages model state =
      (.error (.builtin fault), state) := by
  simp only [callWithRetry, known]
  cases retries <;> simp only [attempts, doRequest, unbuilt]

theorem reference_fault {fallbacks : List Json} {messages : Json} {fault : Fault}
    (opened : opening python config call = .ok (fallbacks, messages))
    (called : ∀ state, callWithRetry python config call.runtime script messages
      (setting config call.runtime "model") state = (.error (.builtin fault), state))
    (refers : referenceRun python config call script = ([], .error (.builtin fault))) :
    ReferenceSemantics python config call script := by
  obtain ⟨outcome, asks, record, last, status⟩ := complete_fault opened called
  refine ⟨by rw [outcome, asks, refers], fun other found => ?_⟩
  rw [last] at found
  cases found
  rw [outcome]
  exact status

theorem Issues.built {fallbacks : List Json} {messages : Json} {retries : Nat}
    (issues : Issues python config call fallbacks messages retries) :
    referenceRun python config call script =
      ((reference python config call script retries
          (plan retries (setting config call.runtime "model" :: fallbacks))).1,
        outputOf call (reference python config call script retries
          (plan retries (setting config call.runtime "model" :: fallbacks))).2) := by
  obtain ⟨request, built⟩ := issues.buildable (setting config call.runtime "model")
  simp only [referenceRun, issues.opened, issues.known, built]

theorem Issues.unique {fallbacks fallbacks' : List Json} {messages messages' : Json}
    {retries retries' : Nat} (issues : Issues python config call fallbacks messages retries)
    (other : Issues python config call fallbacks' messages' retries') :
    fallbacks = fallbacks' ∧ messages = messages' ∧ retries = retries' := by
  have same := issues.opened.symm.trans other.opened
  have equal := issues.known.symm.trans other.known
  cases same
  cases equal
  exact ⟨rfl, rfl, rfl⟩

/-- Runs that ask alike and end alike are one: their last answer is the same. -/
theorem follow_same {slots : List Json} {one other : Nat → Bool} {retries : Nat}
    (requests : (follow python config call script one retries slots 0).1 =
      (follow python config call script other retries slots 0).1)
    (result : outputOf call (follow python config call script one retries slots 0).2 =
      outputOf call (follow python config call script other retries slots 0).2) :
    follow python config call script one retries slots 0 =
      follow python config call script other retries slots 0 := by
  refine Prod.ext requests ?_
  cases first : (follow python config call script one retries slots 0).2 with
  | error raised =>
      cases second : (follow python config call script other retries slots 0).2 with
      | error raised' =>
          rw [first, second] at result
          cases result
          rfl
      | ok completion =>
          rw [first, second] at result
          cases result
  | ok completion =>
      cases second : (follow python config call script other retries slots 0).2 with
      | error raised =>
          rw [first, second] at result
          cases result
      | ok completion' =>
          have left := follow_ok first
          have right := follow_ok second
          rw [requests, right] at left
          exact left.symm

/-- Where the call issues requests, it follows the reference unless a pause overflows, and its
record is closed unless it is cancelled early. -/
theorem issues_iff {fallbacks : List Json} {messages : Json} {retries : Nat}
    (issues : Issues python config call fallbacks messages retries) :
    ReferenceSemantics python config call script ↔
      ¬ Reaches python config call script retries (retries + 1) 0
          (Cancels python config call script retries) ∧
        ¬ Reaches python config call script retries
          (plan retries (setting config call.runtime "model" :: fallbacks)).length 0
          (Overflows python config call script retries) := by
  obtain ⟨record, started, follows⟩ :=
    @complete_follows _ _ _ _ script _ _ _ issues.opened issues.buildable issues.known
  obtain ⟨whole, within⟩ := plan_whole retries (setting config call.runtime "model") fallbacks
  have some_left : plan retries (setting config call.runtime "model" :: fallbacks) ≠ [] :=
    List.length_pos_iff.mp (by omega)
  have alike := @followed_iff _ python config call script _ _ _ whole some_left
  have cut := @cutShort_iff _ python config call script _ _ _ _ whole some_left within
  obtain ⟨outcome, asks, untouched, closed⟩ := follows
  have begins : asked ({ saved := [record] } : State Double) = [] := rfl
  rw [begins, List.nil_append] at asks
  rw [← alike, ← cut]
  constructor
  · intro semantics
    have refers := semantics.follows
    rw [issues.built, Prod.mk.injEq, outcome, asks, reference] at refers
    obtain ⟨requests, result⟩ := refers
    have same := follow_same requests result
    refine ⟨fun short => ?_, same⟩
    have shortened : CutShort retries (followed python config call script retries
        (plan retries (setting config call.runtime "model" :: fallbacks)) 0) := by
      rw [followed, same]
      exact short
    have failed := semantics.closed record (by rw [untouched shortened]; rfl)
    rw [outcome, shortened.1] at failed
    rw [started] at failed
    exact nomatch failed
  · rintro ⟨uncut, same⟩
    rw [same] at outcome asks closed
    refine ⟨by rw [outcome, asks, issues.built, reference], fun saved last => ?_⟩
    obtain ⟨known, last', ended⟩ := closed uncut
    rw [last] at last'
    cases last'
    rw [outcome]
    cases final : (follow python config call script (fun _ => false) retries
        (plan retries (setting config call.runtime "model" :: fallbacks)) 0).2 with
    | error raised =>
        rw [final] at ended
        exact ended
    | ok completion =>
        rw [final] at ended
        have last_answer := follow_ok final
        rw [Nat.zero_add, ← asks] at last_answer
        exact ⟨ended.1, ended.2.2, completion, last_answer, ended.2.1⟩

/-- A call is the reference's and closes its record if and only if it is not cancelled before its
first model is given up and comes to no pause that is out of range. -/
theorem reference_semantics_iff (python : Python Double) (config : CallConfig Double) (call : Call)
    (script : Nat → Turn) :
    ReferenceSemantics python config call script ↔
      ¬ CancelledEarly python config call script ∧ ¬ PauseOverflows python config call script := by
  by_cases issued : ∃ fallbacks messages retries,
      Issues python config call fallbacks messages retries
  · obtain ⟨fallbacks, messages, retries, issues⟩ := issued
    rw [issues_iff issues]
    refine and_congr (not_congr ⟨fun reached => ?_, ?_⟩) (not_congr ⟨fun reached => ?_, ?_⟩)
    · exact ⟨fallbacks, messages, retries, issues, reached⟩
    · rintro ⟨_, _, _, other, reached⟩
      obtain ⟨rfl, rfl, rfl⟩ := issues.unique other
      exact reached
    · exact ⟨fallbacks, messages, retries, issues, reached⟩
    · rintro ⟨_, _, _, other, reached⟩
      obtain ⟨rfl, rfl, rfl⟩ := issues.unique other
      exact reached
  · have fault : ReferenceSemantics python config call script := by
      cases opened : opening python config call with
      | error fault =>
          refine ⟨by simp [complete, referenceRun, opened, asked], fun record last => ?_⟩
          simp [complete, opened] at last
      | ok found =>
          obtain ⟨fallbacks, messages⟩ := found
          cases known : maxRetries python config call.runtime with
          | error fault =>
              refine reference_fault opened (callWithRetry_unknown known) ?_
              simp only [referenceRun, opened, known]
          | ok retries =>
              cases built : buildRequest python config call.runtime messages
                  (setting config call.runtime "model") with
              | error fault =>
                  refine reference_fault opened (callWithRetry_unbuilt known built) ?_
                  simp only [referenceRun, opened, known, built]
              | ok request =>
                  refine absurd ⟨fallbacks, messages, retries, opened, known, ?_⟩ issued
                  intro model
                  rw [buildRequest_model _ _ (setting config call.runtime "model"), built]
                  exact ⟨_, rfl⟩
    refine ⟨fun _ => ⟨?_, ?_⟩, fun _ => fault⟩
    · rintro ⟨fallbacks, messages, retries, issues, _⟩
      exact issued ⟨fallbacks, messages, retries, issues⟩
    · rintro ⟨fallbacks, messages, retries, issues, _⟩
      exact issued ⟨fallbacks, messages, retries, issues⟩

def samplePython : Python Nat where
  typeName _ := ""
  int
    | .number value => .ok value
    | _ => .error ⟨.typeError, ""⟩
  float _ := .ok 0
  str
    | .string text => text
    | _ => ""
  loads _ := .error ⟨.jsonDecodeError, ""⟩
  dumps _ := ""
  repr _ := ""
  backoff initial most attempt := min (initial * 2 ^ attempt) most
  estimateCost _ _ := 0
  zero := 0
  utcNow saved := saved

def sampleConfig : CallConfig Nat where
  defaults := [("base_url", .string "http://m/v1"), ("model", .string "one")]
  timeoutSeconds := 60
  retryPolicy := ⟨2, 1, 30⟩
  fallbackModels := [.string "two"]

def sampleCall : Call where
  callId := "MCALL-1"
  agentName := "a"
  agentVersion := "1"
  runtime := []
  prompt := .ok .null

/-- A call that is cancelled during its first request leaves its record open. -/
theorem cancelled_stays_started :
    ¬ ReferenceSemantics samplePython sampleConfig sampleCall
      (fun _ => ⟨.raised .cancelled, false⟩) := by
  intro semantics
  have failed : CallStatus.started = CallStatus.failed :=
    semantics.closed { callId := "MCALL-1", model := .string "one", estimatedCost := 0 } rfl
  exact nomatch failed

end Results
end AgentTaskPlatform.ModelCalls
