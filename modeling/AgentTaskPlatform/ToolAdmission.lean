import AgentTaskPlatform.Activities
import AgentTaskPlatform.Companions
import AgentTaskPlatform.Recorders

/-!
What comes before a tool is invoked. Whoever calls, and whatever the other threads do
meanwhile, the thread of the call has passed every gate of `call` in its order, holds the
claim that a side effect needs, and has waited after each attempt that failed.
-/

namespace AgentTaskPlatform.ToolAdmission

open Interleaving CoroutineRules ToolGateway

abbrev History := List (Act platform)

structure Call where
  context : AgentContext
  toolName : String
  input : Json
  idempotencyKey : Option String

def attemptsOf (tool : ToolSpec) : Nat :=
  if tool.operationType = .sideEffecting then 1 else max 1 tool.retryPolicy.maxAttempts

def gates (asked : Call) (tool : ToolSpec) (run : AgentRun) : History :=
  [⟨.external (.getTool asked.toolName), .ok tool⟩,
    ⟨.external (.validateToolInput tool asked.input), .ok ()⟩,
    ⟨.external (.fallbackIfBreakerOpen tool), .ok none⟩,
    ⟨.external (.acquireQps tool), .ok ()⟩,
    ⟨.run .get, run⟩,
    ⟨.run (.updateIfCurrent .toolCall
      { statuses := [run.status], worker := some asked.context.workerId }
      (waitingRun run tool)), true⟩,
    ⟨.external (.hook "on_tool_start"), .ok ()⟩,
    ⟨.external (.inputGuardrails tool asked.input), .ok none⟩,
    ⟨.external (.acquireSlots tool), .ok ()⟩]

section Claims

variable (digest : Digest) (asked : Call) (tool : ToolSpec)

def identity : String := operationIdentity digest tool asked.input asked.idempotencyKey

def openStage : Op :=
  .stage (.getOrCreate (sideEffectStage digest asked.context tool (identity digest asked tool)
    (digest.stableHash asked.input)))

/-- What a call holds when its attempts start, with the identity it hands to the tool. -/
inductive Claimed : History → Option String → Prop
  | free : tool.operationType ≠ .sideEffecting → Claimed [] none
  | fresh (stage row : AgentStage) (executionId : Uuid) :
      tool.operationType = .sideEffecting →
      stage.status ∉ [StageStatus.succeeded, .running, .outcomeUnknown] →
      Claimed
        [⟨openStage digest asked tool, stage⟩,
          ⟨.process .uuid4, executionId⟩,
          ⟨.stage (.beginSideEffectOnce (sideEffectStageKey digest tool (identity digest asked tool))
            executionId), some row⟩,
          ⟨.stage (.markSideEffectDispatched (asked.context.run.runId ++ ":" ++
            sideEffectStageKey digest tool (identity digest asked tool)) executionId), true⟩]
        (some (identity digest asked tool))
  /-- A stored result that reads as no result. -/
  | blank (stage : AgentStage) : tool.operationType = .sideEffecting →
      stage.status = .succeeded → stage.output.isNull = true →
      Claimed [⟨openStage digest asked tool, stage⟩] (some (identity digest asked tool))

/-- An attempt that raises an `Exception`, wherever in its `try` block. -/
inductive Failed (named : Option String) (error : Exc) : History → Prop
  | invoke : Failed named error [⟨.external (.invoke tool named asked.input), .error error⟩]
  | output (output : Fields) : Failed named error
      [⟨.external (.invoke tool named asked.input), .ok output⟩,
        ⟨.external (.validateToolOutput tool (.object output)), .error error⟩]
  | guardrail (output : Fields) : Failed named error
      [⟨.external (.invoke tool named asked.input), .ok output⟩,
        ⟨.external (.validateToolOutput tool (.object output)), .ok ()⟩,
        ⟨.external (.outputGuardrails tool (.object output)), .error error⟩]
  | hook (output : Fields) (rejected : Option (Option String)) : Failed named error
      [⟨.external (.invoke tool named asked.input), .ok output⟩,
        ⟨.external (.validateToolOutput tool (.object output)), .ok ()⟩,
        ⟨.external (.outputGuardrails tool (.object output)), .ok rejected⟩,
        ⟨.external (.hook "on_tool_end"), .error error⟩]

inductive Tried (named : Option String) : Nat → History → Prop
  | none : Tried named 0 []
  | again {count : Nat} {before attempt : History} {error : Exc} : Tried named count before →
      error.isException = true → Failed asked tool named error attempt →
      Tried named (count + 1) (before ++ attempt ++
        [⟨.external (.sleep (tool.retryPolicy.backoffSeconds * (count + 1))), .ok ()⟩])

structure Admitted (named : Option String) (history : History) : Prop where
  permitted : tool.allowedAgents = [] ∨ asked.context.agent.name ∈ tool.allowedAgents
  keyed : tool.operationType = .idempotent → tool.idempotencyKeyHeader.getD "" ≠ "" →
    asked.idempotencyKey.getD "" ≠ ""
  passed : ∃ run claim count tries, history = gates asked tool run ++ claim ++ tries ∧
    Claimed digest asked tool claim named ∧ Tried asked tool named count tries ∧
    count < attemptsOf tool

end Claims

def allowed (digest : Digest) (asked : Option Call) (history : History) (op : Op) : Prop :=
  ∀ tool named input, op = .external (.invoke tool named input) →
    ∃ own, asked = some own ∧ input = own.input ∧ Admitted digest own tool named history

def invokes : Op → Bool
  | .external (.invoke _ _ _) => true
  | _ => false

theorem allowed_other {digest : Digest} {asked : Option Call} {history : History} {op : Op}
    (other : invokes op = false) : allowed digest asked history op := by
  rintro tool named input rfl
  cases other

section Walk

variable {digest : Digest} {asked : Call} {tool : ToolSpec} {history : History}

abbrev recorded (digest : Digest) (asked : Call) : Protocol platform History :=
  recorder (allowed digest (some asked))

theorem step_other {op : Op} (other : invokes op = false) :
    (recorded digest asked).permits history op :=
  allowed_other other

theorem step_external {op : External} {α : Type} {rest : op.Result → Coroutine α}
    {post : Except Exc α → History → Prop} (other : invokes (.external op) = false)
    (fails : ∀ error, post (.error error) (history ++ [⟨.external op, .error error⟩]))
    (passes : ∀ answer, (recorded digest asked).Follows (history ++ [⟨.external op, .ok answer⟩])
      (rest answer) post) :
    (recorded digest asked).Follows history
      (Coroutine.external op >>= rest : Coroutine α) post := by
  rw [follows_external]
  refine ⟨allowed_other other, fun answer => ?_⟩
  cases answer with
  | error error => exact fails error
  | ok answer => exact passes answer

theorem giveUp_follows (lastError : Option Exc) :
    (recorded digest asked).Follows history (giveUp tool lastError) fun _ _ => True := by
  unfold giveUp
  simp only
  split
  · trivial
  · refine step_external rfl (fun _ => trivial) fun handled => ?_
    cases handled with
    | none => trivial
    | some message => exact step_external rfl (fun _ => trivial) fun _ => trivial

theorem completeSideEffectOperation_follows (effect : Option SideEffect) (output : Fields) :
    (recorded digest asked).Follows history (completeSideEffectOperation tool effect output)
      fun outcome after => effect = none → outcome = .ok () ∧ after = history := by
  cases effect with
  | none => exact fun _ => ⟨rfl, rfl⟩
  | some effect =>
      have claimed : ∀ {program : Coroutine Unit}, (recorded digest asked).Follows history program
          (fun _ _ => True) → (recorded digest asked).Follows history program
          fun outcome after => (some effect = none) → outcome = .ok () ∧ after = history :=
        fun follows => follows.mono fun _ _ _ => nofun
      apply claimed
      unfold completeSideEffectOperation
      simp only
      split
      · trivial
      · rw [follows_perform]
        refine ⟨step_other rfl, fun returned => ?_⟩
        cases returned with
        | false => trivial
        | true =>
            simp only [if_true]
            rw [follows_perform]
            refine ⟨step_other rfl, fun completed => ?_⟩
            cases completed <;> trivial

/-- An attempt without a claim that raises leaves one of the failed attempts. -/
theorem invokeOnce_follows {named : Option String} {effect : Option SideEffect}
    (admitted : Admitted digest asked tool named history) :
    (recorded digest asked).Follows history (invokeOnce tool named effect asked.input)
      fun outcome after => ∀ error, outcome = .error error → effect = none →
        ∃ attempt, after = history ++ attempt ∧ Failed asked tool named error attempt := by
  unfold invokeOnce
  rw [follows_external]
  refine ⟨?_, fun answer => ?_⟩
  · intro other identity input same
    cases same
    exact ⟨asked, rfl, rfl, admitted⟩
  · cases answer with
    | error error =>
        intro found same _
        cases same
        exact ⟨_, rfl, .invoke⟩
    | ok output =>
        simp only [Protocol.continued]
        refine step_external rfl (fun error => ?_) fun _ => ?_
        · intro found same _
          cases same
          exact ⟨_, List.append_assoc _ _ _, .output output⟩
        · refine step_external rfl (fun error => ?_) fun rejected => ?_
          · intro found same _
            cases same
            exact ⟨_, (List.append_assoc _ _ _).trans (List.append_assoc _ _ _),
              .guardrail output⟩
          · apply (completeSideEffectOperation_follows effect _).next
            · intro _ middle completed
              refine step_external rfl (fun error => ?_) fun _ _ same => by cases same
              intro found same bare
              cases same
              obtain ⟨_, rfl⟩ := completed bare
              exact ⟨_, by simp, .hook output rejected⟩
            · intro error middle completed found same bare
              cases (completed bare).1

section Attempts

variable {named : Option String} {base : History}

theorem invokeFrom_follows {attempts : Nat}
    (admits : ∀ count tries, Tried asked tool named count tries → count < attempts →
      Admitted digest asked tool named (base ++ tries))
    (remaining count : Nat) (total : count + remaining = attempts) {tries : History}
    (tried : Tried asked tool named count tries) (lastError : Option Exc) :
    (recorded digest asked).Follows (base ++ tries)
      (invokeFrom tool named none asked.input attempts remaining lastError)
      fun _ _ => True := by
  induction remaining generalizing count tries lastError with
  | zero => exact giveUp_follows lastError
  | succ remaining ih =>
      unfold invokeFrom
      rw [follows_attempt_next]
      apply (invokeOnce_follows (admits count tries tried (by omega))).mono
      intro outcome after ended
      cases outcome with
      | ok output => trivial
      | error error =>
          obtain ⟨attempt, rfl, failed⟩ := ended error rfl rfl
          simp only
          split
          · next handled =>
              have number : attempts - remaining = count + 1 := by omega
              rw [number]
              unfold backOff
              split
              · refine step_external rfl (fun _ => trivial) fun _ => ?_
                have later := Tried.again tried handled failed
                simpa using ih (count + 1) (by omega) later (some error)
              · -- No attempt is left, and none is waited for.
                have last : remaining = 0 := by omega
                subst last
                exact giveUp_follows (some error)
          · split <;> trivial

theorem invokeFrom_single_follows {effect : SideEffect}
    (admitted : Admitted digest asked tool named base) :
    (recorded digest asked).Follows base
      (invokeFrom tool named (some effect) asked.input 1 1 none) fun _ _ => True := by
  unfold invokeFrom
  rw [follows_attempt_next]
  apply (invokeOnce_follows admitted).mono
  intro outcome after _
  cases outcome with
  | ok output => trivial
  | error error =>
      simp only
      split
      · exact giveUp_follows (some error)
      · split <;> trivial

theorem prepareSideEffectOperation_follows (effecting : tool.operationType = .sideEffecting) :
    (recorded digest asked).Follows base
      (prepareSideEffectOperation digest asked.context tool asked.input asked.idempotencyKey)
      fun outcome after => ∀ effect, outcome = .ok effect →
        effect.cachedOutput.isNull = false ∨ ∃ claim, after = base ++ claim ∧
          Claimed digest asked tool claim (some (identity digest asked tool)) := by
  unfold prepareSideEffectOperation
  simp only
  rw [follows_perform]
  refine ⟨step_other rfl, fun stage => ?_⟩
  split
  · next stored =>
      intro effect same
      cases same
      cases empty : stage.output.isNull with
      | false => exact Or.inl rfl
      | true => exact Or.inr ⟨_, rfl, .blank stage effecting stored empty⟩
  · next unfinished =>
      split
      · exact nofun
      · next unclaimed =>
          rw [follows_uuid4]
          refine ⟨step_other rfl, fun executionId => ?_⟩
          rw [follows_perform]
          refine ⟨step_other rfl, fun active => ?_⟩
          cases active with
          | none => exact nofun
          | some row =>
              simp only
              rw [follows_perform]
              refine ⟨step_other rfl, fun dispatched => ?_⟩
              cases dispatched with
              | false => exact nofun
              | true =>
                  refine fun effect same => Or.inr ⟨_, ?_, .fresh stage row executionId effecting ?_⟩
                  · simp [openStage, identity]
                  · simpa [unfinished] using unclaimed

end Attempts

section Calls

variable {run : AgentRun}

theorem callWithRetries_follows
    (permitted : tool.allowedAgents = [] ∨ asked.context.agent.name ∈ tool.allowedAgents) :
    (recorded digest asked).Follows (gates asked tool run)
      (callWithRetries digest asked.context tool asked.input asked.idempotencyKey)
      fun _ _ => True := by
  unfold callWithRetries
  split
  · next effecting =>
      apply (prepareSideEffectOperation_follows effecting).next
      · intro effect after prepared
        split
        · trivial
        · next uncached =>
            rcases prepared effect rfl with cached | ⟨claim, rfl, claimed⟩
            · simp [cached] at uncached
            · have admitted : Admitted digest asked tool (some (identity digest asked tool))
                  (gates asked tool run ++ claim) := by
                refine ⟨permitted, fun idempotent => ?_, run, claim, 0, [], by simp, claimed,
                  .none, ?_⟩
                · rw [effecting] at idempotent
                  cases idempotent
                · simp [attemptsOf, effecting]
              apply (invokeFrom_single_follows admitted).next
              · exact fun _ _ _ => trivial
              · exact fun _ _ _ => trivial
      · exact fun _ _ _ => trivial
  · next harmless =>
      split
      · trivial
      · next keyed =>
          have admits : ∀ count tries, Tried asked tool none count tries →
              count < max 1 tool.retryPolicy.maxAttempts →
              Admitted digest asked tool none (gates asked tool run ++ tries) := by
            intro count tries tried below
            refine ⟨permitted, fun idempotent header => ?_, run, [], count, tries, by simp,
              .free harmless, tried, ?_⟩
            · simpa [idempotent, header] using keyed
            · simpa [attemptsOf, harmless] using below
          have follows := invokeFrom_follows admits _ 0 (Nat.zero_add _) .none none
          rw [List.append_nil] at follows
          apply follows.next
          · exact fun _ _ _ => trivial
          · exact fun _ _ _ => trivial

theorem markWaiting_follows :
    (recorded digest asked).Follows history (markWaiting asked.context tool)
      fun outcome after => outcome = .ok () → ∃ run, after = history ++
        [⟨.run .get, run⟩, ⟨.run (.updateIfCurrent .toolCall
          { statuses := [run.status], worker := some asked.context.workerId }
          (waitingRun run tool)), true⟩] := by
  unfold markWaiting
  rw [follows_requireRun]
  refine ⟨step_other rfl, fun run => ?_⟩
  rw [follows_updateIfCurrent]
  refine ⟨step_other rfl, fun stored => ?_⟩
  cases stored with
  | false => exact nofun
  | true => exact fun _ => ⟨run, by simp⟩

theorem call_follows : (recorded digest asked).Follows []
    (call digest asked.context asked.toolName asked.input asked.idempotencyKey)
    fun _ _ => True := by
  unfold call
  refine step_external rfl (fun _ => trivial) fun tool => ?_
  have checked : (recorded digest asked).Follows
      ([] ++ [⟨.external (.getTool asked.toolName), .ok tool⟩])
      (validateAllowed tool asked.context.agent.name) fun outcome after =>
        outcome = .ok () → after = [⟨.external (.getTool asked.toolName), .ok tool⟩] ∧
          (tool.allowedAgents = [] ∨ asked.context.agent.name ∈ tool.allowedAgents) := by
    unfold validateAllowed
    split
    · exact nofun
    · next listed =>
        refine fun _ => ⟨rfl, ?_⟩
        by_cases open_ : tool.allowedAgents = []
        · exact Or.inl open_
        · exact Or.inr (by simpa [open_] using listed)
  apply checked.next
  · intro _ after passed
    obtain ⟨rfl, permitted⟩ := passed rfl
    refine step_external rfl (fun _ => trivial) fun _ => ?_
    refine step_external rfl (fun _ => trivial) fun fallback => ?_
    cases fallback with
    | some output => exact step_external rfl (fun _ => trivial) fun _ => trivial
    | none =>
        simp only
        unfold callAdmitted
        refine step_external rfl (fun _ => trivial) fun _ => ?_
        apply markWaiting_follows.next
        · intro _ waiting marked
          obtain ⟨run, rfl⟩ := marked rfl
          refine step_external rfl (fun _ => trivial) fun _ => ?_
          refine step_external rfl (fun _ => trivial) fun rejected => ?_
          cases rejected with
          | some message => exact step_external rfl (fun _ => trivial) fun _ => trivial
          | none =>
              refine step_external rfl (fun _ => trivial) fun _ => ?_
              simpa [gates] using callWithRetries_follows permitted
        · exact fun _ _ _ => trivial
  · exact fun _ _ _ => trivial

end Calls

end Walk

section Threads

def asked (entry : Entry) (state : State) : Option (Option Call) :=
  match entry with
  | .toolCall index toolName input idempotencyKey =>
      some ((state.contexts[index]?).map fun context => ⟨context, toolName, input, idempotencyKey⟩)
  | _ => some none

def harmless : Phase → Prop
  | .tool _ _ => False
  | _ => True

theorem harmless_after {phase : Phase} (op : Op) (answer : op.Answer) (kept : harmless phase) :
    harmless (phase.after op answer) := by
  cases phase with
  | tool context progress => exact kept
  | _ => trivial

theorem harmless_allowed {digest : Digest} {phase : Phase} {op : Op} {history : History}
    (kept : harmless phase) (permitted : phase.permits digest op) :
    allowed digest none history op := by
  rintro tool named input rfl
  exfalso
  cases phase with
  | tool context progress => exact kept
  | execution process worker progress =>
      cases permitted with
      | external op free => cases free
  | stage index context stageKey progress =>
      cases permitted with
      | external op free => cases free
  | checkpoint index context stageKey progress =>
      cases permitted with
      | external op free => cases free
  | manager process job progress =>
      cases permitted with
      | external op free _ => cases free

theorem start_harmless {state : State} {entry : Entry} {phase : Phase}
    (start : entry.phase state = some phase)
    (other : ∀ index toolName input key, entry ≠ .toolCall index toolName input key) :
    harmless phase ∧ asked entry state = some none := by
  cases entry with
  | toolCall index toolName input key => exact absurd rfl (other index toolName input key)
  | _ =>
      refine ⟨?_, rfl⟩
      cases phase with
      | tool context progress => simp [Entry.phase] at start
      | _ => trivial

variable (deployment : Deployment) (admitted : Entry → Bool)

def recording : Recording (platformSystem deployment admitted) (Option Call) where
  label := asked
  allowed := allowed deployment.digest
  launched := by
    intro entry config state thread launched
    obtain ⟨_, _, started⟩ := launch_start launched
    by_cases calls : ∃ index toolName input key, entry = .toolCall index toolName input key
    · obtain ⟨index, toolName, input, key, rfl⟩ := calls
      simp only [Entry.start] at started
      split at started
      · cases started
      · next context found =>
          cases started
          exact ⟨some ⟨context, toolName, input, key⟩, by simp [asked, found], call_follows⟩
    · obtain ⟨phase, start, _, follows⟩ := Entry.start_phase started
      obtain ⟨kept, unlabelled⟩ := start_harmless start fun index toolName input key same =>
        calls ⟨index, toolName, input, key, same⟩
      exact ⟨none, unlabelled, follows.covered harmless (fun _ op answer => harmless_after op answer)
        (fun _ _ safe permitted _ => harmless_allowed safe permitted) kept⟩

end Threads

section Runs

variable {deployment : Deployment} {admitted : Entry → Bool}

/-- In every run, an invocation is one of a call whose thread has passed all the gates with the
context it was started for. -/
theorem invocation_admitted {start : State} {left right : List PlatformEvent}
    {final : PlatformConfig} {thread : Nat} {tag : Tag} {tool : ToolSpec} {named : Option String}
    {input : Json} {answer : Except Exc Fields} {before after : State}
    (run : (platformSystem deployment admitted).Run (atRest start)
      (left ++ .acted thread tag (.external (.invoke tool named input)) answer before after :: right)
      final) :
    ∃ index own tag' opened opened', (.launched
        (.toolCall index own.toolName own.input own.idempotencyKey) (some (thread, tag')) opened
        opened' : PlatformEvent) ∈ left ∧ opened.contexts[index]? = some own.context ∧
      own.input = input ∧ Admitted deployment.digest own tool named (actsOf thread left) := by
  obtain ⟨known, ⟨entry, tag', opened, opened', member, labelled⟩, judged⟩ :=
    (recording deployment admitted).run_allowed run rfl
  obtain ⟨own, rfl, rfl, passed⟩ := judged tool named input rfl
  cases entry with
  | toolCall index toolName given key =>
      obtain ⟨context, found, rfl⟩ := Option.map_eq_some_iff.mp (Option.some.inj labelled)
      exact ⟨index, _, tag', opened, opened', member, found, rfl, passed⟩
  | _ => cases labelled

end Runs

section Samples

def unreliable : (op : External) → Except Exc op.Result
  | .invoke _ _ _ => .error (.runtime "HTTP 503")
  | op => .ok (smooth sampleAgent { sampleTool with retryPolicy := { maxAttempts := 2 } } op)

def retried : List (Move platform Entry) :=
  [.launch (.runBackground "api")] ++ steps 13 0 calm ++
    [.launch (.toolCall 0 "lookup" (.object []) none)] ++ steps 12 1 unreliable

def isInvocation : PlatformEvent → Bool
  | .acted _ _ (.external (.invoke _ _ _)) _ _ _ => true
  | _ => false

theorem retried_replays : ((platformSystem sampleDeployment fun _ => true).replay
    (atRest (State.initial sampleRun 0 none)) retried).any
      (fun outcome => outcome.1.any isInvocation && outcome.1.countP isInvocation == 2) =
      true := rfl

theorem invocation_admitted_retried : ∃ left right final thread tag tool named input answer before
    after, (platformSystem sampleDeployment fun _ => true).Run
      (atRest (State.initial sampleRun 0 none))
      (left ++ .acted thread tag (.external (.invoke tool named input)) answer before after :: right)
      final ∧
    ∃ index own tag' opened opened', (.launched
        (.toolCall index own.toolName own.input own.idempotencyKey) (some (thread, tag')) opened
        opened' : PlatformEvent) ∈ left ∧ opened.contexts[index]? = some own.context ∧
      own.input = input ∧
      Admitted sampleDeployment.digest own tool named (actsOf thread left) := by
  obtain ⟨events, final, ran, checked⟩ := System.replay_checked retried_replays
  obtain ⟨invoked, _⟩ := Bool.and_eq_true_iff.mp checked
  obtain ⟨event, member, call⟩ := List.any_eq_true.mp invoked
  obtain ⟨left, right, rfl⟩ := List.append_of_mem member
  unfold isInvocation at call
  split at call
  · exact ⟨left, right, final, _, _, _, _, _, _, _, _, ran, invocation_admitted ran⟩
  · cases call

end Samples

end AgentTaskPlatform.ToolAdmission
