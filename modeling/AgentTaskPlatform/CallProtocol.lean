import AgentTaskPlatform.Activities
import AgentTaskPlatform.Companions
import AgentTaskPlatform.Footprint

/-!
How far a tool call has come with its durable operation. A call reads the row of its
operation once; from then on it is refused, answered from the row, or it invokes the
tool with the input it was made with and may commit the result to this row.
-/

namespace AgentTaskPlatform.CallProtocol

open Interleaving CoroutineRules ToolGateway

inductive Standing where
  | sought
  /-- The tool has no durable operation. -/
  | free
  | found (row stored : AgentStage)
  | invoked (row : AgentStage)

def refused (stored : AgentStage) : Prop :=
  stored.status = .running ∨ stored.status = .outcomeUnknown

def watched : Op → Bool
  | .stage (.getOrCreate _) => true
  | .stage (.markSucceeded _ _ _) => true
  | .external (.invoke _ _ _) => true
  | _ => false

def Standing.after : Standing → (op : Op) → op.Answer → Standing
  | .sought, .stage (.getOrCreate row), stored => .found row stored
  | .sought, .external (.invoke _ _ _), _ => .free
  | .found row _, .external (.invoke _ _ _), _ => .invoked row
  | standing, _, _ => standing

theorem Standing.after_unwatched {op : Op} (standing : Standing) (answer : op.Answer)
    (silent : watched op = false) : standing.after op answer = standing := by
  cases op with
  | stage op => cases op <;> first | (cases standing <;> rfl) | cases silent
  | external op => cases op <;> first | (cases standing <;> rfl) | cases silent
  | _ => cases standing <;> rfl

section

variable (digest : Digest) (input : Json) (idempotencyKey : Option String)

def requested (context : AgentContext) (tool : ToolSpec) : AgentStage :=
  sideEffectStage digest context tool (operationIdentity digest tool input idempotencyKey)
    (digest.stableHash input)

inductive Permitted : Standing → Op → Prop
  | unwatched {standing} (op) : watched op = false → Permitted standing op
  | getOrCreate (context tool) : tool.operationType = .sideEffecting →
      Permitted .sought (.stage
        (.getOrCreate (requested digest input idempotencyKey context tool)))
  | invokeFreely {standing} (tool) : standing = .sought ∨ standing = .free →
      Permitted standing (.external (.invoke tool none input))
  | invoke {row stored} (tool) :
      row.stageKey = sideEffectStageKey digest tool
        (operationIdentity digest tool input idempotencyKey) →
      ¬ refused stored →
      Permitted (.found row stored) (.external
        (.invoke tool (some (operationIdentity digest tool input idempotencyKey)) input))
  | markSucceeded {row} (executionId output) :
      Permitted (.invoked row) (.stage (.markSucceeded row.stageKey executionId output))

def protocol : Protocol platform Standing where
  permits := Permitted digest input idempotencyKey
  after := Standing.after

inductive Backed (tool : ToolSpec) : Option String → Option SideEffect → Standing → Prop
  | free {standing} : standing = .sought ∨ standing = .free → Backed tool none none standing
  | claimed {effect : SideEffect} {row stored} :
      row.stageKey = sideEffectStageKey digest tool
        (operationIdentity digest tool input idempotencyKey) →
      effect.stageKey = row.stageKey → ¬ refused stored →
      Backed tool (some (operationIdentity digest tool input idempotencyKey)) (some effect)
        (.found row stored)

end

def Concluded (outcome : Except Exc Json) : Standing → Prop
  | .found _ stored => ∀ output, outcome = .ok output →
      stored.status = .succeeded ∧ output = stored.output
  | _ => True

theorem concluded_error {standing : Standing} (error : Exc) :
    Concluded (.error error) standing := by
  cases standing with
  | found row stored => exact nofun
  | _ => trivial

section Walk

variable {digest : Digest} {input : Json} {idempotencyKey : Option String}
  {context : AgentContext} {standing : Standing}

/-- What a call does outside its durable operation leaves its standing alone. -/
theorem follows_silent {α : Type} {op : External} {rest : op.Result → Coroutine α}
    {post : Except Exc α → Standing → Prop} (silent : watched (.external op) = false)
    (later : ∀ answer, (protocol digest input idempotencyKey).continued rest post answer
      standing) :
    (protocol digest input idempotencyKey).Follows standing
      (Coroutine.external op >>= rest : Coroutine α) post := by
  rw [follows_external]
  refine ⟨.unwatched _ silent, ?_⟩
  intro answer
  show (protocol digest input idempotencyKey).continued rest post answer
    (standing.after (.external op) answer)
  rw [Standing.after_unwatched standing answer silent]
  exact later answer

theorem follows_silent_last {op : External} {post : Except Exc op.Result → Standing → Prop}
    (silent : watched (.external op) = false) (later : ∀ answer, post answer standing) :
    (protocol digest input idempotencyKey).Follows standing (Coroutine.external op) post := by
  rw [follows_external_last]
  refine ⟨.unwatched _ silent, ?_⟩
  intro answer
  show post answer (standing.after (.external op) answer)
  rw [Standing.after_unwatched standing answer silent]
  exact later answer

inductive Invoked : Option SideEffect → Standing → Prop
  | free : Invoked none .free
  | claimed {effect : SideEffect} {row : AgentStage} : effect.stageKey = row.stageKey →
      Invoked (some effect) (.invoked row)

theorem Invoked.concluded {effect : Option SideEffect} (invoked : Invoked effect standing)
    (outcome : Except Exc Json) : Concluded outcome standing := by
  cases invoked <;> trivial

theorem completeSideEffectOperation_follows (tool : ToolSpec) {effect : Option SideEffect}
    (output : Fields) (invoked : Invoked effect standing) :
    (protocol digest input idempotencyKey).Follows standing
      (completeSideEffectOperation tool effect output) fun _ after => Invoked effect after := by
  unfold completeSideEffectOperation
  cases invoked with
  | free => exact .free
  | @claimed effect row same =>
      simp only
      split
      · exact .claimed same
      · next executionId _ =>
          rw [follows_perform]
          refine ⟨.unwatched _ rfl, ?_⟩
          intro returned
          cases returned with
          | false => exact .claimed same
          | true =>
              simp only [if_true]
              rw [follows_perform]
              have commits : Permitted digest input idempotencyKey (.invoked row)
                  (.stage (.markSucceeded effect.stageKey executionId (.object output))) := by
                rw [same]
                exact .markSucceeded _ _
              refine ⟨commits, ?_⟩
              intro completed
              cases completed <;> exact .claimed same

theorem invoke_follows {tool : ToolSpec} {identity : Option String} {effect : Option SideEffect}
    (backed : Backed digest input idempotencyKey tool identity effect standing) :
    (protocol digest input idempotencyKey).Follows standing
      (Coroutine.external (.invoke tool identity input)) fun _ after => Invoked effect after := by
  rw [follows_external_last]
  cases backed with
  | free which =>
      refine ⟨.invokeFreely tool which, ?_⟩
      intro answer
      rcases which with rfl | rfl <;> exact .free
  | claimed key same proceeds =>
      refine ⟨.invoke tool key proceeds, ?_⟩
      intro answer
      exact .claimed same

theorem invokeOnce_follows {tool : ToolSpec} {identity : Option String}
    {effect : Option SideEffect}
    (backed : Backed digest input idempotencyKey tool identity effect standing) :
    (protocol digest input idempotencyKey).Follows standing
      (invokeOnce tool identity effect input) fun _ after => Invoked effect after := by
  unfold invokeOnce
  apply (invoke_follows backed).next
  · intro output after invoked
    apply follows_silent rfl
    intro answer
    cases answer with
    | error _ => exact invoked
    | ok _ =>
        apply follows_silent rfl
        intro rejected
        cases rejected with
        | error _ => exact invoked
        | ok rejected =>
            apply Protocol.Follows.next (completeSideEffectOperation_follows tool _ invoked)
            · intro _ later done
              apply follows_silent rfl
              intro answer
              cases answer <;> exact done
            · intro _ _ done
              exact done
  · intro _ _ invoked
    exact invoked

theorem backOff_follows (tool : ToolSpec) (attempt attempts : Nat) {effect : Option SideEffect}
    (invoked : Invoked effect standing) :
    (protocol digest input idempotencyKey).Follows standing (backOff tool attempt attempts)
      fun _ after => Invoked effect after := by
  unfold backOff
  split
  · apply follows_silent_last rfl
    intro answer
    exact invoked
  · exact invoked

/-- The end of a call that has not read a row, or has invoked its tool for it. -/
theorem giveUp_follows (tool : ToolSpec) (lastError : Option Exc)
    (ended : ∀ outcome, Concluded outcome standing) :
    (protocol digest input idempotencyKey).Follows standing (giveUp tool lastError)
      fun _ after => ∀ outcome, Concluded outcome after := by
  unfold giveUp
  simp only
  split
  · exact ended
  · apply follows_silent rfl
    intro handled
    cases handled with
    | error _ => exact ended
    | ok handled =>
        cases handled with
        | none => exact ended
        | some message =>
            apply follows_silent rfl
            intro answer
            cases answer <;> exact ended

theorem invokeFrom_succ_follows {tool : ToolSpec} {identity : Option String}
    {effect : Option SideEffect} (attempts remaining : Nat) (lastError : Option Exc)
    (backed : Backed digest input idempotencyKey tool identity effect standing)
    (later : ∀ after (error : Exc), Invoked effect after →
      (protocol digest input idempotencyKey).Follows after
        (invokeFrom tool identity effect input attempts remaining (some error))
        fun _ after => ∀ outcome, Concluded outcome after) :
    (protocol digest input idempotencyKey).Follows standing
      (invokeFrom tool identity effect input attempts (remaining + 1) lastError)
      fun _ after => ∀ outcome, Concluded outcome after := by
  unfold invokeFrom
  rw [follows_attempt_next]
  apply (invokeOnce_follows backed).mono
  intro outcome after invoked
  cases outcome with
  | ok output => exact invoked.concluded
  | error error =>
      simp only
      split
      · apply (backOff_follows tool _ attempts invoked).next
        · intro _ waited still
          exact later waited error still
        · intro _ _ still
          exact still.concluded
      · split <;> exact invoked.concluded

/-- A call without a durable operation may be retried. -/
theorem invokeFrom_free_follows {tool : ToolSpec} (attempts remaining : Nat)
    (lastError : Option Exc) (free : standing = .sought ∨ standing = .free) :
    (protocol digest input idempotencyKey).Follows standing
      (invokeFrom tool none none input attempts remaining lastError)
      fun _ after => ∀ outcome, Concluded outcome after := by
  induction remaining generalizing standing lastError with
  | zero =>
      apply giveUp_follows tool lastError
      intro outcome
      rcases free with rfl | rfl <;> trivial
  | succ remaining ih =>
      apply invokeFrom_succ_follows attempts remaining lastError (.free free)
      intro after error invoked
      cases invoked
      exact ih (some error) (Or.inr rfl)

theorem prepareSideEffectOperation_follows {tool : ToolSpec}
    (sideEffecting : tool.operationType = .sideEffecting) :
    (protocol digest input idempotencyKey).Follows .sought
      (prepareSideEffectOperation digest context tool input idempotencyKey)
      fun outcome after => ∀ effect, outcome = .ok effect →
        (∃ row stored, after = .found row stored ∧ stored.status = .succeeded ∧
          effect.cachedOutput = stored.output ∧
          (stored.output.isNull = true → Backed digest input idempotencyKey tool
            (some (operationIdentity digest tool input idempotencyKey)) (some effect) after)) ∨
        (effect.cachedOutput = .null ∧ Backed digest input idempotencyKey tool
          (some (operationIdentity digest tool input idempotencyKey)) (some effect) after) := by
  unfold prepareSideEffectOperation
  simp only
  rw [follows_perform]
  refine ⟨.getOrCreate context tool sideEffecting, ?_⟩
  intro stored
  split
  · next succeeded =>
      intro effect same
      cases same
      refine Or.inl ⟨_, stored, rfl, succeeded, rfl, ?_⟩
      intro _
      apply Backed.claimed rfl rfl
      rintro (status | status) <;> rw [succeeded] at status <;> cases status
  · split
    · exact nofun
    · next unsettled =>
        have proceeds : ¬ refused stored := by
          simpa [refused] using unsettled
        rw [follows_uuid4]
        refine ⟨.unwatched _ rfl, ?_⟩
        intro executionId
        rw [follows_perform]
        refine ⟨.unwatched _ rfl, ?_⟩
        intro active
        cases active with
        | none => exact nofun
        | some row =>
            simp only
            rw [follows_perform]
            refine ⟨.unwatched _ rfl, ?_⟩
            intro dispatched
            cases dispatched with
            | false => exact nofun
            | true =>
                intro effect same
                cases same
                exact Or.inr ⟨rfl, .claimed rfl rfl proceeds⟩

theorem callWithRetries_follows (tool : ToolSpec) :
    (protocol digest input idempotencyKey).Follows .sought
      (callWithRetries digest context tool input idempotencyKey) Concluded := by
  unfold callWithRetries
  split
  · next sideEffecting =>
      apply (prepareSideEffectOperation_follows sideEffecting).next
      · intro effect after prepared
        have invoked (backed : Backed digest input idempotencyKey tool
            (some (operationIdentity digest tool input idempotencyKey)) (some effect) after) :
            (protocol digest input idempotencyKey).Follows after
              (invokeFrom tool (some (operationIdentity digest tool input idempotencyKey))
                (some effect) input 1 1 none) fun _ after => ∀ outcome, Concluded outcome after :=
          invokeFrom_succ_follows 1 0 none backed
            fun _ error invoked => giveUp_follows tool (some error) invoked.concluded
        rcases prepared effect rfl with
          ⟨row, stored, rfl, succeeded, output, backed⟩ | ⟨null, backed⟩
        · split
          · intro given same
            cases same
            exact ⟨succeeded, output⟩
          · next blank =>
              have null : stored.output.isNull = true := by
                rw [output] at blank
                simpa using blank
              apply (invoked (backed null)).next
              · intro _ _ ended
                exact ended _
              · intro _ _ ended
                exact ended _
        · rw [null]
          simp only [Json.isNull, Bool.not_true, Bool.false_eq_true, if_false]
          apply (invoked backed).next
          · intro _ _ ended
            exact ended _
          · intro _ _ ended
            exact ended _
      · intro error _ _
        exact concluded_error error
  · split
    · trivial
    · apply (invokeFrom_free_follows _ _ none (Or.inl rfl)).next
      · intro _ _ ended
        exact ended _
      · intro _ _ ended
        exact ended _

theorem validateAllowed_within (tool : ToolSpec) (agentName : String) :
    Fallible.Within (fun op => watched op = false) (validateAllowed tool agentName) := by
  unfold validateAllowed
  split <;> trivial

theorem markWaiting_within (tool : ToolSpec) :
    Fallible.Within (fun op => watched op = false) (markWaiting context tool) := by
  unfold markWaiting
  refine ⟨rfl, ?_⟩
  intro run
  refine ⟨rfl, ?_⟩
  intro stored
  cases stored <;> trivial

/-- A part of a call that does not touch the operation leaves the standing alone. -/
theorem follows_aside {α : Type} {program : Coroutine α}
    (within : Fallible.Within (fun op => watched op = false) program) :
    (protocol digest input idempotencyKey).Follows standing program
      fun _ after => after = standing :=
  Protocol.follows_within within (fun op silent => .unwatched op silent)
    fun _ answer silent => Standing.after_unwatched standing answer silent

theorem callAdmitted_follows (tool : ToolSpec) :
    (protocol digest input idempotencyKey).Follows .sought
      (callAdmitted digest context tool input idempotencyKey) Concluded := by
  unfold callAdmitted
  apply follows_silent rfl
  intro answer
  cases answer with
  | error _ => trivial
  | ok _ =>
      apply Protocol.Follows.next (follows_aside (markWaiting_within tool))
      · rintro _ _ rfl
        apply follows_silent rfl
        intro answer
        cases answer with
        | error _ => trivial
        | ok _ =>
            apply follows_silent rfl
            intro answer
            cases answer with
            | error _ => trivial
            | ok rejected =>
                cases rejected with
                | some message =>
                    apply follows_silent rfl
                    intro answer
                    cases answer <;> trivial
                | none =>
                    apply follows_silent rfl
                    intro answer
                    cases answer with
                    | error _ => trivial
                    | ok _ => exact callWithRetries_follows tool
      · intro error _ _
        exact concluded_error error

theorem call_follows (toolName : String) :
    (protocol digest input idempotencyKey).Follows .sought
      (call digest context toolName input idempotencyKey) Concluded := by
  unfold call
  apply follows_silent rfl
  intro answer
  cases answer with
  | error _ => trivial
  | ok tool =>
      apply Protocol.Follows.next (follows_aside (validateAllowed_within tool _))
      · rintro _ _ rfl
        apply follows_silent rfl
        intro answer
        cases answer with
        | error _ => trivial
        | ok _ =>
            apply follows_silent rfl
            intro answer
            cases answer with
            | error _ => trivial
            | ok fallback =>
                cases fallback with
                | some output =>
                    apply follows_silent rfl
                    intro answer
                    cases answer <;> trivial
                | none => exact callAdmitted_follows tool
      · intro error _ _
        exact concluded_error error

end Walk

inductive CallPhase where
  | other
  | call (input : Json) (idempotencyKey : Option String) (standing : Standing)

def CallPhase.permits (digest : Digest) : CallPhase → Op → Prop
  | .other, _ => True
  | .call input idempotencyKey standing, op => Permitted digest input idempotencyKey standing op

def CallPhase.after : CallPhase → (op : Op) → op.Answer → CallPhase
  | .other, _, _ => .other
  | .call input idempotencyKey standing, op, answer =>
      .call input idempotencyKey (standing.after op answer)

def CallPhase.concludes (outcome : Except Exc Json) : CallPhase → Prop
  | .other => True
  | .call _ _ standing => Concluded outcome standing

def requests (digest : Digest) : Protocol platform CallPhase where
  permits := CallPhase.permits digest
  after := CallPhase.after

def CallPhase.start : Entry → CallPhase
  | .toolCall _ _ input idempotencyKey => .call input idempotencyKey .sought
  | _ => .other

theorem other_follows {digest : Digest} {α : Type} (program : Coroutine α)
    {post : Except Exc α → CallPhase → Prop} (always : ∀ outcome, post outcome .other) :
    (requests digest).Follows .other program post := by
  induction program with
  | ret outcome => exact always outcome
  | act op next ih => exact ⟨trivial, fun answer => ih answer⟩

def companion (deployment : Deployment) (admitted : Entry → Bool) :
    Companion (platformSystem deployment admitted) CallPhase where
  protocol := requests deployment.digest
  start entry _ := CallPhase.start entry
  concludes := CallPhase.concludes
  launched := by
    intro entry config state thread launched
    obtain ⟨_, _, started⟩ := launch_start launched
    cases entry with
    | toolCall index toolName input idempotencyKey =>
        simp only [Entry.start] at started
        split at started
        · cases started
        · cases started
          exact (call_follows toolName).embed (CallPhase.call input idempotencyKey)
            (fun _ _ permitted => permitted) (fun _ _ _ => rfl) (fun _ _ concluded => concluded)
    | _ => exact other_follows thread.program fun _ => trivial

end AgentTaskPlatform.CallProtocol
