import AgentTaskPlatform.CoroutineRules
import AgentTaskPlatform.ExecutionProtocol

/-!
The protocol of one tool call: the `WAITING_TOOL` write, and for a side-effecting
tool the durable claim that has to precede the invocation.
-/

namespace AgentTaskPlatform.ToolProtocol

open Interleaving CoroutineRules ToolGateway

/-- How far the durable claim of a side effect has come. -/
inductive Effect where
  | idle
  | opened (stageKey : String) (stage : AgentStage)
  | issued (stageKey : String) (executionId : Uuid)
  | begun (stageKey : String) (executionId : Uuid)
  | dispatched (stageKey : String) (executionId : Uuid)
  | invoked (stageKey : String) (executionId : Uuid)
  | returned (stageKey : String) (executionId : Uuid)
  | closed

structure Progress where
  effect : Effect := .idle
  /-- The row as read since the call was suspended last. -/
  seen : Option AgentRun := none

def Effect.issue : Effect → Uuid → Effect
  | .opened stageKey _, executionId => .issued stageKey executionId
  | effect, _ => effect

def Effect.dispatch : Effect → Bool → Effect
  | .begun stageKey executionId, true => .dispatched stageKey executionId
  | _, _ => .closed

def Effect.invoke : Effect → Effect
  | .dispatched stageKey executionId => .invoked stageKey executionId
  | effect => effect

def Effect.return : Effect → Bool → Effect
  | .invoked stageKey executionId, true => .returned stageKey executionId
  | .opened stageKey stage, _ => .opened stageKey stage
  | _, _ => .closed

def Effect.complete : Effect → Effect
  | .opened stageKey stage => .opened stageKey stage
  | _ => .closed

def Progress.called (progress : Progress) (op : External) : Progress :=
  { progress with seen := if op.awaits then none else progress.seen }

def Progress.after (progress : Progress) : (op : Op) → op.Answer → Progress
  | .run .get, run => { progress with seen := some run }
  | .stage (.getOrCreate stage), stored =>
      { progress with effect := .opened stage.stageKey stored }
  | .process .uuid4, executionId => { progress with effect := progress.effect.issue executionId }
  | .stage (.beginSideEffectOnce stageKey executionId), active =>
      { progress with
        effect := if Option.isSome active then .begun stageKey executionId else .closed }
  | .stage (.markSideEffectDispatched _ _), dispatched =>
      { progress with effect := progress.effect.dispatch dispatched }
  | .external (.invoke _ _ _), _ => { effect := progress.effect.invoke }
  | .stage (.markSideEffectReturned _ _), returned =>
      { progress with effect := progress.effect.return returned }
  | .stage (.markSucceeded _ _ _), _ => { progress with effect := progress.effect.complete }
  | .external op, _ => progress.called op
  | _, _ => progress

def Effect.blank : Effect → String → Prop
  | .opened key stage, stageKey =>
      key = stageKey ∧ stage.status = .succeeded ∧ stage.output.isNull = true
  | _, _ => False

theorem Effect.blank.opened {effect : Effect} {stageKey : String}
    (stored : effect.blank stageKey) : ∃ stage, effect = .opened stageKey stage := by
  cases effect with
  | opened key stage => exact ⟨stage, by rw [stored.1]⟩
  | _ => cases stored

section

variable (digest : Digest) (context : AgentContext)

def durableKey (stageKey : String) : String := context.run.runId ++ ":" ++ stageKey

inductive Permitted : Progress → Op → Prop
  | read {progress} : Permitted progress (.run .get)
  | external {progress} (op) : ExecutionProtocol.External.dispatches op = false →
      Permitted progress (.external op)
  | markWaiting {progress} {run} (tool) : progress.seen = some run →
      Permitted progress (.run (.updateIfCurrent .toolCall
        { statuses := [run.status], worker := some context.workerId } (waitingRun run tool)))
  | getOrCreate {progress} (tool identity inputHash) : progress.effect = .idle →
      Permitted progress (.stage (.getOrCreate
        (sideEffectStage digest context tool identity inputHash)))
  | issue {progress} {stageKey stage} : progress.effect = .opened stageKey stage →
      Permitted progress (.process .uuid4)
  | begin {progress} {stageKey executionId} : progress.effect = .issued stageKey executionId →
      Permitted progress (.stage (.beginSideEffectOnce stageKey executionId))
  | dispatch {progress} {stageKey executionId} : progress.effect = .begun stageKey executionId →
      Permitted progress (.stage
        (.markSideEffectDispatched (durableKey context stageKey) executionId))
  | invokeFreely {progress} {tool} (input) : tool.operationType ≠ .sideEffecting →
      Permitted progress (.external (.invoke tool none input))
  | invoke {progress} {tool input idempotencyKey executionId} :
      progress.effect = .dispatched (sideEffectStageKey digest tool
        (operationIdentity digest tool input idempotencyKey)) executionId →
      Permitted progress (.external
        (.invoke tool (some (operationIdentity digest tool input idempotencyKey)) input))
  | invokeBlank {progress} {tool input idempotencyKey} :
      progress.effect.blank (sideEffectStageKey digest tool
        (operationIdentity digest tool input idempotencyKey)) →
      Permitted progress (.external
        (.invoke tool (some (operationIdentity digest tool input idempotencyKey)) input))
  | return {progress} {stageKey executionId} : progress.effect = .invoked stageKey executionId →
      Permitted progress (.stage
        (.markSideEffectReturned (durableKey context stageKey) executionId))
  | complete {progress} {stageKey executionId} (output) :
      progress.effect = .returned stageKey executionId →
      Permitted progress (.stage (.markSucceeded stageKey executionId (.object output)))
  | returnBlank {progress} {stageKey} (executionId) : progress.effect.blank stageKey →
      Permitted progress (.stage
        (.markSideEffectReturned (durableKey context stageKey) executionId))
  | completeBlank {progress} {stageKey} (executionId output) : progress.effect.blank stageKey →
      Permitted progress (.stage (.markSucceeded stageKey executionId (.object output)))

def protocol : Protocol platform Progress where
  permits := Permitted digest context
  after := Progress.after

inductive Backed (tool : ToolSpec) (input : Json) :
    Option String → Option SideEffect → Progress → Prop
  | free {progress} : tool.operationType ≠ .sideEffecting → Backed tool input none none progress
  | claimed {idempotencyKey stageKey executionId progress} :
      stageKey = sideEffectStageKey digest tool
        (operationIdentity digest tool input idempotencyKey) →
      progress.effect = .dispatched stageKey executionId →
      Backed tool input (some (operationIdentity digest tool input idempotencyKey))
        (some ⟨stageKey, durableKey context stageKey, some executionId, .null⟩) progress
  | blank {idempotencyKey stageKey executionId output progress} :
      stageKey = sideEffectStageKey digest tool
        (operationIdentity digest tool input idempotencyKey) →
      progress.effect.blank stageKey →
      Backed tool input (some (operationIdentity digest tool input idempotencyKey))
        (some ⟨stageKey, durableKey context stageKey, executionId, output⟩) progress

inductive Completable : Option SideEffect → Progress → Prop
  | free {progress} : Completable none progress
  | claimed {stageKey executionId output progress} :
      progress.effect = .invoked stageKey executionId →
      Completable
        (some ⟨stageKey, durableKey context stageKey, some executionId, output⟩) progress
  | blank {stageKey executionId output progress} : progress.effect.blank stageKey →
      Completable
        (some ⟨stageKey, durableKey context stageKey, executionId, output⟩) progress

end

section Walk

variable {digest : Digest} {context : AgentContext} {progress : Progress}

theorem invoke_follows {tool : ToolSpec} {identity : Option String}
    {effect : Option SideEffect} {input : Json}
    (backed : Backed digest context tool input identity effect progress) :
    (protocol digest context).Follows progress
      (Coroutine.external (.invoke tool identity input)) fun _ after =>
        Completable context effect after := by
  rw [follows_external_last]
  cases backed with
  | free harmless => exact ⟨.invokeFreely input harmless, fun _ => .free⟩
  | claimed named claim =>
      subst named
      refine ⟨.invoke claim, fun _ => .claimed ?_⟩
      show progress.effect.invoke = _
      rw [claim]
      rfl
  | blank named stored =>
      subst named
      refine ⟨.invokeBlank stored, fun _ => .blank ?_⟩
      show progress.effect.invoke.blank _
      cases same : progress.effect <;> rw [same] at stored <;> simp [Effect.blank] at stored
      exact stored

theorem Completable.kept {effect : Option SideEffect} {after : Progress}
    (completable : Completable context effect progress)
    (same : after.effect = progress.effect) : Completable context effect after := by
  cases completable with
  | free => exact .free
  | claimed invoked => exact .claimed (same.trans invoked)
  | blank stored => exact .blank (by rw [same]; exact stored)

theorem completeSideEffectOperation_follows (tool : ToolSpec) {effect : Option SideEffect}
    (output : Fields) (completable : Completable context effect progress) :
    (protocol digest context).Follows progress
      (completeSideEffectOperation tool effect output) fun _ _ => True := by
  unfold completeSideEffectOperation
  cases completable with
  | free => trivial
  | @claimed stageKey executionId _ _ invoked =>
      simp only
      rw [follows_perform]
      refine ⟨.return invoked, fun returned => ?_⟩
      cases returned with
      | false => trivial
      | true =>
          simp only [if_true]
          rw [follows_perform]
          have stored : progress.effect.return true = .returned stageKey executionId := by
            rw [invoked]
            rfl
          refine ⟨.complete output stored, fun completed => ?_⟩
          cases completed <;> trivial
  | @blank stageKey _ _ _ stored =>
      simp only
      split
      · trivial
      · next executionId =>
          rw [follows_perform]
          refine ⟨.returnBlank executionId stored, fun returned => ?_⟩
          cases returned with
          | false => trivial
          | true =>
              simp only [if_true]
              rw [follows_perform]
              have still : (progress.effect.return true).blank stageKey := by
                cases same : progress.effect <;> rw [same] at stored <;>
                  simp only [Effect.blank] at stored
                exact stored
              refine ⟨.completeBlank executionId output still, fun completed => ?_⟩
              cases completed <;> trivial

theorem invokeOnce_follows {tool : ToolSpec} {identity : Option String}
    {effect : Option SideEffect} {input : Json}
    (backed : Backed digest context tool input identity effect progress) :
    (protocol digest context).Follows progress (invokeOnce tool identity effect input)
      fun _ _ => True := by
  unfold invokeOnce
  apply (invoke_follows backed).next
  · intro output invoked completable
    rw [follows_external]
    refine ⟨.external _ rfl, fun answer => ?_⟩
    cases answer with
    | error _ => trivial
    | ok _ =>
        simp only [Protocol.continued]
        rw [follows_external]
        refine ⟨.external _ rfl, fun answer => ?_⟩
        cases answer with
        | error _ => trivial
        | ok rejected =>
            simp only [Protocol.continued]
            have later : Completable context effect
                ((invoked.called (.validateToolOutput tool (.object output))).called
                  (.outputGuardrails tool (.object output))) := completable.kept rfl
            apply Protocol.Follows.next (completeSideEffectOperation_follows tool _ later)
            · intro _ after _
              rw [follows_external]
              refine ⟨.external _ rfl, fun answer => ?_⟩
              cases answer <;> trivial
            · intro _ _ _
              trivial
  · intro _ _ _
    trivial

theorem backOff_follows (tool : ToolSpec) (attempt attempts : Nat) :
    (protocol digest context).Follows progress (backOff tool attempt attempts) fun _ _ =>
      True := by
  unfold backOff
  split
  · rw [follows_external_last]
    exact ⟨.external _ rfl, fun _ => trivial⟩
  · trivial

theorem giveUp_follows (tool : ToolSpec) (lastError : Option Exc) :
    (protocol digest context).Follows progress (giveUp tool lastError) fun _ _ => True := by
  unfold giveUp
  simp only
  split
  · trivial
  · rw [follows_external]
    refine ⟨.external _ rfl, fun answer => ?_⟩
    cases answer with
    | error _ => trivial
    | ok handled =>
        cases handled with
        | none => trivial
        | some message =>
            simp only [Protocol.continued]
            rw [follows_external]
            refine ⟨.external _ rfl, fun answer => ?_⟩
            cases answer <;> trivial

theorem invokeFrom_succ_follows {tool : ToolSpec} {identity : Option String}
    {effect : Option SideEffect} {input : Json} (attempts remaining : Nat)
    (lastError : Option Exc) (backed : Backed digest context tool input identity effect progress)
    (later : ∀ (after : Progress) (error : Exc), (protocol digest context).Follows after
      (invokeFrom tool identity effect input attempts remaining (some error)) fun _ _ => True) :
    (protocol digest context).Follows progress
      (invokeFrom tool identity effect input attempts (remaining + 1) lastError)
      fun _ _ => True := by
  unfold invokeFrom
  rw [follows_attempt_next]
  apply (invokeOnce_follows backed).mono
  intro outcome after _
  cases outcome with
  | ok output => trivial
  | error error =>
      simp only
      split
      · apply (backOff_follows tool _ attempts).next
        · intro _ waited _
          exact later waited error
        · intro _ _ _
          trivial
      · split <;> trivial

/-- A call without a claim may be retried. -/
theorem invokeFrom_free_follows {tool : ToolSpec} (input : Json) (attempts remaining : Nat)
    (lastError : Option Exc) (harmless : tool.operationType ≠ .sideEffecting) :
    (protocol digest context).Follows progress
      (invokeFrom tool none none input attempts remaining lastError) fun _ _ => True := by
  induction remaining generalizing progress lastError with
  | zero => exact giveUp_follows tool lastError
  | succ remaining ih =>
      exact invokeFrom_succ_follows attempts remaining lastError (.free harmless)
        fun _ error => ih (some error)

/-- What `_prepare_side_effect_operation` returns backs one invocation unless it
carries a stored output. -/
theorem prepareSideEffectOperation_follows (tool : ToolSpec) (input : Json)
    (idempotencyKey : Option String) (idle : progress.effect = .idle) :
    (protocol digest context).Follows progress
      (prepareSideEffectOperation digest context tool input idempotencyKey)
      fun outcome after => ∀ effect, outcome = .ok effect →
        effect.cachedOutput.isNull = false ∨
        Backed digest context tool input
          (some (operationIdentity digest tool input idempotencyKey)) (some effect) after := by
  unfold prepareSideEffectOperation
  simp only
  rw [follows_perform]
  refine ⟨.getOrCreate tool _ _ idle, fun stage => ?_⟩
  split
  · next stored =>
      intro effect same
      cases same
      cases null : stage.output.isNull with
      | false => exact Or.inl rfl
      | true => exact Or.inr (.blank rfl ⟨rfl, stored, null⟩)
  · split
    · intro effect same
      cases same
    · rw [follows_uuid4]
      refine ⟨.issue rfl, fun executionId => ?_⟩
      rw [follows_perform]
      refine ⟨.begin rfl, fun active => ?_⟩
      cases active with
      | none =>
          intro effect same
          cases same
      | some row =>
          simp only
          rw [follows_perform]
          refine ⟨.dispatch rfl, fun dispatched => ?_⟩
          cases dispatched with
          | false =>
              intro effect same
              cases same
          | true =>
              intro effect same
              cases same
              exact Or.inr (.claimed rfl rfl)

theorem callWithRetries_follows (tool : ToolSpec) (input : Json) (idempotencyKey : Option String)
    (idle : progress.effect = .idle) :
    (protocol digest context).Follows progress
      (callWithRetries digest context tool input idempotencyKey) fun _ _ => True := by
  unfold callWithRetries
  split
  · apply (prepareSideEffectOperation_follows tool input idempotencyKey idle).next
    · intro effect after prepared
      split
      · trivial
      · next uncached =>
          rcases prepared effect rfl with cached | backed
          · simp [cached] at uncached
          · apply Protocol.Follows.next
              (invokeFrom_succ_follows 1 0 none backed
                fun _ error => giveUp_follows tool (some error))
            · intro _ _ _
              trivial
            · intro _ _ _
              trivial
    · intro _ _ _
      trivial
  · next harmless =>
    split
    · trivial
    · simp only
      apply (invokeFrom_free_follows input _ _ none harmless).next
      · intro _ _ _
        trivial
      · intro _ _ _
        trivial

theorem markWaiting_follows (tool : ToolSpec) (idle : progress.effect = .idle) :
    (protocol digest context).Follows progress (markWaiting context tool) fun _ after =>
      after.effect = .idle := by
  unfold markWaiting
  rw [follows_requireRun]
  refine ⟨.read, fun run => ?_⟩
  rw [follows_updateIfCurrent]
  refine ⟨.markWaiting tool rfl, fun stored => ?_⟩
  cases stored <;> exact idle

theorem admitted_follows (tool : ToolSpec) (input : Json) (idempotencyKey : Option String)
    (idle : progress.effect = .idle) :
    (protocol digest context).Follows progress
      (callAdmitted digest context tool input idempotencyKey) fun _ _ => True := by
  unfold callAdmitted
  rw [follows_external]
  refine ⟨.external _ rfl, fun answer => ?_⟩
  cases answer with
  | error _ => trivial
  | ok _ =>
      simp only [Protocol.continued]
      have still : (progress.called (.acquireQps tool)).effect = .idle := idle
      apply Protocol.Follows.next (markWaiting_follows tool still)
      · intro _ after idle
        rw [follows_external]
        refine ⟨.external _ rfl, fun answer => ?_⟩
        cases answer with
        | error _ => trivial
        | ok _ =>
            simp only [Protocol.continued]
            rw [follows_external]
            refine ⟨.external _ rfl, fun answer => ?_⟩
            cases answer with
            | error _ => trivial
            | ok rejected =>
                cases rejected with
                | some message =>
                    simp only [Protocol.continued]
                    rw [follows_external]
                    refine ⟨.external _ rfl, fun answer => ?_⟩
                    cases answer <;> trivial
                | none =>
                    simp only [Protocol.continued]
                    rw [follows_external]
                    refine ⟨.external _ rfl, fun answer => ?_⟩
                    cases answer with
                    | error _ => trivial
                    | ok _ => exact callWithRetries_follows tool input idempotencyKey idle
      · intro _ _ _
        trivial

theorem call_follows (toolName : String) (input : Json) (idempotencyKey : Option String)
    (idle : progress.effect = .idle) :
    (protocol digest context).Follows progress
      (call digest context toolName input idempotencyKey) fun _ _ => True := by
  unfold call
  rw [follows_external]
  refine ⟨.external _ rfl, fun answer => ?_⟩
  cases answer with
  | error _ => trivial
  | ok tool =>
      simp only [Protocol.continued]
      have allowed : (protocol digest context).Follows progress
          (validateAllowed tool context.agent.name) fun _ after => after = progress := by
        unfold validateAllowed
        split <;> exact rfl
      apply Protocol.Follows.next allowed
      · intro _ after same
        rw [same, follows_external]
        refine ⟨.external _ rfl, fun answer => ?_⟩
        cases answer with
        | error _ => trivial
        | ok _ =>
            simp only [Protocol.continued]
            rw [follows_external]
            refine ⟨.external _ rfl, fun answer => ?_⟩
            cases answer with
            | error _ => trivial
            | ok fallback =>
                cases fallback with
                | some output =>
                    simp only [Protocol.continued]
                    rw [follows_external]
                    refine ⟨.external _ rfl, fun answer => ?_⟩
                    cases answer <;> trivial
                | none =>
                    simp only [Protocol.continued]
                    exact admitted_follows tool input idempotencyKey idle
      · intro _ _ _
        trivial

end Walk

end AgentTaskPlatform.ToolProtocol
