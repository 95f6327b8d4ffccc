import AgentTaskPlatform.ExecutionIds

/-!
Invocations of side-effecting tools. The row of an operation identity is sealed
when its execution is dispatched: no operation returns it to PENDING, and only
the one execution it names may invoke the tool, once. The exception is a stage
of the agent under the same key that stored a null result, which the gateway
takes for no result.
-/

namespace AgentTaskPlatform.SideEffects

open Interleaving KeyedTable ToolProtocol ToolGateway

def invokes (tool : ToolSpec) (identity : String) : PlatformEvent → Bool
  | .acted _ _ (.external (.invoke invoked (some carried) _)) _ _ _ =>
      invoked.name = tool.name && carried = identity
  | _ => false

def storesNull (stageKey : String) : PlatformEvent → Bool
  | .acted _ _ (.stage (.markSucceeded key _ output)) committed _ _ =>
      key = stageKey && output.isNull && committed
  | _ => false

def Sealed (stage : AgentStage) : Prop :=
  stage.status = .outcomeUnknown ∨ stage.status = .succeeded

section Rows

variable {op : Op} {oracle : op.Answer} {state : State} {stageKey : String}
  {stage : AgentStage}

theorem hits_sealed {op : StageOp} (hit : op.hits stage = true) (dispatched : Sealed stage) :
    (op.status = none ∨ op.status = some .succeeded) ∧ op.issues = none := by
  rcases dispatched with status | status
  · cases op <;>
      simp [StageOp.hits, beginAttemptWhere, activeWhere, beginSideEffectWhere, dispatchedWhere,
        status] at hit <;>
      simp [StageOp.status, StageOp.issues]
  · exact absurd status (StageOp.hits_unsettled hit).1

theorem perform_sealed (op : Op) (oracle : op.Answer)
    (found : state.stages.find stageKey = some stage)
    (dispatched : Sealed stage) :
    ∃ after, (Op.perform op oracle state).2.stages.find stageKey = some after ∧ Sealed after ∧
      after.executionId = stage.executionId := by
  rcases perform_stages op oracle state with
    same | ⟨row, rfl, same⟩ | ⟨stageOp, rfl, same⟩
  · rw [same]
    exact ⟨stage, found, dispatched, rfl⟩
  · have unfailed : stage.status ≠ .failed := by
      rcases dispatched with status | status <;> rw [status] <;> decide
    refine ⟨stage, ?_, dispatched, rfl⟩
    rw [same, find_resetFailed, found]
    simp [unfailed]
  · obtain ⟨set, writes, rows⟩ := stageOp.find_perform state
    by_cases hit : stageOp.hits stage = true
    · obtain ⟨status, issues⟩ := hits_sealed hit dispatched
      refine ⟨stage.withValues (set stage.values), ?_, ?_, ?_⟩
      · rw [same, rows, StageOp.inserted_kept found, Option.map_some, if_pos hit]
      · have column : (stage.withValues (set stage.values)).status =
            stageOp.status.getD stage.status := writes.status stage.values
        unfold Sealed
        rw [column]
        rcases status with unset | settles
        · rw [unset]
          exact dispatched
        · rw [settles]
          exact Or.inr rfl
      · have column : (stage.withValues (set stage.values)).executionId =
            stageOp.issues.or stage.executionId := writes.executionId stage.values
        rw [column, issues, Option.none_or]
    · refine ⟨stage, ?_, dispatched, rfl⟩
      rw [same, rows, StageOp.inserted_kept found, Option.map_some, if_neg hit]

/-- A result comes into a row by the commit that stores it. -/
theorem perform_result
    (found : (Op.perform op oracle state).2.stages.find stageKey = some stage)
    (succeeded : stage.status = .succeeded)
    (fresh : ∀ stage, op = .stage (.getOrCreate stage) → stage.status = .pending) :
    state.stages.find stageKey = some stage ∨
      ∃ executionId, op = .stage (.markSucceeded stageKey executionId stage.output) ∧
        ((StageOp.markSucceeded stageKey executionId stage.output).perform state).1 = true := by
  rcases perform_status found with ⟨old, before, same⟩ |
    ⟨stageOp, old, rfl, before, hit, writes⟩ | inserts | pending
  · have kept := perform_settled op oracle before
      (Or.inl (same.trans succeeded))
    rw [found] at kept
    cases kept
    exact Or.inl before
  · right
    rw [succeeded] at writes
    cases stageOp with
    | markSucceeded key executionId output =>
        have key_eq : key = stageKey := by
          simp only [StageOp.hits, activeWhere, Bool.and_eq_true, decide_eq_true_eq] at hit
          rw [← hit.1.1.1]
          exact Table.find_key before
        subst key_eq
        obtain ⟨set, columns, rows⟩ :=
          (StageOp.markSucceeded key executionId output).find_perform state
        have row : (Op.perform (.stage (.markSucceeded key executionId output)) oracle
            state).2.stages.find key = some (old.withValues (set old.values)) := by
          simp only [Op.perform]
          rw [rows, StageOp.inserted_kept before, Option.map_some, if_pos hit]
        rw [found] at row
        cases row
        have result : (old.withValues (set old.values)).output = output :=
          columns.output old.values
        rw [result]
        refine ⟨executionId, rfl, ?_⟩
        simp only [StageOp.perform, State.updateStages, beq_iff_eq]
        refine (Table.countWhere_keyed state.stages key _ fun row _ holds => ?_).mpr
          ⟨old, before, hit⟩
        simp only [activeWhere, Bool.and_eq_true, decide_eq_true_eq] at holds
        exact holds.1.1.1
    | _ => cases writes
  · rw [fresh stage inserts] at succeeded
    cases succeeded
  · rw [pending] at succeeded
    cases succeeded

end Rows

section Calls

variable {digest : Digest} {context : AgentContext} {progress : Progress} {op : Op}
  {oracle : op.Answer} {state : State} {stageKey : String}

/-- A call takes a stored result for none only after it has read it. -/
theorem blank_after (permitted : Permitted digest context progress op)
    (blank : (progress.after op (Op.perform op oracle state).1).effect.blank stageKey) :
    progress.effect.blank stageKey ∨
      ∃ stage, (Op.perform op oracle state).2.stages.find stageKey = some stage ∧
        stage.status = .succeeded ∧ stage.output.isNull = true := by
  obtain ⟨stage, opened⟩ := blank.opened
  cases permitted with
  | external op other =>
      left
      cases op <;> first | exact blank | cases other
  | getOrCreate tool identity inputHash _ =>
      right
      obtain ⟨key, succeeded, null⟩ := blank
      refine ⟨_, ?_, succeeded, null⟩
      rw [← key]
      exact StageOp.getOrCreate_answer _ _
  | issue before =>
      simp only [Progress.after, before, Effect.issue] at opened
      cases opened
  | begin _ =>
      simp only [Progress.after] at opened
      split at opened <;> cases opened
  | dispatch begun =>
      simp only [Progress.after, begun] at opened
      cases answer : (Op.perform _ oracle state).1 <;> rw [answer] at opened <;> cases opened
  | invokeFreely input harmless =>
      left
      simp only [Progress.after] at blank
      cases same : progress.effect <;> rw [same] at blank <;> exact blank
  | invoke dispatched =>
      simp only [Progress.after, dispatched, Effect.invoke] at opened
      cases opened
  | invokeBlank stored =>
      left
      obtain ⟨_, before⟩ := stored.opened
      simp only [Progress.after, before] at blank
      rw [before]
      exact blank
  | «return» invoked =>
      simp only [Progress.after, invoked] at opened
      cases answer : (Op.perform _ oracle state).1 <;> rw [answer] at opened <;> cases opened
  | complete output returned =>
      simp only [Progress.after, returned, Effect.complete] at opened
      cases opened
  | returnBlank executionId stored =>
      left
      obtain ⟨_, before⟩ := stored.opened
      simp only [Progress.after, before, Effect.return] at blank
      rw [before]
      exact blank
  | completeBlank executionId output stored =>
      left
      obtain ⟨_, before⟩ := stored.opened
      simp only [Progress.after, before, Effect.complete] at blank
      rw [before]
      exact blank
  | _ => exact Or.inl blank

/-- A call holds a dispatched claim only after its own dispatch was stored. -/
theorem dispatched_after {executionId : Uuid} (permitted : Permitted digest context progress op)
    (holds : (progress.after op (Op.perform op oracle state).1).effect =
      .dispatched stageKey executionId) :
    (progress.effect = .dispatched stageKey executionId ∧
      ∀ tool identity input, op ≠ .external (.invoke tool (some identity) input)) ∨
    (progress.effect = .begun stageKey executionId ∧
      ∃ idempotencyKey, op = .stage (.markSideEffectDispatched idempotencyKey executionId) ∧
        ((StageOp.markSideEffectDispatched idempotencyKey executionId).perform state).1 =
          true) := by
  cases permitted with
  | external op other =>
      left
      refine ⟨?_, ?_⟩
      · cases op <;> first | exact holds | cases other
      · intro tool identity input same
        cases same
        cases other
  | getOrCreate tool identity inputHash _ => cases holds
  | issue before =>
      simp only [Progress.after, before, Effect.issue] at holds
      cases holds
  | begin _ =>
      simp only [Progress.after] at holds
      split at holds <;> cases holds
  | dispatch begun =>
      right
      simp only [Progress.after, begun] at holds
      cases answer : (Op.perform _ oracle state).1 <;> rw [answer] at holds
      · cases holds
      · cases holds
        exact ⟨begun, _, rfl, answer⟩
  | invokeFreely input harmless =>
      left
      refine ⟨?_, fun _ _ _ same => by cases same⟩
      simp only [Progress.after] at holds
      cases same : progress.effect <;> rw [same] at holds <;> cases holds
  | invoke dispatched =>
      simp only [Progress.after, dispatched, Effect.invoke] at holds
      cases holds
  | invokeBlank stored =>
      obtain ⟨_, before⟩ := stored.opened
      simp only [Progress.after, before, Effect.invoke] at holds
      cases holds
  | «return» invoked =>
      simp only [Progress.after, invoked] at holds
      cases answer : (Op.perform _ oracle state).1 <;> rw [answer] at holds <;> cases holds
  | complete output returned =>
      simp only [Progress.after, returned, Effect.complete] at holds
      cases holds
  | returnBlank executionId stored =>
      obtain ⟨_, before⟩ := stored.opened
      simp only [Progress.after, before, Effect.return] at holds
      cases holds
  | completeBlank executionId output stored =>
      obtain ⟨_, before⟩ := stored.opened
      simp only [Progress.after, before, Effect.complete] at holds
      cases holds
  | _ => exact Or.inl ⟨holds, fun _ _ _ same => by cases same⟩

/-- An invocation for an identity rests on a dispatched claim or on a null result. -/
theorem invoke_backed {phase : Phase} {tool : ToolSpec} {carried : Option String} {input : Json}
    (permitted : phase.permits digest (.external (.invoke tool carried input))) :
    (carried = none ∧ tool.operationType ≠ .sideEffecting) ∨
    ∃ identity context progress, carried = some identity ∧
      (∃ idempotencyKey, identity = operationIdentity digest tool input idempotencyKey) ∧
      phase = .tool context progress ∧
      ((∃ executionId, progress.effect =
          .dispatched (sideEffectStageKey digest tool identity) executionId) ∨
        progress.effect.blank (sideEffectStageKey digest tool identity)) := by
  cases phase with
  | tool context progress =>
      cases permitted with
      | external op other => cases other
      | invokeFreely input harmless => exact Or.inl ⟨rfl, harmless⟩
      | invoke dispatched =>
          exact Or.inr ⟨_, context, progress, rfl, ⟨_, rfl⟩, rfl, Or.inl ⟨_, dispatched⟩⟩
      | invokeBlank stored =>
          exact Or.inr ⟨_, context, progress, rfl, ⟨_, rfl⟩, rfl, Or.inr stored⟩
  | execution process worker progress =>
      cases permitted with
      | external op other => cases other
  | stage index context stageKey progress =>
      cases permitted with
      | external op other => cases other
  | checkpoint index context stageKey progress =>
      cases permitted with
      | external op other => cases other
  | manager process job progress =>
      cases permitted with
      | external op other => cases other

end Calls

/-- What holds of the stage of an operation identity: its results are not null,
a call that holds a dispatched claim is named in the sealed row, and after the
invocation no such call is left. -/
structure Inv (digest : Digest) (tool : ToolSpec) (identity : String)
    (past : List PlatformEvent) (state : State) (phases : List Phase) : Prop where
  ids : Ids state phases
  results : ∀ stage, state.stages.find (sideEffectStageKey digest tool identity) = some stage →
    stage.status = .succeeded → stage.output.isNull = false
  opened : ∀ (thread : Nat) context progress, phases[thread]? = some (.tool context progress) →
    ¬ progress.effect.blank (sideEffectStageKey digest tool identity)
  claimed : ∀ (thread : Nat) context progress executionId,
    phases[thread]? = some (.tool context progress) →
    progress.effect = .dispatched (sideEffectStageKey digest tool identity) executionId →
    ∃ stage, state.stages.find (sideEffectStageKey digest tool identity) = some stage ∧
      Sealed stage ∧ stage.executionId = some executionId
  spent : 0 < past.countP (invokes tool identity) →
    (∃ stage, state.stages.find (sideEffectStageKey digest tool identity) = some stage ∧
      Sealed stage) ∧
    ∀ (thread : Nat) context progress executionId,
      phases[thread]? = some (.tool context progress) →
      progress.effect ≠ .dispatched (sideEffectStageKey digest tool identity) executionId
  once : past.countP (invokes tool identity) ≤ 1

section Steps

variable {deployment : Deployment} {admitted : Entry → Bool} {tool : ToolSpec}
  {identity : String} {past : List PlatformEvent} {state : State} {phases : List Phase}

theorem invokes_spec {event : PlatformEvent} (fires : invokes tool identity event = true) :
    ∃ thread tag invoked input answer before after, event =
      .acted thread tag (.external (.invoke invoked (some identity) input)) answer before after ∧
      invoked.name = tool.name := by
  unfold invokes at fires
  split at fires
  · simp only [Bool.and_eq_true, decide_eq_true_eq] at fires
    obtain ⟨name, rfl⟩ := fires
    exact ⟨_, _, _, _, _, _, _, rfl, name⟩
  · cases fires

theorem tool_after {phase : Phase} {op : Op} {answer : op.Answer} {context : AgentContext}
    {progress : Progress} (same : Phase.tool context progress = phase.after op answer) :
    ∃ earlier, phase = .tool context earlier ∧ progress = earlier.after op answer := by
  cases phase with
  | tool own earlier =>
      cases same
      exact ⟨earlier, rfl, rfl⟩
  | _ => cases same

theorem dispatch_row {thread : Nat} {context : AgentContext} {progress : Progress}
    {stageKey idempotencyKey : String} {executionId : Uuid} (ids : Ids state phases)
    (present : phases[thread]? = some (.tool context progress))
    (begun : progress.effect = .begun stageKey executionId)
    (stored : ((StageOp.markSideEffectDispatched idempotencyKey executionId).perform state).1 =
      true) :
    ∃ stage, state.stages.find stageKey = some stage ∧
      dispatchedWhere idempotencyKey executionId stage = true := by
  simp only [StageOp.perform, State.updateStages, beq_iff_eq] at stored
  obtain ⟨stage, member, hit⟩ := Table.countWhere_pos.mp (by omega :
    0 < state.stages.countWhere (dispatchedWhere idempotencyKey executionId))
  have found := Table.mem_find member
  have named : stage.executionId = some executionId := by
    simp only [dispatchedWhere, Bool.and_eq_true, decide_eq_true_eq] at hit
    exact hit.2
  have own : stage.stageKey = stageKey :=
    ids.own thread _ (stageKey, executionId) _ stage present
      (by simp only [Phase.drawn, begun]; rfl) found named
  rw [own] at found
  exact ⟨stage, found, hit⟩

variable {thread : Nat} {tag : Tag} {op : Op} {oracle : op.Answer} {phase : Phase}

theorem results_step (inv : Inv deployment.digest tool identity past state phases)
    (permitted : phase.permits deployment.digest op)
    (harmless : storesNull (sideEffectStageKey deployment.digest tool identity)
      ((platformSystem deployment admitted).performed thread tag op oracle state) = false)
    {stage : AgentStage} (found : (Op.perform op oracle state).2.stages.find
      (sideEffectStageKey deployment.digest tool identity) = some stage)
    (succeeded : stage.status = .succeeded) : stage.output.isNull = false := by
  have fresh : ∀ stage, op = .stage (.getOrCreate stage) → stage.status = .pending := by
    intro stage same
    subst same
    exact (Phase.inserted_new permitted).1
  rcases perform_result found succeeded fresh with before | ⟨executionId, writes, stored⟩
  · exact inv.results stage before succeeded
  · generalize stage.output = output at writes stored ⊢
    subst writes
    cases output with
    | null =>
        simp only [System.performed, storesNull] at harmless
        have committed : ((platformSystem deployment admitted).perform tag
          (.stage (.markSucceeded (sideEffectStageKey deployment.digest tool identity) executionId
            .null)) oracle state).1 = true := stored
        simp [committed, Json.isNull] at harmless
    | _ => rfl

theorem claimed_step (inv : Inv deployment.digest tool identity past state phases)
    (present : phases[thread]? = some phase) (permitted : phase.permits deployment.digest op)
    {index : Nat} {context : AgentContext} {progress : Progress} {executionId : Uuid}
    (found : ((discipline deployment admitted).observe phases
      ((platformSystem deployment admitted).performed thread tag op oracle state))[index]? =
        some (.tool context progress))
    (holds : progress.effect =
      .dispatched (sideEffectStageKey deployment.digest tool identity) executionId) :
    ∃ stage, (Op.perform op oracle state).2.stages.find
        (sideEffectStageKey deployment.digest tool identity) = some stage ∧
      Sealed stage ∧ stage.executionId = some executionId := by
  have keeps : ∀ {index : Nat} {context progress},
      phases[index]? = some (.tool context progress) →
      progress.effect =
        .dispatched (sideEffectStageKey deployment.digest tool identity) executionId →
      ∃ stage, (Op.perform op oracle state).2.stages.find
          (sideEffectStageKey deployment.digest tool identity) = some stage ∧
        Sealed stage ∧ stage.executionId = some executionId := by
    intro index context progress before holds
    obtain ⟨stage, row, dispatched, named⟩ :=
      inv.claimed index context progress executionId before holds
    obtain ⟨after, later, still, same⟩ := perform_sealed op oracle row dispatched
    exact ⟨after, later, still, same.trans named⟩
  rcases observe_phase present found with ⟨rfl, same⟩ | ⟨_, kept⟩
  · obtain ⟨earlier, rfl, rfl⟩ := tool_after same
    rcases dispatched_after permitted holds with ⟨before, _⟩ | ⟨begun, key, rfl, stored⟩
    · exact keeps present before
    · obtain ⟨stage, row, hit⟩ := dispatch_row inv.ids present begun stored
      obtain ⟨set, writes, rows⟩ :=
        (StageOp.markSideEffectDispatched key executionId).find_perform state
      refine ⟨stage.withValues (set stage.values), ?_, Or.inl (writes.status stage.values), ?_⟩
      · simp only [Op.perform]
        rw [rows, StageOp.inserted_kept row, Option.map_some]
        exact congrArg some (if_pos hit)
      · have named : stage.executionId = some executionId := by
          simp only [dispatchedWhere, Bool.and_eq_true, decide_eq_true_eq] at hit
          exact hit.2
        rw [← named]
        exact writes.executionId stage.values
  · exact keeps kept holds

theorem invocation_claimed (inv : Inv deployment.digest tool identity past state phases)
    (present : phases[thread]? = some phase) (permitted : phase.permits deployment.digest op)
    (fires : invokes tool identity
      ((platformSystem deployment admitted).performed thread tag op oracle state) = true) :
    ∃ invoked input context progress executionId,
      op = .external (.invoke invoked (some identity) input) ∧ phase = .tool context progress ∧
      progress.effect =
        .dispatched (sideEffectStageKey deployment.digest tool identity) executionId := by
  obtain ⟨_, _, invoked, input, _, _, _, event, name⟩ := invokes_spec fires
  have issued : op = .external (.invoke invoked (some identity) input) := by
    cases event
    rfl
  subst issued
  have key : sideEffectStageKey deployment.digest invoked identity =
      sideEffectStageKey deployment.digest tool identity := by
    simp only [sideEffectStageKey, name]
  rcases invoke_backed permitted with ⟨free, _⟩ |
    ⟨carried, context, progress, same, _, rfl, backed⟩
  · cases free
  · cases same
    rw [key] at backed
    rcases backed with ⟨executionId, dispatched⟩ | blank
    · exact ⟨invoked, input, context, progress, executionId, rfl, rfl, dispatched⟩
    · exact absurd blank (inv.opened thread context progress present)

/-- The invocation uses the claim up: no call holds a dispatched claim after it. -/
theorem invocation_spends (inv : Inv deployment.digest tool identity past state phases)
    (present : phases[thread]? = some phase) (permitted : phase.permits deployment.digest op)
    (fires : invokes tool identity
      ((platformSystem deployment admitted).performed thread tag op oracle state) = true)
    {index : Nat} {context : AgentContext} {progress : Progress} {executionId : Uuid}
    (found : ((discipline deployment admitted).observe phases
      ((platformSystem deployment admitted).performed thread tag op oracle state))[index]? =
        some (.tool context progress)) :
    progress.effect ≠
      .dispatched (sideEffectStageKey deployment.digest tool identity) executionId := by
  intro holds
  obtain ⟨invoked, input, own, mine, drawn, rfl, rfl, claim⟩ :=
    invocation_claimed inv present permitted fires
  rcases observe_phase present found with ⟨rfl, same⟩ | ⟨other, kept⟩
  · obtain ⟨earlier, mine, later⟩ := tool_after same
    cases mine
    rw [later] at holds
    rcases dispatched_after permitted holds with ⟨_, silent⟩ | ⟨begun, _⟩
    · exact silent _ _ _ rfl
    · rw [claim] at begun
      cases begun
  · obtain ⟨stage, row, _, named⟩ := inv.claimed thread own mine drawn present claim
    obtain ⟨again, known, _, equal⟩ := inv.claimed index context progress executionId kept holds
    rw [row] at known
    cases known
    rw [named] at equal
    cases equal
    exact other (inv.ids.apart index thread (.tool context progress) (.tool own mine) _ _ _
      kept present (by simp only [Phase.drawn, holds]; rfl)
      (by simp only [Phase.drawn, claim]; rfl))

theorem spent_kept (inv : Inv deployment.digest tool identity past state phases)
    (present : phases[thread]? = some phase) (permitted : phase.permits deployment.digest op)
    (before : 0 < past.countP (invokes tool identity))
    {index : Nat} {context : AgentContext} {progress : Progress} {executionId : Uuid}
    (found : ((discipline deployment admitted).observe phases
      ((platformSystem deployment admitted).performed thread tag op oracle state))[index]? =
        some (.tool context progress)) :
    progress.effect ≠
      .dispatched (sideEffectStageKey deployment.digest tool identity) executionId := by
  intro holds
  obtain ⟨⟨stage, row, dispatched⟩, none⟩ := inv.spent before
  rcases observe_phase present found with ⟨rfl, same⟩ | ⟨_, kept⟩
  · obtain ⟨earlier, rfl, rfl⟩ := tool_after same
    rcases dispatched_after permitted holds with ⟨still, _⟩ | ⟨begun, key, rfl, stored⟩
    · exact none index context earlier executionId present still
    · obtain ⟨again, known, hit⟩ := dispatch_row inv.ids present begun stored
      rw [row] at known
      cases known
      have running : stage.status = .running := by
        simp only [dispatchedWhere, Bool.and_eq_true, decide_eq_true_eq] at hit
        exact hit.1.2
      rcases dispatched with status | status <;> rw [status] at running <;> cases running
  · exact none index context progress executionId kept holds

end Steps

section Runs

variable (deployment : Deployment) (admitted : Entry → Bool) (tool : ToolSpec)
  (identity : String)

theorem inv_inductive : (discipline deployment admitted).Inductive
    (fun _ event => storesNull (sideEffectStageKey deployment.digest tool identity) event = false)
    (Inv deployment.digest tool identity) where
  acts := by
    intro past state phases thread tag op oracle phase inv present _ permitted harmless
    have results := @results_step deployment admitted tool identity past state phases thread tag
      op oracle phase inv permitted harmless
    refine ⟨inv.ids.step present permitted, fun stage => results, ?_, ?_, ?_, ?_⟩
    · intro index context progress found blank
      rcases observe_phase present found with ⟨rfl, same⟩ | ⟨_, kept⟩
      · obtain ⟨earlier, rfl, rfl⟩ := tool_after same
        rcases blank_after permitted blank with before | ⟨stage, row, succeeded, null⟩
        · exact inv.opened index context earlier present before
        · rw [results row succeeded] at null
          cases null
      · exact inv.opened index context progress kept blank
    · intro index context progress executionId found holds
      exact claimed_step inv present permitted found holds
    · rw [List.countP_append, List.countP_singleton]
      intro counted
      by_cases fires : invokes tool identity
          ((platformSystem deployment admitted).performed thread tag op oracle state) = true
      · refine ⟨?_, fun index context progress executionId found =>
          invocation_spends inv present permitted fires found⟩
        obtain ⟨invoked, input, context, progress, executionId, rfl, rfl, claim⟩ :=
          invocation_claimed inv present permitted fires
        obtain ⟨stage, row, dispatched, _⟩ :=
          inv.claimed thread context progress executionId present claim
        exact ⟨stage, row, dispatched⟩
      · rw [if_neg fires, Nat.add_zero] at counted
        refine ⟨?_, fun index context progress executionId found =>
          spent_kept inv present permitted counted found⟩
        obtain ⟨⟨stage, row, dispatched⟩, _⟩ := inv.spent counted
        obtain ⟨after, later, still, _⟩ := perform_sealed op oracle row dispatched
        exact ⟨after, later, still⟩
    · rw [List.countP_append, List.countP_singleton]
      have once := inv.once
      by_cases fires : invokes tool identity
          ((platformSystem deployment admitted).performed thread tag op oracle state) = true
      · obtain ⟨_, _, context, progress, executionId, _, rfl, claim⟩ :=
          invocation_claimed inv present permitted fires
        have first : ¬ 0 < past.countP (invokes tool identity) := fun before =>
          (inv.spent before).2 thread context progress executionId present claim
        rw [if_pos fires]
        omega
      · rw [if_neg fires]
        exact once
  launches := by
    intro past config phases entry state spawned _ inv launched _
    have old : ∀ {index : Nat} {context progress}, ((discipline deployment admitted).observe
        phases (.launched entry (System.spawnedThread config spawned) config.state
          state))[index]? = some (.tool context progress) → progress.effect ≠ .idle →
        phases[index]? = some (.tool context progress) := by
      intro index context progress found busy
      rcases launch_phase launched found with before | ⟨_, start⟩
      · exact before
      · have opening : progress = {} := Entry.phase_opening start
        subst opening
        exact absurd rfl busy
    have silent : invokes tool identity
        (.launched entry (System.spawnedThread config spawned) config.state state) = false := rfl
    refine ⟨inv.ids.launch launched, ?_, ?_, ?_, ?_, ?_⟩
    · rw [launch_stages launched]
      exact inv.results
    · intro index context progress found blank
      obtain ⟨_, opened⟩ := blank.opened
      exact inv.opened index context progress (old found (by rw [opened]; nofun)) blank
    · intro index context progress executionId found holds
      rw [launch_stages launched]
      exact inv.claimed index context progress executionId (old found (by rw [holds]; nofun))
        holds
    · rw [List.countP_append, List.countP_singleton, silent, launch_stages launched]
      intro counted
      obtain ⟨row, none⟩ := inv.spent counted
      refine ⟨row, fun index context progress executionId found holds => ?_⟩
      exact none index context progress executionId (old found (by rw [holds]; nofun)) holds
    · rw [List.countP_append, List.countP_singleton, silent]
      exact inv.once

theorem inv_initial {state : State} (blank : state.stages = Table.empty) :
    Inv deployment.digest tool identity [] state [] := by
  refine ⟨ids_empty blank, ?_, ?_, ?_, ?_, Nat.zero_le 1⟩
  · intro stage found
    rw [blank] at found
    cases found
  · intro thread context progress found
    cases found
  · intro thread context progress executionId found
    cases found
  · intro counted
    cases counted

end Runs

def paymentTool : ToolSpec := { name := "pay", operationType := .sideEffecting }

def paying : (op : External) → Except Exc op.Result :=
  fun op => .ok (smooth sampleAgent paymentTool op)

def payOrder : Move platform Entry := .launch (.toolCall 0 "pay" (.object []) (some "order-7"))

def paidTwice : List (Move platform Entry) :=
  [.launch (.runBackground "api")] ++ steps 13 0 paying ++
    [.launch (.runStage 0 "tool:pay:order-7" (.json .null) "1" none none)] ++
    steps 14 1 paying ++ [payOrder] ++ steps 14 2 paying ++ [payOrder] ++ steps 14 3 paying

theorem null_result_invoked_twice : ∃ events final,
    (platformSystem sampleDeployment fun _ => true).Run
      (atRest (State.initial sampleRun 0 none)) events final ∧
    ¬ events.countP (invokes paymentTool "order-7") ≤ 1 := by
  have passed : ((platformSystem sampleDeployment fun _ => true).replay
      (atRest (State.initial sampleRun 0 none)) paidTwice).any (fun outcome =>
        decide (1 < outcome.1.countP (invokes paymentTool "order-7"))) = true := rfl
  obtain ⟨events, final, run, checked⟩ := System.replay_checked passed
  exact ⟨events, final, run, Nat.not_le_of_lt (of_decide_eq_true checked)⟩

/-- In every run of the platform, an invocation of a side-effecting tool names
its operation identity, and unless some stage of the run commits a null result
under the stage key of an identity, at most one invocation is started for it. -/
theorem side_effects_invoked_once {deployment : Deployment} {run : AgentRun} {clock : Nat}
    {conversation : Option String} {events : List PlatformEvent} {final : PlatformConfig}
    (ran : (platformSystem deployment fun _ => true).Run
      (atRest (State.initial run clock conversation)) events final) :
    (∀ thread tag tool carried input answer before after,
      .acted thread tag (.external (.invoke tool carried input)) answer before after ∈ events →
      tool.operationType = .sideEffecting →
      ∃ idempotencyKey,
        carried = some (operationIdentity deployment.digest tool input idempotencyKey)) ∧
    (∀ tool identity,
      (∀ event ∈ events,
        storesNull (sideEffectStageKey deployment.digest tool identity) event = false) →
      events.countP (invokes tool identity) ≤ 1) := by
  refine ⟨?_, ?_⟩
  · intro thread tag tool carried input answer before after member sideEffecting
    rcases Discipline.run_event (D := discipline deployment fun _ => true) ran rfl member with
      ⟨_, _, op, _, _, phase, event, _, permitted⟩ | ⟨_, _, _, _, _, event⟩
    · cases event
      rcases invoke_backed permitted with ⟨_, harmless⟩ | ⟨_, _, _, same, named, _⟩
      · exact absurd sideEffecting harmless
      · obtain ⟨idempotencyKey, rfl⟩ := named
        exact ⟨idempotencyKey, same⟩
    · cases event
  · intro tool identity harmless
    have reached := (inv_inductive deployment (fun _ => true) tool identity).run ran rfl
      (fun left event right split => harmless event (by simp [split]))
      (inv_initial deployment tool identity rfl)
    exact reached.once

def paidOnce : List (Move platform Entry) :=
  [.launch (.runBackground "api")] ++ steps 13 0 paying ++ [payOrder] ++ steps 19 1 paying ++
    [payOrder] ++ steps 10 2 paying

theorem side_effects_invoked_once_paid_once : ∃ events final,
    (platformSystem sampleDeployment fun _ => true).Run
      (atRest (State.initial sampleRun 0 none)) events final ∧
    events.countP (invokes paymentTool "order-7") = 1 := by
  have passed : ((platformSystem sampleDeployment fun _ => true).replay
      (atRest (State.initial sampleRun 0 none)) paidOnce).any (fun outcome =>
        decide (0 < outcome.1.countP (invokes paymentTool "order-7")) &&
        outcome.1.all fun event => storesNull
          (sideEffectStageKey sampleDeployment.digest paymentTool "order-7") event == false) =
      true := rfl
  obtain ⟨events, final, run, checked⟩ := System.replay_checked passed
  simp only [Bool.and_eq_true, decide_eq_true_eq, List.all_eq_true, beq_iff_eq] at checked
  have once := (side_effects_invoked_once run).2 paymentTool "order-7" checked.2
  exact ⟨events, final, run, by omega⟩

end AgentTaskPlatform.SideEffects
