import AgentTaskPlatform.Activities
import AgentTaskPlatform.StageRows

/-!
Execution ids. An id is drawn by one thread for one stage, so a row that names
the id is the row of that stage and no other thread holds it.
-/

namespace AgentTaskPlatform

open Interleaving KeyedTable

def ToolProtocol.Effect.drawn : ToolProtocol.Effect → Option (String × Uuid)
  | .issued stageKey executionId => some (stageKey, executionId)
  | .begun stageKey executionId => some (stageKey, executionId)
  | .dispatched stageKey executionId => some (stageKey, executionId)
  | .invoked stageKey executionId => some (stageKey, executionId)
  | .returned stageKey executionId => some (stageKey, executionId)
  | _ => none

def StageProtocol.Step.drawn : StageProtocol.Step → Option Uuid
  | .issued executionId => some executionId
  | .begun executionId => some executionId
  | .operated executionId => some executionId
  | _ => none

def Phase.drawn : Phase → Option (String × Uuid)
  | .tool _ progress => progress.effect.drawn
  | .stage _ _ stageKey progress => progress.step.drawn.map fun id => (stageKey, id)
  | .checkpoint _ _ stageKey progress => progress.step.drawn.map fun id => (stageKey, id)
  | _ => none

section Draws

variable {digest : Digest} {phase : Phase} {op : Op} {oracle : op.Answer} {state : State}

theorem opening_drawn (opening : phase.Opening) : phase.drawn = none := by
  cases phase <;> first | rfl | (cases opening; rfl)

/-- An operation of a tool call keeps its execution, drops it, or draws one. -/
theorem tool_drawn {context : AgentContext} {progress : ToolProtocol.Progress}
    {drawn : String × Uuid} (permitted : ToolProtocol.Permitted digest context progress op)
    (draws : (progress.after op (Op.perform op oracle state).1).effect.drawn = some drawn) :
    progress.effect.drawn = some drawn ∨
      (op = .process .uuid4 ∧ drawn.2 = ⟨state.nextId⟩) := by
  cases permitted with
  | external op other =>
      left
      cases op <;> first | exact draws | cases other
  | getOrCreate tool identity inputHash _ => cases draws
  | issue opened =>
      right
      simp only [ToolProtocol.Progress.after, opened, ToolProtocol.Effect.issue,
        ToolProtocol.Effect.drawn, Option.some.injEq] at draws
      exact ⟨rfl, draws ▸ rfl⟩
  | begin issued =>
      left
      simp only [ToolProtocol.Progress.after] at draws
      split at draws
      · rw [issued]
        exact draws
      · cases draws
  | dispatch begun =>
      left
      simp only [ToolProtocol.Progress.after, begun] at draws
      rw [begun]
      cases answer : (Op.perform _ oracle state).1 <;> rw [answer] at draws
      · cases draws
      · exact draws
  | invokeFreely input harmless =>
      left
      simp only [ToolProtocol.Progress.after] at draws
      cases same : progress.effect <;> rw [same] at draws <;> exact draws
  | invoke dispatched =>
      left
      simp only [ToolProtocol.Progress.after, dispatched] at draws
      rw [dispatched]
      exact draws
  | invokeBlank stored =>
      left
      simp only [ToolProtocol.Progress.after] at draws
      cases same : progress.effect <;> rw [same] at draws <;> exact draws
  | «return» invoked =>
      left
      simp only [ToolProtocol.Progress.after, invoked] at draws
      rw [invoked]
      cases answer : (Op.perform _ oracle state).1 <;> rw [answer] at draws
      · cases draws
      · exact draws
  | complete output returned =>
      simp only [ToolProtocol.Progress.after, returned] at draws
      cases draws
  | returnBlank executionId stored =>
      obtain ⟨stage, opened⟩ := stored.opened
      simp [ToolProtocol.Progress.after, opened, ToolProtocol.Effect.return,
        ToolProtocol.Effect.drawn] at draws
  | completeBlank executionId output stored =>
      obtain ⟨stage, opened⟩ := stored.opened
      simp [ToolProtocol.Progress.after, opened, ToolProtocol.Effect.complete,
        ToolProtocol.Effect.drawn] at draws
  | _ => exact Or.inl draws

theorem stage_drawn {index : Nat} {context : AgentContext} {stageKey : String}
    {progress : StageProtocol.Progress} {executionId : Uuid}
    (permitted : StageProtocol.Permitted index context stageKey progress op)
    (draws : (progress.after op (Op.perform op oracle state).1).step.drawn = some executionId) :
    progress.step.drawn = some executionId ∨
      (op = .process .uuid4 ∧ executionId = ⟨state.nextId⟩) := by
  cases permitted with
  | external op other =>
      left
      rw [StageProtocol.Progress.after_external other] at draws
      exact draws
  | getOrCreate stageIndex definitionVersion maxAttempts idempotencyKey inputHash _ => cases draws
  | issue _ _ =>
      right
      cases draws
      exact ⟨rfl, rfl⟩
  | begin issued =>
      left
      simp only [StageProtocol.Progress.after] at draws
      split at draws
      · rw [issued]
        exact draws
      · cases draws
  | operation begun =>
      left
      rw [begun]
      exact draws
  | succeed output operated =>
      left
      simp only [StageProtocol.Progress.after] at draws
      split at draws
      · cases draws
      · exact draws
  | _ => exact Or.inl draws

theorem drawn_after {drawn : String × Uuid} (permitted : phase.permits digest op)
    (draws : (phase.after op (Op.perform op oracle state).1).drawn = some drawn) :
    phase.drawn = some drawn ∨ (op = .process .uuid4 ∧ drawn.2 = ⟨state.nextId⟩) := by
  have staged : ∀ {index context stageKey progress},
      StageProtocol.Permitted index context stageKey progress op →
      ((progress.after op (Op.perform op oracle state).1).step.drawn.map fun id =>
        (stageKey, id)) = some drawn →
      (progress.step.drawn.map fun id => (stageKey, id)) = some drawn ∨
        (op = .process .uuid4 ∧ drawn.2 = ⟨state.nextId⟩) := by
    intro index context stageKey progress permitted draws
    obtain ⟨executionId, found, rfl⟩ := Option.map_eq_some_iff.mp draws
    rcases stage_drawn permitted found with kept | fresh
    · left
      rw [kept]
      rfl
    · exact Or.inr fresh
  cases phase with
  | tool context progress => exact tool_drawn permitted draws
  | stage index context stageKey progress => exact staged permitted draws
  | checkpoint index context stageKey progress => exact staged permitted draws
  | execution process worker progress => cases draws
  | manager process job progress => cases draws

/-- An update that hands a row to an execution is issued by the thread that drew
the id, on the row of its stage. -/
theorem issues_drawn {op : StageOp} {executionId : Uuid}
    (permitted : phase.permits digest (.stage op)) (issues : op.issues = some executionId) :
    ∃ stageKey, phase.drawn = some (stageKey, executionId) ∧
      ∀ row, op.hits row = true → row.stageKey = stageKey := by
  have staged : ∀ {index context stageKey progress},
      StageProtocol.Permitted index context stageKey progress (.stage op) →
      progress.step.drawn = some executionId ∧
        ∀ row, op.hits row = true → row.stageKey = stageKey := by
    intro index context stageKey progress permitted
    cases permitted with
    | begin issued =>
        cases issues
        refine ⟨by rw [issued]; rfl, fun row hit => ?_⟩
        simp only [StageOp.hits, beginAttemptWhere, Bool.and_eq_true, decide_eq_true_eq] at hit
        exact hit.1.1
    | _ => cases issues
  cases phase with
  | tool context progress =>
      cases permitted with
      | begin issued =>
          cases issues
          refine ⟨_, by simp only [Phase.drawn, issued]; rfl, fun row hit => ?_⟩
          simp only [StageOp.hits, beginSideEffectWhere, Bool.and_eq_true,
            decide_eq_true_eq] at hit
          exact hit.1.1
      | _ => cases issues
  | stage index context stageKey progress =>
      obtain ⟨found, hits⟩ := staged permitted
      exact ⟨stageKey, by simp only [Phase.drawn, found]; rfl, hits⟩
  | checkpoint index context stageKey progress =>
      obtain ⟨found, hits⟩ := staged permitted
      exact ⟨stageKey, by simp only [Phase.drawn, found]; rfl, hits⟩
  | execution process worker progress => cases permitted
  | manager process job progress => cases permitted

end Draws

section Counter

variable {op : Op} {oracle : op.Answer} {state : State}

theorem perform_nextId : state.nextId ≤ (Op.perform op oracle state).2.nextId := by
  cases op with
  | run op =>
      obtain ⟨_, _, _, same⟩ := op.perform_frame state
      simp only [Op.perform, same, Nat.le_refl]
  | stage op =>
      obtain ⟨_, same⟩ := op.perform_frame state
      simp only [Op.perform, same, Nat.le_refl]
  | callback op =>
      obtain ⟨_, same⟩ := op.perform_frame state
      simp only [Op.perform, same, Nat.le_refl]
  | process op =>
      cases op with
      | uuid4 => exact Nat.le_succ _
      | registerEvent process => exact Nat.le_succ _
      | dropEvent process event =>
          simp only [Op.perform, LocalOp.perform]
          split <;> exact Nat.le_refl _
      | setEvent process =>
          simp only [Op.perform, LocalOp.perform]
          split <;> exact Nat.le_refl _
      | enterStage index stageKey =>
          simp only [Op.perform, LocalOp.perform]
          repeat' split
          all_goals exact Nat.le_refl _
      | _ => exact Nat.le_refl _
  | external op => exact Nat.le_refl _

theorem launch_nextId {deployment : Deployment} {admitted : Entry → Bool}
    {config : PlatformConfig} {entry : Entry} {spawned : Option Activity} {after : State}
    (launched : (platformSystem deployment admitted).launch entry config = some (after, spawned)) :
    after.nextId = config.state.nextId := by
  rw [launch_effect launched]
  cases entry with
  | shutdown process =>
      simp only [Entry.effect, State.shutdown]
      split <;> rfl
  | _ => rfl

theorem perform_executionId {stageKey : String} {stage : AgentStage} {executionId : Uuid}
    (found : (Op.perform op oracle state).2.stages.find stageKey = some stage)
    (named : stage.executionId = some executionId)
    (fresh : ∀ stage, op = .stage (.getOrCreate stage) → stage.executionId = none) :
    (∃ old, state.stages.find stageKey = some old ∧ old.executionId = some executionId) ∨
    (∃ stageOp old, op = .stage stageOp ∧ stageOp.issues = some executionId ∧
      stageOp.hits old = true ∧ old.stageKey = stageKey) := by
  rcases perform_stages op oracle state with
    same | ⟨row, rfl, same⟩ | ⟨stageOp, rfl, same⟩
  · rw [same] at found
    exact Or.inl ⟨stage, found, named⟩
  · rw [same, find_resetFailed] at found
    obtain ⟨old, before, written⟩ := Option.map_eq_some_iff.mp found
    by_cases failed : old.status = .failed
    · simp only [failed, if_true] at written
      subst written
      cases named
    · simp only [failed, if_false] at written
      subst written
      exact Or.inl ⟨old, before, named⟩
  · obtain ⟨set, writes, rows⟩ := stageOp.find_perform state
    rw [same, rows] at found
    obtain ⟨old, present, written⟩ := Option.map_eq_some_iff.mp found
    by_cases hit : stageOp.hits old = true
    · simp only [hit, if_true] at written
      have column : stage.executionId = stageOp.issues.or old.executionId := by
        rw [← written]
        exact writes.executionId old.values
      rw [named] at column
      cases issues : stageOp.issues with
      | some value =>
          rw [issues, Option.some_or] at column
          cases column
          exact Or.inr ⟨stageOp, old, rfl, issues, hit, Table.find_key present⟩
      | none =>
          rw [issues, Option.none_or] at column
          rcases StageOp.inserted_found present with before | ⟨_, inserts, _⟩
          · exact Or.inl ⟨old, before, column.symm⟩
          · rw [fresh old (by rw [inserts])] at column
            cases column
    · rw [if_neg hit] at written
      subst written
      rcases StageOp.inserted_found present with before | ⟨_, inserts, _⟩
      · exact Or.inl ⟨old, before, named⟩
      · rw [fresh old (by rw [inserts])] at named
        cases named

end Counter

structure Ids (state : State) (phases : List Phase) : Prop where
  rows : ∀ stageKey stage executionId, state.stages.find stageKey = some stage →
    stage.executionId = some executionId → executionId.value < state.nextId
  drawn : ∀ (thread : Nat) phase drawn, phases[thread]? = some phase →
    phase.drawn = some drawn → drawn.2.value < state.nextId
  apart : ∀ (thread other : Nat) phase another stageKey position executionId,
    phases[thread]? = some phase → phases[other]? = some another →
    phase.drawn = some (stageKey, executionId) → another.drawn = some (position, executionId) →
    thread = other
  own : ∀ (thread : Nat) phase drawn stageKey stage, phases[thread]? = some phase →
    phase.drawn = some drawn → state.stages.find stageKey = some stage →
    stage.executionId = some drawn.2 → stageKey = drawn.1

section Steps

variable {deployment : Deployment} {admitted : Entry → Bool} {state : State}
  {phases : List Phase}

theorem Ids.step {phase : Phase} {thread : Nat} {tag : Tag} {op : Op} {oracle : op.Answer}
    (ids : Ids state phases) (present : phases[thread]? = some phase)
    (permitted : phase.permits deployment.digest op) :
    Ids (Op.perform op oracle state).2 ((discipline deployment admitted).observe phases
      ((platformSystem deployment admitted).performed thread tag op oracle state)) := by
  have grows : state.nextId ≤ (Op.perform op oracle state).2.nextId := perform_nextId
  -- Every id a thread holds afterwards was held by it before, or is new.
  have holds : ∀ (index : Nat) later drawn, ((discipline deployment admitted).observe phases
      ((platformSystem deployment admitted).performed thread tag op oracle state))[index]? =
        some later → later.drawn = some drawn →
      (∃ old, phases[index]? = some old ∧ old.drawn = some drawn) ∨
        (index = thread ∧ op = .process .uuid4 ∧ drawn.2 = ⟨state.nextId⟩) := by
    intro index later drawn found draws
    rcases observe_phase present found with ⟨rfl, rfl⟩ | ⟨_, kept⟩
    · rcases drawn_after permitted draws with before | ⟨op, fresh⟩
      · exact Or.inl ⟨phase, present, before⟩
      · exact Or.inr ⟨rfl, op, fresh⟩
    · exact Or.inl ⟨later, kept, draws⟩
  have rows : ∀ {stageKey stage executionId},
      (Op.perform op oracle state).2.stages.find stageKey = some stage →
      stage.executionId = some executionId →
      (∃ old, state.stages.find stageKey = some old ∧ old.executionId = some executionId) ∨
        phase.drawn = some (stageKey, executionId) := by
    intro stageKey stage executionId found named
    rcases perform_executionId found named (fun stage same => by
      subst same
      exact (Phase.inserted_new permitted).2) with before | ⟨stageOp, old, rfl, issues, hit, key⟩
    · exact Or.inl before
    · obtain ⟨owner, draws, hits⟩ := issues_drawn permitted issues
      right
      rw [← key, hits old hit]
      exact draws
  refine ⟨?_, ?_, ?_, ?_⟩
  · intro stageKey stage executionId found named
    rcases rows found named with ⟨old, before, same⟩ | draws
    · exact Nat.lt_of_lt_of_le (ids.rows stageKey old executionId before same) grows
    · exact Nat.lt_of_lt_of_le (ids.drawn thread phase _ present draws) grows
  · intro index later drawn found draws
    rcases holds index later drawn found draws with ⟨old, before, same⟩ | ⟨_, rfl, fresh⟩
    · exact Nat.lt_of_lt_of_le (ids.drawn index old drawn before same) grows
    · rw [fresh]
      exact Nat.lt_succ_self _
  · intro index other later another stageKey position executionId first second draws holdsToo
    rcases holds index later _ first draws with ⟨old, before, same⟩ | ⟨rfl, _, fresh⟩
    · rcases holds other another _ second holdsToo with ⟨mine, known, equal⟩ | ⟨rfl, _, fresh⟩
      · exact ids.apart index other old mine _ _ executionId before known same equal
      · have bounded := ids.drawn index old _ before same
        rw [show executionId = ⟨state.nextId⟩ from fresh] at bounded
        exact absurd bounded (Nat.lt_irrefl _)
    · rcases holds other another _ second holdsToo with ⟨mine, known, equal⟩ | ⟨rfl, _, _⟩
      · have bounded := ids.drawn other mine _ known equal
        rw [show executionId = ⟨state.nextId⟩ from fresh] at bounded
        exact absurd bounded (Nat.lt_irrefl _)
      · rfl
  · intro index later drawn stageKey stage found draws stored named
    rcases rows stored named with ⟨old, before, same⟩ | mine
    · rcases holds index later drawn found draws with ⟨earlier, known, equal⟩ | ⟨_, _, fresh⟩
      · exact ids.own index earlier drawn stageKey old known equal before same
      · have bounded := ids.rows stageKey old drawn.2 before same
        rw [fresh] at bounded
        exact absurd bounded (Nat.lt_irrefl _)
    · rcases holds index later drawn found draws with ⟨earlier, known, equal⟩ | ⟨_, _, fresh⟩
      · have same := ids.apart thread index phase earlier stageKey drawn.1 drawn.2 present known
          mine equal
        subst same
        cases present.symm.trans known
        exact congrArg Prod.fst (Option.some.inj (mine.symm.trans equal))
      · have bounded := ids.drawn thread phase _ present mine
        rw [fresh] at bounded
        exact absurd bounded (Nat.lt_irrefl _)

theorem Ids.launch {config : PlatformConfig} {entry : Entry} {spawned : Option Activity}
    (ids : Ids config.state phases)
    (launched : (platformSystem deployment admitted).launch entry config =
      some (state, spawned)) :
    Ids state ((discipline deployment admitted).observe phases
      (.launched entry (System.spawnedThread config spawned) config.state state)) := by
  have stages := launch_stages launched
  have counter := launch_nextId launched
  have old : ∀ {index : Nat} {phase drawn}, ((discipline deployment admitted).observe phases
      (.launched entry (System.spawnedThread config spawned) config.state state))[index]? =
        some phase → phase.drawn = some drawn → phases[index]? = some phase := by
    intro index phase drawn found draws
    rcases launch_phase launched found with before | ⟨_, start⟩
    · exact before
    · rw [opening_drawn (Entry.phase_opening start)] at draws
      cases draws
  refine ⟨?_, ?_, ?_, ?_⟩
  · rw [stages, counter]
    exact ids.rows
  · intro thread phase drawn found draws
    rw [counter]
    exact ids.drawn thread phase drawn (old found draws) draws
  · intro thread other phase another stageKey position executionId first second draws mine
    exact ids.apart thread other phase another stageKey position executionId (old first draws)
      (old second mine) draws mine
  · intro thread phase drawn stageKey stage found draws stored named
    rw [stages] at stored
    exact ids.own thread phase drawn stageKey stage (old found draws) draws stored named

end Steps

theorem ids_empty {state : State} (blank : state.stages = Table.empty) : Ids state [] := by
  refine ⟨?_, ?_, ?_, ?_⟩
  · intro stageKey stage executionId found
    rw [blank] at found
    cases found
  · intro thread phase drawn found
    cases found
  · intro thread other phase another stageKey position executionId found
    cases found
  · intro thread phase drawn stageKey stage found
    cases found

end AgentTaskPlatform
