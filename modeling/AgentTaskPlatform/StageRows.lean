import AgentTaskPlatform.Store

/-!
The stage rows under the operations of the platform: which rows an operation
hits and what it writes into the columns that the fences of the repository read.
-/

namespace AgentTaskPlatform

open Interleaving KeyedTable

namespace StageOp

/-- The `WHERE` clause of an update; the other operations update nothing. -/
def hits : StageOp → AgentStage → Bool
  | .getOrCreate _ => fun _ => false
  | .get _ => fun _ => false
  | .beginAttempt stageKey _ _ => beginAttemptWhere stageKey
  | .saveCheckpoint stageKey executionId _ =>
      activeWhere stageKey executionId [.running] false
  | .markSucceeded stageKey executionId _ =>
      activeWhere stageKey executionId [.running, .outcomeUnknown] true
  | .markFailed stageKey executionId _ _ => activeWhere stageKey executionId [.running] false
  | .markCanceled stageKey executionId => activeWhere stageKey executionId [.running] false
  | .markOutcomeUnknown stageKey executionId _ _ =>
      activeWhere stageKey executionId [.running] false
  | .beginSideEffectOnce stageKey _ => beginSideEffectWhere stageKey
  | .markSideEffectDispatched idempotencyKey executionId =>
      dispatchedWhere idempotencyKey executionId
  | .markSideEffectReturned idempotencyKey executionId =>
      returnedWhere idempotencyKey executionId

def status : StageOp → Option StageStatus
  | .beginAttempt _ _ _ => some .running
  | .markSucceeded _ _ _ => some .succeeded
  | .markFailed _ _ _ _ => some .failed
  | .markCanceled _ _ => some .canceled
  | .markOutcomeUnknown _ _ _ _ => some .outcomeUnknown
  | .beginSideEffectOnce _ _ => some .running
  | .markSideEffectDispatched _ _ => some .outcomeUnknown
  | _ => none

def issues : StageOp → Option Uuid
  | .beginAttempt _ _ executionId => some executionId
  | .beginSideEffectOnce _ executionId => some executionId
  | _ => none

def result : StageOp → Option Json
  | .markSucceeded _ _ output => some output
  | _ => none

structure Writes (op : StageOp) (set : StageValues → StageValues) : Prop where
  status : ∀ values, (set values).status = op.status.getD values.status
  executionId : ∀ values, (set values).executionId = op.issues.or values.executionId
  output : ∀ values, (set values).output = op.result.getD values.output

def inserted (stages : StageTable) : StageOp → StageTable
  | .getOrCreate stage => stages.insertNew stage
  | _ => stages

theorem find_updated {op : StageOp} {state : State} {set : StageValues → StageValues}
    (same : (op.perform state).2.stages = state.stages.updateWhere op.hits (setValues set))
    (kept : op.inserted state.stages = state.stages) (wanted : String) :
    (op.perform state).2.stages.find wanted =
      ((op.inserted state.stages).find wanted).map fun stage =>
        if op.hits stage then stage.withValues (set stage.values) else stage := by
  rw [same, kept]
  exact Table.find_updateWhere state.stages op.hits (setValues set) wanted

/-- Every row after an operation, in terms of the rows before it. -/
theorem find_perform (op : StageOp) (state : State) : ∃ set, op.Writes set ∧
    ∀ wanted, (op.perform state).2.stages.find wanted =
      ((op.inserted state.stages).find wanted).map fun stage =>
        if op.hits stage then stage.withValues (set stage.values) else stage := by
  cases op with
  | getOrCreate stage =>
      refine ⟨id, ⟨fun _ => rfl, fun _ => rfl, fun _ => rfl⟩, fun wanted => ?_⟩
      simp [perform, inserted, hits]
  | get stageKey =>
      refine ⟨id, ⟨fun _ => rfl, fun _ => rfl, fun _ => rfl⟩, fun wanted => ?_⟩
      simp [perform, inserted, hits]
  | _ =>
      refine ⟨_, ?_, find_updated rfl rfl⟩
      exact ⟨fun _ => rfl, fun _ => rfl, fun _ => rfl⟩

theorem hits_unsettled {op : StageOp} {stage : AgentStage} (hit : op.hits stage = true) :
    stage.status ≠ .succeeded ∧ stage.status ≠ .canceled := by
  constructor <;> intro same <;> cases op <;>
    simp [hits, beginAttemptWhere, activeWhere, beginSideEffectWhere, dispatchedWhere,
      returnedWhere, same] at hit

theorem inserted_kept {op : StageOp} {stages : StageTable} {stageKey : String}
    {stage : AgentStage} (found : stages.find stageKey = some stage) :
    (op.inserted stages).find stageKey = some stage := by
  cases op with
  | getOrCreate row => exact Table.find_insertNew_kept row found
  | _ => exact found

theorem inserted_found {op : StageOp} {stages : StageTable} {stageKey : String}
    {stage : AgentStage} (found : (op.inserted stages).find stageKey = some stage) :
    stages.find stageKey = some stage ∨
      (stages.find stageKey = none ∧ op = .getOrCreate stage ∧ stage.stageKey = stageKey) := by
  cases op with
  | getOrCreate row =>
      rw [inserted, Table.find_insertNew] at found
      split at found
      · next same =>
          cases known : stages.find stageKey with
          | some present =>
              rw [known] at found
              exact Or.inl found
          | none =>
              rw [known] at found
              cases found
              exact Or.inr ⟨rfl, rfl, same.symm⟩
      · exact Or.inl found
  | _ => exact Or.inl found

theorem getOrCreate_answer (stage : AgentStage) (state : State) :
    ((getOrCreate stage).perform state).2.stages.find stage.stageKey =
      some ((getOrCreate stage).perform state).1 := by
  simp only [perform]
  rw [Table.find_insertNew_self]
  rfl

end StageOp

theorem find_resetFailed (stages : StageTable) (stageKey : String) :
    (resetFailedForRun stages).find stageKey = (stages.find stageKey).map fun stage =>
      if stage.status = .failed then stage.withValues (resetFailedSet stage.values)
      else stage := by
  unfold resetFailedForRun
  rw [Table.find_updateWhere]
  simp only [decide_eq_true_eq]
  rfl

section Perform

variable {op : Op} {oracle : op.Answer} {state : State}

theorem perform_stages (op : Op) (oracle : op.Answer) (state : State) :
    (Op.perform op oracle state).2.stages = state.stages ∨
    (∃ row, op = .run (.retry row) ∧
      (Op.perform op oracle state).2.stages = resetFailedForRun state.stages) ∨
    (∃ stageOp, op = .stage stageOp ∧
      (Op.perform op oracle state).2 = (stageOp.perform state).2) := by
  cases op with
  | run op =>
      cases op with
      | retry row => exact Or.inr (Or.inl ⟨row, rfl, rfl⟩)
      | updateIfCurrent site expected row =>
          left
          simp only [Op.perform, RunOp.perform, State.updateIfCurrent]
          split <;> rfl
      | updateRunWithCallback site expected row delivery =>
          left
          simp only [Op.perform, RunOp.perform]
          split <;> rfl
      | _ => exact Or.inl rfl
  | stage op => exact Or.inr (Or.inr ⟨op, rfl, rfl⟩)
  | callback op =>
      left
      obtain ⟨_, same⟩ := op.perform_frame state
      simp only [Op.perform, same]
  | process op =>
      left
      obtain ⟨_, _, _, _, same⟩ := op.perform_frame state
      simp only [Op.perform, same]
  | external op => exact Or.inl rfl

theorem perform_settled (op : Op) (oracle : op.Answer) {stageKey : String} {stage : AgentStage}
    (found : state.stages.find stageKey = some stage)
    (settled : stage.status = .succeeded ∨ stage.status = .canceled) :
    (Op.perform op oracle state).2.stages.find stageKey = some stage := by
  rcases perform_stages op oracle state with
    same | ⟨row, rfl, same⟩ | ⟨stageOp, rfl, same⟩
  · rw [same]
    exact found
  · have unfailed : stage.status ≠ .failed := by
      rcases settled with status | status <;> rw [status] <;> decide
    rw [same, find_resetFailed, found]
    simp [unfailed]
  · obtain ⟨set, _, rows⟩ := stageOp.find_perform state
    have missed : stageOp.hits stage = false := by
      by_contra hit
      have unsettled := StageOp.hits_unsettled (by simpa using hit)
      rcases settled with status | status
      · exact unsettled.1 status
      · exact unsettled.2 status
    rw [same, rows, StageOp.inserted_kept found]
    simp [missed]

/-- How a row comes to its status: it had the status before, a stage operation
wrote it, `get_or_create` inserted it, or a `retry` reset it. -/
theorem perform_status {stageKey : String} {stage : AgentStage}
    (found : (Op.perform op oracle state).2.stages.find stageKey = some stage) :
    (∃ old, state.stages.find stageKey = some old ∧ old.status = stage.status) ∨
    (∃ stageOp old, op = .stage stageOp ∧ state.stages.find stageKey = some old ∧
      stageOp.hits old = true ∧ stageOp.status = some stage.status) ∨
    op = .stage (.getOrCreate stage) ∨ stage.status = .pending := by
  rcases perform_stages op oracle state with
    same | ⟨row, rfl, same⟩ | ⟨stageOp, rfl, same⟩
  · rw [same] at found
    exact Or.inl ⟨stage, found, rfl⟩
  · rw [same, find_resetFailed] at found
    obtain ⟨old, before, written⟩ := Option.map_eq_some_iff.mp found
    by_cases failed : old.status = .failed
    · simp only [failed, if_true] at written
      subst written
      exact Or.inr (Or.inr (Or.inr rfl))
    · simp only [failed, if_false] at written
      subst written
      exact Or.inl ⟨old, before, rfl⟩
  · obtain ⟨set, writes, rows⟩ := stageOp.find_perform state
    rw [same, rows] at found
    obtain ⟨old, present, written⟩ := Option.map_eq_some_iff.mp found
    rcases StageOp.inserted_found present with before | ⟨_, inserts, _⟩
    · by_cases hit : stageOp.hits old = true
      · simp only [hit, if_true] at written
        have status : stage.status = stageOp.status.getD old.status := by
          rw [← written]
          exact writes.status old.values
        cases wrote : stageOp.status with
        | none =>
            rw [wrote] at status
            exact Or.inl ⟨old, before, status.symm⟩
        | some value =>
            rw [wrote] at status
            exact Or.inr (Or.inl ⟨stageOp, old, rfl, before, hit, by rw [status, wrote]; rfl⟩)
      · simp only [hit] at written
        subst written
        exact Or.inl ⟨old, before, rfl⟩
    · subst inserts
      simp only [StageOp.hits] at written
      subst written
      exact Or.inr (Or.inr (Or.inl rfl))

end Perform

end AgentTaskPlatform
