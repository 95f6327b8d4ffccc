import AgentTaskPlatform.StageRows
import AgentTaskPlatform.StageRunner
import AgentTaskPlatform.ToolGateway

/-!
The life of a stage row under every history of repository calls: the budget of its
attempts, the statuses it cannot leave, and the fence of a superseded execution.
-/

namespace AgentTaskPlatform

open KeyedTable

namespace StageOp

def writer : StageOp → Option Uuid
  | .saveCheckpoint _ executionId _ => some executionId
  | .markSucceeded _ executionId _ => some executionId
  | .markFailed _ executionId _ _ => some executionId
  | .markCanceled _ executionId => some executionId
  | .markOutcomeUnknown _ executionId _ _ => some executionId
  | .markSideEffectDispatched _ executionId => some executionId
  | .markSideEffectReturned _ executionId => some executionId
  | _ => none

def dispatches : StageOp → Option Uuid
  | .markOutcomeUnknown _ executionId _ _ => some executionId
  | .markSideEffectDispatched _ executionId => some executionId
  | _ => none

def accepted : (op : StageOp) → op.Answer → Bool
  | .getOrCreate _, _ => true
  | .get _, stage => Option.isSome stage
  | .beginAttempt _ _ _, stage => Option.isSome stage
  | .beginSideEffectOnce _ _, stage => Option.isSome stage
  | .saveCheckpoint _ _ _, updated => updated
  | .markSucceeded _ _ _, updated => updated
  | .markFailed _ _ _ _, updated => updated
  | .markCanceled _ _, updated => updated
  | .markOutcomeUnknown _ _ _ _, updated => updated
  | .markSideEffectDispatched _ _, updated => updated
  | .markSideEffectReturned _ _, updated => updated

end StageOp

namespace StageMachine

inductive Call where
  | stage (op : StageOp)
  | resetFailedForRun
  | deleteForRun

def Call.perform (now : Nat) (state : State) : Call → State
  | .stage op => (op.perform { state with clock := now }).2
  | .resetFailedForRun => { state with stages := AgentTaskPlatform.resetFailedForRun state.stages }
  | .deleteForRun => { state with stages := Table.empty }

structure Event where
  now : Nat
  call : Call

def after (first : State) (events : List Event) : State :=
  events.foldl (fun state event => event.call.perform event.now state) first

theorem after_snoc (first : State) (past : List Event) (event : Event) :
    after first (past ++ [event]) = event.call.perform event.now (after first past) := by
  simp [after]

def rowAt (first : State) (past : List Event) (stageKey : String) : Option AgentStage :=
  (after first past).stages.find stageKey

def Call.begins : Call → Option (String × Uuid)
  | .stage (.beginAttempt stageKey _ executionId) => some (stageKey, executionId)
  | .stage (.beginSideEffectOnce stageKey executionId) => some (stageKey, executionId)
  | _ => none

def Event.issues (event : Event) : Option Uuid := event.call.begins.map Prod.snd

def issued (events : List Event) : List Uuid := events.filterMap Event.issues

section Changes

def Holds (row next : AgentStage) : Prop :=
  next.attempts = row.attempts ∧ next.executionId = row.executionId

inductive Change (row next : AgentStage) : Call → Prop
  | kept {call} : next = row → Change row next call
  | began {runAttempt executionId} :
      (row.status = .running ∧ next.attempts = row.attempts) ∨
        ((row.status = .pending ∨ row.status = .failed) ∧
          row.attempts < row.maxAttempts ∧ next.attempts = row.attempts + 1) →
      next.status = .running → next.executionId = some executionId →
      Change row next (.stage (.beginAttempt row.stageKey runAttempt executionId))
  | claimed {executionId} : row.status = .pending → next.status = .running →
      next.attempts = 1 → next.executionId = some executionId →
      Change row next (.stage (.beginSideEffectOnce row.stageKey executionId))
  /-- A checkpoint or a verdict of the running execution. -/
  | recorded {op executionId} : op.writer = some executionId → row.status = .running →
      row.executionId = some executionId → next.status ≠ .outcomeUnknown → Holds row next →
      Change row next (.stage op)
  | dispatched {op executionId} : op.dispatches = some executionId → row.status = .running →
      row.executionId = some executionId → next.status = .outcomeUnknown → Holds row next →
      (next.errorType = some "SIDE_EFFECT_RETURNED" → ∃ stageKey errorMessage,
        op = .markOutcomeUnknown stageKey executionId "SIDE_EFFECT_RETURNED" errorMessage) →
      Change row next (.stage op)
  | returned {executionId} : row.status = .outcomeUnknown →
      row.executionId = some executionId → next.status = .outcomeUnknown → Holds row next →
      Change row next (.stage (.markSideEffectReturned row.idempotencyKey executionId))
  | completed {executionId output} : row.status = .outcomeUnknown →
      row.errorType = some "SIDE_EFFECT_RETURNED" → row.executionId = some executionId →
      next.status = .succeeded → Holds row next →
      Change row next (.stage (.markSucceeded row.stageKey executionId output))
  | reset : row.status = .failed → next.status = .pending → next.attempts = 0 →
      next.executionId = none → Change row next .resetFailedForRun

structure Same (row next : AgentStage) : Prop where
  stageKey : next.stageKey = row.stageKey
  maxAttempts : next.maxAttempts = row.maxAttempts
  idempotencyKey : next.idempotencyKey = row.idempotencyKey

theorem Same.withValues (row : AgentStage) (values : StageValues) :
    Same row (row.withValues values) := ⟨rfl, rfl, rfl⟩

theorem Same.refl (row : AgentStage) : Same row row := ⟨rfl, rfl, rfl⟩

variable {state : State} {stageKey : String} {row : AgentStage}

theorem update_changes {call : Call} {condition : AgentStage → Bool}
    {set : StageValues → StageValues} (found : state.stages.find stageKey = some row)
    (hit : condition row = true → Change row (row.withValues (set row.values)) call) :
    ∃ next, (state.stages.updateWhere condition (setValues set)).find stageKey = some next ∧
      Same row next ∧ Change row next call := by
  rw [Table.find_updateWhere, found]
  by_cases holds : condition row = true
  · refine ⟨row.withValues (set row.values), ?_, Same.withValues row _, hit holds⟩
    simp [holds, setValues]
  · exact ⟨row, by simp [holds], Same.refl row, .kept rfl⟩

theorem active_running {stageKey : String} {executionId : Uuid} {row : AgentStage}
    (active : activeWhere stageKey executionId [.running] false row = true) :
    row.stageKey = stageKey ∧ row.status = .running ∧ row.executionId = some executionId := by
  simp only [activeWhere, Bool.and_eq_true, decide_eq_true_eq] at active
  obtain ⟨⟨⟨named, status⟩, _⟩, owner⟩ := active
  exact ⟨named, by simpa using status, owner⟩

theorem call_changes (now : Nat) (call : Call) (found : state.stages.find stageKey = some row)
    (kept : call ≠ .deleteForRun) :
    ∃ next, (call.perform now state).stages.find stageKey = some next ∧ Same row next ∧
      Change row next call := by
  cases call with
  | deleteForRun => exact absurd rfl kept
  | resetFailedForRun =>
      refine update_changes found fun failed => ?_
      exact .reset (by simpa using failed) rfl rfl rfl
  | stage op =>
      cases op with
      | getOrCreate stage =>
          exact ⟨row, Table.find_insertNew_kept stage found, Same.refl row, .kept rfl⟩
      | get _ => exact ⟨row, found, Same.refl row, .kept rfl⟩
      | beginAttempt key runAttempt executionId =>
          refine update_changes found fun due => ?_
          simp only [beginAttemptWhere, Bool.and_eq_true, Bool.or_eq_true,
            decide_eq_true_eq] at due
          obtain ⟨⟨rfl, status⟩, budget⟩ := due
          refine .began ?_ rfl rfl
          -- An interrupted stage begins again without spending an attempt.
          by_cases running : row.status = .running
          · exact Or.inl ⟨running, by simp [AgentStage.withValues, beginAttemptSet,
              AgentStage.values, running]⟩
          · refine Or.inr ⟨?_, ?_, ?_⟩
            · rcases status with (pending | same) | failed
              · exact Or.inl pending
              · exact absurd same running
              · exact Or.inr failed
            · exact budget.resolve_left running
            · simp [AgentStage.withValues, beginAttemptSet, AgentStage.values, running]
      | saveCheckpoint key executionId checkpoint =>
          refine update_changes found fun active => ?_
          obtain ⟨_, running, owner⟩ := active_running active
          refine .recorded rfl running owner ?_ ⟨rfl, rfl⟩
          show row.status ≠ .outcomeUnknown
          rw [running]
          decide
      | markSucceeded key executionId output =>
          refine update_changes found fun active => ?_
          simp only [activeWhere, Bool.and_eq_true, decide_eq_true_eq] at active
          obtain ⟨⟨⟨rfl, status⟩, fence⟩, owner⟩ := active
          -- Success is admitted from two statuses, and only the second is fenced by the mark.
          by_cases running : row.status = .running
          · exact .recorded rfl running owner (by simp [AgentStage.withValues]) ⟨rfl, rfl⟩
          · have unknown : row.status = .outcomeUnknown := by simpa [running] using status
            have answered : row.errorType = some "SIDE_EFFECT_RETURNED" := by
              simpa [unknown] using fence
            exact .completed unknown answered owner rfl ⟨rfl, rfl⟩
      | markFailed key executionId errorType errorMessage =>
          refine update_changes found fun active => ?_
          obtain ⟨_, running, owner⟩ := active_running active
          exact .recorded rfl running owner (by simp [AgentStage.withValues]) ⟨rfl, rfl⟩
      | markCanceled key executionId =>
          refine update_changes found fun active => ?_
          obtain ⟨_, running, owner⟩ := active_running active
          exact .recorded rfl running owner (by simp [AgentStage.withValues]) ⟨rfl, rfl⟩
      | markOutcomeUnknown key executionId errorType errorMessage =>
          refine update_changes found fun active => ?_
          obtain ⟨_, running, owner⟩ := active_running active
          refine .dispatched rfl running owner rfl ⟨rfl, rfl⟩ fun marked => ?_
          have marker : errorType = "SIDE_EFFECT_RETURNED" := by
            simpa [AgentStage.withValues] using marked
          exact ⟨key, errorMessage, by rw [marker]⟩
      | beginSideEffectOnce key executionId =>
          refine update_changes found fun unclaimed => ?_
          simp only [beginSideEffectWhere, Bool.and_eq_true, decide_eq_true_eq] at unclaimed
          obtain ⟨⟨rfl, pending⟩, _⟩ := unclaimed
          exact .claimed pending rfl rfl rfl
      | markSideEffectDispatched key executionId =>
          refine update_changes found fun owned => ?_
          simp only [dispatchedWhere, Bool.and_eq_true, decide_eq_true_eq] at owned
          refine .dispatched rfl owned.1.2 owned.2 rfl ⟨rfl, rfl⟩ fun marked => ?_
          simp [AgentStage.withValues] at marked
      | markSideEffectReturned key executionId =>
          refine update_changes found fun owned => ?_
          simp only [returnedWhere, Bool.and_eq_true, decide_eq_true_eq] at owned
          obtain ⟨⟨rfl, unknown⟩, owner⟩ := owned
          exact .returned unknown owner unknown ⟨rfl, rfl⟩

theorem call_inserts {now : Nat} {call : Call} {next : AgentStage}
    (absent : state.stages.find stageKey = none)
    (present : (call.perform now state).stages.find stageKey = some next) :
    call = .stage (.getOrCreate next) := by
  cases call with
  | deleteForRun => cases present
  | resetFailedForRun =>
      simp only [Call.perform] at present
      rw [find_resetFailed, absent] at present
      cases present
  | stage op =>
      obtain ⟨set, _, rows⟩ := op.find_perform { state with clock := now }
      simp only [Call.perform] at present
      rw [rows] at present
      obtain ⟨old, found, written⟩ := Option.map_eq_some_iff.mp present
      -- The row was inserted by this call, which then changes nothing more of it.
      rcases StageOp.inserted_found found with before | ⟨_, inserts, _⟩
      · rw [absent] at before
        cases before
      · subst inserts
        simp only [StageOp.hits] at written
        subst written
        rfl

end Changes

section Histories

structure Fresh (stage : AgentStage) : Prop where
  pending : stage.status = .pending
  unclaimed : stage.executionId = none
  unspent : stage.attempts = 0
  budget : 1 ≤ stage.maxAttempts

theorem newStage_fresh (context : AgentContext) (stageKey : String) (stageIndex : Nat)
    (definitionVersion : String) (maxAttempts : Option Nat) (idempotencyKey : Option String)
    (inputHash : String) : Fresh (StageRunner.newStage context stageKey stageIndex
      definitionVersion maxAttempts idempotencyKey inputHash) :=
  ⟨rfl, rfl, rfl, Nat.le_max_left 1 _⟩

theorem sideEffectStage_fresh (digest : Digest) (context : AgentContext) (tool : ToolSpec)
    (identity inputHash : String) :
    Fresh (ToolGateway.sideEffectStage digest context tool identity inputHash) :=
  ⟨rfl, rfl, rfl, Nat.le_refl 1⟩

def Inserts (events : List Event) : Prop :=
  ∀ event ∈ events, ∀ stage, event.call = .stage (.getOrCreate stage) → Fresh stage

def Unmarked (events : List Event) : Prop :=
  ∀ event ∈ events, ∀ stageKey executionId errorMessage, event.call ≠
    .stage (.markOutcomeUnknown stageKey executionId "SIDE_EFFECT_RETURNED" errorMessage)

def Unknown (first : State) (past : List Event) (stageKey : String) : Prop :=
  ∃ row, rowAt first past stageKey = some row ∧ row.status = .outcomeUnknown

structure Waits (first : State) (past : List Event) (stageKey : String) (executionId : Uuid)
    (since : List Event) : Prop where
  dispatched : ∃ before event op row, past = before ++ event :: since ∧ event.call = .stage op ∧
    op.dispatches = some executionId ∧ rowAt first before stageKey = some row ∧
    row.status = .running ∧ row.executionId = some executionId ∧
    ∀ part, part <+: since → Unknown first (before ++ event :: part) stageKey

def Returned (first : State) (past : List Event) (stageKey : String) (executionId : Uuid) : Prop :=
  ∃ row since, rowAt first past stageKey = some row ∧
    Waits first past stageKey executionId since ∧
    ∃ event ∈ since, event.call = .stage (.markSideEffectReturned row.idempotencyKey executionId)

structure Lawful (first : State) (events : List Event) (stageKey : String) : Prop where
  attempts : ∀ past row, past <+: events → rowAt first past stageKey = some row →
    row.attempts ≤ row.maxAttempts
  settled : ∀ past event row, past ++ [event] <+: events → event.call ≠ .deleteForRun →
    rowAt first past stageKey = some row → row.status = .succeeded ∨ row.status = .canceled →
      rowAt first (past ++ [event]) stageKey = some row
  unknown : ∀ past event row, past ++ [event] <+: events → event.call ≠ .deleteForRun →
    rowAt first past stageKey = some row → row.status = .outcomeUnknown →
      ∃ next, rowAt first (past ++ [event]) stageKey = some next ∧
        (next.status = .outcomeUnknown ∨ next.status = .succeeded ∧
          ∃ executionId output, event.call = .stage (.markSucceeded stageKey executionId output) ∧
            Returned first past stageKey executionId)
  failed : ∀ past event row, past ++ [event] <+: events → event.call ≠ .deleteForRun →
    rowAt first past stageKey = some row → row.status = .failed →
      ∃ next, rowAt first (past ++ [event]) stageKey = some next ∧
        (next.status = .failed ∨ event.call = .resetFailedForRun ∨
          row.attempts < row.maxAttempts ∧ ∃ runAttempt executionId,
            event.call = .stage (.beginAttempt stageKey runAttempt executionId))
  /-- Once a running row was handed on, its earlier execution writes nowhere. -/
  fenced : ∀ past handover middle write row executionId runAttempt successor op,
    past ++ handover :: (middle ++ [write]) <+: events →
    rowAt first past stageKey = some row → row.status = .running →
    row.executionId = some executionId →
    handover.call = .stage (.beginAttempt stageKey runAttempt successor) →
    write.call = .stage op → op.writer = some executionId →
      op.accepted (op.perform { after first (past ++ handover :: middle) with
          clock := write.now }).1 = false ∧
        (after first (past ++ handover :: (middle ++ [write]))).stages =
          (after first (past ++ handover :: middle)).stages

end Histories

section Soundness

variable {first : State} {past : List Event} {event : Event} {stageKey : String}
  {row next : AgentStage}

theorem rowAt_key (found : rowAt first past stageKey = some row) : row.stageKey = stageKey :=
  Table.find_key found

theorem rowAt_after (found : rowAt first past stageKey = some row)
    (kept : event.call ≠ .deleteForRun) :
    ∃ next, rowAt first (past ++ [event]) stageKey = some next ∧ Same row next ∧
      Change row next event.call := by
  rw [rowAt, after_snoc]
  exact call_changes event.now event.call found kept

theorem rowAt_before (present : rowAt first (past ++ [event]) stageKey = some next) :
    (∃ row, rowAt first past stageKey = some row ∧ Same row next ∧ Change row next event.call) ∨
      event.call = .stage (.getOrCreate next) := by
  cases found : rowAt first past stageKey with
  | none =>
      right
      rw [rowAt, after_snoc] at present
      exact call_inserts found present
  | some row =>
      left
      by_cases deleted : event.call = .deleteForRun
      · rw [rowAt, after_snoc, deleted] at present
        cases present
      · obtain ⟨written, after, same, change⟩ := rowAt_after found deleted
        rw [after] at present
        cases present
        exact ⟨row, rfl, same, change⟩

/-- An execution owns a row because it did so before or because the call just named it. -/
theorem Change.owner {call : Call} {executionId : Uuid} (change : Change row next call)
    (owner : next.executionId = some executionId) :
    row.executionId = some executionId ∨ call.begins = some (row.stageKey, executionId) := by
  cases change with
  | kept same => exact Or.inl (same ▸ owner)
  | began _ _ named =>
      rw [owner] at named
      cases named
      exact Or.inr rfl
  | claimed _ _ _ named =>
      rw [owner] at named
      cases named
      exact Or.inr rfl
  | recorded _ _ _ _ holds => exact Or.inl (holds.2 ▸ owner)
  | dispatched _ _ _ _ holds _ => exact Or.inl (holds.2 ▸ owner)
  | returned _ _ _ holds => exact Or.inl (holds.2 ▸ owner)
  | completed _ _ _ _ holds => exact Or.inl (holds.2 ▸ owner)
  | reset _ _ _ named =>
      rw [owner] at named
      cases named

theorem Change.attempts {call : Call} (change : Change row next call)
    (budget : 1 ≤ row.maxAttempts) (spent : row.attempts ≤ row.maxAttempts) :
    next.attempts ≤ row.maxAttempts := by
  cases change with
  | kept same => exact same ▸ spent
  | began counted _ _ =>
      rcases counted with ⟨_, same⟩ | ⟨_, left_, counted⟩
      · omega
      · omega
  | claimed _ _ first _ => omega
  | recorded _ _ _ _ holds => exact holds.1 ▸ spent
  | dispatched _ _ _ _ holds _ => exact holds.1 ▸ spent
  | returned _ _ _ holds => exact holds.1 ▸ spent
  | completed _ _ _ _ holds => exact holds.1 ▸ spent
  | reset _ _ none _ => omega

structure Sound (first : State) (past : List Event) : Prop where
  budget : ∀ stageKey row, rowAt first past stageKey = some row →
    1 ≤ row.maxAttempts ∧ row.attempts ≤ row.maxAttempts
  owned : ∀ stageKey row executionId, rowAt first past stageKey = some row →
    row.executionId = some executionId → executionId ∈ issued past
  apart : ∀ stageKey row other twin executionId, rowAt first past stageKey = some row →
    rowAt first past other = some twin → row.executionId = some executionId →
    twin.executionId = some executionId → stageKey = other
  waiting : ∀ stageKey row, rowAt first past stageKey = some row → row.status = .outcomeUnknown →
    ∃ executionId since, row.executionId = some executionId ∧
      Waits first past stageKey executionId since ∧
      (row.errorType = some "SIDE_EFFECT_RETURNED" →
        ∃ event ∈ since,
          event.call = .stage (.markSideEffectReturned row.idempotencyKey executionId))

theorem sound_nil (blank : first.stages = Table.empty) : Sound first [] := by
  have nothing : ∀ stageKey row, rowAt first [] stageKey ≠ some row := by
    intro stageKey row found
    rw [rowAt, after, List.foldl_nil, blank] at found
    cases found
  exact
    { budget := fun stageKey row found => absurd found (nothing stageKey row)
      owned := fun stageKey row _ found _ => absurd found (nothing stageKey row)
      apart := fun stageKey row _ _ _ found _ _ _ => absurd found (nothing stageKey row)
      waiting := fun stageKey row found _ => absurd found (nothing stageKey row) }

theorem Waits.extend {executionId : Uuid} {since : List Event}
    (waits : Waits first past stageKey executionId since)
    (unknown : Unknown first (past ++ [event]) stageKey) :
    Waits first (past ++ [event]) stageKey executionId (since ++ [event]) := by
  obtain ⟨before, dispatch, op, row, rfl, called, dispatches, found, running, owner, stays⟩ := waits
  refine ⟨before, dispatch, op, row, by simp, called, dispatches, found, running, owner, ?_⟩
  intro part inside
  rcases List.prefix_concat_iff.mp inside with rfl | inside
  · simpa using unknown
  · exact stays part inside

theorem issued_snoc (past : List Event) (event : Event) :
    issued (past ++ [event]) = issued past ++ event.issues.toList := by
  cases named : event.issues <;> simp [issued, List.filterMap_append, named]

theorem begins_fresh {key : String} {executionId : Uuid}
    (distinct : (issued (past ++ [event])).Nodup)
    (begins : event.call.begins = some (key, executionId)) : executionId ∉ issued past := by
  have named : event.issues = some executionId := by simp [Event.issues, begins]
  rw [issued_snoc, named] at distinct
  intro member
  exact (List.nodup_append.mp distinct).2.2 executionId member executionId (by simp) rfl

theorem Sound.waiting_step (sound : Sound first past)
    (present : rowAt first (past ++ [event]) stageKey = some next)
    (found : rowAt first past stageKey = some row) (same : Same row next)
    (change : Change row next event.call)
    (unmarked : ∀ stageKey executionId errorMessage, event.call ≠
      .stage (.markOutcomeUnknown stageKey executionId "SIDE_EFFECT_RETURNED" errorMessage))
    (unknown : next.status = .outcomeUnknown) :
    ∃ executionId since, next.executionId = some executionId ∧
      Waits first (past ++ [event]) stageKey executionId since ∧
      (next.errorType = some "SIDE_EFFECT_RETURNED" →
        ∃ event ∈ since,
          event.call = .stage (.markSideEffectReturned next.idempotencyKey executionId)) := by
  have stays : Unknown first (past ++ [event]) stageKey := ⟨next, present, unknown⟩
  generalize called : event.call = call at change
  cases change with
  | kept same =>
      subst same
      obtain ⟨executionId, since, owner, waits, answered⟩ :=
        sound.waiting stageKey next found unknown
      refine ⟨executionId, since ++ [event], owner, waits.extend stays, fun marked => ?_⟩
      obtain ⟨answer, member, returned⟩ := answered marked
      exact ⟨answer, List.mem_append_left _ member, returned⟩
  | began _ running _ => cases running.symm.trans unknown
  | claimed _ running _ _ => cases running.symm.trans unknown
  | recorded _ _ _ known _ => exact absurd unknown known
  | @dispatched op executionId dispatches running owner _ holds marks =>
      refine ⟨executionId, [], holds.2.trans owner, ?_, fun marked => ?_⟩
      · refine ⟨past, event, op, row, rfl, called, dispatches, found, running, owner, ?_⟩
        intro part inside
        rw [List.prefix_nil.mp inside]
        exact stays
      · -- Without such a call the mark can only stand for a return.
        obtain ⟨key, errorMessage, same⟩ := marks marked
        exact absurd (called.trans (congrArg Call.stage same))
          (unmarked key executionId errorMessage)
  | @returned executionId waiting owner _ holds =>
      obtain ⟨waiter, since, owns, waits, _⟩ := sound.waiting stageKey row found waiting
      rw [owner] at owns
      cases owns
      refine ⟨executionId, since ++ [event], holds.2.trans owner, waits.extend stays, fun _ => ?_⟩
      exact ⟨event, by simp, by rw [called, same.idempotencyKey]⟩
  | completed _ _ _ succeeded _ => cases succeeded.symm.trans unknown
  | reset _ pending _ _ => cases pending.symm.trans unknown

theorem Sound.step (sound : Sound first past)
    (inserts : ∀ stage, event.call = .stage (.getOrCreate stage) → Fresh stage)
    (unmarked : ∀ stageKey executionId errorMessage, event.call ≠
      .stage (.markOutcomeUnknown stageKey executionId "SIDE_EFFECT_RETURNED" errorMessage))
    (distinct : (issued (past ++ [event])).Nodup) : Sound first (past ++ [event]) where
  budget := by
    intro stageKey next present
    rcases rowAt_before present with ⟨row, found, same, change⟩ | inserted
    · obtain ⟨budget, spent⟩ := sound.budget stageKey row found
      rw [same.maxAttempts]
      exact ⟨budget, change.attempts budget spent⟩
    · have fresh := inserts next inserted
      have unspent := fresh.unspent
      have budget := fresh.budget
      omega
  owned := by
    intro stageKey next executionId present owner
    rw [issued_snoc]
    rcases rowAt_before present with ⟨row, found, same, change⟩ | inserted
    · rcases change.owner owner with earlier | begins
      · exact List.mem_append_left _ (sound.owned stageKey row executionId found earlier)
      · have named : event.issues = some executionId := by simp [Event.issues, begins]
        simp [named]
    · rw [(inserts next inserted).unclaimed] at owner
      cases owner
  apart := by
    intro stageKey next other twin executionId present present' owner owner'
    rcases rowAt_before present with ⟨row, found, _, change⟩ | inserted
    · rcases rowAt_before present' with ⟨row', found', _, change'⟩ | inserted
      · rcases change.owner owner with earlier | begins
        · rcases change'.owner owner' with earlier' | begins'
          · exact sound.apart stageKey row other row' executionId found found' earlier earlier'
          · exact absurd (sound.owned stageKey row executionId found earlier)
              (begins_fresh distinct begins')
        · rcases change'.owner owner' with earlier' | begins'
          · exact absurd (sound.owned other row' executionId found' earlier')
              (begins_fresh distinct begins)
          · rw [begins] at begins'
            have keys : row.stageKey = row'.stageKey := congrArg Prod.fst (Option.some.inj begins')
            rw [← rowAt_key found, ← rowAt_key found', keys]
      · rw [(inserts twin inserted).unclaimed] at owner'
        cases owner'
    · rw [(inserts next inserted).unclaimed] at owner
      cases owner
  waiting := by
    intro stageKey next present unknown
    rcases rowAt_before present with ⟨row, found, same, change⟩ | inserted
    · exact sound.waiting_step present found same change unmarked unknown
    · have pending := (inserts next inserted).pending
      cases pending.symm.trans unknown

theorem sound_history {events : List Event} (blank : first.stages = Table.empty)
    (inserts : Inserts events) (unmarked : Unmarked events) (distinct : (issued events).Nodup) :
    ∀ past, past <+: events → Sound first past := by
  intro past
  -- On the history from its end, so that the past of the last event is sound.
  induction past using List.reverseRecOn with
  | nil => exact fun _ => sound_nil blank
  | append_singleton past event ih =>
      intro inside
      have member : event ∈ events := inside.subset (by simp)
      have shorter : past <+: events := (List.prefix_append past [event]).trans inside
      have unique : (issued (past ++ [event])).Nodup :=
        distinct.sublist (inside.sublist.filterMap Event.issues)
      exact (ih shorter).step (inserts event member) (unmarked event member) unique

end Soundness

section Fence

variable {first : State} {past : List Event} {event : Event} {executionId : Uuid}

def Abandoned (first : State) (past : List Event) (executionId : Uuid) : Prop :=
  ∀ stageKey row, rowAt first past stageKey = some row → row.executionId ≠ some executionId

theorem Abandoned.step (abandoned : Abandoned first past executionId)
    (inserts : ∀ stage, event.call = .stage (.getOrCreate stage) → Fresh stage)
    (known : executionId ∈ issued past) (distinct : (issued (past ++ [event])).Nodup) :
    Abandoned first (past ++ [event]) executionId := by
  intro stageKey next present owner
  rcases rowAt_before present with ⟨row, found, _, change⟩ | inserted
  · rcases change.owner owner with earlier | begins
    · exact abandoned stageKey row found earlier
    · -- Execution ids are issued once.
      exact begins_fresh distinct begins known
  · rw [(inserts next inserted).unclaimed] at owner
    cases owner

theorem handover_takes {stageKey : String} {row : AgentStage} {runAttempt : Nat}
    {successor : Uuid} (found : rowAt first past stageKey = some row)
    (running : row.status = .running)
    (handover : event.call = .stage (.beginAttempt stageKey runAttempt successor)) :
    ∃ next, rowAt first (past ++ [event]) stageKey = some next ∧
      next.executionId = some successor := by
  have named : row.stageKey = stageKey := rowAt_key found
  have due : beginAttemptWhere stageKey row = true := by
    simp [beginAttemptWhere, named, running]
  have rows : rowAt first (past ++ [event]) stageKey =
      (rowAt first past stageKey).map fun row => if beginAttemptWhere stageKey row then
        row.withValues (beginAttemptSet event.now runAttempt successor row.values) else row := by
    rw [rowAt, after_snoc, handover]
    exact Table.find_updateWhere _ _ _ _
  rw [rows, found]
  refine ⟨row.withValues (beginAttemptSet event.now runAttempt successor row.values), ?_, rfl⟩
  simp only [Option.map_some, due, if_true]

theorem abandoned_handover (sound : Sound first past) {stageKey : String} {row : AgentStage}
    {runAttempt : Nat} {successor : Uuid} (found : rowAt first past stageKey = some row)
    (running : row.status = .running) (owner : row.executionId = some executionId)
    (handover : event.call = .stage (.beginAttempt stageKey runAttempt successor))
    (inserts : ∀ stage, event.call = .stage (.getOrCreate stage) → Fresh stage)
    (distinct : (issued (past ++ [event])).Nodup) :
    Abandoned first (past ++ [event]) executionId := by
  have known : executionId ∈ issued past := sound.owned stageKey row executionId found owner
  have begins : event.call.begins = some (stageKey, successor) := by rw [handover]; rfl
  have other : successor ≠ executionId := by
    rintro rfl
    exact begins_fresh distinct begins known
  intro key next present owner'
  -- The row itself has the successor now; another row never had the execution.
  by_cases own : key = stageKey
  · subst own
    obtain ⟨taken, after, named⟩ := handover_takes found running handover
    rw [present] at after
    cases after
    rw [owner'] at named
    exact other (Option.some.inj named).symm
  · rcases rowAt_before present with ⟨before, found', _, change⟩ | inserted
    · rcases change.owner owner' with earlier | begins'
      · exact own (sound.apart key before stageKey row executionId found' found earlier owner)
      · exact begins_fresh distinct begins' known
    · rw [(inserts next inserted).unclaimed] at owner'
      cases owner'

theorem writer_hits {op : StageOp} {row : AgentStage} (writer : op.writer = some executionId)
    (hit : op.hits row = true) : row.executionId = some executionId := by
  cases op <;> cases writer <;>
    simp only [StageOp.hits, activeWhere, dispatchedWhere, returnedWhere, Bool.and_eq_true,
      decide_eq_true_eq] at hit <;> exact hit.2

theorem updateStages_missed {state : State} {condition : AgentStage → Bool}
    (set : StageValues → StageValues)
    (missed : ∀ row ∈ state.stages.rows, condition row = false) :
    state.updateStages condition set = (false, state) := by
  rw [State.updateStages, Table.countWhere_missed missed, Table.updateWhere_missed _ missed]
  rfl

theorem abandoned_refused (abandoned : Abandoned first past executionId) {op : StageOp}
    (writer : op.writer = some executionId) (now : Nat) :
    op.accepted (op.perform { after first past with clock := now }).1 = false ∧
      (op.perform { after first past with clock := now }).2.stages = (after first past).stages := by
  have missed : ∀ row ∈ (after first past).stages.rows, op.hits row = false := by
    intro row member
    by_contra hit
    have owner := writer_hits writer (by simpa using hit)
    exact abandoned row.stageKey row (Table.mem_find member) owner
  generalize called : ({ after first past with clock := now } : State) = state
  have stages : state.stages = (after first past).stages := by rw [← called]
  rw [← stages] at missed ⊢
  cases op <;> cases writer <;> simp only [StageOp.perform, StageOp.hits] at missed ⊢ <;>
    rw [updateStages_missed _ missed] <;> exact ⟨rfl, rfl⟩

end Fence

section Laws

variable {first : State} {events : List Event} {stageKey : String}

theorem lawful_fenced (blank : first.stages = Table.empty) (inserts : Inserts events)
    (unmarked : Unmarked events) (distinct : (issued events).Nodup)
    {past middle : List Event} {handover write : Event} {row : AgentStage} {executionId : Uuid}
    {runAttempt : Nat} {successor : Uuid}
    (inside : past ++ handover :: (middle ++ [write]) <+: events)
    (found : rowAt first past stageKey = some row) (running : row.status = .running)
    (owner : row.executionId = some executionId)
    (called : handover.call = .stage (.beginAttempt stageKey runAttempt successor)) :
    Abandoned first (past ++ handover :: middle) executionId := by
  have sound := sound_history blank inserts unmarked distinct past
    ((List.prefix_append past _).trans inside)
  have known : executionId ∈ issued past := sound.owned stageKey row executionId found owner
  have fresh : ∀ event ∈ handover :: middle, ∀ stage,
      event.call = .stage (.getOrCreate stage) → Fresh stage := by
    intro event member
    refine inserts event (inside.subset ?_)
    rw [← List.cons_append, List.mem_append, List.mem_append]
    exact Or.inr (Or.inl member)
  have unique : (issued (past ++ handover :: middle)).Nodup := by
    refine distinct.sublist ((List.IsPrefix.sublist ?_).filterMap Event.issues)
    refine List.IsPrefix.trans ?_ inside
    exact ⟨[write], by simp⟩
  clear inside
  -- On the calls between the handover and the write; none of them names the execution again.
  induction middle using List.reverseRecOn with
  | nil =>
      exact abandoned_handover sound found running owner called
        (fresh handover List.mem_cons_self) unique
  | append_singleton middle event ih =>
      have regrouped : past ++ handover :: (middle ++ [event]) =
          (past ++ handover :: middle) ++ [event] := by simp
      rw [regrouped] at unique ⊢
      have shorter : (issued (past ++ handover :: middle)).Nodup :=
        unique.sublist ((List.sublist_append_left _ [event]).filterMap Event.issues)
      have abandoned := ih (fun earlier member => fresh earlier (by
        rw [← List.cons_append]
        exact List.mem_append_left _ member)) shorter
      refine abandoned.step (fresh event (by simp)) ?_ unique
      rw [issued, List.filterMap_append]
      exact List.mem_append_left _ known

/-- A row obeys its laws in every history of calls with distinct execution ids whose rows are
inserted fresh and whose unknown outcomes do not carry the mark of a returned side effect. -/
theorem stage_row_lawful (first : State) (events : List Event) (stageKey : String)
    (blank : first.stages = Table.empty) (inserts : Inserts events)
    (unmarked : Unmarked events) (distinct : (issued events).Nodup) :
    Lawful first events stageKey where
  attempts := by
    intro past row inside found
    exact ((sound_history blank inserts unmarked distinct past inside).budget stageKey row found).2
  settled := by
    intro past event row _ kept found settled
    obtain ⟨next, present, _, change⟩ := rowAt_after found kept
    have same : next = row := by
      generalize event.call = call at change
      cases change with
      | kept same => exact same
      | began counted _ _ =>
          rcases counted with ⟨status, _⟩ | ⟨status | status, _, _⟩ <;> simp [status] at settled
      | claimed pending _ _ _ => simp [pending] at settled
      | recorded _ running _ _ _ => simp [running] at settled
      | dispatched _ running _ _ _ _ => simp [running] at settled
      | returned unknown _ _ _ => simp [unknown] at settled
      | completed unknown _ _ _ _ => simp [unknown] at settled
      | reset failed _ _ _ => simp [failed] at settled
    rw [present, same]
  unknown := by
    intro past event row inside kept found unknown
    obtain ⟨next, present, _, change⟩ := rowAt_after found kept
    have sound := sound_history blank inserts unmarked distinct past
      ((List.prefix_append past [event]).trans inside)
    refine ⟨next, present, ?_⟩
    generalize called : event.call = call at change
    cases change with
    | kept same => exact Or.inl (same ▸ unknown)
    | began counted _ _ =>
        rcases counted with ⟨status, _⟩ | ⟨status | status, _, _⟩ <;>
          cases status.symm.trans unknown
    | claimed pending _ _ _ => cases pending.symm.trans unknown
    | recorded _ running _ _ _ => cases running.symm.trans unknown
    | dispatched _ running _ _ _ _ => cases running.symm.trans unknown
    | returned _ _ stays _ => exact Or.inl stays
    | @completed executionId output _ marked owner succeeded _ =>
        -- Only the mark of a return admits a success here; `Sound` knows where it comes from.
        obtain ⟨waiter, since, owns, waits, answered⟩ := sound.waiting stageKey row found unknown
        rw [owner] at owns
        cases owns
        exact Or.inr ⟨succeeded, executionId, output, by rw [rowAt_key found],
          row, since, found, waits, answered marked⟩
    | reset failed _ _ _ => cases failed.symm.trans unknown
  failed := by
    intro past event row _ kept found failed
    obtain ⟨next, present, _, change⟩ := rowAt_after found kept
    refine ⟨next, present, ?_⟩
    generalize event.call = call at change
    cases change with
    | kept same => exact Or.inl (same ▸ failed)
    | began counted _ _ =>
        rcases counted with ⟨running, _⟩ | ⟨_, left_, _⟩
        · cases running.symm.trans failed
        · exact Or.inr (Or.inr ⟨left_, _, _, by rw [rowAt_key found]⟩)
    | claimed pending _ _ _ => cases pending.symm.trans failed
    | recorded _ running _ _ _ => cases running.symm.trans failed
    | dispatched _ running _ _ _ _ => cases running.symm.trans failed
    | returned unknown _ _ _ => cases unknown.symm.trans failed
    | completed unknown _ _ _ _ => cases unknown.symm.trans failed
    | reset _ _ _ _ => exact Or.inr (Or.inl rfl)
  fenced := by
    intro past handover middle write row executionId runAttempt successor op inside found running
      owner called writes writer
    have abandoned :=
      lawful_fenced blank inserts unmarked distinct inside found running owner called
    have refused := abandoned_refused abandoned writer write.now
    refine ⟨refused.1, ?_⟩
    have regrouped : past ++ handover :: (middle ++ [write]) =
        (past ++ handover :: middle) ++ [write] := by simp
    rw [regrouped, after_snoc, writes]
    exact refused.2

end Laws

section Samples

def blank : State where
  clock := 0
  nextId := 0
  run := { runId := "RUN-1", routeTag := "echo", requestId := "REQ-1" }
  stages := Table.empty
  callbacks := Table.empty
  conversation := none
  signals := fun _ => none
  signalSet := fun _ => false
  leaseSeconds := fun _ => none
  contexts := []
  claimed := []

def payment : AgentStage where
  agentName := "durable-agent"
  agentVersion := "1.0.0"
  stageKey := "pay"
  stageIndex := 0
  maxAttempts := 2
  idempotencyKey := "RUN-1:pay"
  inputHash := "hash"

theorem payment_fresh : Fresh payment := ⟨rfl, rfl, rfl, by decide⟩

def calls (ops : List StageOp) : List Event := ops.map fun op => ⟨1, .stage op⟩

theorem calls_inserts {ops : List StageOp}
    (fresh : ∀ op ∈ ops, ∀ stage, op = .getOrCreate stage → Fresh stage) :
    Inserts (calls ops) := by
  intro event member stage inserted
  obtain ⟨op, listed, rfl⟩ := List.mem_map.mp member
  cases inserted
  exact fresh _ listed stage rfl

def handedOn : List Event :=
  calls [.getOrCreate payment, .beginAttempt "pay" 1 ⟨1⟩, .beginAttempt "pay" 1 ⟨2⟩,
    .markSucceeded "pay" ⟨1⟩ .null, .markSideEffectDispatched "RUN-1:pay" ⟨2⟩,
    .markSideEffectReturned "RUN-1:pay" ⟨2⟩, .markSucceeded "pay" ⟨2⟩ (.bool true)]

theorem stage_row_lawful_handed_on : Lawful blank handedOn "pay" ∧
    (rowAt blank handedOn "pay").map AgentStage.output = some (.bool true) := by
  refine ⟨stage_row_lawful blank handedOn "pay" rfl ?_ ?_ (by decide), rfl⟩
  · apply calls_inserts
    intro op member stage inserted
    subst inserted
    simp only [List.mem_cons, StageOp.getOrCreate.injEq, reduceCtorEq, List.not_mem_nil,
      or_false] at member
    exact member ▸ payment_fresh
  · intro event member stageKey executionId errorMessage
    obtain ⟨op, listed, rfl⟩ := List.mem_map.mp member
    intro same
    cases same
    simp at listed

def marked : List Event :=
  calls [.getOrCreate payment, .beginAttempt "pay" 1 ⟨1⟩,
    .markOutcomeUnknown "pay" ⟨1⟩ "SIDE_EFFECT_RETURNED" "no answer"]

theorem marked_outcome_completes : ∃ events : List Event, blank.stages = Table.empty ∧
    Inserts events ∧ (issued events).Nodup ∧ ¬ Lawful blank events "pay" := by
  refine ⟨marked ++ [⟨2, .stage (.markSucceeded "pay" ⟨1⟩ .null)⟩], rfl, ?_, by decide, ?_⟩
  · intro event member stage inserted
    rcases List.mem_append.mp member with early | last
    · refine calls_inserts ?_ event early stage inserted
      intro op listed stage inserted
      subst inserted
      simp only [List.mem_cons, StageOp.getOrCreate.injEq, reduceCtorEq, List.not_mem_nil,
        or_false] at listed
      exact listed ▸ payment_fresh
    · rw [List.mem_singleton.mp last] at inserted
      cases inserted
  · intro lawful
    obtain ⟨next, present, verdict⟩ := lawful.unknown marked _ _ (List.prefix_refl _)
      (by simp) rfl rfl
    rcases verdict with
      unknown | ⟨_, executionId, _, _, _, since, _, waits, answer, listed, returned⟩
    · cases present
      cases unknown
    · obtain ⟨before, event, _, _, split, _⟩ := waits
      have member : answer ∈ marked := by rw [split]; simp [listed]
      obtain ⟨op, called, rfl⟩ := List.mem_map.mp member
      cases returned
      simp at called

end Samples

end StageMachine

end AgentTaskPlatform
