import AgentTaskPlatform.Activities

/-!
The status machine of a run. Each call site of `update_if_current` replaces some
statuses and stores a status that depends on the one it replaces; every write
that a thread can issue obeys the machine of its site.
-/

namespace AgentTaskPlatform

open Interleaving CallbackService RunExecutor RunManager

namespace RunStatus

/-- A notified run takes its final status, any other keeps its own. -/
def settles (before after : RunStatus) : Prop :=
  if before = .agentSucceeded ∨ before = .waitingCallback then
    after = .succeeded ∨ after = .failed ∨ after = .timeout
  else after = before

def announces (before after : RunStatus) : Prop :=
  if before = .agentSucceeded ∨ before = .succeeded then after = .waitingCallback
  else after = before

end RunStatus

/-- The statuses a write of the site may replace, and what it stores for them. -/
def Site.moves : Site → RunStatus → RunStatus → Prop
  | .attemptStart attempt, before, after =>
      before ≠ .canceled ∧ after = if attempt = 1 then .running else .retrying
  | .agentSucceeded, before, after => before.executing = true ∧ after = .agentSucceeded
  | .attemptFailed attempt attempts error, before, after =>
      before.executing = true ∧ after = (classify attempt attempts error).1
  | .recovered, before, after => before.executing = true ∧ after = .succeeded
  | .backgroundFailure, before, after =>
      (before.executing = true ∨ before = .queued) ∧ after = .failed
  | .toolCall, _, after => after = .waitingTool
  | .currentStep, before, after => before ≠ .canceled ∧ after = before
  | .skipCallback, before, after => before.settles after
  | .delivered, before, after => before.settles after
  | .prepareCallback, before, after => before.announces after
  | .cancel, before, after => before.terminal = false ∧ after = .canceled
  | .recover, before, after =>
      (before = .created ∨ before = .queued ∨ before.executing = true) ∧ after = .queued
  | .reclaim, before, after => before.executing = true ∧ after = .queued
  | .finish, before, after => after = before
  | .release, before, after => after = before
  | .deadLetter, before, after => after = before
  | .exhausted, before, after => after = before

theorem skipped_settles (run : AgentRun) : run.status.settles (skipped run).status := by
  unfold RunStatus.settles skipped settledStatus
  simp only [Bool.or_eq_true, decide_eq_true_eq]
  split
  · split
    · exact Or.inr (Or.inr rfl)
    · split
      · exact Or.inr (Or.inl rfl)
      · exact Or.inl rfl
  · rfl

theorem settled_settles (run : AgentRun) (now : Nat) :
    run.status.settles (settled run now).status := by
  unfold RunStatus.settles settled settledStatus
  simp only [Bool.or_eq_true, decide_eq_true_eq]
  split
  · split
    · exact Or.inr (Or.inr rfl)
    · split
      · exact Or.inr (Or.inl rfl)
      · exact Or.inl rfl
  · rfl

theorem announced_announces (run : AgentRun) (eventId : Uuid) :
    run.status.announces (announced run eventId).status := by
  unfold RunStatus.announces announced
  simp only [Bool.or_eq_true, decide_eq_true_eq]
  split <;> rfl

section Updates

variable {site : Site} {expected : Expected} {row : AgentRun} {status : RunStatus}

theorem moves_single {run : AgentRun} (moves : site.moves run.status row.status)
    (member : status ∈ [run.status]) : site.moves status row.status := by
  rw [List.mem_singleton] at member
  rw [member]
  exact moves

theorem executing_member (member : status ∈ executingRunStatuses) : status.executing = true := by
  simpa [RunStatus.executing] using member

theorem execution_moves {process : Process} {worker : Option Process}
    {progress : ExecutionProtocol.Progress}
    (permitted : ExecutionProtocol.Permitted process worker progress
      (.run (.updateIfCurrent site expected row)))
    (member : status ∈ expected.statuses) : site.moves status row.status := by
  cases permitted with
  | attemptStart attempt now seen live _ _ => exact moves_single ⟨live, rfl⟩ member
  | agentSucceeded output now _ _ => exact ⟨executing_member member, rfl⟩
  | attemptFailed attempts timeout error _ _ => exact ⟨executing_member member, rfl⟩
  | recovered attempts timeout error result now _ => exact ⟨executing_member member, rfl⟩
  | finish now _ => exact moves_single rfl member
  | @skipCallback run _ _ => exact moves_single (skipped_settles run) member
  | release _ _ => exact moves_single rfl member
  | deadLetter reason _ _ => exact moves_single rfl member
  | backgroundFailure error _ _ _ =>
      refine ⟨?_, rfl⟩
      rcases List.mem_append.mp member with executing | queued
      · exact Or.inl (executing_member executing)
      · exact Or.inr (List.mem_singleton.mp queued)

theorem manager_moves {process : Process} {job : ManagerProtocol.Job}
    {progress : ManagerProtocol.Progress}
    (permitted : ManagerProtocol.Permitted process job progress
      (.run (.updateIfCurrent site expected row)))
    (member : status ∈ expected.statuses) : site.moves status row.status := by
  cases permitted with
  | cancel now _ _ live => exact moves_single ⟨live, rfl⟩ member
  | recover agent now _ _ _ recovers _ =>
      refine moves_single ⟨?_, rfl⟩ member
      simpa [recoverable, or_assoc] using recovers
  | reclaim now _ _ _ executing _ => exact moves_single ⟨executing, rfl⟩ member
  | @skipCallback run _ _ _ => exact moves_single (skipped_settles run) member
  | exhausted _ _ _ => exact moves_single rfl member

theorem stage_moves {index : Nat} {context : AgentContext} {stageKey : String}
    {progress : StageProtocol.Progress}
    (permitted : StageProtocol.Permitted index context stageKey progress
      (.run (.updateIfCurrent site expected row)))
    (member : status ∈ expected.statuses) : site.moves status row.status := by
  cases permitted with
  | currentStep _ live => exact moves_single ⟨live, rfl⟩ member

theorem update_moves {digest : Digest} {phase : Phase}
    (permitted : phase.permits digest (.run (.updateIfCurrent site expected row)))
    (member : status ∈ expected.statuses) : site.moves status row.status := by
  cases phase with
  | execution process worker progress => exact execution_moves permitted member
  | tool context progress =>
      cases permitted with
      | markWaiting tool _ => rfl
  | stage index context stageKey progress => exact stage_moves permitted member
  | checkpoint index context stageKey progress => exact stage_moves permitted member
  | manager process job progress => exact manager_moves permitted member

theorem callback_moves {digest : Digest} {phase : Phase} {delivery : CallbackDelivery}
    (permitted : phase.permits digest (.run (.updateRunWithCallback site expected row delivery)))
    (member : status ∈ expected.statuses) :
    site.moves status row.status ∧ (site = .prepareCallback ∨ site = .delivered) := by
  cases phase with
  | execution process worker progress =>
      cases permitted with
      | @prepareCallback run eventId existing url body now _ _ _ _ _ _ =>
          exact ⟨moves_single (announced_announces run eventId) member, Or.inl rfl⟩
  | tool context progress => cases permitted
  | stage index context stageKey progress => cases permitted
  | checkpoint index context stageKey progress => cases permitted
  | manager process job progress =>
      cases permitted with
      | @prepareCallback run eventId existing url body now _ _ _ _ _ _ =>
          exact ⟨moves_single (announced_announces run eventId) member, Or.inl rfl⟩
      | @delivered run delivery now attempt _ _ _ _ =>
          exact ⟨moves_single (settled_settles run now) member, Or.inr rfl⟩

/-- A `retry` requeues a run that it has seen failed or waiting for its callback. -/
theorem retry_requeues {digest : Digest} {phase : Phase}
    (permitted : phase.permits digest (.run (.retry row))) : row.status = .queued := by
  cases phase with
  | execution process worker progress => cases permitted
  | tool context progress => cases permitted
  | stage index context stageKey progress => cases permitted
  | checkpoint index context stageKey progress => cases permitted
  | manager process job progress =>
      cases permitted with
      | retry agent now _ _ _ => rfl

theorem retry_frees {digest : Digest} {phase : Phase}
    (permitted : phase.permits digest (.run (.retry row))) : row.worker = none := by
  cases phase with
  | manager process job progress =>
      cases permitted with
      | retry agent now _ _ _ => rfl
  | _ => cases permitted

theorem admitted_status {run : AgentRun} (admitted : expected.admits run = true) :
    run.status ∈ expected.statuses := by
  simp only [Expected.admits, Bool.and_eq_true, List.contains_iff_mem] at admitted
  exact admitted.1.1

end Updates

def Op.updates : Op → Site → Expected → Prop
  | .run (.updateIfCurrent site expected _), own, guard => own = site ∧ guard = expected
  | .run (.updateRunWithCallback site expected _ _), own, guard => own = site ∧ guard = expected
  | _, _, _ => False

def Op.stores : Op → Site → Expected → AgentRun → Prop
  | .run (.updateIfCurrent site expected row), own, guard, stored =>
      own = site ∧ guard = expected ∧ stored = row
  | .run (.updateRunWithCallback site expected row _), own, guard, stored =>
      own = site ∧ guard = expected ∧ stored = row
  | _, _, _, _ => False

theorem stores_run {op : Op} {oracle : op.Answer} {state : State} {site : Site}
    {expected : Expected} {row : AgentRun} (stores : op.stores site expected row)
    (admitted : expected.admits state.run = true) :
    (Op.perform op oracle state).2.run = row := by
  cases op with
  | run op =>
      cases op with
      | updateIfCurrent _ _ _ =>
          obtain ⟨rfl, rfl, rfl⟩ := stores
          simp [Op.perform, RunOp.perform, State.updateIfCurrent, admitted]
      | updateRunWithCallback _ _ _ _ =>
          obtain ⟨rfl, rfl, rfl⟩ := stores
          simp [Op.perform, RunOp.perform, admitted]
      | _ => exact stores.elim
  | _ => exact stores.elim

theorem stores_moves {digest : Digest} {phase : Phase} {op : Op} {site : Site}
    {expected : Expected} {row run : AgentRun} (permitted : phase.permits digest op)
    (stores : op.stores site expected row) (admitted : expected.admits run = true) :
    site.moves run.status row.status := by
  cases op with
  | run op =>
      cases op with
      | updateIfCurrent _ _ _ =>
          obtain ⟨rfl, rfl, rfl⟩ := stores
          exact update_moves permitted (admitted_status admitted)
      | updateRunWithCallback _ _ _ _ =>
          obtain ⟨rfl, rfl, rfl⟩ := stores
          exact (callback_moves permitted (admitted_status admitted)).1
      | _ => exact stores.elim
  | _ => exact stores.elim

theorem perform_run (op : Op) (oracle : op.Answer) (state : State) :
    (Op.perform op oracle state).2.run = state.run ∨
    (∃ site expected row, op.stores site expected row ∧ expected.admits state.run = true ∧
      (Op.perform op oracle state).2.run = row) ∨
    (∃ row, op = .run (.retry row) ∧ (Op.perform op oracle state).2.run = row) ∨
    (∃ loaded lease, op = .run (.renewUpdate loaded lease) ∧
      (Op.perform op oracle state).2.run = { state.run with leaseExpireTime := some lease }) := by
  cases op with
  | run op =>
      cases op with
      | updateIfCurrent site expected row =>
          by_cases hit : expected.admits state.run = true
          · refine Or.inr (Or.inl ⟨site, expected, row, ⟨rfl, rfl, rfl⟩, hit, ?_⟩)
            simp [Op.perform, RunOp.perform, State.updateIfCurrent, hit]
          · left
            simp [Op.perform, RunOp.perform, State.updateIfCurrent, hit]
      | updateRunWithCallback site expected row delivery =>
          by_cases hit : expected.admits state.run = true
          · refine Or.inr (Or.inl ⟨site, expected, row, ⟨rfl, rfl, rfl⟩, hit, ?_⟩)
            simp [Op.perform, RunOp.perform, hit]
          · left
            simp [Op.perform, RunOp.perform, hit]
      | retry row => exact Or.inr (Or.inr (Or.inl ⟨row, rfl, rfl⟩))
      | renewUpdate loaded lease =>
          by_cases same : loaded = some lease
          · exact Or.inl (by simp [Op.perform, RunOp.perform, same])
          · exact Or.inr (Or.inr (Or.inr ⟨loaded, lease, rfl, by
              simp [Op.perform, RunOp.perform, same]⟩))
      | _ => exact Or.inl rfl
  | _ => exact Or.inl (by simp [Op.perform])

theorem perform_moves {digest : Digest} {phase : Phase} {op : Op} (oracle : op.Answer)
    (state : State) (permitted : phase.permits digest op) :
    (Op.perform op oracle state).2.run.status = state.run.status ∨
    (∃ site expected, op.updates site expected ∧ expected.admits state.run = true ∧
      site.moves state.run.status (Op.perform op oracle state).2.run.status) ∨
    (∃ row, op = .run (.retry row) ∧ (Op.perform op oracle state).2.run.status = .queued) := by
  cases op with
  | run op =>
      cases op with
      | updateIfCurrent site expected row =>
          by_cases hit : expected.admits state.run = true
          · refine Or.inr (Or.inl ⟨site, expected, ⟨rfl, rfl⟩, hit, ?_⟩)
            simp only [Op.perform, RunOp.perform, State.updateIfCurrent, hit, if_true]
            exact update_moves permitted (admitted_status hit)
          · left
            simp [Op.perform, RunOp.perform, State.updateIfCurrent, hit]
      | updateRunWithCallback site expected row delivery =>
          by_cases hit : expected.admits state.run = true
          · refine Or.inr (Or.inl ⟨site, expected, ⟨rfl, rfl⟩, hit, ?_⟩)
            simp only [Op.perform, RunOp.perform, hit, if_true]
            exact (callback_moves permitted (admitted_status hit)).1
          · left
            simp [Op.perform, RunOp.perform, hit]
      | retry row => exact Or.inr (Or.inr ⟨row, rfl, retry_requeues permitted⟩)
      | _ => exact Or.inl rfl
  | _ => exact Or.inl (by simp [Op.perform])

/-- A claim takes a queued or executing run; no other entry writes the row. -/
theorem launch_moves {deployment : Deployment} {admitted : Entry → Bool}
    {config : PlatformConfig} {entry : Entry} {state : State} {spawned : Option Activity}
    (launched : (platformSystem deployment admitted).launch entry config = some (state, spawned)) :
    state.run = config.state.run ∨
    ∃ process leaseSeconds, entry = .dispatchReady process leaseSeconds ∧
      (config.state.run.status = .queued ∨ config.state.run.status.executing = true) ∧
      state.run = claimedRun config.state.run process config.state.clock leaseSeconds := by
  have effect := launch_effect launched
  cases entry with
  | dispatchReady process leaseSeconds =>
      right
      have ready := (launch_claim launched).2.1
      simp only [claimable, Bool.or_eq_true, Bool.and_eq_true, decide_eq_true_eq] at ready
      exact ⟨process, leaseSeconds, rfl, ready.imp And.left And.left, by rw [effect]; rfl⟩
  | shutdown process =>
      left
      rw [effect]
      simp only [Entry.effect, State.shutdown]
      split <;> rfl
  | _ =>
      left
      rw [effect]
      rfl

end AgentTaskPlatform
