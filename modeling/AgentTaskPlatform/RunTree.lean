import AgentTaskPlatform.StatusMachine
import AgentTaskPlatform.Transitions
import AgentTaskPlatform.Worklist

/-!
The runs of a process with their parents: `submit` enters a child in
`_child_runs_by_parent`, and `cancel` walks down that table. A call of `cancel` holds no
lock between its operations, so other threads and processes submit, execute and cancel
between any two of them. The statuses of a row move as the writers of a single run move
them.
-/

namespace AgentTaskPlatform

open KeyedTable RunExecutor

namespace RunStatus

/-- The statuses that a writer of the row can store over a status. -/
def shifts (before : RunStatus) : RunStatus → Bool
  | .created => before = .created
  | .queued | .waitingTool => true
  | .running | .retrying => before != .canceled
  | .agentSucceeded => before.executing || before = .agentSucceeded
  | .waitingCallback => before = .agentSucceeded || before = .succeeded || before = .waitingCallback
  | .succeeded => before.executing || before = .agentSucceeded || before = .waitingCallback ||
      before = .succeeded
  | .failed => before.executing || before = .queued || before = .agentSucceeded ||
      before = .waitingCallback || before = .failed
  | .timeout => before.executing || before = .agentSucceeded || before = .waitingCallback ||
      before = .timeout
  | .canceled => !before.terminal || before = .canceled

theorem shifts_self (status : RunStatus) : status.shifts status = true := by
  cases status <;> rfl

theorem shifts_settles {before after : RunStatus} (moves : before.settles after) :
    before.shifts after = true := by
  unfold settles at moves
  split at moves
  · next notified =>
      rcases notified with rfl | rfl <;> rcases moves with rfl | rfl | rfl <;> rfl
  · rw [moves]
    exact shifts_self before

end RunStatus

/-- What a call site stores is what a row can shift to. -/
theorem Site.moves_shifts {site : Site} {before after : RunStatus}
    (moves : site.moves before after) : before.shifts after = true := by
  cases site with
  | attemptStart attempt =>
      obtain ⟨live, rfl⟩ := moves
      split <;> simpa [RunStatus.shifts] using live
  | agentSucceeded =>
      obtain ⟨executing, rfl⟩ := moves
      simp [RunStatus.shifts, executing]
  | attemptFailed attempt attempts error =>
      obtain ⟨executing, rfl⟩ := moves
      rcases classify_status attempt attempts error with same | same | same
      · rw [same]
        cases before <;> first | rfl | cases executing
      · simp [same, RunStatus.shifts, executing]
      · simp [same, RunStatus.shifts, executing]
  | recovered =>
      obtain ⟨executing, rfl⟩ := moves
      simp [RunStatus.shifts, executing]
  | backgroundFailure =>
      obtain ⟨live, rfl⟩ := moves
      rcases live with executing | rfl
      · simp [RunStatus.shifts, executing]
      · rfl
  | toolCall =>
      cases moves
      rfl
  | currentStep =>
      obtain ⟨_, rfl⟩ := moves
      exact RunStatus.shifts_self _
  | skipCallback => exact RunStatus.shifts_settles moves
  | delivered => exact RunStatus.shifts_settles moves
  | prepareCallback =>
      simp only [Site.moves, RunStatus.announces] at moves
      split at moves
      · next announced => rcases announced with rfl | rfl <;> rw [moves] <;> rfl
      · rw [moves]
        exact RunStatus.shifts_self _
  | cancel =>
      obtain ⟨live, rfl⟩ := moves
      simp [RunStatus.shifts, live]
  | recover =>
      obtain ⟨_, rfl⟩ := moves
      rfl
  | reclaim =>
      obtain ⟨_, rfl⟩ := moves
      rfl
  | finish =>
      cases moves
      exact RunStatus.shifts_self _
  | release =>
      cases moves
      exact RunStatus.shifts_self _
  | deadLetter =>
      cases moves
      exact RunStatus.shifts_self _
  | exhausted =>
      cases moves
      exact RunStatus.shifts_self _

theorem performed_shifts {digest : Digest} {phase : Phase} {op : Op} (oracle : op.Answer)
    (state : State) (permitted : phase.permits digest op) :
    state.run.status.shifts (Op.perform op oracle state).2.run.status = true := by
  rcases perform_moves oracle state permitted with same | ⟨site, expected, _, _, moves⟩ | retried
  · rw [same]
    exact RunStatus.shifts_self _
  · exact Site.moves_shifts moves
  · obtain ⟨row, _, queued⟩ := retried
    rw [queued]
    rfl

theorem launched_shifts {deployment : Deployment} {admitted : Entry → Bool}
    {config : PlatformConfig} {entry : Entry} {state : State} {spawned : Option Activity}
    (launched : (platformSystem deployment admitted).launch entry config = some (state, spawned)) :
    config.state.run.status.shifts state.run.status = true := by
  rcases launch_moves launched with same | ⟨process, lease, _, ready, claimed⟩
  · rw [same]
    exact RunStatus.shifts_self _
  · rw [claimed]
    have running : (claimedRun config.state.run process config.state.clock lease).status =
        .running := rfl
    rw [running]
    rcases ready with queued | executing
    · rw [queued]
      rfl
    · cases status : config.state.run.status <;> first | rfl | (rw [status] at executing; cases executing)

namespace RunTree

open Relation

structure Node where
  runId : String
  parentRunId : Option String
  status : RunStatus

/-- Where a call of `cancel` is; `outer` marks its own run, whose exceptions nobody
swallows. -/
inductive Phase where
  | reading (runId : String) (rounds : Nat) (outer : Bool)
  | swapping (runId : String) (rounds : Nat) (previous : RunStatus) (outer : Bool)
  /-- The row is CANCELED; the event and the children come next. -/
  | spreading (runId : String)
  | logging
  /-- With the status of the run that `cancel` returns. -/
  | returned (status : RunStatus)
  | raised
  deriving DecidableEq

structure CancelCall where
  root : String
  phase : Phase
  /-- The children that the loops of the calls on the stack have still to visit. -/
  todo : List String := []

namespace CancelCall

def next (call : CancelCall) : CancelCall :=
  match call.todo with
  | [] => { call with phase := .logging }
  | runId :: rest => { call with phase := .reading runId 10 false, todo := rest }

def throw (call : CancelCall) (outer : Bool) : CancelCall :=
  if outer then { call with phase := .raised } else call.next

end CancelCall

structure Manager where
  runs : Table Node String Node.runId := Table.empty
  /-- `_child_runs_by_parent` -/
  children : String → List String := fun _ => []
  /-- `_cancellation_events`, set or not. -/
  events : String → Option Bool := fun _ => none
  cancels : List CancelCall := []

inductive Action where
  /-- `run_service.submit` stores a new row. -/
  | create (runId : String) (parent : Option String) (status : RunStatus)
  /-- `submit` enters the run under its parent. -/
  | enter (runId : String)
  /-- A writer of the row stores a status. -/
  | write (runId : String) (after : RunStatus)
  /-- `execute` adds its event, and removes it. -/
  | listen (runId : String)
  | unlisten (runId : String)
  | cancel (runId : String)
  | read (index : Nat)
  | swap (index : Nat)
  /-- The children in the order of the set. -/
  | spread (index : Nat) (order : List String)
  | fail (index : Nat)
  | log (index : Nat)

namespace Manager

def status (manager : Manager) (runId : String) : Option RunStatus :=
  (manager.runs.find runId).map Node.status

def store (manager : Manager) (runId : String) (parent : Option String) (status : RunStatus) :
    Manager :=
  { manager with runs := manager.runs.upsert ⟨runId, parent, status⟩ }

def setCall (manager : Manager) (index : Nat) (call : CancelCall) : Manager :=
  { manager with cancels := manager.cancels.set index call }

def setEvent (manager : Manager) (runId : String) : Manager :=
  match manager.events runId with
  | none => manager
  | some _ => { manager with events := Function.update manager.events runId (some true) }

def readRun (manager : Manager) (call : CancelCall) (runId : String) (outer : Bool) :
    Nat → CancelCall
  | 0 => call.throw outer
  | rounds + 1 =>
      match manager.status runId with
      | none => call.throw outer
      | some status =>
          if status.terminal then
            if outer then { call with phase := .returned status } else call.next
          else { call with phase := .swapping runId rounds status outer }

def step (manager : Manager) : Action → Option Manager
  | .create runId parent status =>
      match manager.runs.find runId with
      | some _ => none
      | none =>
          if status = .queued ∨ status = .failed then some (manager.store runId parent status)
          else none
  | .enter runId =>
      match manager.runs.find runId with
      | none => none
      | some node =>
          match node.parentRunId with
          | none => none
          | some parent =>
              some { manager with
                children := Function.update manager.children parent
                  ((manager.children parent).insert runId) }
  | .write runId after =>
      match manager.runs.find runId with
      | none => none
      | some node =>
          if node.status.shifts after then some (manager.store runId node.parentRunId after)
          else none
  | .listen runId =>
      some { manager with events := Function.update manager.events runId (some false) }
  | .unlisten runId => some { manager with events := Function.update manager.events runId none }
  | .cancel runId =>
      some { manager with cancels := manager.cancels ++ [⟨runId, .reading runId 10 true, []⟩] }
  | .read index =>
      match manager.cancels[index]? with
      | some ⟨root, .reading runId rounds outer, todo⟩ =>
          some (manager.setCall index
            (manager.readRun ⟨root, .reading runId rounds outer, todo⟩ runId outer rounds))
      | _ => none
  | .swap index =>
      match manager.cancels[index]? with
      | some ⟨root, .swapping runId rounds previous outer, todo⟩ =>
          match manager.runs.find runId with
          | some node =>
              if node.status = previous then
                some ((manager.store runId node.parentRunId .canceled).setCall index
                  ⟨root, .spreading runId, todo⟩)
              else some (manager.setCall index ⟨root, .reading runId rounds outer, todo⟩)
          | none => some (manager.setCall index ⟨root, .reading runId rounds outer, todo⟩)
      | _ => none
  | .spread index order =>
      match manager.cancels[index]? with
      | some ⟨root, .spreading runId, todo⟩ =>
          if order.isPerm (manager.children runId) then
            some ((manager.setEvent runId).setCall index
              (CancelCall.next ⟨root, .spreading runId, order ++ todo⟩))
          else none
      | _ => none
  | .fail index =>
      match manager.cancels[index]? with
      | some ⟨root, .reading runId rounds outer, todo⟩ =>
          some (manager.setCall index
            (CancelCall.throw ⟨root, .reading runId rounds outer, todo⟩ outer))
      | some ⟨root, .swapping runId rounds previous outer, todo⟩ =>
          some (manager.setCall index
            (CancelCall.throw ⟨root, .swapping runId rounds previous outer, todo⟩ outer))
      | some ⟨root, .logging, todo⟩ => some (manager.setCall index ⟨root, .raised, todo⟩)
      | _ => none
  | .log index =>
      match manager.cancels[index]? with
      | some ⟨root, .logging, todo⟩ => some (manager.setCall index ⟨root, .returned .canceled, todo⟩)
      | _ => none

def edge (manager : Manager) (parent child : String) : Prop := child ∈ manager.children parent

def AtOrBelow (manager : Manager) (top runId : String) : Prop := ReflTransGen manager.edge top runId

end Manager

end RunTree

end AgentTaskPlatform
