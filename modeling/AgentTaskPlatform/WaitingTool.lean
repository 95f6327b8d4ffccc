import AgentTaskPlatform.StatusMachine

/-!
`WAITING_TOOL` over one agent execution. The execution is suspended in its agent while
tool calls, stages and checkpoints of the run start, interleave and end in any way. The
entries that would end the execution or take the run away from it are left out.
-/

namespace AgentTaskPlatform.WaitingTool

open Interleaving

def aside : Entry → Bool
  | .dispatchReady _ _ => false
  | .runBackground _ => false
  | .runNow _ => false
  | .cancel _ => false
  | .retry _ => false
  | .recoverIncomplete _ => false
  | .reclaimExpiredLeases _ => false
  | _ => true

def Admits (thread : Nat) : PlatformEvent → Prop
  | .acted own _ (.run (.updateIfCurrent .toolCall _ _)) stored _ _ => own = thread ∧ stored = true
  | _ => False

def Admitted (past : List PlatformEvent) (thread : Nat) : Prop :=
  ∃ event ∈ past, Admits thread event

def Underway (past : List PlatformEvent) (config : PlatformConfig) (thread : Nat) : Prop :=
  Admitted past thread ∧
    ∃ call, config.threads[thread]? = some call ∧ call.program.finished = false

/-- The stored status tells whether tool calls are under way, and without them it is the
status the execution entered with. -/
structure Governed (entered : RunStatus) (past : List PlatformEvent) (config : PlatformConfig) :
    Prop where
  waiting : config.state.run.status = .waitingTool ↔ ∃ thread, Underway past config thread
  restored : (¬ ∃ thread, Underway past config thread) → config.state.run.status = entered

section Steps

/-- The threads of such entries: tool calls, stages, checkpoints, and the jobs of the
manager that do not move an executing run. -/
def beside : Phase → Bool
  | .execution _ _ _ => false
  | .manager _ .cancel _ => false
  | .manager _ .retry _ => false
  | .manager _ .recover _ => false
  | .manager _ .reclaim _ => false
  | _ => true

theorem beside_after {phase : Phase} (op : Op) (answer : op.Answer) :
    beside (phase.after op answer) = beside phase := by
  cases phase with
  | manager process job progress => cases job <;> rfl
  | _ => rfl

theorem aside_beside {entry : Entry} {state : State} {phase : Phase} (admitted : aside entry = true)
    (started : entry.phase state = some phase) : beside phase = true := by
  cases entry with
  | renewal process =>
      obtain ⟨_, _, rfl⟩ := Option.map_eq_some_iff.mp started
      rfl
  | dispatchDelivery index =>
      obtain ⟨_, _, rfl⟩ := Option.map_eq_some_iff.mp started
      rfl
  | toolCall index toolName input idempotencyKey =>
      obtain ⟨_, _, rfl⟩ := Option.map_eq_some_iff.mp started
      rfl
  | runStage index stageKey stageInput definitionVersion maxAttempts idempotencyKey =>
      obtain ⟨_, _, rfl⟩ := Option.map_eq_some_iff.mp started
      rfl
  | saveCheckpoint index stageKey executionId checkpoint =>
      obtain ⟨_, _, rfl⟩ := Option.map_eq_some_iff.mp started
      rfl
  | resendCallback process =>
      cases started
      rfl
  | prepareForRun process =>
      cases started
      rfl
  | tick elapsed => cases started
  | shutdown process => cases started
  | dispatchPending process workerId leaseSeconds => cases started
  | prune eventIds => cases started
  | _ => cases admitted

variable {digest : Digest} {phase : Phase} {op : Op} {site : Site} {expected : Expected}
  {row : AgentRun} {state : State}

theorem settles_executing {before after : RunStatus} (settles : before.settles after)
    (executing : before.executing = true) : after = before := by
  unfold RunStatus.settles at settles
  rw [if_neg] at settles
  · exact settles
  · rintro (same | same) <;> rw [same] at executing <;> cases executing

theorem announces_executing {before after : RunStatus} (announces : before.announces after)
    (executing : before.executing = true) : after = before := by
  unfold RunStatus.announces at announces
  rw [if_neg] at announces
  · exact announces
  · rintro (same | same) <;> rw [same] at executing <;> cases executing

theorem beside_sites (calm : beside phase = true) (permitted : phase.permits digest op)
    (updates : op.updates site expected) :
    site = .toolCall ∨ site = .currentStep ∨ site = .skipCallback ∨ site = .prepareCallback ∨
      site = .delivered ∨ site = .exhausted := by
  cases phase with
  | execution process worker progress => cases calm
  | tool context progress =>
      cases permitted with
      | markWaiting tool _ => exact Or.inl updates.1
      | _ => exact updates.elim
  | stage index context stageKey progress =>
      cases permitted with
      | currentStep _ _ => exact Or.inr (Or.inl updates.1)
      | _ => exact updates.elim
  | checkpoint index context stageKey progress =>
      cases permitted with
      | currentStep _ _ => exact Or.inr (Or.inl updates.1)
      | _ => exact updates.elim
  | manager process job progress =>
      cases permitted with
      | cancel now same _ _ =>
          subst same
          cases calm
      | recover agent now same _ _ _ _ =>
          subst same
          cases calm
      | reclaim now same _ _ _ _ =>
          subst same
          cases calm
      | skipCallback _ _ _ => simp [updates.1]
      | prepareCallback url body now _ _ _ _ _ _ => simp [updates.1]
      | delivered now attempt _ _ _ _ => simp [updates.1]
      | exhausted _ _ _ => simp [updates.1]
      | _ => exact updates.elim

theorem sites_keep {before after : RunStatus} (moves : site.moves before after)
    (executing : before.executing = true) (marked : site ≠ .toolCall)
    (sites : site = .toolCall ∨ site = .currentStep ∨ site = .skipCallback ∨
      site = .prepareCallback ∨ site = .delivered ∨ site = .exhausted) : after = before := by
  rcases sites with rfl | rfl | rfl | rfl | rfl | rfl
  · exact absurd rfl marked
  · exact moves.2
  · exact settles_executing moves executing
  · exact announces_executing moves executing
  · exact settles_executing moves executing
  · exact moves

theorem toolCall_mark {run : AgentRun} (permitted : phase.permits digest op)
    (updates : op.updates .toolCall expected) (hit : expected.admits run = true) :
    ∃ row, op = .run (.updateIfCurrent .toolCall expected row) := by
  cases op with
  | run op =>
      cases op with
      | updateIfCurrent own guard row =>
          obtain ⟨rfl, rfl⟩ := updates
          exact ⟨row, rfl⟩
      | updateRunWithCallback own guard row delivery =>
          obtain ⟨rfl, rfl⟩ := updates
          rcases (callback_moves permitted (admitted_status hit)).2 with same | same <;> cases same
      | _ => exact updates.elim
  | _ => exact updates.elim

theorem beside_retry (calm : beside phase = true) :
    ¬ phase.permits digest (.run (.retry row)) := by
  intro permitted
  cases phase with
  | execution process worker progress => cases calm
  | manager process job progress =>
      cases permitted with
      | retry agent now same _ _ =>
          subst same
          cases calm
  | _ => cases permitted

theorem unmarked_keeps {oracle : op.Answer} (calm : beside phase = true)
    (permitted : phase.permits digest op) (executing : state.run.status.executing = true)
    (unmarked : ¬ ∃ expected row, op = .run (.updateIfCurrent .toolCall expected row)) :
    (Op.perform op oracle state).2.run.status = state.run.status := by
  rcases perform_moves oracle state permitted with same | ⟨site, expected, updates, hit, moves⟩ |
    ⟨row, rfl, _⟩
  · exact same
  · apply sites_keep moves executing
    · rintro rfl
      obtain ⟨row, same⟩ := toolCall_mark permitted updates hit
      exact unmarked ⟨expected, row, same⟩
    · exact beside_sites calm permitted updates
  · exact absurd permitted (beside_retry calm)

end Steps

section Runs

variable {deployment : Deployment} {past : List PlatformEvent} {state : State} {thread : Nat}
  {op : Op} {phase : Phase}

theorem performed_status (admitted : Entry → Bool) (thread : Nat) (tag : Tag) (oracle : op.Answer)
    (calm : beside phase = true) (permitted : phase.permits deployment.digest op)
    (executing : state.run.status.executing = true) :
    (Admits thread ((platformSystem deployment admitted).performed thread tag op oracle state) ∧
      (Op.perform op oracle state).2.run.status = .waitingTool) ∨
    ((∀ index, ¬ Admits index
        ((platformSystem deployment admitted).performed thread tag op oracle state)) ∧
      (Op.perform op oracle state).2.run.status = state.run.status) := by
  -- The mark is the only write of these threads that moves an executing status.
  by_cases mark : ∃ expected row, op = .run (.updateIfCurrent .toolCall expected row)
  · obtain ⟨expected, row, rfl⟩ := mark
    by_cases hit : expected.admits state.run = true
    · left
      have moved := update_moves permitted (admitted_status hit)
      refine ⟨⟨rfl, ?_⟩, ?_⟩
      · simp [platformSystem, Op.perform, RunOp.perform, State.updateIfCurrent, hit]
      · simpa [Op.perform, RunOp.perform, State.updateIfCurrent, hit, Site.moves] using moved
    · -- Another worker or a cancellation took the run; the call is refused.
      right
      refine ⟨?_, ?_⟩
      · rintro index ⟨_, stored⟩
        simp [platformSystem, Op.perform, RunOp.perform, State.updateIfCurrent, hit] at stored
      · simp [Op.perform, RunOp.perform, State.updateIfCurrent, hit]
  · right
    refine ⟨?_, ?_⟩
    · intro index admits
      unfold Admits System.performed at admits
      split at admits
      · next same =>
          cases same
          exact mark ⟨_, _, rfl⟩
      · exact admits
    · exact unmarked_keeps calm permitted executing mark

/-- Since the first mark the status is `WAITING_TOOL`; before it nothing has changed it. -/
structure Inv (entered : RunStatus) (past : List PlatformEvent) (state : State)
    (phases : List Phase) : Prop where
  calm : ∀ phase ∈ phases, beside phase = true
  marked : (∃ thread, Admitted past thread) → state.run.status = .waitingTool
  unmarked : (¬ ∃ thread, Admitted past thread) → state.run.status = entered

theorem Inv.executing {entered : RunStatus} {phases : List Phase}
    (inv : Inv entered past state phases) (start : entered.executing = true) :
    state.run.status.executing = true := by
  by_cases some : ∃ thread, Admitted past thread
  · rw [inv.marked some]
    rfl
  · rw [inv.unmarked some]
    exact start

theorem admitted_snoc {event : PlatformEvent} :
    Admitted (past ++ [event]) thread ↔ Admitted past thread ∨ Admits thread event := by
  simp only [Admitted, List.mem_append, List.mem_singleton, or_and_right, exists_or,
    exists_eq_left]

theorem Inv.kept {entered : RunStatus} {phases later : List Phase} {event : PlatformEvent}
    {after : State} (inv : Inv entered past state phases)
    (calm : ∀ phase ∈ later, beside phase = true)
    (silent : ∀ index, ¬ Admits index event) (same : after.run.status = state.run.status) :
    Inv entered (past ++ [event]) after later := by
  have known : (∃ thread, Admitted (past ++ [event]) thread) ↔ ∃ thread, Admitted past thread := by
    simp only [admitted_snoc, silent, or_false]
  refine ⟨calm, ?_, ?_⟩
  · intro some
    rw [same]
    exact inv.marked (known.mp some)
  · intro none
    rw [same]
    exact inv.unmarked fun some => none (known.mpr some)

theorem inv_inductive {entered : RunStatus} (start : entered.executing = true) :
    (discipline deployment aside).Inductive (fun _ _ => True)
      (Inv entered) where
  acts past state phases thread tag op oracle phase inv present belongs permitted _ := by
    -- A thread keeps its phase of the kind it was started with.
    have calm : beside phase = true := inv.calm phase (List.mem_of_getElem? present)
    have later : ∀ other ∈ (discipline deployment aside).observe phases
        ((platformSystem deployment aside).performed thread tag op oracle state),
        beside other = true := by
      intro other member
      obtain ⟨index, found⟩ := List.mem_iff_getElem?.mp member
      rcases observe_phase present found with ⟨_, same⟩ | ⟨_, kept⟩
      · rw [same, beside_after]
        exact calm
      · exact inv.calm other (List.mem_of_getElem? kept)
    rcases performed_status aside thread tag oracle calm permitted (inv.executing start) with
      ⟨admits, waits⟩ | ⟨silent, same⟩
    · refine ⟨later, fun _ => waits, ?_⟩
      intro none
      exact absurd ⟨thread, admitted_snoc.mpr (Or.inr admits)⟩ none
    · -- Neither an operation nor the end of a call puts the earlier status back.
      exact inv.kept later silent same
  launches past config phases entry state spawned tracked inv launched _ := by
    obtain ⟨allowed, _⟩ := launch_start launched
    rw [observe_launch phases launched]
    apply inv.kept
    · intro phase member
      rcases List.mem_append.mp member with old | new
      · exact inv.calm phase old
      · exact aside_beside allowed (Option.mem_toList.mp new)
    · intro index admits
      exact admits
    · rcases launch_moves launched with same | ⟨process, leaseSeconds, rfl, _⟩
      · rw [same]
      · cases allowed

end Runs

/-- In every state that an execution reaches, its status tells of the tool calls under way
exactly if no call has been admitted yet or an admitted one has not ended. -/
theorem waiting_governed_iff {deployment : Deployment} {state : State} {events : List PlatformEvent}
    {final : PlatformConfig}
    (entered : state.run.status = .running ∨ state.run.status = .retrying)
    (run : (platformSystem deployment aside).Run (atRest state) events final) :
    Governed state.run.status events final ↔
      ((∃ thread, Admitted events thread) → ∃ thread, Underway events final thread) := by
  have start : state.run.status.executing = true := by
    rcases entered with same | same <;> rw [same] <;> rfl
  have nothing : Inv state.run.status [] state [] := by
    refine ⟨fun _ member => absurd member List.not_mem_nil, ?_, fun _ => rfl⟩
    rintro ⟨thread, event, member, _⟩
    cases member
  -- No entry lets the execution itself move, so the whole run is of threads beside it.
  have preserved : (discipline deployment aside).Inductive (fun _ _ => True)
      (Inv state.run.status) := inv_inductive start
  have inv := preserved.run run rfl (fun _ _ _ _ => trivial) nothing
  constructor
  · intro governed some
    exact governed.waiting.mp (inv.marked some)
  · intro open_
    by_cases some : ∃ thread, Admitted events thread
    · refine ⟨⟨fun _ => open_ some, fun _ => inv.marked some⟩, ?_⟩
      intro none
      exact absurd (open_ some) none
    · have untouched := inv.unmarked some
      refine ⟨⟨?_, ?_⟩, fun _ => untouched⟩
      · intro waits
        rw [untouched] at waits
        rcases entered with same | same <;> rw [same] at waits <;> cases waits
      · rintro ⟨thread, admitted, _⟩
        exact absurd ⟨thread, admitted⟩ some

def executingState : State :=
  let run := { sampleRun with status := .running, worker := some "worker-a" }
  { State.initial run 0 none with
    contexts := [⟨"worker-a", run, sampleAgent, none, []⟩] }

def lookup (operations : Nat) : List (Move platform Entry) :=
  [.launch (.toolCall 0 "lookup" (.object []) none)] ++ steps operations 0 calm

def marks (thread : Nat) : PlatformEvent → Bool
  | .acted own _ (.run (.updateIfCurrent .toolCall _ _)) stored _ _ => own == thread && stored
  | _ => false

theorem marks_admits {thread : Nat} {event : PlatformEvent} (marked : marks thread event = true) :
    Admits thread event := by
  unfold marks at marked
  split at marked
  · simpa [Admits] using marked
  · cases marked

theorem lookup_marked : ((platformSystem sampleDeployment aside).replay (atRest executingState)
    (lookup 6)).any (fun outcome => outcome.1.any (marks 0) &&
      (outcome.2.threads[0]?).any fun call => !call.program.finished) = true := rfl

/-- While its only call is admitted and has not ended, the status of the sample run tells so. -/
theorem waiting_governed_lookup : ∃ events final,
    (platformSystem sampleDeployment aside).Run (atRest executingState) events final ∧
      (∃ thread, Admitted events thread) ∧
      Governed executingState.run.status events final := by
  obtain ⟨events, final, run, checked⟩ := System.replay_checked lookup_marked
  simp only [Bool.and_eq_true, List.any_eq_true, Option.any_eq_true, Bool.not_eq_true'] at checked
  obtain ⟨⟨event, member, marked⟩, call, found, unfinished⟩ := checked
  have admitted : Admitted events 0 := ⟨event, member, marks_admits marked⟩
  refine ⟨events, final, run, ⟨0, admitted⟩, (waiting_governed_iff (Or.inl rfl) run).mpr ?_⟩
  intro _
  exact ⟨0, admitted, call, found, unfinished⟩

theorem lookup_replays : ((platformSystem sampleDeployment aside).replay (atRest executingState)
    (lookup 13)).any (fun outcome => outcome.2.state.run.status = .waitingTool &&
      outcome.2.threads.all fun call => call.program.finished) = true := rfl

/-- The only call has ended, and the run that its agent executes still waits for a tool. -/
theorem returned_call_waits : ∃ events final,
    (platformSystem sampleDeployment aside).Run (atRest executingState) events final ∧
      executingState.run.status = .running ∧ final.state.run.status = .waitingTool ∧
      (∀ call ∈ final.threads, call.program.finished = true) ∧
      ¬ Governed executingState.run.status events final := by
  obtain ⟨events, final, run, checked⟩ := System.replay_checked lookup_replays
  simp only [Bool.and_eq_true, List.all_eq_true, decide_eq_true_eq] at checked
  obtain ⟨waits, ended⟩ := checked
  refine ⟨events, final, run, rfl, waits, ended, ?_⟩
  intro governed
  obtain ⟨thread, _, call, found, open_⟩ := governed.waiting.mp waits
  rw [ended call (List.mem_of_getElem? found)] at open_
  cases open_

end AgentTaskPlatform.WaitingTool
