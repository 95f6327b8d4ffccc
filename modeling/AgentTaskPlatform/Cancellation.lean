import AgentTaskPlatform.StatusMachine

/-!
Cancellation. Every conditional update but one names the statuses it replaces
and spares a CANCELED row. The exception is the `WAITING_TOOL` write of a tool
call: it expects the status it has just read, whatever that is, and its worker
guard says nothing for an execution without a lease.
-/

namespace AgentTaskPlatform.Cancellation

open Interleaving

theorem moves_canceled {site : Site} {after : RunStatus} (moves : site.moves .canceled after) :
    if site = .toolCall then after = .waitingTool else after = .canceled := by
  cases site <;>
    simp_all [Site.moves, RunStatus.executing, executingRunStatuses, RunStatus.terminal,
      terminalRunStatuses, RunStatus.settles, RunStatus.announces]

/-- A write that takes a run out of CANCELED: the `WAITING_TOOL` update of a tool
call that is admitted on a CANCELED row, or the commit of a `retry` over one. -/
def Revives : PlatformEvent → Prop
  | .acted _ _ (.run (.updateIfCurrent .toolCall expected _)) _ before _ =>
      before.run.status = .canceled ∧ expected.admits before.run = true
  | .acted _ _ (.run (.retry _)) _ before _ => before.run.status = .canceled
  | _ => False

theorem revives_canceled {event : PlatformEvent} (revived : Revives event) :
    event.before.run.status = .canceled := by
  unfold Revives at revived
  split at revived
  · exact revived.1
  · exact revived
  · exact revived.elim

section Steps

variable {deployment : Deployment} {admitted : Entry → Bool}

theorem performed_canceled_iff {phase : Phase} {op : Op} {thread : Nat} {tag : Tag}
    {oracle : op.Answer} {state : State} (permitted : phase.permits deployment.digest op)
    (canceled : state.run.status = .canceled) :
    (Op.perform op oracle state).2.run.status = .canceled ↔
      ¬ Revives ((platformSystem deployment admitted).performed thread tag op oracle state) := by
  cases op with
  | run op =>
      cases op with
      | updateIfCurrent site expected row =>
          simp only [Op.perform, RunOp.perform, State.updateIfCurrent, System.performed]
          by_cases hit : expected.admits state.run = true
          · have moved := moves_canceled
              (update_moves permitted (canceled ▸ admitted_status hit))
            simp only [hit, if_true]
            by_cases call : site = .toolCall
            · subst call
              simp only [if_true] at moved
              simp [Revives, canceled, hit, moved]
            · simp only [call, if_false] at moved
              cases site <;> simp_all [Revives]
          · simp only [hit]
            cases site <;> simp [Revives, hit, canceled]
      | updateRunWithCallback site expected row delivery =>
          simp only [Op.perform, RunOp.perform, System.performed, Revives, not_false_eq_true,
            iff_true]
          split
          · next hit =>
              obtain ⟨moves, sites⟩ := callback_moves permitted (canceled ▸ admitted_status hit)
              have moved := moves_canceled moves
              rcases sites with same | same <;> simpa [same] using moved
          · exact canceled
      | retry row =>
          have queued := retry_requeues permitted
          simp [Op.perform, RunOp.perform, System.performed, Revives, canceled, queued]
      | _ => simp [Op.perform, RunOp.perform, canceled, Revives, System.performed]
  | _ => simp [Op.perform, canceled, Revives, System.performed]

theorem launched_canceled {config : PlatformConfig} {entry : Entry} {state : State}
    {spawned : Option Activity}
    (launched : (platformSystem deployment admitted).launch entry config = some (state, spawned))
    (canceled : config.state.run.status = .canceled) : state.run.status = .canceled := by
  rcases launch_moves launched with same | ⟨process, leaseSeconds, _, ready, _⟩
  · rw [same]
    exact canceled
  · rw [canceled] at ready
    simp [RunStatus.executing, executingRunStatuses] at ready

end Steps

def Absorbing (events : List PlatformEvent) : Prop :=
  ∀ event ∈ events, event.before.run.status = .canceled → event.after.run.status = .canceled

/-- CANCELED is absorbing in exactly the runs in which no tool call is admitted
on a CANCELED row and no `retry` commits over one. -/
theorem canceled_absorbing_iff {deployment : Deployment} {state : State}
    {events : List PlatformEvent} {final : PlatformConfig}
    (run : (platformSystem deployment fun _ => true).Run (atRest state) events final) :
    Absorbing events ↔ ∀ event ∈ events, ¬ Revives event := by
  unfold Absorbing
  apply forall₂_congr
  intro event member
  rcases Discipline.run_event (D := discipline deployment fun _ => true) run rfl member with
    ⟨thread, tag, op, oracle, before, phase, rfl, _, permitted⟩ |
    ⟨entry, config, after, spawned, launched, rfl⟩
  · by_cases canceled : before.run.status = .canceled
    · have same : (Op.perform op oracle before).2.run.status = .canceled ↔ ¬ Revives
          ((platformSystem deployment fun _ => true).performed thread tag op oracle before) :=
        performed_canceled_iff permitted canceled
      rw [← same]
      exact ⟨fun kept => kept canceled, fun kept _ => kept⟩
    · constructor
      · intro _ revived
        exact canceled (revives_canceled revived)
      · intro _ absurdly
        exact absurd absurdly canceled
  · constructor
    · intro _ revived
      exact revived
    · intro _ canceled
      exact launched_canceled launched canceled

def canceledBetweenCalls : List (Move platform Entry) :=
  [.launch (.runBackground "api")] ++ steps 13 0 calm ++
    [.launch (.toolCall 0 "lookup" .null none)] ++ steps 13 1 calm ++
    [.launch (.cancel "api")] ++ steps 4 2 calm ++
    [.launch (.toolCall 0 "lookup" .null none)] ++ steps 6 3 calm ++ steps 5 0 calm

theorem canceledBetweenCalls_replays : ((platformSystem sampleDeployment fun _ => true).replay
    (atRest (State.initial sampleRun 0 none)) canceledBetweenCalls).any (fun outcome =>
      outcome.1.any (fun event => event.before.run.status = .canceled &&
        event.after.run.status = .waitingTool) &&
      outcome.2.state.run.status = .agentSucceeded) = true := rfl

theorem waiting_breaks {events : List PlatformEvent} {event : PlatformEvent}
    (member : event ∈ events) (canceled : event.before.run.status = .canceled)
    (waiting : event.after.run.status = .waitingTool) : ¬ Absorbing events := by
  intro absorbing
  have kept := absorbing event member canceled
  rw [waiting] at kept
  cases kept

/-- The second tool call moves the canceled run to WAITING_TOOL, from where it
succeeds. -/
theorem canceled_run_succeeds : ∃ events final,
    (platformSystem sampleDeployment fun _ => true).Run
      (atRest (State.initial sampleRun 0 none)) events final ∧
    ¬ Absorbing events ∧ final.state.run.status = .agentSucceeded := by
  obtain ⟨events, final, run, checked⟩ := System.replay_checked canceledBetweenCalls_replays
  simp only [Bool.and_eq_true, List.any_eq_true, decide_eq_true_eq] at checked
  obtain ⟨⟨event, member, canceled, waiting⟩, last⟩ := checked
  exact ⟨events, final, run, waiting_breaks member canceled waiting, last⟩

/-- The schedule above reaches an event that revives its run. -/
theorem canceled_absorbing_iff_between_calls : ∃ events final,
    (platformSystem sampleDeployment fun _ => true).Run
      (atRest (State.initial sampleRun 0 none)) events final ∧
    ∃ event ∈ events, Revives event := by
  obtain ⟨events, final, run, checked⟩ := System.replay_checked canceledBetweenCalls_replays
  simp only [Bool.and_eq_true, List.any_eq_true, decide_eq_true_eq] at checked
  obtain ⟨⟨event, member, canceled, waiting⟩, _⟩ := checked
  refine ⟨events, final, run, ?_⟩
  have broken := waiting_breaks member canceled waiting
  rw [canceled_absorbing_iff run] at broken
  push Not at broken
  exact broken

end AgentTaskPlatform.Cancellation
