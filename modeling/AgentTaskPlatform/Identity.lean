import AgentTaskPlatform.Readings

/-!
The columns of a run that its submission fixes. Every thread writes a row it derives
from one it has read, and no derivation touches these columns, so they are the same
in every state of every run.
-/

namespace AgentTaskPlatform

open Interleaving

structure RunIdentity where
  runId : String
  conversationId : Option String
  routeTag : String
  caller : String
  requestId : String
  input : Json
  callback : Option CallbackConfig
  timeoutSeconds : Option Nat
  metadata : List (String × Json)
  agent : Option AgentRef

def AgentRun.identity (run : AgentRun) : RunIdentity where
  runId := run.runId
  conversationId := run.conversationId
  routeTag := run.routeTag
  caller := run.caller
  requestId := run.requestId
  input := run.input
  callback := run.callback
  timeoutSeconds := run.timeoutSeconds
  metadata := run.metadata
  agent := run.agent

namespace Identity

def stepRow : ExecutionProtocol.Step → Option AgentRun
  | .running _ run => some run
  | .failed _ _ _ run => some run
  | .succeeded run => some run
  | .recovered run => some run
  | .ended run => some run
  | _ => none

def holds : Phase → AgentRun → Prop
  | .execution _ _ progress, run => progress.seen = some run ∨ stepRow progress.step = some run
  | .tool _ progress, run => progress.seen = some run
  | .stage _ _ _ progress, run => progress.seen = some run
  | .checkpoint _ _ _ progress, run => progress.seen = some run
  | .manager _ _ progress, run => progress.seen = some run

section Steps

variable {digest : Digest} {phase : Phase} {op : Op} {state : State} {identity : RunIdentity}

theorem prepared_row {step : ExecutionProtocol.Step} {run : AgentRun}
    (prepares : step.prepares run) : stepRow step = some run := by
  cases step with
  | succeeded row =>
      rw [show run = row from prepares]
      rfl
  | recovered row =>
      rw [prepares.1]
      rfl
  | ended row =>
      rw [prepares.1]
      rfl
  | _ => exact prepares.elim

theorem finished_row {progress : ExecutionProtocol.Progress} {run : AgentRun}
    (finishes : progress.finishes run) :
    progress.seen = some run ∨ stepRow progress.step = some run := by
  unfold ExecutionProtocol.Progress.finishes at finishes
  cases step : progress.step with
  | opening =>
      rw [step] at finishes
      exact Or.inl finishes
  | failed attempt attempts error last =>
      rw [step] at finishes
      rw [finishes.2]
      exact Or.inr rfl
  | _ =>
      rw [step] at finishes
      exact finishes.elim

theorem execution_identity {process : Process} {worker : Option Process}
    {progress : ExecutionProtocol.Progress} {site : Site} {expected : Expected} {row : AgentRun}
    (permitted : ExecutionProtocol.Permitted process worker progress op)
    (stores : op.stores site expected row)
    (same : ∀ run, progress.seen = some run ∨ stepRow progress.step = some run →
      run.identity = identity) : row.identity = identity := by
  cases permitted with
  | @attemptStart run attempt now seen _ _ _ =>
      obtain ⟨rfl, rfl, rfl⟩ := stores
      exact same run (Or.inl seen)
  | @agentSucceeded attempt run fresh output now step seen =>
      obtain ⟨rfl, rfl, rfl⟩ := stores
      exact same fresh (Or.inl seen)
  | @attemptFailed attempt run attempts timeout error step _ =>
      obtain ⟨rfl, rfl, rfl⟩ := stores
      exact same run (Or.inr (by rw [step]; rfl))
  | @recovered attempt run attempts timeout error result now step =>
      obtain ⟨rfl, rfl, rfl⟩ := stores
      exact same run (Or.inr (by rw [step]; rfl))
  | @finish run now finishes =>
      obtain ⟨rfl, rfl, rfl⟩ := stores
      exact same run (finished_row finishes)
  | @skipCallback run prepares _ =>
      obtain ⟨rfl, rfl, rfl⟩ := stores
      exact same run (Or.inr (prepared_row prepares))
  | @prepareCallback run eventId existing url body now prepares _ _ _ _ _ =>
      obtain ⟨rfl, rfl, rfl⟩ := stores
      exact same run (Or.inr (prepared_row prepares))
  | @release run seen _ =>
      obtain ⟨rfl, rfl, rfl⟩ := stores
      exact same run (Or.inl seen)
  | @deadLetter run reason seen _ =>
      obtain ⟨rfl, rfl, rfl⟩ := stores
      exact same run (Or.inl seen)
  | @backgroundFailure run error seen _ _ =>
      obtain ⟨rfl, rfl, rfl⟩ := stores
      exact same run (Or.inl seen)
  | _ => cases stores

theorem stage_identity {index : Nat} {context : AgentContext} {stageKey : String}
    {progress : StageProtocol.Progress} {site : Site} {expected : Expected} {row : AgentRun}
    (permitted : StageProtocol.Permitted index context stageKey progress op)
    (stores : op.stores site expected row)
    (same : ∀ run, progress.seen = some run → run.identity = identity) :
    row.identity = identity := by
  cases permitted with
  | @currentStep run seen _ =>
      obtain ⟨rfl, rfl, rfl⟩ := stores
      exact same run seen
  | _ => cases stores

theorem manager_identity {process : Process} {job : ManagerProtocol.Job}
    {progress : ManagerProtocol.Progress} {site : Site} {expected : Expected} {row : AgentRun}
    (permitted : ManagerProtocol.Permitted process job progress op)
    (stores : op.stores site expected row)
    (same : ∀ run, progress.seen = some run → run.identity = identity) :
    row.identity = identity := by
  cases permitted with
  | @cancel run now _ seen _ =>
      obtain ⟨rfl, rfl, rfl⟩ := stores
      exact same run seen
  | @recover run agent now _ seen _ _ _ =>
      obtain ⟨rfl, rfl, rfl⟩ := stores
      exact same run seen
  | @reclaim run now _ seen _ _ _ =>
      obtain ⟨rfl, rfl, rfl⟩ := stores
      exact same run seen
  | @skipCallback run _ seen _ =>
      obtain ⟨rfl, rfl, rfl⟩ := stores
      exact same run seen
  | @prepareCallback run eventId existing url body now _ seen _ _ _ _ =>
      obtain ⟨rfl, rfl, rfl⟩ := stores
      exact same run seen
  | @delivered run delivery now attempt _ seen _ _ =>
      obtain ⟨rfl, rfl, rfl⟩ := stores
      exact same run seen
  | @exhausted run _ seen _ =>
      obtain ⟨rfl, rfl, rfl⟩ := stores
      exact same run seen
  | _ => cases stores

theorem stores_identity {site : Site} {expected : Expected} {row : AgentRun}
    (permitted : phase.permits digest op) (stores : op.stores site expected row)
    (same : ∀ run, holds phase run → run.identity = identity) : row.identity = identity := by
  cases phase with
  | execution process worker progress => exact execution_identity permitted stores same
  | tool context progress =>
      cases permitted with
      | @markWaiting run tool seen =>
          obtain ⟨rfl, rfl, rfl⟩ := stores
          exact same run seen
      | _ => cases stores
  | stage index context stageKey progress => exact stage_identity permitted stores same
  | checkpoint index context stageKey progress => exact stage_identity permitted stores same
  | manager process job progress => exact manager_identity permitted stores same

theorem retries_identity {row : AgentRun} (permitted : phase.permits digest (.run (.retry row)))
    (same : ∀ run, holds phase run → run.identity = identity) : row.identity = identity := by
  cases phase with
  | manager process job progress =>
      cases permitted with
      | @retry run agent now _ seen _ => exact same run seen
  | _ => cases permitted

theorem stepRow_stored {step : ExecutionProtocol.Step} {site : Site} {row run : AgentRun}
    {hit : Bool} (found : stepRow (step.after site row hit) = some run) : run = row := by
  cases site <;> cases hit <;> first | exact (Option.some.inj found).symm | cases found

theorem stepRow_after {progress : ExecutionProtocol.Progress} {answer : op.Answer}
    {run : AgentRun} (found : stepRow (progress.after op answer).step = some run) :
    stepRow progress.step = some run ∨ ∃ site expected, op.stores site expected run := by
  cases op with
  | run op =>
      cases op with
      | updateIfCurrent site expected row =>
          exact Or.inr ⟨site, expected, rfl, rfl, stepRow_stored found⟩
      | updateRunWithCallback site expected row delivery =>
          exact Or.inr ⟨site, expected, rfl, rfl, stepRow_stored found⟩
      | _ => exact Or.inl found
  | callback op => cases op <;> exact Or.inl found
  | process op => cases op <;> exact Or.inl found
  | _ => exact Or.inl found

/-- What a thread has in hand after an operation, it has read, stored or had before. -/
theorem holds_after {run : AgentRun} {oracle : op.Answer} (permitted : phase.permits digest op)
    (held : holds (phase.after op (Op.perform op oracle state).1) run) :
    run = state.run ∨ holds phase run ∨ ∃ site expected, op.stores site expected run := by
  cases phase with
  | execution process worker progress =>
      rcases held with seen | stored
      · cases permitted with
        | read =>
            cases seen
            exact Or.inl rfl
        | external op _ _ =>
            simp only [ExecutionProtocol.Progress.after, ExecutionProtocol.Progress.called] at seen
            split at seen
            · cases seen
            · exact Or.inr (Or.inl (Or.inl seen))
        | _ => exact Or.inr (Or.inl (Or.inl seen))
      · rcases stepRow_after stored with kept | written
        · exact Or.inr (Or.inl (Or.inr kept))
        · exact Or.inr (Or.inr written)
  | tool context progress =>
      rcases seen_after permitted held with ⟨_, same⟩ | ⟨_, kept⟩
      · exact Or.inl same
      · exact Or.inr (Or.inl kept)
  | stage index context stageKey progress =>
      rcases stage_seen_after permitted held with ⟨_, same⟩ | ⟨_, kept⟩
      · exact Or.inl same
      · exact Or.inr (Or.inl kept)
  | checkpoint index context stageKey progress =>
      rcases stage_seen_after permitted held with ⟨_, same⟩ | ⟨_, kept⟩
      · exact Or.inl same
      · exact Or.inr (Or.inl kept)
  | manager process job progress =>
      cases permitted with
      | read =>
          cases held
          exact Or.inl rfl
      | delivered _ _ _ _ _ _ =>
          cases held
          exact Or.inr (Or.inr ⟨_, _, rfl, rfl, rfl⟩)
      | _ => exact Or.inr (Or.inl held)

end Steps

theorem opening_holds {phase : Phase} (opening : phase.Opening) (run : AgentRun) :
    ¬ holds phase run := by
  intro held
  cases phase with
  | execution process worker progress =>
      rw [show progress = _ from opening] at held
      rcases held with seen | stored
      · cases seen
      · cases stored
  | manager process job progress =>
      rw [show progress = _ from opening] at held
      cases job <;> cases held
  | _ =>
      cases opening
      cases held

structure Fixed (identity : RunIdentity) (state : State) (phases : List Phase) : Prop where
  row : state.run.identity = identity
  held : ∀ (thread : Nat) phase run, phases[thread]? = some phase → holds phase run →
    run.identity = identity

section Runs

variable {deployment : Deployment} {admitted : Entry → Bool} {identity : RunIdentity}

theorem performed_row {digest : Digest} {phase : Phase} {op : Op} {state : State}
    (oracle : op.Answer) (row : state.run.identity = identity)
    (held : ∀ run, holds phase run → run.identity = identity)
    (permitted : phase.permits digest op) :
    (Op.perform op oracle state).2.run.identity = identity := by
  rcases perform_run op oracle state with
    same | ⟨_, _, _, stores, _, same⟩ | ⟨_, rfl, same⟩ | ⟨_, _, rfl, same⟩
  · rw [same]
    exact row
  · rw [same]
    exact stores_identity permitted stores held
  · rw [same]
    exact retries_identity permitted held
  · rw [same]
    exact row

theorem fixed_inductive : (discipline deployment admitted).Inductive (fun _ _ => True)
    fun _ state phases => Fixed identity state phases where
  acts past state phases thread tag op oracle phase fixed present _ permitted _ := by
    have own : ∀ run, holds phase run → run.identity = identity :=
      fun run => fixed.held thread phase run present
    refine ⟨performed_row oracle fixed.row own permitted, ?_⟩
    intro index later run found held
    rcases observe_phase present found with ⟨_, rfl⟩ | ⟨_, kept⟩
    · rcases holds_after permitted held with rfl | before | ⟨_, _, stores⟩
      · exact fixed.row
      · exact own run before
      · exact stores_identity permitted stores own
    · exact fixed.held index later run kept held
  launches past config phases entry state spawned _ fixed launched _ := by
    refine ⟨?_, ?_⟩
    · rcases launch_moves launched with same | ⟨_, _, _, _, same⟩
      · rw [same]
        exact fixed.row
      · rw [same]
        exact fixed.row
    · intro index later run found held
      rcases launch_phase launched found with old | ⟨_, start⟩
      · exact fixed.held index later run old held
      · exact absurd held (opening_holds (Entry.phase_opening start) run)

theorem fixed_initial (start : State) : Fixed start.run.identity start [] :=
  ⟨rfl, fun _ _ _ found => by cases found⟩

/-- The columns that the submission fixes are the same at both ends of every run. -/
theorem identity_kept {start : State} {events : List PlatformEvent} {final : PlatformConfig}
    (run : (platformSystem deployment admitted).Run (atRest start) events final) :
    final.state.run.identity = start.run.identity :=
  (fixed_inductive.run run rfl (fun _ _ _ _ => trivial) (fixed_initial start)).row

theorem identity_after {start : State} {left right : List PlatformEvent} {event : PlatformEvent}
    {final : PlatformConfig}
    (run : (platformSystem deployment admitted).Run (atRest start) (left ++ event :: right) final) :
    event.after.run.identity = start.run.identity := by
  have parts : left ++ event :: right = (left ++ [event]) ++ right := by simp
  rw [parts] at run
  obtain ⟨middle, first, _⟩ := run.split
  rw [first.ends]
  exact identity_kept first

end Runs

end Identity

end AgentTaskPlatform
