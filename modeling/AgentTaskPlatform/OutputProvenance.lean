import AgentTaskPlatform.Identity
import AgentTaskPlatform.Trails

/-!
Where the output of a run comes from. Over any interleaving of executions, retries,
recoveries and callback work, the stored output is the one the run was submitted with, one
that the agent returned and the output check let pass, or the fallback of an error handler. The
submission itself stays as it was.
-/

namespace AgentTaskPlatform.OutputProvenance

open Interleaving Identity Trails

def Returned (past : List PlatformEvent) (thread : Nat) (output : Json) : Prop :=
  ∃ tag agent context before after,
    (.acted thread tag (.external (.agentRun agent context)) (.ok output) before after :
      PlatformEvent) ∈ past

def Checked (past : List PlatformEvent) (thread : Nat) (output : Json) : Prop :=
  ∃ tag agent before after,
    (.acted thread tag (.external (.validateAgentOutput agent output)) (.ok ()) before after :
      PlatformEvent) ∈ past

def Offered (past : List PlatformEvent) (thread : Nat) (result : RunErrorResult) : Prop :=
  ∃ tag kind error run before after,
    (.acted thread tag (.external (.errorHandler kind error run)) (.ok (some result)) before
      after : PlatformEvent) ∈ past

inductive Sourced (submitted : Option Json) (past : List PlatformEvent) : Option Json → Prop
  | submitted : Sourced submitted past submitted
  | agent (thread : Nat) (output : Json) (returned : Returned past thread output)
      (checked : Checked past thread output) : Sourced submitted past (some output)
  | handler (thread : Nat) (run : AgentRun) (result : RunErrorResult)
      (offered : Offered past thread result) :
      Sourced submitted past (some (RunExecutor.recoveredOutput run result))

section Growth

variable {past : List PlatformEvent} {thread : Nat} {submitted output : Option Json}

theorem Returned.later {output : Json} (event : PlatformEvent)
    (returned : Returned past thread output) : Returned (past ++ [event]) thread output := by
  obtain ⟨tag, agent, context, before, after, member⟩ := returned
  exact ⟨tag, agent, context, before, after, List.mem_append_left _ member⟩

theorem Checked.later {output : Json} (event : PlatformEvent)
    (checked : Checked past thread output) : Checked (past ++ [event]) thread output := by
  obtain ⟨tag, agent, before, after, member⟩ := checked
  exact ⟨tag, agent, before, after, List.mem_append_left _ member⟩

theorem Offered.later {result : RunErrorResult} (event : PlatformEvent)
    (offered : Offered past thread result) : Offered (past ++ [event]) thread result := by
  obtain ⟨tag, kind, error, run, before, after, member⟩ := offered
  exact ⟨tag, kind, error, run, before, after, List.mem_append_left _ member⟩

theorem Sourced.later (event : PlatformEvent) (sourced : Sourced submitted past output) :
    Sourced submitted (past ++ [event]) output := by
  cases sourced with
  | submitted => exact .submitted
  | agent thread output returned checked =>
      exact .agent thread output (returned.later event) (checked.later event)
  | handler thread run result offered => exact .handler thread run result (offered.later event)

structure Backed (past : List PlatformEvent) (thread : Nat) (trail : Trail) : Prop where
  returned : ∀ output, trail.returned = some output → Returned past thread output
  checked : ∀ output, trail.checked = some output → Checked past thread output
  offered : ∀ result, trail.offered = some result → Offered past thread result

theorem Backed.later {trail : Trail} (event : PlatformEvent) (backed : Backed past thread trail) :
    Backed (past ++ [event]) thread trail where
  returned output same := (backed.returned output same).later event
  checked output same := (backed.checked output same).later event
  offered result same := (backed.offered result same).later event

theorem backed_opening : Backed past thread {} := ⟨nofun, nofun, nofun⟩

theorem Backed.answered {trail : Trail} {tag : Tag} {op : Op} {answer : op.Answer}
    {before after : State} (backed : Backed past thread trail) :
    Backed (past ++ [.acted thread tag op answer before after]) thread
      (trail.after op answer) := by
  have kept := backed.later (.acted thread tag op answer before after)
  have last : (.acted thread tag op answer before after : PlatformEvent) ∈
      past ++ [.acted thread tag op answer before after] := by simp
  cases op with
  | run op => cases op <;> exact ⟨kept.returned, kept.checked, kept.offered⟩
  | callback op => cases op <;> exact ⟨kept.returned, kept.checked, kept.offered⟩
  | external op =>
      cases op with
      | agentRun agent context =>
          cases answer with
          | error error => exact ⟨kept.returned, kept.checked, kept.offered⟩
          | ok output =>
              refine ⟨fun other same => ?_, nofun, kept.offered⟩
              cases same
              exact ⟨tag, agent, context, before, after, last⟩
      | validateAgentOutput agent output =>
          cases answer with
          | error error => exact ⟨kept.returned, kept.checked, kept.offered⟩
          | ok _ =>
              refine ⟨kept.returned, fun other same => ?_, kept.offered⟩
              cases same
              exact ⟨tag, agent, before, after, last⟩
      | errorHandler kind error run =>
          cases answer with
          | error error => exact ⟨kept.returned, kept.checked, kept.offered⟩
          | ok result =>
              cases result with
              | none => exact ⟨kept.returned, kept.checked, kept.offered⟩
              | some result =>
                  refine ⟨kept.returned, kept.checked, fun other same => ?_⟩
                  cases same
                  exact ⟨tag, kind, error, run, before, after, last⟩
      | validateUrl url =>
          cases answer <;> exact ⟨kept.returned, kept.checked, kept.offered⟩
      | _ => exact ⟨kept.returned, kept.checked, kept.offered⟩
  | _ => exact ⟨kept.returned, kept.checked, kept.offered⟩

end Growth

section Writes

variable {digest : Digest} {phase : Phase} {op : Op}

def Op.produces (op : Op) (row : AgentRun) : Prop :=
  (∃ expected, op = .run (.updateIfCurrent .agentSucceeded expected row)) ∨
    ∃ expected, op = .run (.updateIfCurrent .recovered expected row)

/-- Every other write stores the output of a run object in hand. -/
theorem execution_output {process : Process} {worker : Option Process}
    {progress : ExecutionProtocol.Progress} {site : Site} {expected : Expected} {row : AgentRun}
    (permitted : ExecutionProtocol.Permitted process worker progress op)
    (stores : op.stores site expected row) : Op.produces op row ∨
      ∃ run, (progress.seen = some run ∨ stepRow progress.step = some run) ∧
        row.output = run.output := by
  cases permitted with
  | @attemptStart run attempt now seen _ _ _ =>
      obtain ⟨rfl, rfl, rfl⟩ := stores
      exact Or.inr ⟨run, Or.inl seen, rfl⟩
  | @agentSucceeded attempt run fresh output now step seen =>
      obtain ⟨rfl, rfl, rfl⟩ := stores
      exact Or.inl (Or.inl ⟨_, rfl⟩)
  | @attemptFailed attempt run attempts timeout error step _ =>
      obtain ⟨rfl, rfl, rfl⟩ := stores
      exact Or.inr ⟨run, Or.inr (by rw [step]; rfl), rfl⟩
  | @recovered attempt run attempts timeout error result now step =>
      obtain ⟨rfl, rfl, rfl⟩ := stores
      exact Or.inl (Or.inr ⟨_, rfl⟩)
  | @finish run now finishes =>
      obtain ⟨rfl, rfl, rfl⟩ := stores
      exact Or.inr ⟨run, finished_row finishes, rfl⟩
  | @skipCallback run prepares _ =>
      obtain ⟨rfl, rfl, rfl⟩ := stores
      exact Or.inr ⟨run, Or.inr (prepared_row prepares), rfl⟩
  | @prepareCallback run eventId existing url body now prepares _ _ _ _ _ =>
      obtain ⟨rfl, rfl, rfl⟩ := stores
      exact Or.inr ⟨run, Or.inr (prepared_row prepares), rfl⟩
  | @release run seen _ =>
      obtain ⟨rfl, rfl, rfl⟩ := stores
      exact Or.inr ⟨run, Or.inl seen, rfl⟩
  | @deadLetter run reason seen _ =>
      obtain ⟨rfl, rfl, rfl⟩ := stores
      exact Or.inr ⟨run, Or.inl seen, rfl⟩
  | @backgroundFailure run error seen _ _ =>
      obtain ⟨rfl, rfl, rfl⟩ := stores
      exact Or.inr ⟨run, Or.inl seen, rfl⟩
  | _ => cases stores

theorem manager_output {process : Process} {job : ManagerProtocol.Job}
    {progress : ManagerProtocol.Progress} {site : Site} {expected : Expected} {row : AgentRun}
    (permitted : ManagerProtocol.Permitted process job progress op)
    (stores : op.stores site expected row) :
    ∃ run, progress.seen = some run ∧ row.output = run.output := by
  cases permitted with
  | @cancel run now _ seen _ =>
      obtain ⟨rfl, rfl, rfl⟩ := stores
      exact ⟨run, seen, rfl⟩
  | @recover run agent now _ seen _ _ _ =>
      obtain ⟨rfl, rfl, rfl⟩ := stores
      exact ⟨run, seen, rfl⟩
  | @reclaim run now _ seen _ _ _ =>
      obtain ⟨rfl, rfl, rfl⟩ := stores
      exact ⟨run, seen, rfl⟩
  | @skipCallback run _ seen _ =>
      obtain ⟨rfl, rfl, rfl⟩ := stores
      exact ⟨run, seen, rfl⟩
  | @prepareCallback run eventId existing url body now _ seen _ _ _ _ =>
      obtain ⟨rfl, rfl, rfl⟩ := stores
      exact ⟨run, seen, rfl⟩
  | @delivered run delivery now attempt _ seen _ _ =>
      obtain ⟨rfl, rfl, rfl⟩ := stores
      exact ⟨run, seen, rfl⟩
  | @exhausted run _ seen _ =>
      obtain ⟨rfl, rfl, rfl⟩ := stores
      exact ⟨run, seen, rfl⟩
  | _ => cases stores

theorem stage_output {index : Nat} {context : AgentContext} {stageKey : String}
    {progress : StageProtocol.Progress} {site : Site} {expected : Expected} {row : AgentRun}
    (permitted : StageProtocol.Permitted index context stageKey progress op)
    (stores : op.stores site expected row) :
    ∃ run, progress.seen = some run ∧ row.output = run.output := by
  cases permitted with
  | @currentStep run seen _ =>
      obtain ⟨rfl, rfl, rfl⟩ := stores
      exact ⟨run, seen, rfl⟩
  | _ => cases stores

theorem stores_output {site : Site} {expected : Expected} {row : AgentRun}
    (permitted : phase.permits digest op) (stores : op.stores site expected row) :
    Op.produces op row ∨ ∃ run, holds phase run ∧ row.output = run.output := by
  cases phase with
  | execution process worker progress => exact execution_output permitted stores
  | tool context progress =>
      cases permitted with
      | @markWaiting run tool seen =>
          obtain ⟨rfl, rfl, rfl⟩ := stores
          exact Or.inr ⟨run, seen, rfl⟩
      | _ => cases stores
  | stage index context stageKey progress => exact Or.inr (stage_output permitted stores)
  | checkpoint index context stageKey progress => exact Or.inr (stage_output permitted stores)
  | manager process job progress => exact Or.inr (manager_output permitted stores)

theorem retries_output {row : AgentRun} (permitted : phase.permits digest (.run (.retry row))) :
    ∃ run, holds phase run ∧ row.output = run.output := by
  cases phase with
  | manager process job progress =>
      cases permitted with
      | @retry run agent now _ seen _ => exact ⟨run, seen, rfl⟩
  | _ => cases permitted

theorem produced_output {past : List PlatformEvent} {submitted : Option Json} {thread : Nat}
    {trail : Trail} {row : AgentRun} (produces : Op.produces op row)
    (permitted : Trails.permits trail op) (backed : Backed past thread trail) :
    Sourced submitted past row.output := by
  rcases produces with ⟨expected, rfl⟩ | ⟨expected, rfl⟩
  · obtain ⟨run, output, now, returned, checked, rfl⟩ := permitted
    exact .agent thread output (backed.returned output returned) (backed.checked output checked)
  · obtain ⟨run, result, now, offered, rfl⟩ := permitted
    exact .handler thread run result (backed.offered result offered)

end Writes

structure Supplied (submitted : Option Json) (past : List PlatformEvent) (state : State)
    (phases : List (Phase × Trail)) : Prop where
  row : Sourced submitted past state.run.output
  held : ∀ (thread : Nat) phase trail run, phases[thread]? = some (phase, trail) →
    holds phase run → Sourced submitted past run.output
  trails : ∀ (thread : Nat) phase trail, phases[thread]? = some (phase, trail) →
    Backed past thread trail

section Runs

variable {deployment : Deployment} {admitted : Entry → Bool} {submitted : Option Json}

theorem supplied_inductive :
    ((companion deployment admitted).discipline (discipline deployment admitted)).Inductive
      (fun _ _ => True) fun past state phases => Supplied submitted past state phases where
  acts past state phases thread tag op oracle phases' supplied present _ permitted _ := by
    obtain ⟨phase, trail⟩ := phases'
    obtain ⟨allowed, supported⟩ := permitted
    have backed := supplied.trails thread phase trail present
    have stored : ∀ site expected row, op.stores site expected row →
        Sourced submitted past row.output := by
      intro site expected row stores
      rcases stores_output allowed stores with produces | ⟨run, held, same⟩
      · exact produced_output produces supported backed
      · exact same ▸ supplied.held thread phase trail run present held
    refine ⟨?_, ?_, ?_⟩
    · apply Sourced.later
      show Sourced submitted past (Op.perform op oracle state).2.run.output
      rcases perform_run op oracle state with
        same | ⟨site, expected, row, stores, _, same⟩ | ⟨row, rfl, same⟩ | ⟨_, _, rfl, same⟩
      · exact same ▸ supplied.row
      · exact same ▸ stored site expected row stores
      · obtain ⟨run, held, output⟩ := retries_output allowed
        rw [same, output]
        exact supplied.held thread phase trail run present held
      · exact same ▸ supplied.row
    · intro index later after run found held
      apply Sourced.later
      rcases Discipline.performed_phase present found with ⟨_, moved⟩ | ⟨_, kept⟩
      · cases moved
        rcases holds_after allowed held with rfl | before | ⟨site, expected, stores⟩
        · exact supplied.row
        · exact supplied.held thread phase trail run present before
        · exact stored site expected run stores
      · exact supplied.held index later after run kept held
    · intro index later after found
      rcases Discipline.performed_phase present found with ⟨rfl, moved⟩ | ⟨_, kept⟩
      · cases moved
        exact backed.answered
      · exact (supplied.trails index later after kept).later _
  launches past config phases entry state spawned _ supplied launched _ := by
    refine ⟨?_, ?_, ?_⟩
    · apply Sourced.later
      rcases launch_moves launched with same | ⟨_, _, _, _, same⟩
      · exact same ▸ supplied.row
      · exact same ▸ supplied.row
    · intro index later after run found held
      apply Sourced.later
      rcases Companion.launched_phases found with old | ⟨_, start, _⟩
      · exact supplied.held index later after run old held
      · exact absurd held (opening_holds (Entry.phase_opening start) run)
    · intro index later after found
      rcases Companion.launched_phases found with old | ⟨_, _, rfl⟩
      · exact (supplied.trails index later after old).later _
      · exact backed_opening

/-- The stored output of a run never comes from anywhere else. -/
theorem output_provenance {start : State} {events : List PlatformEvent} {final : PlatformConfig}
    (run : (platformSystem deployment admitted).Run (atRest start) events final) :
    Sourced start.run.output events final.state.run.output := by
  have initial : Supplied start.run.output [] start [] :=
    ⟨.submitted, fun _ _ _ _ found => (by cases found), fun _ _ _ found => (by cases found)⟩
  exact (supplied_inductive.run run rfl (fun _ _ _ _ => trivial) initial).row

/-- No event changes what was submitted, and no thread ever tries to store it changed, however
old the row is that it writes back. Agents and hooks get values here, so none modifies the
input or the metadata in place. -/
theorem submission_kept {start : State} {left right : List PlatformEvent} {event : PlatformEvent}
    {final : PlatformConfig}
    (run : (platformSystem deployment admitted).Run (atRest start) (left ++ event :: right) final) :
    event.after.run.identity = start.run.identity ∧
      ∀ thread tag op answer before after, event = .acted thread tag op answer before after →
        (∀ site expected row, op.stores site expected row →
          row.identity = start.run.identity) ∧
        ∀ row, op = .run (.retry row) → row.identity = start.run.identity := by
  refine ⟨identity_after run, ?_⟩
  rintro thread tag op answer before after rfl
  have fixed := fixed_inductive.before_event run rfl (fun _ _ _ _ => trivial) (fixed_initial start)
  obtain ⟨phase, oracle, present, _, permitted, _⟩ :=
    Discipline.run_permits (D := discipline deployment admitted) run rfl
  have own := fun row => fixed.held thread phase row present
  constructor
  · intro site expected row stores
    exact stores_identity permitted stores own
  · rintro row rfl
    exact retries_identity permitted own

end Runs

def runsDirectly : List (Move platform Entry) := [.launch (.runNow "api")] ++ steps 18 0 calm

theorem runsDirectly_replays : ((platformSystem sampleDeployment fun _ => true).replay
    (atRest (State.initial sampleRun 0 none)) runsDirectly).any
      (fun outcome => outcome.2.state.run.output.isSome) = true := rfl

theorem output_provenance_direct : ∃ events final,
    (platformSystem sampleDeployment fun _ => true).Run (atRest (State.initial sampleRun 0 none))
      events final ∧ final.state.run.output.isSome = true ∧
      Sourced none events final.state.run.output := by
  obtain ⟨events, final, ran, stored⟩ := System.replay_checked runsDirectly_replays
  exact ⟨events, final, ran, stored, output_provenance ran⟩

theorem submission_kept_direct : ∃ left event right final,
    (platformSystem sampleDeployment fun _ => true).Run (atRest (State.initial sampleRun 0 none))
      (left ++ event :: right) final ∧ event.after.run.identity = sampleRun.identity := by
  obtain ⟨events, final, ran, stored⟩ := System.replay_checked runsDirectly_replays
  cases events with
  | nil =>
      cases ran
      cases stored
  | cons event rest =>
      exact ⟨[], event, rest, final, ran, (@submission_kept _ _ _ [] rest event final ran).1⟩

end AgentTaskPlatform.OutputProvenance
