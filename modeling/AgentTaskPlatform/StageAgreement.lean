import AgentTaskPlatform.Activities
import AgentTaskPlatform.StageRows

/-!
Agreement of the `run_stage` calls of a stage. A value is returned from the row
that `get_or_create` answered, or after the execution fence let the result
through; either way it is the output of the SUCCEEDED row, which never changes.
-/

namespace AgentTaskPlatform.StageAgreement

open Interleaving KeyedTable StageProtocol

def Succeeded (state : State) (stageKey : String) (output : Json) : Prop :=
  ∃ stage, state.stages.find stageKey = some stage ∧ stage.status = .succeeded ∧
    stage.output = output

def Backed (state : State) (stageKey : String) (step : Step) : Prop :=
  ∀ value, step.returns value → Succeeded state stageKey value

section Steps

variable {op : Op} {oracle : op.Answer} {state : State} {stageKey : String}

theorem succeeded_kept (op : Op) (oracle : op.Answer) {output : Json}
    (succeeded : Succeeded state stageKey output) :
    Succeeded (Op.perform op oracle state).2 stageKey output := by
  obtain ⟨stage, found, status, same⟩ := succeeded
  exact ⟨stage, perform_settled op oracle found (Or.inl status), status, same⟩

theorem backed_kept (op : Op) (oracle : op.Answer) {step : Step} (backed : Backed state stageKey step) :
    Backed (Op.perform op oracle state).2 stageKey step :=
  fun value returns => succeeded_kept op oracle (backed value returns)

theorem markSucceeded_answer {executionId : Uuid} {output : Json}
    (committed : ((StageOp.markSucceeded stageKey executionId output).perform state).1 = true) :
    Succeeded ((StageOp.markSucceeded stageKey executionId output).perform state).2 stageKey
      output := by
  simp only [StageOp.perform, State.updateStages, beq_iff_eq] at committed
  obtain ⟨stage, found, active⟩ := (Table.countWhere_keyed state.stages stageKey _ fun row _ holds => by
    simp only [activeWhere, Bool.and_eq_true, decide_eq_true_eq] at holds
    exact holds.1.1.1).mp committed
  obtain ⟨set, writes, rows⟩ :=
    (StageOp.markSucceeded stageKey executionId output).find_perform state
  refine ⟨stage.withValues (set stage.values), ?_, writes.status stage.values,
    writes.output stage.values⟩
  have kept : (StageOp.markSucceeded stageKey executionId output).inserted state.stages =
      state.stages := rfl
  rw [rows, kept, found]
  simp only [Option.map_some, StageOp.hits, active, if_true]

theorem backed_step {index : Nat} {context : AgentContext} {progress : Progress}
    (permitted : Permitted index context stageKey progress op)
    (backed : Backed state stageKey progress.step) :
    Backed (Op.perform op oracle state).2 stageKey
      (progress.after op (Op.perform op oracle state).1).step := by
  cases permitted with
  | getOrCreate stageIndex definitionVersion maxAttempts idempotencyKey inputHash _ =>
      intro value returns
      obtain ⟨succeeded, same⟩ := returns
      exact ⟨_, StageOp.getOrCreate_answer _ _, succeeded, same.symm⟩
  | issue _ _ =>
      intro value returns
      exact returns.elim
  | begin _ =>
      intro value returns
      simp only [Progress.after] at returns
      split at returns <;> exact returns.elim
  | operation _ =>
      intro value returns
      exact returns.elim
  | @succeed executionId output operated =>
      cases committed : ((StageOp.markSucceeded stageKey executionId output).perform state).1 with
      | true =>
          intro value returns
          simp only [Progress.after, Op.perform, committed, if_true] at returns
          rw [show value = output from returns]
          exact markSucceeded_answer committed
      | false =>
          simp only [Progress.after, Op.perform, committed, Bool.false_eq_true, if_false]
          exact backed_kept _ oracle backed
  | external op other =>
      rw [Progress.after_external other]
      exact backed
  | _ => exact backed_kept _ oracle backed

end Steps

def Inv (_ : List PlatformEvent) (state : State) (phases : List Phase) : Prop :=
  ∀ (thread : Nat) index context stageKey progress,
    phases[thread]? = some (.stage index context stageKey progress) →
    Backed state stageKey progress.step

/-- The call of a thread started when its row had succeeded: it has not gone
past the answer of `get_or_create`. -/
def Replays (thread : Nat) (stageKey : String) (_ : List PlatformEvent) (state : State)
    (phases : List Phase) : Prop :=
  (∃ output, Succeeded state stageKey output) ∧
  ∃ index context progress, phases[thread]? = some (.stage index context stageKey progress) ∧
    (progress.step = .opening ∨ ∃ stage, progress.step = .found stage ∧ stage.status = .succeeded)

section Runs

variable {deployment : Deployment} {admitted : Entry → Bool}

theorem inv_inductive :
    (discipline deployment admitted).Inductive (fun _ _ => True) Inv where
  acts := by
    intro past state phases thread tag op oracle phase inv present _ permitted _ index position
      context stageKey progress found
    rcases observe_phase present found with ⟨rfl, same⟩ | ⟨_, old⟩
    · cases phase with
      | stage position context stageKey earlier =>
          cases same
          exact backed_step permitted (inv index _ _ _ earlier present)
      | _ => cases same
    · exact backed_kept op oracle (inv index position context stageKey progress old)
  launches := by
    intro past config phases entry state spawned _ inv launched _ index position context
      stageKey progress found
    rcases launch_phase launched found with old | ⟨_, start⟩
    · have backed := inv index position context stageKey progress old
      unfold Backed Succeeded at backed ⊢
      rw [launch_stages launched]
      exact backed
    · have opening : progress = {} := Entry.phase_opening start
      rw [opening]
      intro value returns
      exact returns.elim

theorem replays_step {index : Nat} {context : AgentContext} {progress : Progress}
    {stageKey : String} {op : Op} {oracle : op.Answer} {state : State} {output : Json}
    (permitted : Permitted index context stageKey progress op)
    (succeeded : Succeeded state stageKey output)
    (replays : progress.step = .opening ∨
      ∃ stage, progress.step = .found stage ∧ stage.status = .succeeded) :
    (progress.after op (Op.perform op oracle state).1).step = .opening ∨
      ∃ stage, (progress.after op (Op.perform op oracle state).1).step = .found stage ∧
        stage.status = .succeeded := by
  have early : ∀ executionId, progress.step ≠ .issued executionId ∧
      progress.step ≠ .begun executionId ∧ progress.step ≠ .operated executionId := by
    intro executionId
    rcases replays with same | ⟨stage, same, _⟩ <;> rw [same] <;> exact ⟨nofun, nofun, nofun⟩
  cases permitted with
  | getOrCreate stageIndex definitionVersion maxAttempts idempotencyKey inputHash _ =>
      right
      refine ⟨_, rfl, ?_⟩
      obtain ⟨stage, found, status, _⟩ := succeeded
      have kept := perform_settled (.stage (.getOrCreate (StageRunner.newStage context
        stageKey stageIndex definitionVersion maxAttempts idempotencyKey inputHash)))
        oracle found (Or.inl status)
      have answer := StageOp.getOrCreate_answer (StageRunner.newStage context stageKey
        stageIndex definitionVersion maxAttempts idempotencyKey inputHash) state
      have same := Option.some.inj (answer.symm.trans kept)
      show ((StageOp.getOrCreate _).perform state).1.status = .succeeded
      rw [same]
      exact status
  | issue own unsettled =>
      rcases replays with same | ⟨stage, same, status⟩
      · rw [same] at own
        cases own
      · rw [same] at own
        cases own
        exact absurd status unsettled.1
  | begin issued => exact absurd issued (early _).1
  | operation begun => exact absurd begun (early _).2.1
  | succeed output operated => exact absurd operated (early _).2.2
  | external op other =>
      rw [Progress.after_external other]
      exact replays
  | _ => exact replays

theorem replays_inductive (thread : Nat) (stageKey : String) :
    (discipline deployment admitted).Inductive (fun _ _ => True) (Replays thread stageKey) where
  acts := by
    intro past state phases actor tag op oracle phase replays present _ permitted _
    obtain ⟨⟨output, succeeded⟩, index, context, progress, named, early⟩ := replays
    refine ⟨⟨output, succeeded_kept op oracle succeeded⟩, index, context, ?_⟩
    unfold System.performed
    by_cases same : actor = thread
    · subst actor
      rw [named] at present
      cases present
      refine ⟨progress.after op (Op.perform op oracle state).1, ?_,
        replays_step permitted succeeded early⟩
      rw [Discipline.observe_acted, if_pos rfl, named]
      rfl
    · refine ⟨progress, ?_, early⟩
      rw [Discipline.observe_acted, if_neg same, named]
  launches := by
    intro past config phases entry state spawned _ replays launched _
    obtain ⟨⟨output, succeeded⟩, index, context, progress, named, early⟩ := replays
    refine ⟨⟨output, ?_⟩, index, context, progress, ?_, early⟩
    · unfold Succeeded at succeeded ⊢
      rw [launch_stages launched]
      exact succeeded
    · obtain ⟨inside, _⟩ := List.getElem?_eq_some_iff.mp named
      rw [observe_launch phases launched, List.getElem?_append_left inside]
      exact named

variable {state : State} {events : List PlatformEvent} {final : PlatformConfig}

theorem returned_succeeded
    (run : (platformSystem deployment admitted).Run (atRest state) events final)
    {thread index : Nat} {process : Process} {stageKey : String} {value : Json}
    (returned : final.threads[thread]? =
      some ⟨⟨process, .stage index stageKey⟩, .ret (.ok value)⟩) :
    Succeeded final.state stageKey value := by
  have inv : Inv events final.state ((discipline deployment admitted).phases events) :=
    inv_inductive.run run rfl (fun _ _ _ _ => trivial) (by
      intro thread index context stageKey progress present
      cases present)
  have tracked := Discipline.run_tracked run
    (Discipline.tracked_empty (D := discipline deployment admitted) rfl)
  obtain ⟨phase, named, belongs, concludes⟩ := tracked.phase returned
  cases phase with
  | stage position context key progress =>
      cases belongs
      exact inv thread _ context _ progress named value concludes
  | execution process worker progress => cases belongs.2
  | tool context progress =>
      obtain ⟨_, same⟩ := belongs
      cases same
  | checkpoint position context key progress => cases belongs
  | manager process job progress => cases job <;> cases belongs

theorem replays_start {past : List PlatformEvent} {config : PlatformConfig} {index thread : Nat}
    {stageKey : String} {stageInput : PyValue} {definitionVersion : String}
    {maxAttempts : Option Nat} {idempotencyKey : Option String} {tag : Tag} {started : State}
    {spawned : Option Activity} {output : Json} {entry : Entry}
    (calls : entry =
      .runStage index stageKey stageInput definitionVersion maxAttempts idempotencyKey)
    (tracked : (discipline deployment admitted).Tracked config
      ((discipline deployment admitted).phases past))
    (launched : (platformSystem deployment admitted).launch entry config = some (started, spawned))
    (named : some (thread, tag) = System.spawnedThread config spawned)
    (succeeded : Succeeded config.state stageKey output) :
    Replays thread stageKey (past ++ [.launched entry (some (thread, tag)) config.state started])
      started ((discipline deployment admitted).phases
        (past ++ [.launched entry (some (thread, tag)) config.state started])) := by
  refine ⟨⟨output, ?_⟩, ?_⟩
  · unfold Succeeded at succeeded ⊢
    rw [launch_stages launched]
    exact succeeded
  · obtain ⟨phase, start, present⟩ := launch_spawned tracked launched named
    rw [Discipline.phases_snoc]
    subst calls
    obtain ⟨context, _, rfl⟩ := Option.map_eq_some_iff.mp start
    exact ⟨index, context, {}, present, Or.inl rfl⟩

theorem replayed_silent {past between later : List PlatformEvent} {first last : PlatformEvent}
    (run : (platformSystem deployment admitted).Run (atRest state)
      (past ++ first :: (between ++ last :: later)) final)
    {index thread : Nat} {stageKey ran : String} {stageInput : PyValue}
    {definitionVersion : String} {maxAttempts : Option Nat} {idempotencyKey : Option String}
    {tag owner : Tag} {executionId : Uuid} {answer : Except Exc PyValue}
    {start started before after : State}
    (calls : first = .launched
      (.runStage index stageKey stageInput definitionVersion maxAttempts idempotencyKey)
      (some (thread, tag)) start started)
    (operates : last = .acted thread owner (.external (.operation ran executionId)) answer before
      after) (output : Json) : ¬ Succeeded start stageKey output := by
  intro succeeded
  subst calls operates
  obtain ⟨config, spawned, tracked, rfl, launched, named⟩ :=
    Discipline.run_launches (D := discipline deployment admitted) run rfl
  have replays := replays_start rfl tracked launched named succeeded
  obtain ⟨_, position, context, progress, present, early⟩ :=
    (replays_inductive thread stageKey).between run rfl (fun _ _ _ _ => trivial) replays
  rw [← List.cons_append, ← List.append_assoc] at run
  obtain ⟨phase, _, found, _, permitted, _⟩ :=
    Discipline.run_permits (D := discipline deployment admitted) run rfl
  rw [present] at found
  cases found
  have permitted : Permitted position context stageKey progress
      (.external (.operation ran executionId)) := permitted
  cases permitted with
  | external op other => cases other
  | operation begun =>
      rcases early with same | ⟨stage, same, _⟩ <;> rw [same] at begun <;> cases begun

end Runs

/-- `run_stage` calls of a stage agree on the output of its SUCCEEDED row, and a
call that starts after that row was committed does not run the operation. -/
theorem stage_agreement {deployment : Deployment} {state : State} {events : List PlatformEvent}
    {final : PlatformConfig}
    (run : (platformSystem deployment fun _ => true).Run (atRest state) events final)
    (stageKey : String) :
    (∀ (thread other index position : Nat) process owner value another,
      final.threads[thread]? = some ⟨⟨process, .stage index stageKey⟩, .ret (.ok value)⟩ →
      final.threads[other]? = some ⟨⟨owner, .stage position stageKey⟩, .ret (.ok another)⟩ →
      value = another ∧ ∃ stage, final.state.stages.find stageKey = some stage ∧
        stage.status = .succeeded ∧ stage.output = value) ∧
    (∀ past first between last later index stageInput definitionVersion maxAttempts
      idempotencyKey thread tag start started owner ran executionId answer before after stage,
      events = past ++ first :: (between ++ last :: later) →
      first = .launched
        (.runStage index stageKey stageInput definitionVersion maxAttempts idempotencyKey)
        (some (thread, tag)) start started →
      last = .acted thread owner (.external (.operation ran executionId)) answer before after →
      start.stages.find stageKey = some stage → stage.status ≠ .succeeded) := by
  refine ⟨?_, ?_⟩
  · intro thread other index position process owner value another first second
    obtain ⟨stage, found, succeeded, output⟩ := returned_succeeded run first
    obtain ⟨same, known, _, equal⟩ := returned_succeeded run second
    rw [found] at known
    cases known
    exact ⟨output.symm.trans equal, stage, found, succeeded, output⟩
  · intro past first between last later index stageInput definitionVersion maxAttempts
      idempotencyKey thread tag start started owner ran executionId answer before after stage
      split calls operates found succeeded
    subst split
    exact replayed_silent run calls operates stage.output ⟨stage, found, succeeded, rfl⟩

def collectedTwice : List (Move platform Entry) :=
  [.launch (.runBackground "api")] ++ steps 13 0 persistent ++
    [.launch (.runStage 0 "collect" (.json .null) "1" none none)] ++ steps 14 1 persistent ++
    [.launch (.runNow "worker")] ++ steps 13 2 persistent ++
    [.launch (.runStage 1 "collect" (.json .null) "1" none none)] ++ steps 4 3 persistent

def returnedFrom (stageKey : String) : Option Activity → Bool
  | some ⟨⟨_, .stage _ key⟩, .ret (.ok _)⟩ => key = stageKey
  | _ => false

theorem returnedFrom_spec {stageKey : String} {thread : Option Activity}
    (returned : returnedFrom stageKey thread = true) : ∃ process index value,
      thread = some ⟨⟨process, .stage index stageKey⟩, .ret (.ok value)⟩ := by
  unfold returnedFrom at returned
  split at returned
  · simp only [decide_eq_true_eq] at returned
    subst returned
    exact ⟨_, _, _, rfl⟩
  · cases returned

theorem stage_agreement_collected_twice : ∃ events final index position process owner value
    another,
    (platformSystem sampleDeployment fun _ => true).Run
      (atRest (State.initial sampleRun 0 none)) events final ∧
    final.threads[1]? = some ⟨⟨process, .stage index "collect"⟩, .ret (.ok value)⟩ ∧
    final.threads[3]? = some ⟨⟨owner, .stage position "collect"⟩, .ret (.ok another)⟩ ∧
    value = another := by
  have passed : ((platformSystem sampleDeployment fun _ => true).replay
      (atRest (State.initial sampleRun 0 none)) collectedTwice).any (fun outcome =>
        returnedFrom "collect" outcome.2.threads[1]? &&
        returnedFrom "collect" outcome.2.threads[3]?) = true := rfl
  obtain ⟨events, final, run, checked⟩ := System.replay_checked passed
  simp only [Bool.and_eq_true] at checked
  obtain ⟨process, index, value, first⟩ := returnedFrom_spec checked.1
  obtain ⟨owner, position, another, second⟩ := returnedFrom_spec checked.2
  exact ⟨events, final, index, position, process, owner, value, another, run, first, second,
    ((stage_agreement run "collect").1 1 3 index position process owner value another first
      second).1⟩

end AgentTaskPlatform.StageAgreement
