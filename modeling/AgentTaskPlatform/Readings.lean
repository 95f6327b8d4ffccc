import AgentTaskPlatform.StatusMachine

/-!
What the threads have in hand. A coroutine reads the row, keeps the object over
its next steps and writes it back as a whole, so what a write restores is
decided by the read before it.
-/

namespace AgentTaskPlatform

open Interleaving

namespace Phase

def process : Phase → Process
  | .execution process _ _ => process
  | .tool context _ => context.process
  | .stage _ context _ _ => context.process
  | .checkpoint _ context _ _ => context.process
  | .manager process _ _ => process

theorem belongs_process {tag : Tag} {phase : Phase} (belongs : phase.belongs tag) :
    tag.process = phase.process := by
  cases phase with
  | execution process worker progress => exact belongs.1
  | tool context progress =>
      obtain ⟨_, rfl⟩ := belongs
      rfl
  | stage index context stageKey progress => rw [show tag = _ from belongs]; rfl
  | checkpoint index context stageKey progress => rw [show tag = _ from belongs]; rfl
  | manager process job progress => rw [show tag = _ from belongs]; rfl

theorem belongs_manager {tag : Tag} {process : Process} {job : ManagerProtocol.Job}
    {progress : ManagerProtocol.Progress}
    (belongs : (Phase.manager process job progress).belongs tag) : tag.process = process :=
  belongs_process belongs

theorem process_after {phase : Phase} (op : Op) (answer : op.Answer) :
    (phase.after op answer).process = phase.process := by
  cases phase <;> rfl

/-- The row as read since the thread was suspended last. -/
def seen : Phase → Option AgentRun
  | .execution _ _ progress => progress.seen
  | .tool _ progress => progress.seen
  | .stage _ _ _ progress => progress.seen
  | .checkpoint _ _ _ progress => progress.seen
  | .manager _ _ _ => none

def written : Phase → Option AgentRun
  | .execution _ _ progress =>
      match progress.step with
      | .running _ run => some run
      | .failed _ _ _ run => some run
      | .succeeded run => some run
      | .recovered run => some run
      | .ended run => some run
      | _ => none
  | _ => none

theorem opening_seen {phase : Phase} (opening : phase.Opening) : phase.seen = none := by
  cases phase <;> first | rfl | (cases opening; rfl)

theorem opening_written {phase : Phase} (opening : phase.Opening) : phase.written = none := by
  cases phase <;> first | rfl | (cases opening; rfl)

/-- The row as read last, where the thread has not derived another object from it. -/
def read : Phase → Option AgentRun
  | .manager _ .resend _ => none
  | .manager _ .delivery _ => none
  | .manager _ _ progress => progress.seen
  | phase => phase.seen

theorem opening_read {phase : Phase} (opening : phase.Opening) : phase.read = none := by
  cases phase with
  | manager process job progress =>
      rw [show progress = _ from opening]
      cases job <;> rfl
  | _ => exact opening_seen opening

end Phase

section Steps

variable {digest : Digest} {phase : Phase} {op : Op} {oracle : op.Answer} {state : State}

theorem stage_seen_after {index : Nat} {context : AgentContext} {stageKey : String}
    {progress : StageProtocol.Progress} {run : AgentRun}
    (permitted : StageProtocol.Permitted index context stageKey progress op)
    (seen : (progress.after op (Op.perform op oracle state).1).seen = some run) :
    (op = .run .get ∧ run = state.run) ∨ (op.awaits = false ∧ progress.seen = some run) := by
  cases permitted with
  | read =>
      cases seen
      exact Or.inl ⟨rfl, rfl⟩
  | external op other =>
      right
      rw [StageProtocol.Progress.after_external other] at seen
      simp only [StageProtocol.Progress.called] at seen
      split at seen
      · cases seen
      · next still => exact ⟨by simpa [Op.awaits] using still, seen⟩
  | operation _ => cases seen
  | _ => exact Or.inr ⟨rfl, seen⟩

theorem seen_after {run : AgentRun} (permitted : phase.permits digest op)
    (seen : (phase.after op (Op.perform op oracle state).1).seen = some run) :
    (op = .run .get ∧ run = state.run) ∨ (op.awaits = false ∧ phase.seen = some run) := by
  cases phase with
  | execution process worker progress =>
      cases permitted with
      | read =>
          cases seen
          exact Or.inl ⟨rfl, rfl⟩
      | external op other =>
          right
          simp only [Phase.after, Phase.seen, ExecutionProtocol.Progress.after,
            ExecutionProtocol.Progress.called] at seen
          split at seen
          · cases seen
          · next still => exact ⟨by simpa [Op.awaits] using still, seen⟩
      | _ => exact Or.inr ⟨rfl, seen⟩
  | tool context progress =>
      cases permitted with
      | read =>
          cases seen
          exact Or.inl ⟨rfl, rfl⟩
      | external op other =>
          right
          have called : (progress.called op).seen = some run := by
            cases op <;> exact seen
          simp only [ToolProtocol.Progress.called] at called
          split at called
          · cases called
          · next still => exact ⟨by simpa [Op.awaits] using still, called⟩
      | invokeFreely input _ => cases seen
      | invoke _ => cases seen
      | invokeBlank _ => cases seen
      | _ => exact Or.inr ⟨rfl, seen⟩
  | stage index context stageKey progress => exact stage_seen_after permitted seen
  | checkpoint index context stageKey progress => exact stage_seen_after permitted seen
  | manager process job progress => cases seen

/-- A thread reads the row afresh or keeps the one it has read. -/
theorem read_after {run : AgentRun} (permitted : phase.permits digest op)
    (read : (phase.after op (Op.perform op oracle state).1).read = some run) :
    (op = .run .get ∧ run = state.run) ∨ (op ≠ .run .get ∧ phase.read = some run) := by
  cases phase with
  | manager process job progress =>
      have kept : (op = .run .get ∧ run = state.run) ∨
          (op ≠ .run .get ∧ progress.seen = some run) ∨ job.dispatches := by
        cases permitted with
        | read =>
            left
            cases job <;> first | exact ⟨rfl, (Option.some.inj read).symm⟩ | cases read
        | delivered now attempt dispatches _ _ _ => exact Or.inr (Or.inr dispatches)
        | _ =>
            right
            left
            cases job <;> first | exact ⟨nofun, read⟩ | cases read
      rcases kept with fresh | ⟨other, kept⟩ | dispatches
      · exact Or.inl fresh
      · right
        cases job <;> first | exact ⟨other, kept⟩ | cases read
      · cases job <;> first | cases read | exact dispatches.elim
  | _ =>
      rcases seen_after permitted read with fresh | ⟨_, kept⟩
      · exact Or.inl fresh
      · by_cases same : op = .run .get
        · subst same
          cases read
          exact Or.inl ⟨rfl, rfl⟩
        · exact Or.inr ⟨same, kept⟩

end Steps

def readBy (thread : Nat) : PlatformEvent → Option AgentRun
  | .acted own _ (.run .get) answer _ _ => if own = thread then some answer else none
  | _ => none

def lastRead (thread : Nat) (past : List PlatformEvent) : Option AgentRun :=
  latest (readBy thread) past

def Fresh (past : List PlatformEvent) (phases : List Phase) : Prop :=
  ∀ (thread : Nat) phase run, phases[thread]? = some phase → phase.read = some run →
    lastRead thread past = some run

section Runs

variable {deployment : Deployment} {admitted : Entry → Bool} {past : List PlatformEvent}
  {phases : List Phase} {thread : Nat} {tag : Tag} {op : Op} {oracle : op.Answer}
  {state : State} {phase : Phase}

theorem readBy_get {oracle : AgentRun} :
    readBy thread ((platformSystem deployment admitted).performed thread tag (.run .get) oracle
      state) = some state.run := by
  simp [readBy, System.performed, platformSystem, Op.perform, RunOp.perform]

theorem readBy_other {index : Nat} (other : index ≠ thread ∨ op ≠ .run .get) :
    readBy index ((platformSystem deployment admitted).performed thread tag op oracle state) =
      none := by
  unfold readBy System.performed
  split
  · next same =>
      cases same
      rcases other with different | another
      · simp [Ne.symm different]
      · exact absurd rfl another
  · rfl

theorem lastRead_snoc (event : PlatformEvent) :
    lastRead thread (past ++ [event]) = (readBy thread event).or (lastRead thread past) :=
  latest_snoc _ _ _

theorem fresh_inductive : (discipline deployment admitted).Inductive (fun _ _ => True)
    fun past _ phases => Fresh past phases where
  acts past state phases thread tag op oracle phase fresh present _ permitted _ := by
    intro index later run found read
    rw [lastRead_snoc]
    rcases observe_phase present found with ⟨rfl, rfl⟩ | ⟨different, kept⟩
    · rcases read_after permitted read with ⟨rfl, rfl⟩ | ⟨other, kept⟩
      · rw [readBy_get]
        rfl
      · rw [readBy_other (Or.inr other)]
        exact fresh index phase run present kept
    · rw [readBy_other (Or.inl different)]
      exact fresh index later run kept read
  launches past config phases entry state spawned _ fresh launched _ := by
    intro index later run found read
    rw [lastRead_snoc]
    rcases launch_phase launched found with old | ⟨_, start⟩
    · exact fresh index later run old read
    · rw [Phase.opening_read (Entry.phase_opening start)] at read
      cases read

theorem fresh_initial : Fresh [] [] := by
  intro thread phase run found
  cases found

theorem read_row {start : State} {left right : List PlatformEvent} {read : PlatformEvent}
    {answer : AgentRun} {final : PlatformConfig}
    (run : (platformSystem deployment admitted).Run (atRest start) (left ++ read :: right) final)
    (reads : readBy thread read = some answer) : read.after.run = answer := by
  unfold readBy at reads
  split at reads
  · next own tag given before after =>
      obtain ⟨phase, oracle, _, _, _, same⟩ :=
        Discipline.run_permits (D := discipline deployment admitted) run rfl
      cases same
      split at reads
      · exact Option.some.inj reads
      · cases reads
  · cases reads

end Runs

def Op.replacement : Op → Option AgentRun
  | .run (.updateIfCurrent _ _ row) => some row
  | _ => none

def storedBy (thread : Nat) : PlatformEvent → Option AgentRun
  | .acted own _ (.run (.updateIfCurrent _ _ row)) answer _ _ =>
      if own = thread ∧ answer = true then some row else none
  | _ => none

def lastStored (thread : Nat) (past : List PlatformEvent) : Option AgentRun :=
  latest (storedBy thread) past

structure Remembers (past : List PlatformEvent) (phases : List Phase) : Prop where
  written : ∀ (thread : Nat) phase run, phases[thread]? = some phase →
    phase.written = some run → lastStored thread past = some run
  opening : ∀ (thread : Nat) process worker progress,
    phases[thread]? = some (.execution process worker progress) → progress.step = .opening →
    lastStored thread past = none
  unborn : ∀ (thread : Nat), phases.length ≤ thread → lastStored thread past = none

section Runs

variable {deployment : Deployment} {admitted : Entry → Bool} {past : List PlatformEvent}
  {phases : List Phase} {thread : Nat} {tag : Tag} {op : Op} {oracle : op.Answer}
  {state : State} {phase : Phase}

theorem lastStored_snoc (event : PlatformEvent) :
    lastStored thread (past ++ [event]) = (storedBy thread event).or (lastStored thread past) :=
  latest_snoc _ _ _

theorem storedBy_update {site : Site} {expected : Expected} {row : AgentRun} {oracle : Bool} :
    storedBy thread ((platformSystem deployment admitted).performed thread tag
      (.run (.updateIfCurrent site expected row)) oracle state) =
      if expected.admits state.run = true then some row else none := by
  by_cases hit : expected.admits state.run = true <;>
    simp [storedBy, System.performed, platformSystem, Op.perform, RunOp.perform,
      State.updateIfCurrent, hit]

theorem storedBy_other {index : Nat} (other : index ≠ thread ∨ op.replacement = none) :
    storedBy index ((platformSystem deployment admitted).performed thread tag op oracle state) =
      none := by
  unfold storedBy System.performed
  split
  · next same =>
      cases same
      rcases other with different | another
      · simp [Ne.symm different]
      · cases another
  · rfl

theorem storedBy_inv {index : Nat} {row : AgentRun} (stores : storedBy index
    ((platformSystem deployment admitted).performed thread tag op oracle state) = some row) :
    index = thread ∧ ∃ site expected, op = .run (.updateIfCurrent site expected row) ∧
      expected.admits state.run = true := by
  by_cases own : index = thread
  · subst own
    refine ⟨rfl, ?_⟩
    cases written : op.replacement with
    | none =>
        rw [storedBy_other (Or.inr written)] at stores
        cases stores
    | some _ =>
        unfold Op.replacement at written
        split at written
        · next site expected stored =>
            rw [storedBy_update] at stores
            split at stores
            · next hit =>
                cases stores
                exact ⟨site, expected, rfl, hit⟩
            · cases stores
        · cases written
  · rw [storedBy_other (Or.inl own)] at stores
    cases stores

theorem written_stored {digest : Digest} {run : AgentRun} (remembers : Remembers past phases)
    (present : phases[thread]? = some phase) (permitted : phase.permits digest op)
    (wrote : (phase.after op (Op.perform op oracle state).1).written = some run) :
    (storedBy thread ((platformSystem deployment admitted).performed thread tag op oracle state)).or
      (lastStored thread past) = some run := by
  have kept : op.replacement = none → phase.written = some run →
      (storedBy thread ((platformSystem deployment admitted).performed thread tag op oracle
        state)).or (lastStored thread past) = some run := by
    intro silent before
    rw [storedBy_other (Or.inr silent)]
    exact remembers.written thread phase run present before
  cases phase with
  | execution process worker progress =>
      cases op with
      | run op =>
          cases op with
          | updateIfCurrent site expected row =>
              rw [storedBy_update]
              by_cases hit : expected.admits state.run = true
              · simp only [Phase.after, ExecutionProtocol.Progress.after, Op.perform,
                  RunOp.perform, State.updateIfCurrent, hit, if_true] at wrote
                rw [if_pos hit]
                cases site <;> cases wrote <;> rfl
              · simp only [Phase.after, ExecutionProtocol.Progress.after, Op.perform,
                  RunOp.perform, State.updateIfCurrent, hit] at wrote
                cases site <;> cases wrote
          | updateRunWithCallback site expected row delivery =>
              cases permitted with
              | prepareCallback url body now _ _ _ _ _ _ => cases wrote
          | _ => exact kept rfl wrote
      | stage op => cases permitted
      | callback op => cases op <;> exact kept rfl wrote
      | process op => cases op <;> exact kept rfl wrote
      | external op => exact kept rfl wrote
  | _ => cases wrote

theorem opening_stored {progress : ExecutionProtocol.Progress}
    (step : (progress.after op (Op.perform op oracle state).1).step = .opening) :
    progress.step = .opening ∧ op.replacement = none := by
  cases op with
  | run op =>
      cases op with
      | updateIfCurrent site expected row =>
          simp only [ExecutionProtocol.Progress.after] at step
          generalize (Op.perform (.run (.updateIfCurrent site expected row)) oracle state).1 = stored
            at step
          cases site <;> cases stored <;> cases step
      | updateRunWithCallback site expected row delivery =>
          simp only [ExecutionProtocol.Progress.after] at step
          generalize (Op.perform (.run (.updateRunWithCallback site expected row delivery)) oracle
            state).1 = stored at step
          cases site <;> cases stored <;> cases step
      | _ => exact ⟨step, rfl⟩
  | callback op => cases op <;> exact ⟨step, rfl⟩
  | process op => cases op <;> exact ⟨step, rfl⟩
  | _ => exact ⟨step, rfl⟩

theorem remembers_inductive : (discipline deployment admitted).Inductive (fun _ _ => True)
    fun past _ phases => Remembers past phases where
  acts past state phases thread tag op oracle phase remembers present _ permitted _ := by
    have inside := (List.getElem?_eq_some_iff.mp present).1
    constructor
    · intro index later run found wrote
      rw [lastStored_snoc]
      rcases observe_phase present found with ⟨rfl, rfl⟩ | ⟨different, kept⟩
      · exact written_stored remembers present permitted wrote
      · rw [storedBy_other (Or.inl different)]
        exact remembers.written index later run kept wrote
    · intro index process worker progress found step
      rw [lastStored_snoc]
      rcases observe_phase present found with ⟨rfl, same⟩ | ⟨different, kept⟩
      · cases phase with
        | execution own other before =>
            cases same
            obtain ⟨opening, silent⟩ := opening_stored step
            rw [storedBy_other (Or.inr silent)]
            exact remembers.opening index process worker before present opening
        | _ => cases same
      · rw [storedBy_other (Or.inl different)]
        exact remembers.opening index process worker progress kept step
    · intro index outside
      rw [lastStored_snoc]
      have length : phases.length ≤ index := by
        simpa [System.performed, Discipline.observe] using outside
      rw [storedBy_other (Or.inl (by omega))]
      exact remembers.unborn index length
  launches past config phases entry state spawned _ remembers launched _ := by
    constructor
    · intro index later run found wrote
      rw [lastStored_snoc]
      rcases launch_phase launched found with old | ⟨_, start⟩
      · exact remembers.written index later run old wrote
      · rw [Phase.opening_written (Entry.phase_opening start)] at wrote
        cases wrote
    · intro index process worker progress found step
      rw [lastStored_snoc]
      rcases launch_phase launched found with old | ⟨last, _⟩
      · exact remembers.opening index process worker progress old step
      · exact remembers.unborn index (by omega)
    · intro index outside
      rw [lastStored_snoc]
      rw [observe_launch phases launched, List.length_append] at outside
      exact remembers.unborn index (by omega)

theorem stored_row {start : State} {left right : List PlatformEvent} {store : PlatformEvent}
    {row : AgentRun} {final : PlatformConfig}
    (run : (platformSystem deployment admitted).Run (atRest start) (left ++ store :: right) final)
    (stores : storedBy thread store = some row) : store.after.run = row := by
  cases store with
  | launched entry spawned before after => cases stores
  | acted own tag op answer before after =>
      obtain ⟨phase, oracle, _, _, _, same⟩ :=
        Discipline.run_permits (D := discipline deployment admitted) run rfl
      cases same
      obtain ⟨_, site, expected, rfl, hit⟩ := storedBy_inv stores
      exact stores_run ⟨rfl, rfl, rfl⟩ hit

theorem remembers_initial : Remembers [] [] := by
  constructor
  · intro thread phase run found
    cases found
  · intro thread process worker progress found
    cases found
  · intro thread _
    rfl

end Runs

/-- Since the thread read the row, other commits have left another view of it. -/
def Overtaken {View : Type} (view : AgentRun → View) (thread : Nat)
    (past : List PlatformEvent) : Prop :=
  ∃ left read between last answer, past = left ++ read :: (between ++ [last]) ∧
    readBy thread read = some answer ∧
    (∀ event ∈ between ++ [last], readBy thread event = none) ∧
    view last.after.run ≠ view answer

theorem overtaken_iff {View : Type} (view : AgentRun → View) {deployment : Deployment}
    {admitted : Entry → Bool} {state : State} {past later : List PlatformEvent}
    {commit : PlatformEvent} {final : PlatformConfig} {thread : Nat} {read : AgentRun}
    (run : (platformSystem deployment admitted).Run (atRest state) (past ++ commit :: later)
      final) (known : lastRead thread past = some read) :
    Overtaken view thread past ↔ view commit.before.run ≠ view read := by
  show System.Since (readBy thread) (fun state answer => view state.run ≠ view answer) past ↔ _
  apply run.since_iff known
  intro left event right split reads moved
  rw [split, List.append_assoc] at run
  rw [read_row run reads] at moved
  exact moved rfl

end AgentTaskPlatform
