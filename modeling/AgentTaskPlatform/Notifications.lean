import AgentTaskPlatform.Preparations
import AgentTaskPlatform.RunService

/-!
Announcements of outcomes. A path stores the outcome of the run and may prepare a
delivery for it afterwards. `cancel`, the exception branch of `_run_background`
and a rejected submission store an outcome and prepare nothing; an execution
prepares its delivery after the outcome, where a raise or a lost row is in time
to prevent it.
-/

namespace AgentTaskPlatform.Notifications

open Interleaving CallbackService RunExecutor

/-- Updates by which a path decides the outcome of the run, or opens it again. -/
def decides : Site → Bool
  | .attemptStart _ => true
  | .agentSucceeded => true
  | .attemptFailed _ _ _ => true
  | .recovered => true
  | .finish => true
  | .backgroundFailure => true
  | .cancel => true
  | _ => false

/-- Outcomes that are handed to `prepare_for_run`. -/
def announces : Site → Bool
  | .agentSucceeded => true
  | .recovered => true
  | .finish => true
  | _ => false

def outcomeBy (thread : Nat) : PlatformEvent → Option (Site × AgentRun)
  | .acted own _ (.run (.updateIfCurrent site _ row)) answer _ _ =>
      if own = thread ∧ answer = true ∧ decides site = true then some (site, row) else none
  | _ => none

def preparedBy (thread : Nat) : PlatformEvent → Option CallbackDelivery
  | .acted own _ (.run (.updateRunWithCallback .prepareCallback _ _ delivery)) answer _ _ =>
      if own = thread ∧ answer = true then some delivery else none
  | _ => none

/-- A call of the thread raises, or its preparation finds that the row has moved on. -/
def hinderedBy (thread : Nat) : PlatformEvent → Option Unit
  | .acted own _ (.external _) (.error _) _ _ => if own = thread then some () else none
  | .acted own _ (.run (.updateRunWithCallback .prepareCallback _ _ _)) answer _ _ =>
      if own = thread ∧ answer = false then some () else none
  | _ => none

def decidedBy (thread : Nat) (event : PlatformEvent) : Bool := (outcomeBy thread event).isSome

def outcome (thread : Nat) (past : List PlatformEvent) : Option (Site × AgentRun) :=
  latest (outcomeBy thread) past

def prepared (thread : Nat) (past : List PlatformEvent) : Option CallbackDelivery :=
  latestSince (decidedBy thread) (preparedBy thread) past

def hindered (thread : Nat) (past : List PlatformEvent) : Bool :=
  (latestSince (decidedBy thread) (hinderedBy thread) past).isSome

def Tells (row : AgentRun) (delivery : CallbackDelivery) : Prop :=
  ∃ body, delivery.payload = some body ∧ tells body row

def Fits (row : AgentRun) (found : Option (Option CallbackDelivery)) : Prop :=
  ∀ delivery body, found = some (some delivery) → delivery.payload = some body → tells body row

theorem tells_deliveryFor {row : AgentRun} {existing : Option CallbackDelivery} {eventId : Uuid}
    {url : String} {body : CallbackPayload} {now : Nat} (told : tells body row) :
    Tells row (deliveryFor existing eventId url body now) ↔ Fits row (some existing) := by
  unfold Tells Fits
  cases existing with
  | none =>
      constructor
      · rintro _ delivery kept same
        cases same
      · intro _
        exact ⟨body, rfl, told⟩
  | some delivery =>
      cases frozen : delivery.payload with
      | none =>
          constructor
          · rintro _ _ kept same payload
            cases same
            rw [frozen] at payload
            cases payload
          · intro _
            exact ⟨body, by simp [deliveryFor, frozen], told⟩
      | some kept =>
          have stored : (deliveryFor (some delivery) eventId url body now).payload = some kept := by
            simp [deliveryFor, frozen]
          rw [stored]
          constructor
          · rintro ⟨_, same, fits⟩ _ _ found payload
            cases same
            cases found
            rw [frozen] at payload
            cases payload
            exact fits
          · intro fits
            exact ⟨kept, rfl, fits delivery kept rfl frozen⟩

def holds : ExecutionProtocol.Step → Site → AgentRun → Prop
  | .succeeded run, .agentSucceeded, row => row = run
  | .recovered run, .recovered, row => row = run
  | .ended run, .finish, row => row = run
  | _, _, _ => False

def Silent (step : ExecutionProtocol.Step) : Prop := ∀ run, ¬ step.prepares run

inductive Stands (found : Option (Option CallbackDelivery)) :
    ExecutionProtocol.Step → Bool → Option (Site × AgentRun) → Option CallbackDelivery → Bool → Prop
  | silent {step raised known hindered} : Silent step →
      (∀ site row, known = some (site, row) → announces site = true →
        hindered = true ∨ subscribes row = false) →
      Stands found step raised known none hindered
  | due {step raised site row} : holds step site row →
      Stands found step raised (some (site, row)) none raised
  | done {step raised site row delivery} : announces site = true → Silent step →
      ¬ step.mayBreak → (Tells row delivery ↔ Fits row found) →
      Stands found step raised (some (site, row)) (some delivery) false

section Steps

variable {found : Option (Option CallbackDelivery)} {step : ExecutionProtocol.Step}
  {raised hindered : Bool} {known : Option (Site × AgentRun)} {delivery : Option CallbackDelivery}
  {site : Site} {row : AgentRun}

theorem holds_announces (stored : holds step site row) : announces site = true := by
  unfold holds at stored
  split at stored
  · rfl
  · rfl
  · rfl
  · exact stored.elim

theorem holds_prepares {run : AgentRun} (stored : holds step site row)
    (prepares : step.prepares run) : run = row := by
  unfold holds at stored
  split at stored
  · rw [stored]
    exact prepares
  · rw [stored]
    exact prepares.1
  · rw [stored]
    exact prepares.1
  · exact stored.elim

theorem holds_releases (stored : holds step site row) (releases : step.releases) :
    subscribes row = false := by
  have unaddressed : ∀ run : AgentRun, run.callbackUrl.isSome = false → subscribes run = false := by
    intro run missing
    rw [subscribes, missing]
    rfl
  unfold holds at stored
  split at stored
  · exact releases.elim
  · rw [stored]
    exact unaddressed _ releases
  · rw [stored]
    exact unaddressed _ releases
  · exact stored.elim

theorem silent_settled : Silent .settled := fun _ prepares => prepares
theorem silent_closed : Silent .closed := fun _ prepares => prepares

def Working : ExecutionProtocol.Step → Prop
  | .opening => True
  | .running _ _ => True
  | .failed _ _ _ _ => True
  | _ => False

theorem working_breaks (working : Working step) : step.mayBreak := by
  cases step <;> first | exact working.elim | trivial

theorem working_holds (working : Working step) : ¬ holds step site row := by
  intro stored
  cases step <;> first | exact working.elim | exact stored.elim

/-- An execution that has nothing to announce closes without an announcement. -/
theorem Stands.gives_up (stands : Stands found step raised known delivery hindered)
    (working : Working step) : Stands found .closed false known delivery hindered := by
  cases stands with
  | silent _ excused => exact .silent silent_closed excused
  | due stored => exact absurd stored (working_holds working)
  | done _ _ unbroken _ => exact absurd (working_breaks working) unbroken

theorem Stands.released (stands : Stands found step raised known delivery hindered)
    (releases : step.releases) : Stands found .closed false known delivery hindered := by
  cases stands with
  | silent _ excused => exact .silent silent_closed excused
  | due stored =>
      apply Stands.silent silent_closed
      rintro site row same _
      cases same
      exact Or.inr (holds_releases stored releases)
  | done announced _ _ told => exact .done announced silent_closed (fun breaks => breaks) told

theorem Stands.declined {run : AgentRun}
    (stands : Stands found step raised known delivery hindered) (prepares : step.prepares run)
    (unasked : subscribes run = false) :
    Stands found .settled false known delivery hindered := by
  cases stands with
  | silent quiet _ => exact absurd prepares (quiet run)
  | due stored =>
      apply Stands.silent silent_settled
      rintro site row same _
      cases same
      rw [← holds_prepares stored prepares]
      exact Or.inr unasked
  | done _ quiet _ _ => exact absurd prepares (quiet run)

theorem Stands.broken (stands : Stands found step raised known delivery hindered)
    (breaks : step.mayBreak) : Stands found step true known delivery true := by
  cases stands with
  | silent quiet _ => exact .silent quiet fun _ _ _ _ => Or.inl rfl
  | due stored => exact .due stored
  | done _ _ unbroken _ => exact absurd breaks unbroken

/-- The exception branch of `_run_background` misses the row. -/
theorem Stands.failed (stands : Stands found step true known delivery hindered)
    (breaks : step.mayBreak) : Stands found .closed false known delivery hindered := by
  cases stands with
  | silent _ excused => exact .silent silent_closed excused
  | due _ => exact .silent silent_closed fun _ _ _ _ => Or.inl rfl
  | done _ _ unbroken _ => exact absurd breaks unbroken

theorem Stands.announced {run : AgentRun} {existing : Option CallbackDelivery} {eventId : Uuid}
    {url : String} {body : CallbackPayload} {now : Nat}
    (stands : Stands (some existing) step false known delivery hindered)
    (prepares : step.prepares run) (told : tells body run) :
    Stands (some existing) .settled false known
      (some (deliveryFor existing eventId url body now)) hindered := by
  cases stands with
  | silent quiet _ => exact absurd prepares (quiet run)
  | due stored =>
      have same := holds_prepares stored prepares
      subst same
      exact .done (holds_announces stored) silent_settled (fun breaks => breaks)
        (tells_deliveryFor told)
  | done _ quiet _ _ => exact absurd prepares (quiet run)

theorem Stands.overtaken {run : AgentRun}
    (stands : Stands found step raised known delivery hindered) (prepares : step.prepares run) :
    Stands found .settled raised known delivery true := by
  cases stands with
  | silent quiet _ => exact absurd prepares (quiet run)
  | due _ => exact .silent silent_settled fun _ _ _ _ => Or.inl rfl
  | done _ quiet _ _ => exact absurd prepares (quiet run)

theorem Stands.looked {run : AgentRun} {fresh : Option (Option CallbackDelivery)}
    (stands : Stands found step raised known delivery hindered) (prepares : step.prepares run) :
    Stands fresh step raised known delivery hindered := by
  cases stands with
  | silent quiet _ => exact absurd prepares (quiet run)
  | due stored => exact .due stored
  | done _ quiet _ _ => exact absurd prepares (quiet run)

theorem Stands.concluded {progress : ExecutionProtocol.Progress} {result : Except Exc Json}
    (stands : Stands found progress.step progress.raised (some (site, row)) delivery hindered)
    (ends : ExecutionProtocol.Ends result progress) (subscribed : subscribes row = true) :
    (∃ stored, delivery = some stored ∧ Tells row stored) ↔
      announces site = true ∧ hindered = false ∧ Fits row found := by
  cases stands with
  | silent _ excused =>
      constructor
      · rintro ⟨_, same, _⟩
        cases same
      · rintro ⟨announced, unhindered, _⟩
        rcases excused site row rfl announced with late | unasked
        · rw [late] at unhindered
          cases unhindered
        · rw [subscribed] at unasked
          cases unasked
  | due stored =>
      constructor
      · rintro ⟨_, same, _⟩
        cases same
      · rintro ⟨_, unraised, _⟩
        cases result with
        | error error =>
            rw [ends.2] at unraised
            cases unraised
        | ok value =>
            have rests : progress.rests := ends
            have unasked : subscribes row = false := by
              unfold ExecutionProtocol.Progress.rests at rests
              cases step : progress.step <;> rw [step] at stored rests <;>
                first
                | exact stored.elim
                | exact rests.elim
                | exact holds_releases stored rests.1
            rw [subscribed] at unasked
            cases unasked
  | done announced _ _ told =>
      constructor
      · rintro ⟨_, same, tells⟩
        cases same
        exact ⟨announced, rfl, told.mp tells⟩
      · rintro ⟨_, _, fits⟩
        exact ⟨_, rfl, told.mpr fits⟩

end Steps

section Executions

variable {deployment : Deployment} {admitted : Entry → Bool} {past : List PlatformEvent}
  {process : Process} {worker : Option Process} {progress : ExecutionProtocol.Progress}
  {thread : Nat} {tag : Tag} {op : Op} {oracle : op.Answer} {state : State}
  {event : PlatformEvent}

theorem outcome_snoc : outcome thread (past ++ [event]) =
    (outcomeBy thread event).or (outcome thread past) :=
  latest_snoc _ _ _

theorem prepared_snoc : prepared thread (past ++ [event]) =
    if decidedBy thread event then none
    else (preparedBy thread event).or (prepared thread past) :=
  latestSince_snoc _ _ _ _

theorem hindered_snoc : hindered thread (past ++ [event]) =
    (!decidedBy thread event && ((hinderedBy thread event).isSome || hindered thread past)) := by
  unfold hindered
  rw [latestSince_snoc]
  cases decidedBy thread event <;> simp [Option.isSome_or]

def Standing (thread : Nat) (past : List PlatformEvent)
    (progress : ExecutionProtocol.Progress) : Prop :=
  Stands (Preparations.lastFound thread past) progress.step progress.raised
    (outcome thread past) (prepared thread past) (hindered thread past)

def Indifferent (thread : Nat) (event : PlatformEvent) : Prop :=
  outcomeBy thread event = none ∧ preparedBy thread event = none ∧ hinderedBy thread event = none

theorem indifferent_kept (past : List PlatformEvent) (indifferent : Indifferent thread event) :
    outcome thread (past ++ [event]) = outcome thread past ∧
      prepared thread (past ++ [event]) = prepared thread past ∧
      hindered thread (past ++ [event]) = hindered thread past := by
  obtain ⟨undecided, unprepared, unhindered⟩ := indifferent
  rw [outcome_snoc, prepared_snoc, hindered_snoc, decidedBy, undecided, unprepared, unhindered]
  simp

theorem Standing.kept {after : ExecutionProtocol.Progress}
    (standing : Standing thread past progress) (indifferent : Indifferent thread event)
    (same : after.step = progress.step) (raised : after.raised = progress.raised)
    (unfound : Preparations.foundBy thread event = none) :
    Standing thread (past ++ [event]) after := by
  obtain ⟨outcome, prepared, hindered⟩ := indifferent_kept past indifferent
  unfold Standing
  rw [Preparations.lastFound_snoc, unfound, outcome, prepared, hindered, same, raised]
  exact standing

theorem standing_update {site : Site} {expected : Expected} {row : AgentRun} {oracle : Bool}
    (decided : decides site = true)
    (stored : Stands (Preparations.lastFound thread past) (progress.step.after site row true)
      false (some (site, row)) none false)
    (missed : Stands (Preparations.lastFound thread past) (progress.step.after site row false)
      false (outcome thread past) (prepared thread past) (hindered thread past)) :
    Standing thread (past ++ [(platformSystem deployment admitted).performed thread tag
      (.run (.updateIfCurrent site expected row)) oracle state])
      (progress.after (.run (.updateIfCurrent site expected row))
        (Op.perform (.run (.updateIfCurrent site expected row)) oracle state).1) := by
  unfold Standing
  rw [Preparations.lastFound_snoc, outcome_snoc, prepared_snoc, hindered_snoc]
  by_cases hit : expected.admits state.run = true
  · simpa [Preparations.foundBy, decidedBy, outcomeBy, System.performed, platformSystem,
      Op.perform, RunOp.perform, State.updateIfCurrent, hit, decided,
      ExecutionProtocol.Progress.after] using stored
  · simpa [Preparations.foundBy, decidedBy, outcomeBy, preparedBy, hinderedBy, System.performed,
      platformSystem, Op.perform, RunOp.perform, State.updateIfCurrent, hit, decided,
      ExecutionProtocol.Progress.after] using missed

theorem standing_follows {site : Site} {expected : Expected} {row : AgentRun} {oracle : Bool}
    (undecided : decides site = false)
    (either : ∀ hit, Stands (Preparations.lastFound thread past) (progress.step.after site row hit)
      false (outcome thread past) (prepared thread past) (hindered thread past)) :
    Standing thread (past ++ [(platformSystem deployment admitted).performed thread tag
      (.run (.updateIfCurrent site expected row)) oracle state])
      (progress.after (.run (.updateIfCurrent site expected row))
        (Op.perform (.run (.updateIfCurrent site expected row)) oracle state).1) := by
  have indifferent : Indifferent thread ((platformSystem deployment admitted).performed thread tag
      (.run (.updateIfCurrent site expected row)) oracle state) := by
    refine ⟨?_, rfl, rfl⟩
    simp [outcomeBy, System.performed, undecided]
  obtain ⟨outcome, prepared, hindered⟩ := indifferent_kept past indifferent
  unfold Standing
  rw [Preparations.lastFound_snoc, outcome, prepared, hindered]
  exact either _

theorem standing_after (standing : Standing thread past progress)
    (looked : ∀ eventId existing, progress.delivery = some (eventId, existing) →
      Preparations.lastFound thread past = some existing)
    (permitted : ExecutionProtocol.Permitted process worker progress op) :
    Standing thread (past ++ [(platformSystem deployment admitted).performed thread tag op oracle
      state]) (progress.after op (Op.perform op oracle state).1) := by
  cases permitted with
  | lookUp eventId prepares =>
      have indifferent : Indifferent thread ((platformSystem deployment admitted).performed thread
        tag (.callback (.get eventId)) oracle state) := ⟨rfl, rfl, rfl⟩
      obtain ⟨outcome, prepared, hindered⟩ := indifferent_kept past indifferent
      unfold Standing
      rw [outcome, prepared, hindered]
      exact Stands.looked standing prepares
  | external op silent breaks =>
      cases oracle with
      | ok answer =>
          exact standing.kept ⟨rfl, rfl, rfl⟩ rfl (Bool.or_false _) rfl
      | error error =>
          unfold Standing
          rw [Preparations.lastFound_snoc, outcome_snoc, prepared_snoc, hindered_snoc]
          have broken := Stands.broken standing breaks
          simpa [Preparations.foundBy, decidedBy, outcomeBy, preparedBy, hinderedBy,
            System.performed, platformSystem, Op.perform, ExecutionProtocol.Progress.after,
            ExecutionProtocol.Progress.called, Except.isOk, Except.toBool] using broken
  | attemptStart attempt now seen uncanceled mayStart positive =>
      have working : Working progress.step := by
        cases step : progress.step <;> rw [step] at mayStart <;>
          first | exact mayStart.elim | trivial
      apply standing_update rfl
      · exact .silent (fun _ prepares => prepares) (by rintro _ _ same late; cases same; cases late)
      · exact Stands.gives_up standing working
  | agentSucceeded output now running seen =>
      apply standing_update rfl
      · exact .due rfl
      · exact Stands.gives_up standing (by rw [running]; trivial)
  | attemptFailed attempts timeout error running bounded =>
      apply standing_update rfl
      · exact .silent (fun _ prepares => prepares) (by rintro _ _ same late; cases same; cases late)
      · exact Stands.gives_up standing (by rw [running]; trivial)
  | recovered attempts timeout error result now running =>
      apply standing_update rfl
      · exact .due rfl
      · exact Stands.gives_up standing (by rw [running]; trivial)
  | finish now finishes =>
      have working : Working progress.step := by
        unfold ExecutionProtocol.Progress.finishes at finishes
        cases step : progress.step <;> rw [step] at finishes <;>
          first | exact finishes.elim | trivial
      apply standing_update rfl
      · exact .due rfl
      · exact Stands.gives_up standing working
  | backgroundFailure error seen breaks raised =>
      apply standing_update rfl
      · exact .silent silent_closed (by rintro _ _ same late; cases same; cases late)
      · unfold Standing at standing
        rw [raised] at standing
        exact standing.failed breaks
  | skipCallback prepares declined =>
      exact standing_follows rfl fun _ => Stands.declined standing prepares declined
  | release seen releases =>
      exact standing_follows rfl fun _ => Stands.released standing releases
  | deadLetter reason seen releases =>
      exact standing_follows rfl fun _ => Stands.released standing releases
  | @prepareCallback run eventId existing url body now prepares subscribed known named told
      unraised =>
      have last := looked _ _ known
      unfold Standing at standing ⊢
      rw [unraised, last] at standing
      rw [Preparations.lastFound_snoc, outcome_snoc, prepared_snoc, hindered_snoc, last]
      have told : Stands (some existing) .settled false (outcome thread past)
          (some (deliveryFor existing eventId url body now)) (hindered thread past) :=
        standing.announced prepares told
      have overtaken := standing.overtaken prepares
      by_cases hit : (ExecutionProtocol.owned run.worker [run.status]).admits state.run = true
      · simpa [Preparations.foundBy, decidedBy, outcomeBy, preparedBy, hinderedBy,
          System.performed, platformSystem, Op.perform, RunOp.perform, hit,
          ExecutionProtocol.Progress.after, ExecutionProtocol.Step.after, unraised] using told
      · simpa [Preparations.foundBy, decidedBy, outcomeBy, preparedBy, hinderedBy,
          System.performed, platformSystem, Op.perform, RunOp.perform, hit,
          ExecutionProtocol.Progress.after, ExecutionProtocol.Step.after, unraised] using overtaken
  | _ => exact standing.kept ⟨rfl, rfl, rfl⟩ rfl rfl rfl

end Executions

section Runs

variable {deployment : Deployment} {admitted : Entry → Bool} {past : List PlatformEvent}
  {phases : List Phase} {thread : Nat} {tag : Tag} {op : Op} {oracle : op.Answer}
  {state : State} {phase : Phase}

theorem decides_permitted {digest : Digest} {site : Site} {expected : Expected} {row : AgentRun}
    (decided : decides site = true)
    (permitted : phase.permits digest (.run (.updateIfCurrent site expected row))) :
    (∃ process worker progress, phase = .execution process worker progress) ∨
      (site = .cancel ∧ ∃ process progress, phase = .manager process .cancel progress) := by
  cases phase with
  | execution process worker progress => exact Or.inl ⟨process, worker, progress, rfl⟩
  | manager process job progress =>
      cases permitted with
      | cancel now own _ _ =>
          cases own
          exact Or.inr ⟨rfl, process, progress, rfl⟩
      | _ => cases decided
  | tool context progress =>
      cases permitted
      cases decided
  | stage index context stageKey progress =>
      cases permitted
      cases decided
  | checkpoint index context stageKey progress =>
      cases permitted
      cases decided

theorem indifferent_other {index : Nat} (other : index ≠ thread) :
    Indifferent index ((platformSystem deployment admitted).performed thread tag op oracle
      state) := by
  have apart : thread ≠ index := fun same => other same.symm
  refine ⟨?_, ?_, ?_⟩
  · unfold outcomeBy System.performed
    split <;> next same => first | rfl | (cases same; simp [apart])
  · unfold preparedBy System.performed
    split <;> next same => first | rfl | (cases same; simp [apart])
  · unfold hinderedBy System.performed
    split <;> next same => first | rfl | (cases same; simp [apart])

structure Inv (past : List PlatformEvent) (phases : List Phase) : Prop where
  found : Preparations.Found past phases
  executions : ∀ (thread : Nat) process worker progress,
    phases[thread]? = some (.execution process worker progress) → Standing thread past progress
  others : ∀ (thread : Nat) phase site row, phases[thread]? = some phase →
    outcome thread past = some (site, row) →
    (∃ process worker progress, phase = .execution process worker progress) ∨
      (site = .cancel ∧ (∃ process progress, phase = .manager process .cancel progress) ∧
        prepared thread past = none)
  unborn : ∀ (thread : Nat), phases.length ≤ thread →
    outcome thread past = none ∧ prepared thread past = none ∧ hindered thread past = false

theorem inv_initial : Inv [] [] := by
  constructor
  · intro thread phase eventId existing found
    cases found
  · intro thread process worker progress found
    cases found
  · intro thread phase site row found
    cases found
  · intro thread _
    exact ⟨rfl, rfl, rfl⟩

theorem others_after {digest : Digest} {site : Site} {row : AgentRun}
    (inv : Inv past phases) (present : phases[thread]? = some phase)
    (permitted : phase.permits digest op)
    (decided : outcome thread (past ++ [(platformSystem deployment admitted).performed thread tag
      op oracle state]) = some (site, row)) :
    (∃ process worker progress, phase = .execution process worker progress) ∨
      (site = .cancel ∧ (∃ process progress, phase = .manager process .cancel progress) ∧
        prepared thread (past ++ [(platformSystem deployment admitted).performed thread tag op
          oracle state]) = none) := by
  rw [outcome_snoc] at decided
  rw [prepared_snoc, decidedBy]
  cases now : outcomeBy thread
      ((platformSystem deployment admitted).performed thread tag op oracle state) with
  | some own =>
      rw [now] at decided
      cases decided
      unfold outcomeBy System.performed at now
      split at now
      · next same =>
          cases same
          split at now
          · next picked =>
              cases now
              exact (decides_permitted picked.2.2 permitted).imp_right
                fun ⟨site, manager⟩ => ⟨site, manager, rfl⟩
          · cases now
      · cases now
  | none =>
      rw [now] at decided
      rcases inv.others thread phase site row present decided with
        execution | ⟨canceled, ⟨process, progress, rfl⟩, unprepared⟩
      · exact Or.inl execution
      · refine Or.inr ⟨canceled, ⟨process, progress, rfl⟩, ?_⟩
        have silent : preparedBy thread
            ((platformSystem deployment admitted).performed thread tag op oracle state) = none := by
          unfold preparedBy System.performed
          split
          · next same =>
              cases same
              cases permitted with
              | prepareCallback url body now notifies _ _ _ _ _ => exact notifies.elim
          · rfl
        rw [silent, unprepared]
        rfl

theorem inv_inductive : (discipline deployment admitted).Inductive (fun _ _ => True)
    fun past _ phases => Inv past phases where
  acts past state phases thread tag op oracle phase inv present belongs permitted allowed := by
    have inside := (List.getElem?_eq_some_iff.mp present).1
    constructor
    · exact Preparations.found_inductive.acts past state phases thread tag op oracle phase inv.found
        present belongs permitted allowed
    · intro index process worker progress found
      rcases observe_phase present found with ⟨rfl, same⟩ | ⟨different, kept⟩
      · cases phase with
        | execution process worker earlier =>
            cases same
            exact standing_after (inv.executions index process worker earlier present)
              (fun eventId existing known =>
                (inv.found index _ eventId existing present known).1) permitted
        | _ => cases same
      · exact (inv.executions index process worker progress kept).kept
          (indifferent_other different) rfl rfl
          (Preparations.foundBy_other (Or.inl different))
    · intro index later site row found decided
      rcases observe_phase present found with ⟨rfl, rfl⟩ | ⟨different, kept⟩
      · rcases others_after inv present permitted decided with
          ⟨process, worker, progress, rfl⟩ | ⟨canceled, ⟨process, progress, rfl⟩, unprepared⟩
        · exact Or.inl ⟨process, worker, _, rfl⟩
        · exact Or.inr ⟨canceled, ⟨process, _, rfl⟩, unprepared⟩
      · have silent : Indifferent index ((platformSystem deployment admitted).performed thread tag
            op oracle state) := indifferent_other different
        obtain ⟨outcome, prepared, _⟩ := indifferent_kept past silent
        rw [outcome] at decided
        rw [prepared]
        exact inv.others index later site row kept decided
    · intro index outside
      have length : phases.length ≤ index := by
        simpa [System.performed, Discipline.observe] using outside
      have different : index ≠ thread := by omega
      have silent : Indifferent index ((platformSystem deployment admitted).performed thread tag op
          oracle state) := indifferent_other different
      obtain ⟨outcome, prepared, hindered⟩ := indifferent_kept past silent
      rw [outcome, prepared, hindered]
      exact inv.unborn index length
  launches past config phases entry state spawned tracked inv launched allowed := by
    have silent : ∀ index, Indifferent index
        (.launched entry (System.spawnedThread config spawned) config.state state) :=
      fun _ => ⟨rfl, rfl, rfl⟩
    constructor
    · exact Preparations.found_inductive.launches past config phases entry state spawned tracked
        inv.found launched allowed
    · intro index process worker progress found
      rcases launch_phase launched found with old | ⟨rfl, start⟩
      · exact (inv.executions index process worker progress old).kept (silent index) rfl rfl rfl
      · have opening : progress = { step := .opening } := Entry.phase_opening start
        obtain ⟨outcome, prepared, hindered⟩ := indifferent_kept past
          (silent phases.length)
        obtain ⟨undecided, unprepared, unhindered⟩ := inv.unborn phases.length (Nat.le_refl _)
        subst opening
        unfold Standing
        rw [outcome, prepared, hindered, undecided, unprepared, unhindered]
        exact .silent (fun _ prepares => prepares) (by rintro _ _ same; cases same)
    · intro index later site row found decided
      obtain ⟨outcome, prepared, _⟩ := indifferent_kept past (silent index)
      rw [outcome] at decided
      rw [prepared]
      rcases launch_phase launched found with old | ⟨rfl, start⟩
      · exact inv.others index later site row old decided
      · rw [(inv.unborn phases.length (Nat.le_refl _)).1] at decided
        cases decided
    · intro index outside
      obtain ⟨outcome, prepared, hindered⟩ := indifferent_kept past (silent index)
      rw [outcome, prepared, hindered]
      rw [observe_launch phases launched, List.length_append] at outside
      exact inv.unborn index (by omega)

theorem finished_concludes {deployment : Deployment} {admitted : Entry → Bool} {start : State}
    {events : List PlatformEvent} {final : PlatformConfig} {thread : Nat}
    (ran : (platformSystem deployment admitted).Run (atRest start) events final)
    (finished : (final.threads[thread]?).any (·.program.finished) = true) :
    ∃ phase result, ((discipline deployment admitted).phases events)[thread]? = some phase ∧
      phase.concludes result := by
  have tracked := Discipline.run_tracked (D := discipline deployment admitted) ran
    (Discipline.tracked_empty rfl)
  rw [Option.any_eq_true] at finished
  obtain ⟨⟨tag, program⟩, present, ended⟩ := finished
  obtain ⟨phase, named, _, follows⟩ := tracked.phase present
  cases program with
  | act op next => cases ended
  | ret result => exact ⟨phase, result, named, follows⟩

end Runs

/-- A path on which the run may reach an outcome: its submission, or a thread that
has come to its end. -/
inductive Path (deployment : Deployment) where
  | submission (run : AgentRun) (clock : Nat) (conversation : Option String) :
      RunService.Submitted run → Path deployment
  | activity (start : State) (events : List PlatformEvent) (final : PlatformConfig) (thread : Nat) :
      (platformSystem deployment fun _ => true).Run (atRest start) events final →
      (final.threads[thread]?).any (·.program.finished) = true → Path deployment

namespace Path

variable {deployment : Deployment}

def conclusive (row : AgentRun) : Bool :=
  row.status.terminal || row.status = .agentSucceeded

def outcome : Path deployment → Option AgentRun
  | .submission run _ _ _ => (some run).filter conclusive
  | .activity _ events _ thread _ _ =>
      ((Notifications.outcome thread events).map Prod.snd).filter conclusive

def Prepared (row : AgentRun) : Path deployment → Prop
  | .submission run clock conversation _ =>
      ∃ delivery ∈ (State.initial run clock conversation).callbacks.rows, Tells row delivery
  | .activity _ events _ thread _ _ =>
      ∃ delivery, prepared thread events = some delivery ∧ Tells row delivery

/-- The outcome is one that is announced, nothing has hindered its preparation, and
the delivery row that was found keeps no payload of another outcome. -/
def Announces (row : AgentRun) : Path deployment → Prop
  | .submission _ _ _ _ => False
  | .activity _ events _ thread _ _ =>
      (Notifications.outcome thread events).any (fun known => announces known.1) = true ∧
        hindered thread events = false ∧ Fits row (Preparations.lastFound thread events)

end Path

/-- A path prepares a delivery for a subscribed outcome exactly when the outcome
comes from an attempt, its recovery or the end of the attempt loop, and neither an
exception, nor another writer, nor an earlier delivery stands in the way. -/
theorem prepared_iff {deployment : Deployment} (path : Path deployment) {row : AgentRun}
    (reached : path.outcome = some row) (subscribed : subscribes row = true) :
    path.Prepared row ↔ path.Announces row := by
  cases path with
  | submission run clock conversation submitted =>
      constructor
      · rintro ⟨delivery, member, _⟩
        cases member
      · intro never
        exact never.elim
  | activity start events final thread ran finished =>
      have inv := inv_inductive.run ran rfl (fun _ _ _ _ => trivial) inv_initial
      obtain ⟨phase, result, present, concludes⟩ := finished_concludes ran finished
      simp only [Path.outcome, Option.filter_eq_some_iff, Option.map_eq_some_iff] at reached
      obtain ⟨⟨⟨site, _⟩, decided, rfl⟩, _⟩ := reached
      simp only at subscribed ⊢
      cases phase with
      | execution process worker progress =>
          have standing := inv.executions thread process worker progress present
          unfold Standing at standing
          rw [decided] at standing
          have told := standing.concluded concludes subscribed
          simpa [Path.Prepared, Path.Announces, decided] using told
      | _ =>
          rcases inv.others thread _ _ _ present decided with
            ⟨_, _, _, another⟩ | ⟨rfl, _, unprepared⟩
          · cases another
          · simp [Path.Prepared, Path.Announces, decided, unprepared, announces]

theorem replayed_path (check : List PlatformEvent → AgentRun → Bool) {start : State}
    {schedule : List (Move platform Entry)} {thread : Nat}
    (passed : ((platformSystem sampleDeployment fun _ => true).replay (atRest start) schedule).any
      (fun outcome => (outcome.2.threads[thread]?).any (·.program.finished) &&
        (Notifications.outcome thread outcome.1).any fun known =>
          Path.conclusive known.2 && subscribes known.2 && check outcome.1 known.2) = true) :
    ∃ events final ran finished row,
      (Path.activity start events final thread ran finished : Path sampleDeployment).outcome =
        some row ∧ subscribes row = true ∧ check events row = true := by
  obtain ⟨events, final, ran, checked⟩ := System.replay_checked passed
  obtain ⟨finished, known⟩ := Bool.and_eq_true_iff.mp checked
  simp only [Option.any_eq_true, Bool.and_eq_true] at known
  obtain ⟨⟨site, row⟩, decided, ⟨conclusive, subscribed⟩, passes⟩ := known
  refine ⟨events, final, ran, finished, row, ?_, subscribed, passes⟩
  simp [Path.outcome, decided, conclusive]

def succeeds : List (Move platform Entry) :=
  .launch (.dispatchReady "worker" 30) :: steps 27 0 calm

theorem succeeds_replays : ((platformSystem sampleDeployment fun _ => true).replay
    (atRest (State.initial subscribedRun 0 none)) succeeds).any
      (fun outcome => (outcome.2.threads[0]?).any (·.program.finished) &&
        (Notifications.outcome 0 outcome.1).any fun known =>
          Path.conclusive known.2 && subscribes known.2 &&
            ((Notifications.outcome 0 outcome.1).any (fun known => announces known.1) &&
              !hindered 0 outcome.1 &&
              (Preparations.lastFound 0 outcome.1).all Option.isNone)) = true := rfl

/-- The success of the run above is announced. -/
theorem prepared_iff_succeeds : ∃ (path : Path sampleDeployment) (row : AgentRun),
    path.outcome = some row ∧ subscribes row = true ∧ path.Prepared row := by
  obtain ⟨events, final, ran, finished, row, reached, subscribed, checked⟩ :=
    replayed_path (fun events _ => (Notifications.outcome 0 events).any
      (fun known => announces known.1) && !hindered 0 events &&
        (Preparations.lastFound 0 events).all Option.isNone) succeeds_replays
  simp only [Bool.and_eq_true, Bool.not_eq_true'] at checked
  obtain ⟨⟨announced, unhindered⟩, fresh⟩ := checked
  refine ⟨.activity _ events final 0 ran finished, row, reached, subscribed, ?_⟩
  rw [prepared_iff _ reached subscribed]
  refine ⟨announced, unhindered, ?_⟩
  intro delivery body found _
  rw [found] at fresh
  cases fresh

def cancels : List (Move platform Entry) := .launch (.cancel "api") :: steps 4 0 calm

def cancelSubscriber : AgentRun :=
  { sampleRun with callback := some { url := some "https://receiver", events := ["canceled"] } }

theorem cancels_replays : ((platformSystem sampleDeployment fun _ => true).replay
    (atRest (State.initial cancelSubscriber 0 none)) cancels).any
      (fun outcome => (outcome.2.threads[0]?).any (·.program.finished) &&
        (Notifications.outcome 0 outcome.1).any fun known =>
          Path.conclusive known.2 && subscribes known.2 && (prepared 0 outcome.1).isNone) = true :=
  rfl

/-- `cancel` stores the outcome that the run subscribes to and announces nothing. -/
theorem cancellation_unannounced : ∃ (path : Path sampleDeployment) (row : AgentRun),
    path.outcome = some row ∧ subscribes row = true ∧ ¬ path.Prepared row := by
  obtain ⟨events, final, ran, finished, row, reached, subscribed, unprepared⟩ :=
    replayed_path (fun events _ => (prepared 0 events).isNone) cancels_replays
  refine ⟨.activity _ events final 0 ran finished, row, reached, subscribed, ?_⟩
  rintro ⟨delivery, stored, _⟩
  rw [stored] at unprepared
  cases unprepared

end AgentTaskPlatform.Notifications
