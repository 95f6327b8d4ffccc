import AgentTaskPlatform.Cancellation
import AgentTaskPlatform.FinishedRuns
import AgentTaskPlatform.Leases
import AgentTaskPlatform.RunService

/-!
Executions that take a run from each other. A queue execution is fenced by its
worker id and protected by its lease. A local execution leaves both columns NULL:
other processes cannot see it, `recover_incomplete` requeues its run, and two
local executions pass each other's guards. Whichever way an execution comes to a
finished row, the start of an attempt opens the row again.
-/

namespace AgentTaskPlatform.Takeovers

open Interleaving ExecutionProtocol FinishedRuns

def concludes : Site → Bool
  | .agentSucceeded => true
  | .recovered => true
  | .finish => true
  | .backgroundFailure => true
  | .attemptFailed attempt attempts error =>
      !(attempt < attempts && (RunExecutor.classify attempt attempts error).2.isRetryable)
  | _ => false

def decides : Site → Bool
  | .attemptStart _ => true
  | .attemptFailed _ _ _ => true
  | site => concludes site

def concludesBy (thread : Nat) : PlatformEvent → Bool
  | .acted own _ (.run (.updateIfCurrent site _ _)) answer _ _ =>
      own = thread && answer && concludes site
  | _ => false

def concluded (thread : Nat) (past : List PlatformEvent) : Bool := past.any (concludesBy thread)

def commits (thread : Nat) : PlatformEvent → Bool
  | .acted own _ (.run (.updateIfCurrent site _ row)) answer _ _ =>
      own = thread && answer && concludes site && finished row.status
  | _ => false

def decider : PlatformEvent → Option Nat
  | .acted own _ (.run (.updateIfCurrent site _ _)) answer _ _ =>
      if answer = true ∧ decides site = true then some own else none
  | _ => none

def resubmits : PlatformEvent → Bool
  | .acted _ _ (.run (.retry _)) _ _ _ => true
  | _ => false

def engages (thread : Nat) : PlatformEvent → Option Bool
  | .launched (.dispatchReady _ _) (some (own, _)) _ _ =>
      if own = thread then some true else none
  | .acted own _ (.run (.updateIfCurrent (.attemptStart _) _ _)) answer _ _ =>
      if own = thread ∧ answer = true then some true else none
  | .acted own _ (.run (.updateIfCurrent site _ _)) answer _ _ =>
      if own = thread ∧ answer = true ∧ concludes site = true then some false else none
  | .acted _ _ (.run (.retry _)) _ _ _ => some false
  | _ => none

/-- The thread has claimed the run or started an attempt of it, and has not ended
its work since. -/
def Executing (thread : Nat) (past : List PlatformEvent) : Prop :=
  latest (engages thread) past = some true

def Acts (thread : Nat) (tag : Tag) (events : List PlatformEvent) : Prop :=
  ∃ op answer before after, (.acted thread tag op answer before after : PlatformEvent) ∈ events

def takes : PlatformEvent → Option Process
  | .launched (.dispatchReady process _) _ _ _ => some process
  | .acted _ tag (.run (.updateIfCurrent (.attemptStart _) _ _)) answer _ _ =>
      if answer = true then some tag.process else none
  | .acted _ tag (.run (.updateIfCurrent .recover _ _)) answer _ _ =>
      if answer = true then some tag.process else none
  | .acted _ tag (.run (.updateIfCurrent .reclaim _ _)) answer _ _ =>
      if answer = true then some tag.process else none
  | _ => none

/-- A run that a live process executes is left alone by every other process, and
between two submissions one execution commits its results. -/
structure Exclusive (events : List PlatformEvent) : Prop where
  unshared : ∀ past event later thread tag process, events = past ++ event :: later →
    Executing thread past → Acts thread tag later → takes event = some process →
    process = tag.process
  once : ∀ past first middle last later thread other,
    events = past ++ first :: (middle ++ last :: later) → commits thread first = true →
    commits other last = true → (∀ event ∈ middle, resubmits event = false) → other = thread

def Spent : Step → Prop
  | .opening => False
  | .running _ _ => False
  | .failed attempt attempts error _ => ¬ retries attempt attempts error
  | _ => True

def Stored : Step → Prop
  | .succeeded _ => True
  | .recovered _ => True
  | .ended _ => True
  | .settled => True
  | _ => False

theorem prepares_stored {step : Step} {run : AgentRun} (prepares : step.prepares run) :
    Stored step := by
  cases step <;> first | exact prepares.elim | trivial

theorem releases_stored {step : Step} (releases : step.releases) : Stored step := by
  cases step <;> first | exact releases.elim | trivial

theorem mayStart_unspent {step : Step} {attempt : Nat} (mayStart : step.mayStart attempt) :
    ¬ Spent step := by
  cases step with
  | opening => exact id
  | failed last attempts error run => exact fun spent => spent mayStart.1
  | _ => exact mayStart.elim

theorem concludes_failed {attempt attempts : Nat} {error : Exc} :
    concludes (.attemptFailed attempt attempts error) = true ↔ ¬ retries attempt attempts error := by
  by_cases more : attempt < attempts <;> simp [concludes, retries, more]

structure Agrees (ended : Bool) (step : Step) : Prop where
  spent : ended = true → Spent step
  stored : Stored step → ended = true

section Steps

variable {deployment : Deployment} {admitted : Entry → Bool} {process : Process}
  {worker : Option Process} {progress : Progress} {ended : Bool} {thread : Nat} {tag : Tag}
  {op : Op} {oracle : op.Answer} {state : State}

theorem Agrees.closed (ended : Bool) : Agrees ended .closed := ⟨fun _ => trivial, nofun⟩

theorem agrees_update {site : Site} {expected : Expected} {row : AgentRun} {oracle : Bool}
    (stored : Agrees (ended || concludes site) (progress.step.after site row true))
    (missed : Agrees ended (progress.step.after site row false)) :
    Agrees (ended || concludesBy thread ((platformSystem deployment admitted).performed thread tag
      (.run (.updateIfCurrent site expected row)) oracle state))
      (progress.after (.run (.updateIfCurrent site expected row))
        (Op.perform (.run (.updateIfCurrent site expected row)) oracle state).1).step := by
  by_cases hit : expected.admits state.run = true
  · simpa [concludesBy, System.performed, platformSystem, Op.perform, RunOp.perform,
      State.updateIfCurrent, hit, Progress.after] using stored
  · simpa [concludesBy, System.performed, platformSystem, Op.perform, RunOp.perform,
      State.updateIfCurrent, hit, Progress.after] using missed

theorem agrees_after (agrees : Agrees ended progress.step)
    (permitted : Permitted process worker progress op) :
    Agrees (ended || concludesBy thread ((platformSystem deployment admitted).performed thread tag
      op oracle state)) (progress.after op (Op.perform op oracle state).1).step := by
  have working : ¬ Spent progress.step → ended = false := by
    intro unspent
    cases ended with
    | false => rfl
    | true => exact absurd (agrees.spent rfl) unspent
  cases permitted with
  | @attemptStart run attempt now seen live mayStart positive =>
      have fresh := working (mayStart_unspent mayStart)
      subst fresh
      exact agrees_update ⟨nofun, nofun⟩ (.closed _)
  | agentSucceeded output now step seen =>
      exact agrees_update ⟨fun _ => trivial, fun _ => Bool.or_true _⟩ (.closed _)
  | @attemptFailed attempt run attempts timeout error step bounded =>
      have fresh : ended = false := working (by rw [step]; exact id)
      subst fresh
      exact agrees_update ⟨fun last => concludes_failed.mp last, nofun⟩ (.closed _)
  | recovered attempts timeout error result now step =>
      exact agrees_update ⟨fun _ => trivial, fun _ => Bool.or_true _⟩ (.closed _)
  | finish now finishes =>
      exact agrees_update ⟨fun _ => trivial, fun _ => Bool.or_true _⟩ (.closed _)
  | backgroundFailure error seen breaks raised =>
      exact agrees_update ⟨fun _ => trivial, nofun⟩ (.closed _)
  | skipCallback prepares declined =>
      have done := agrees.stored (prepares_stored prepares)
      subst done
      exact agrees_update ⟨fun _ => trivial, fun _ => rfl⟩ ⟨fun _ => trivial, fun _ => rfl⟩
  | release seen releases => exact agrees_update (.closed _) (.closed _)
  | deadLetter reason seen releases => exact agrees_update (.closed _) (.closed _)
  | prepareCallback url body now prepares subscribed known named told unraised =>
      have done := agrees.stored (prepares_stored prepares)
      subst done
      exact ⟨fun _ => trivial, fun _ => rfl⟩
  | _ =>
      have same : (ended || false) = ended := Bool.or_false _
      rw [← same] at agrees
      exact agrees

end Steps

theorem concluded_snoc {thread : Nat} {past : List PlatformEvent} {event : PlatformEvent} :
    concluded thread (past ++ [event]) = (concluded thread past || concludesBy thread event) := by
  simp [concluded]

theorem executing_snoc {thread : Nat} {past : List PlatformEvent} {event : PlatformEvent} :
    Executing thread (past ++ [event]) ↔
      (engages thread event).or (latest (engages thread) past) = some true := by
  rw [Executing, latest_snoc]

theorem concludesBy_engages {thread : Nat} {event : PlatformEvent}
    (ends : concludesBy thread event = true) : engages thread event = some false := by
  unfold concludesBy at ends
  split at ends
  · next own tag site expected row answer before after =>
      simp only [Bool.and_eq_true, decide_eq_true_eq] at ends
      obtain ⟨⟨rfl, hit⟩, done⟩ := ends
      cases site <;> first | exact if_pos ⟨rfl, hit, done⟩ | cases done
  · cases ends

structure Inv (past : List PlatformEvent) (phases : List Phase) : Prop where
  agrees : ∀ (thread : Nat) process worker progress,
    phases[thread]? = some (.execution process worker progress) →
    Agrees (concluded thread past) progress.step
  engaged : ∀ thread, Executing thread past → concluded thread past = false
  working : ∀ thread, Executing thread past → ∃ process worker progress,
    phases[thread]? = some (.execution process worker progress)
  unborn : ∀ (thread : Nat), phases.length ≤ thread → concluded thread past = false

theorem inv_initial : Inv [] [] := by
  constructor
  · intro thread process worker progress found
    cases found
  · intro thread executing
    cases executing
  · intro thread executing
    cases executing
  · intro thread _
    rfl

section Runs

variable {deployment : Deployment} {admitted : Entry → Bool} {past : List PlatformEvent}
  {phases : List Phase} {thread : Nat} {tag : Tag} {op : Op} {oracle : op.Answer}
  {state : State} {phase : Phase}

theorem concludesBy_other {index : Nat} (other : index ≠ thread) :
    concludesBy index ((platformSystem deployment admitted).performed thread tag op oracle state) =
      false := by
  have apart : thread ≠ index := fun same => other same.symm
  unfold concludesBy System.performed
  split <;> next same => first | rfl | (cases same; simp [apart])

theorem engages_start {index : Nat} (permitted : phase.permits deployment.digest op)
    (begins : engages index ((platformSystem deployment admitted).performed thread tag op oracle
      state) = some true) :
    index = thread ∧ ∃ process worker progress attempt,
      phase = .execution process worker progress ∧ progress.step.mayStart attempt := by
  unfold engages System.performed at begins
  split at begins
  · next same => cases same
  · next same =>
      cases same
      split at begins
      · next picked =>
          obtain ⟨process, worker, progress, rfl⟩ := loop_writes permitted (Or.inl ⟨_, rfl⟩)
          cases permitted with
          | attemptStart attempt now seen live mayStart positive =>
              exact ⟨picked.1.symm, process, worker, progress, _, rfl, mayStart⟩
      · cases begins
  · split at begins <;> cases begins
  · cases begins
  · cases begins

/-- An operation lets nobody but its own thread begin. -/
theorem executing_acted {index : Nat} (permitted : phase.permits deployment.digest op)
    (executing : Executing index (past ++
      [(platformSystem deployment admitted).performed thread tag op oracle state])) :
    (index = thread ∧ ∃ process worker progress attempt,
      phase = .execution process worker progress ∧ progress.step.mayStart attempt) ∨
    (engages index ((platformSystem deployment admitted).performed thread tag op oracle state) =
      none ∧ Executing index past) := by
  rw [executing_snoc] at executing
  cases sign : engages index
      ((platformSystem deployment admitted).performed thread tag op oracle state) with
  | none =>
      rw [sign] at executing
      exact Or.inr ⟨rfl, executing⟩
  | some begins =>
      rw [sign] at executing
      cases executing
      exact Or.inl (engages_start permitted sign)

/-- A launch lets nobody but a new queue execution begin. -/
theorem executing_launched {index : Nat} {config : PlatformConfig} {entry : Entry}
    {spawned : Option Activity} {after : State}
    (tracked : (discipline deployment admitted).Tracked config phases)
    (executing : Executing index (past ++
      [.launched entry (System.spawnedThread config spawned) config.state after])) :
    (index = phases.length ∧ spawned.isSome = true ∧
      ∃ process leaseSeconds, entry = .dispatchReady process leaseSeconds) ∨
    Executing index past := by
  rw [executing_snoc] at executing
  cases entry with
  | dispatchReady process leaseSeconds =>
      cases spawned with
      | none => exact Or.inr executing
      | some activity =>
          by_cases own : config.threads.length = index
          · exact Or.inl ⟨own.symm.trans tracked.length.symm, rfl, process, leaseSeconds, rfl⟩
          · simp only [engages, System.spawnedThread, own, if_false, Option.none_or] at executing
            exact Or.inr executing
  | _ => exact Or.inr executing

theorem inv_inductive : (discipline deployment admitted).Inductive (fun _ _ => True)
    fun past _ phases => Inv past phases where
  acts past state phases thread tag op oracle phase inv present _ permitted _ := by
    constructor
    · intro index process worker progress found
      rw [concluded_snoc]
      rcases observe_phase present found with ⟨rfl, same⟩ | ⟨different, kept⟩
      · cases phase with
        | execution process worker earlier =>
            cases same
            exact agrees_after (inv.agrees index process worker earlier present) permitted
        | _ => cases same
      · rw [concludesBy_other different, Bool.or_false]
        exact inv.agrees index process worker progress kept
    · intro index executing
      rw [concluded_snoc, Bool.or_eq_false_iff]
      have unended : concludesBy index
          ((platformSystem deployment admitted).performed thread tag op oracle state) = false := by
        by_contra ends
        rw [Bool.not_eq_false] at ends
        rw [executing_snoc, concludesBy_engages ends] at executing
        cases executing
      refine ⟨?_, unended⟩
      rcases executing_acted permitted executing with
        ⟨rfl, process, worker, progress, attempt, rfl, mayStart⟩ | ⟨_, before⟩
      · by_contra ended
        rw [Bool.not_eq_false] at ended
        exact mayStart_unspent mayStart
          ((inv.agrees index process worker progress present).spent ended)
      · exact inv.engaged index before
    · intro index executing
      have staying : ∀ {process worker progress},
          phases[index]? = some (.execution process worker progress) →
          ∃ process worker progress, ((discipline deployment admitted).observe phases
            ((platformSystem deployment admitted).performed thread tag op oracle state))[index]? =
              some (.execution process worker progress) := by
        intro process worker progress here
        unfold System.performed
        rw [Discipline.observe_acted]
        by_cases same : thread = index
        · rw [if_pos same, here]
          exact ⟨process, worker, _, rfl⟩
        · rw [if_neg same]
          exact ⟨process, worker, progress, here⟩
      rcases executing_acted permitted executing with
        ⟨rfl, process, worker, progress, attempt, rfl, mayStart⟩ | ⟨_, before⟩
      · exact staying present
      · obtain ⟨process, worker, progress, here⟩ := inv.working index before
        exact staying here
    · intro index outside
      have length : phases.length ≤ index := by
        simpa [System.performed, Discipline.observe] using outside
      have inside := (List.getElem?_eq_some_iff.mp present).1
      rw [concluded_snoc, concludesBy_other (by omega), Bool.or_false]
      exact inv.unborn index length
  launches past config phases entry state spawned tracked inv launched _ := by
    have unended : ∀ index, concluded index (past ++
        [.launched entry (System.spawnedThread config spawned) config.state state]) =
          concluded index past := by
      intro index
      rw [concluded_snoc]
      exact Bool.or_false _
    constructor
    · intro index process worker progress found
      rw [unended]
      rcases launch_phase launched found with old | ⟨rfl, start⟩
      · exact inv.agrees index process worker progress old
      · have opening : progress = { step := .opening } := Entry.phase_opening start
        rw [inv.unborn phases.length (Nat.le_refl _), opening]
        exact ⟨(fun unspent => by cases unspent), (fun stored => by cases stored)⟩
    · intro index executing
      rw [unended]
      rcases executing_launched tracked executing with ⟨rfl, _⟩ | before
      · exact inv.unborn phases.length (Nat.le_refl _)
      · exact inv.engaged index before
    · intro index executing
      rw [observe_launch phases launched]
      rcases executing_launched tracked executing with
        ⟨rfl, _, process, leaseSeconds, rfl⟩ | before
      · exact ⟨process, some process, _, List.getElem?_concat_length⟩
      · obtain ⟨process, worker, progress, here⟩ := inv.working index before
        refine ⟨process, worker, progress, ?_⟩
        rw [List.getElem?_append_left (List.getElem?_eq_some_iff.mp here).1]
        exact here
    · intro index outside
      rw [unended]
      rw [observe_launch phases launched, List.length_append] at outside
      exact inv.unborn index (by omega)

end Runs

/-- An attempt start or a final write takes effect on a finished row about which
another execution has decided last. -/
def Overruns (past : List PlatformEvent) : PlatformEvent → Prop
  | .acted own _ (.run (.updateIfCurrent site _ _)) answer before _ =>
      answer = true ∧ ((∃ attempt, site = .attemptStart attempt) ∨ site = .finish) ∧
        finished before.run.status = true ∧ latest decider past ≠ some own
  | _ => False

def reopens : PlatformEvent → Bool
  | .acted _ _ (.run (.updateIfCurrent .toolCall _ _)) answer before _ =>
      answer && !before.run.status.executing
  | _ => false

def Over (thread : Nat) (past : List PlatformEvent) (state : State) : Prop :=
  (finished state.run.status = true ∧ latest decider past = some thread) ∨
    state.run.status = .canceled

theorem finished_idle {status : RunStatus} (done : finished status = true) :
    status.executing ≠ true ∧ status ≠ .queued := by
  cases status <;> simp_all [finished, RunStatus.executing, executingRunStatuses]

theorem finished_moves {site : Site} {before after : RunStatus} (moves : site.moves before after)
    (undecided : decides site = false) (call : site ≠ .toolCall)
    (done : finished before = true) : finished after = true ∨ after = .canceled := by
  obtain ⟨idle, unqueued⟩ := finished_idle done
  cases site with
  | toolCall => exact absurd rfl call
  | currentStep => exact Or.inl (moves.2 ▸ done)
  | cancel => exact Or.inr moves.2
  | recover =>
      rcases moves.1 with created | queued | executing
      · subst created
        cases done
      · exact absurd queued unqueued
      · exact absurd executing idle
  | reclaim => exact absurd moves.1 idle
  | skipCallback =>
      simp only [Site.moves, RunStatus.settles] at moves
      split at moves
      · rcases moves with rfl | rfl | rfl <;> exact Or.inl rfl
      · exact Or.inl (moves ▸ done)
  | delivered =>
      simp only [Site.moves, RunStatus.settles] at moves
      split at moves
      · rcases moves with rfl | rfl | rfl <;> exact Or.inl rfl
      · exact Or.inl (moves ▸ done)
  | prepareCallback =>
      simp only [Site.moves, RunStatus.announces] at moves
      split at moves
      · exact Or.inl (by rw [moves]; rfl)
      · exact Or.inl (moves ▸ done)
  | release => exact Or.inl (moves ▸ done)
  | deadLetter => exact Or.inl (moves ▸ done)
  | exhausted => exact Or.inl (moves ▸ done)
  | _ => cases undecided

section Results

variable {deployment : Deployment} {admitted : Entry → Bool} {past : List PlatformEvent}
  {phases : List Phase} {thread own : Nat} {tag : Tag} {op : Op} {oracle : op.Answer}
  {state : State} {phase : Phase}

theorem over_update {site : Site} {expected : Expected} {row : AgentRun} {oracle : Bool}
    (inv : Inv past phases) (present : phases[own]? = some phase)
    (permitted : phase.permits deployment.digest (.run (.updateIfCurrent site expected row)))
    (ended : concluded thread past = true) (ceased : Over thread past state)
    (hit : expected.admits state.run = true)
    (follows : ¬ Overruns past ((platformSystem deployment admitted).performed own tag
      (.run (.updateIfCurrent site expected row)) oracle state))
    (shut : reopens ((platformSystem deployment admitted).performed own tag
      (.run (.updateIfCurrent site expected row)) oracle state) = false) :
    (finished row.status = true ∧ (if decides site = true then some own else none).or
      (latest decider past) = some thread) ∨ row.status = .canceled := by
  have moves := update_moves permitted (admitted_status hit)
  have call : site = .toolCall → state.run.status.executing = true := by
    rintro rfl
    simpa [reopens, System.performed, platformSystem, Op.perform, RunOp.perform,
      State.updateIfCurrent, hit] using shut
  rcases ceased with ⟨done, last⟩ | canceled
  · obtain ⟨idle, unqueued⟩ := finished_idle done
    have mine : (∃ attempt, site = .attemptStart attempt) ∨ site = .finish → own = thread := by
      intro late
      by_contra other
      apply follows
      refine ⟨?_, late, done, ?_⟩
      · simp [platformSystem, Op.perform, RunOp.perform, State.updateIfCurrent, hit]
      · rw [last]
        exact fun same => other (Option.some.inj same).symm
    cases decided : decides site with
    | false =>
        have elsewhere : site ≠ .toolCall := by
          intro same
          exact idle (call same)
        exact (finished_moves moves decided elsewhere done).imp_left fun still => ⟨still, last⟩
    | true =>
        left
        cases site with
        | attemptStart attempt =>
            have same := mine (Or.inl ⟨attempt, rfl⟩)
            subst same
            obtain ⟨process, worker, progress, rfl⟩ := loop_writes permitted (Or.inl ⟨attempt, rfl⟩)
            cases permitted with
            | attemptStart attempt now seen live mayStart positive =>
                have spent := (inv.agrees own process worker progress present).spent ended
                exact absurd spent (mayStart_unspent mayStart)
        | finish =>
            have same := mine (Or.inr rfl)
            subst same
            exact ⟨by rw [show row.status = _ from moves]; exact done, rfl⟩
        | backgroundFailure =>
            rcases moves.1 with executing | queued
            · exact absurd executing idle
            · exact absurd queued unqueued
        | agentSucceeded => exact absurd moves.1 idle
        | recovered => exact absurd moves.1 idle
        | attemptFailed attempt attempts error => exact absurd moves.1 idle
        | _ => cases decided
  · right
    rw [canceled] at moves
    have still := Cancellation.moves_canceled moves
    split at still
    · next same =>
        have executing := call same
        rw [canceled] at executing
        cases executing
    · exact still

theorem over_acted (inv : Inv past phases) (present : phases[own]? = some phase)
    (permitted : phase.permits deployment.digest op) (ended : concluded thread past = true)
    (ceased : Over thread past state)
    (follows : ¬ Overruns past ((platformSystem deployment admitted).performed own tag op oracle
      state))
    (shut : reopens ((platformSystem deployment admitted).performed own tag op oracle state) =
      false)
    (settled : resubmits ((platformSystem deployment admitted).performed own tag op oracle state) =
      false) :
    Over thread (past ++ [(platformSystem deployment admitted).performed own tag op oracle state])
      (Op.perform op oracle state).2 := by
  unfold Over
  rw [latest_snoc]
  cases op with
  | run op =>
      cases op with
      | updateIfCurrent site expected row =>
          by_cases hit : expected.admits state.run = true
          · have stays := over_update inv present permitted ended ceased hit follows shut
            simpa [decider, System.performed, platformSystem, Op.perform, RunOp.perform,
              State.updateIfCurrent, hit] using stays
          · simpa [decider, System.performed, platformSystem, Op.perform, RunOp.perform,
              State.updateIfCurrent, hit, Over] using ceased
      | updateRunWithCallback site expected row delivery =>
          by_cases hit : expected.admits state.run = true
          · obtain ⟨moves, site⟩ := callback_moves permitted (admitted_status hit)
            have stays : (finished row.status = true ∧ latest decider past = some thread) ∨
                row.status = .canceled := by
              rcases ceased with ⟨done, last⟩ | canceled
              · rcases site with rfl | rfl
                · exact (finished_moves moves rfl (by simp) done).imp_left fun still => ⟨still, last⟩
                · exact (finished_moves moves rfl (by simp) done).imp_left fun still => ⟨still, last⟩
              · right
                rw [canceled] at moves
                have still := Cancellation.moves_canceled moves
                rcases site with rfl | rfl <;> exact still
            simpa [decider, System.performed, platformSystem, Op.perform, RunOp.perform, hit]
              using stays
          · simpa [decider, System.performed, platformSystem, Op.perform, RunOp.perform, hit, Over]
              using ceased
      | retry row => cases settled
      | _ => exact ceased
  | _ =>
      simpa [decider, System.performed, Op.perform, Over] using ceased

theorem over_launched {config : PlatformConfig} {entry : Entry} {after : State}
    {spawned : Option Activity} (ceased : Over thread past config.state)
    (launched : (platformSystem deployment admitted).launch entry config = some (after, spawned)) :
    Over thread (past ++ [.launched entry (System.spawnedThread config spawned) config.state after])
      after := by
  unfold Over
  rw [latest_snoc]
  rcases launch_moves launched with same | ⟨process, leaseSeconds, rfl, live, _⟩
  · rw [same]
    exact ceased
  · rcases ceased with ⟨done, _⟩ | canceled
    · obtain ⟨idle, unqueued⟩ := finished_idle done
      rcases live with queued | executing
      · exact absurd queued unqueued
      · exact absurd executing idle
    · rw [canceled] at live
      rcases live with queued | executing
      · cases queued
      · cases executing

theorem over_inductive (thread : Nat) : (discipline deployment admitted).Inductive
    (fun past event => ¬ Overruns past event ∧ reopens event = false ∧ resubmits event = false)
    fun past state phases =>
      Inv past phases ∧ concluded thread past = true ∧ Over thread past state where
  acts past state phases own tag op oracle phase held present belongs permitted allowed := by
    obtain ⟨inv, ended, ceased⟩ := held
    obtain ⟨follows, shut, settled⟩ := allowed
    refine ⟨inv_inductive.acts past state phases own tag op oracle phase inv present belongs
      permitted trivial, ?_, over_acted inv present permitted ended ceased follows shut settled⟩
    rw [concluded_snoc, ended]
    rfl
  launches past config phases entry state spawned tracked held launched _ := by
    obtain ⟨inv, ended, ceased⟩ := held
    refine ⟨inv_inductive.launches past config phases entry state spawned tracked inv launched
      trivial, ?_, over_launched ceased launched⟩
    rw [concluded_snoc, ended]
    rfl

theorem concludes_decides {site : Site} (done : concludes site = true) : decides site = true := by
  cases site <;> first | rfl | cases done

theorem commits_update {event : PlatformEvent} (committed : commits thread event = true) :
    ∃ tag site expected row before after,
      event = .acted thread tag (.run (.updateIfCurrent site expected row)) true before after ∧
      concludes site = true ∧ finished row.status = true := by
  unfold commits at committed
  split at committed
  · next own tag site expected row answer before after =>
      simp only [Bool.and_eq_true, decide_eq_true_eq] at committed
      obtain ⟨⟨⟨rfl, hit⟩, done⟩, result⟩ := committed
      subst hit
      exact ⟨tag, site, expected, row, before, after, rfl, done, result⟩
  · cases committed

theorem updated_row {start : State} {left right : List PlatformEvent} {final : PlatformConfig}
    {site : Site} {expected : Expected} {row : AgentRun} {before after : State}
    (ran : (platformSystem deployment admitted).Run (atRest start)
      (left ++ .acted thread tag (.run (.updateIfCurrent site expected row)) true before after ::
        right) final) :
    expected.admits before.run = true ∧ after.run = row := by
  obtain ⟨phase, oracle, _, _, _, same⟩ :=
    Discipline.run_permits (D := discipline deployment admitted) ran rfl
  unfold System.performed at same
  injection same with _ _ _ answers _ afters
  have hit : expected.admits before.run = true := by
    by_contra miss
    simp [platformSystem, Op.perform, RunOp.perform, State.updateIfCurrent, miss] at answers
  refine ⟨hit, ?_⟩
  rw [afters]
  simp [platformSystem, Op.perform, RunOp.perform, State.updateIfCurrent, hit]

/-- Between two submissions one execution commits results, if none goes on with a
finished run that is another's and no tool call reopens it. -/
theorem committed_once {start : State} {past middle later : List PlatformEvent}
    {first last : PlatformEvent} {final : PlatformConfig} {other : Nat}
    (ran : (platformSystem deployment admitted).Run (atRest start)
      (past ++ first :: (middle ++ last :: later)) final)
    (follows : ∀ left event right, past ++ first :: (middle ++ last :: later) =
      left ++ event :: right → ¬ Overruns left event)
    (shut : ∀ event ∈ past ++ first :: (middle ++ last :: later), reopens event = false)
    (committed : commits thread first = true) (again : commits other last = true)
    (settled : ∀ event ∈ middle, resubmits event = false) : other = thread := by
  obtain ⟨tag, site, expected, row, before, after, rfl, done, result⟩ := commits_update committed
  have started : Inv (past ++ [.acted thread tag (.run (.updateIfCurrent site expected row)) true
        before after])
        ((discipline deployment admitted).phases (past ++
          [.acted thread tag (.run (.updateIfCurrent site expected row)) true before after])) := by
    have grouped := ran
    rw [← List.singleton_append, ← List.append_assoc] at grouped
    obtain ⟨middle, reached, _⟩ := grouped.split
    exact inv_inductive.run reached rfl (fun _ _ _ _ => trivial) inv_initial
  have ceased : Over thread (past ++ [.acted thread tag (.run (.updateIfCurrent site expected row))
      true before after]) after := by
    left
    rw [(updated_row ran).2, latest_snoc]
    exact ⟨result, by simp [decider, concludes_decides done]⟩
  have ended : concluded thread (past ++ [.acted thread tag
      (.run (.updateIfCurrent site expected row)) true before after]) = true := by
    rw [concluded_snoc]
    simp [concludesBy, done]
  obtain ⟨inv, ended, ceased⟩ := (over_inductive thread).between ran rfl
    (fun left event right split => by
      subst split
      exact ⟨follows _ event (right ++ last :: later) (by simp), shut event (by simp),
        settled event (by simp)⟩)
    ⟨started, ended, ceased⟩
  obtain ⟨tag', site', expected', row', before', after', rfl, done', result'⟩ :=
    commits_update again
  have grouped : past ++ .acted thread tag (.run (.updateIfCurrent site expected row)) true before
      after :: (middle ++ .acted other tag' (.run (.updateIfCurrent site' expected' row')) true
        before' after' :: later) = (past ++ .acted thread tag
          (.run (.updateIfCurrent site expected row)) true before after :: middle) ++
        .acted other tag' (.run (.updateIfCurrent site' expected' row')) true before' after' ::
          later := by simp
  have admitted := (updated_row (grouped ▸ ran)).1
  obtain ⟨phase, oracle, present, _, permitted, same⟩ :=
    Discipline.run_permits (grouped ▸ ran) rfl
  have onward := follows _ _ _ grouped
  have unopened := shut (.acted other tag' (.run (.updateIfCurrent site' expected' row')) true
    before' after') (by simp)
  rw [same] at onward unopened
  rcases over_update inv present permitted ended ceased admitted onward unopened with
    ⟨_, own⟩ | canceled
  · rw [if_pos (concludes_decides done')] at own
    exact Option.some.inj own
  · rw [canceled] at result'
    cases result'

end Results

section Background

variable {deployment : Deployment} {admitted : Entry → Bool}

def Runs (config : PlatformConfig) (process : Process) (index : Nat) : Prop :=
  ∃ thread, config.threads[index]? = some thread ∧ thread.tag.process = process ∧
    thread.tag.role.isBackground = true ∧ thread.program.finished = false

def Lone (config : PlatformConfig) : Prop :=
  ∀ process first second, Runs config process first → Runs config process second → first = second

theorem runs_active {config : PlatformConfig} {process : Process} {index : Nat}
    (runs : Runs config process index) : active config process = true := by
  obtain ⟨thread, present, own, background, unfinished⟩ := runs
  rw [active, List.any_eq_true]
  exact ⟨thread, List.mem_of_getElem? present, by simp [own, background, unfinished]⟩

theorem start_inactive {config : PlatformConfig} {entry : Entry} {state : State}
    {activity : Activity} (started : entry.start deployment config = some (state, some activity))
    (background : activity.tag.role.isBackground = true) :
    active config activity.tag.process = false := by
  cases entry with
  | dispatchReady process leaseSeconds =>
      simp only [Entry.start] at started
      split at started
      · cases started
      · next ready =>
          cases started
          simp only [Bool.or_eq_true, not_or, Bool.not_eq_true] at ready
          exact ready.1
  | runBackground process =>
      simp only [Entry.start] at started
      split at started
      · cases started
      · next ready =>
          cases started
          simpa using ready
  | renewal process =>
      simp only [Entry.start] at started
      split at started
      · cases started
      · split at started
        · cases started
        · cases started
          cases background
  | dispatchDelivery index =>
      simp only [Entry.start] at started
      split at started
      · cases started
      · cases started
        cases background
  | toolCall index toolName input idempotencyKey =>
      simp only [Entry.start] at started
      split at started
      · cases started
      · cases started
        cases background
  | runStage index stageKey stageInput definitionVersion maxAttempts idempotencyKey =>
      simp only [Entry.start] at started
      split at started
      · cases started
      · cases started
        cases background
  | saveCheckpoint index stageKey executionId checkpoint =>
      simp only [Entry.start] at started
      split at started
      · cases started
      · cases started
        cases background
  | _ =>
      cases started
      try cases background

theorem lone_invariant : (discipline deployment admitted).Invariant (fun _ _ => True)
    fun _ config _ => Lone config where
  acts past config phases thread tag op next oracle phase _ lone present _ _ _ _ _ := by
    have earlier : ∀ {process index}, Runs
        { state := ((platformSystem deployment admitted).perform tag op oracle config.state).2
          threads := config.threads.set thread
            ⟨tag, next ((platformSystem deployment admitted).perform tag op oracle
              config.state).1⟩ } process index → Runs config process index := by
      rintro process index ⟨running, here, own, background, unfinished⟩
      by_cases same : index = thread
      · subst same
        have inside := (List.getElem?_eq_some_iff.mp present).1
        rw [List.getElem?_set_self inside] at here
        cases here
        exact ⟨_, present, own, background, rfl⟩
      · rw [List.getElem?_set_ne (Ne.symm same)] at here
        exact ⟨running, here, own, background, unfinished⟩
    intro process first second one two
    exact lone process first second (earlier one) (earlier two)
  launches past config phases entry state spawned _ lone launched _ := by
    have started := (launch_start launched).2.2
    have earlier : ∀ {process index}, Runs
        { state := state, threads := config.threads ++ spawned.toList } process index →
        Runs config process index ∨ (index = config.threads.length ∧
          active config process = false) := by
      rintro process index ⟨running, here, own, background, unfinished⟩
      by_cases old : index < config.threads.length
      · rw [List.getElem?_append_left old] at here
        exact Or.inl ⟨running, here, own, background, unfinished⟩
      · rw [List.getElem?_append_right (Nat.le_of_not_lt old)] at here
        cases spawned with
        | none => simp at here
        | some activity =>
            obtain ⟨inside, same⟩ := List.getElem?_eq_some_iff.mp here
            simp only [Option.toList_some, List.length_singleton] at inside
            have position : index = config.threads.length := by omega
            subst position
            simp only [Option.toList_some, Nat.sub_self, List.getElem_cons_zero] at same
            subst same
            exact Or.inr ⟨rfl, own ▸ start_inactive started background⟩
    intro process first second one two
    rcases earlier one with one | ⟨first, inactive⟩
    · rcases earlier two with two | ⟨_, inactive⟩
      · exact lone process _ _ one two
      · rw [runs_active one] at inactive
        cases inactive
    · rcases earlier two with two | ⟨second, _⟩
      · rw [runs_active two] at inactive
        cases inactive
      · rw [first, second]

theorem lone_initial (state : State) : Lone (atRest state) := by
  rintro process first second ⟨thread, present, _⟩ _
  cases present

end Background

/-- A write that changes the owner, or the lease of a row that has none. -/
def restores : PlatformEvent → Bool
  | .acted _ _ (.run (.updateIfCurrent site _ row)) answer before _ =>
      answer && !Fencing.clears site && (row.worker ≠ before.run.worker ||
        (row.worker = none && row.leaseExpireTime ≠ before.run.leaseExpireTime))
  | .acted _ _ (.run (.updateRunWithCallback site _ row _)) answer before _ =>
      answer && !Fencing.clears site && (row.worker ≠ before.run.worker ||
        (row.worker = none && row.leaseExpireTime ≠ before.run.leaseExpireTime))
  | .acted _ _ (.run (.renewUpdate _ _)) _ before _ => before.run.worker.isNone
  | _ => false

section Owners

variable {deployment : Deployment} {admitted : Entry → Bool} {past : List PlatformEvent}
  {phases : List Phase} {thread : Nat} {tag : Tag} {op : Op} {oracle : op.Answer}
  {state : State} {phase : Phase} {site : Site} {expected : Expected} {row : AgentRun}

theorem restores_stores (stores : op.stores site expected row) :
    restores ((platformSystem deployment admitted).performed thread tag op oracle state) = true ↔
      expected.admits state.run = true ∧ Fencing.clears site = false ∧
        (row.worker ≠ state.run.worker ∨
          (row.worker = none ∧ row.leaseExpireTime ≠ state.run.leaseExpireTime)) := by
  cases op with
  | run op =>
      cases op with
      | updateIfCurrent own guard stored =>
          obtain ⟨rfl, rfl, rfl⟩ := stores
          by_cases hit : expected.admits state.run = true <;>
            simp [restores, System.performed, platformSystem, Op.perform, RunOp.perform,
              State.updateIfCurrent, hit]
      | updateRunWithCallback own guard stored delivery =>
          obtain ⟨rfl, rfl, rfl⟩ := stores
          by_cases hit : expected.admits state.run = true <;>
            simp [restores, System.performed, platformSystem, Op.perform, RunOp.perform, hit]
      | _ => exact stores.elim
  | _ => exact stores.elim

theorem keeps_owner (stores : op.stores site expected row)
    (hit : expected.admits state.run = true) (keeps : Fencing.clears site = false)
    (fresh : restores ((platformSystem deployment admitted).performed thread tag op oracle
      state) = false) :
    row.worker = state.run.worker ∧
      (row.worker = none → row.leaseExpireTime = state.run.leaseExpireTime) := by
  rw [← Bool.not_eq_true, restores_stores stores] at fresh
  grind

theorem retry_vacates (permitted : phase.permits deployment.digest (.run (.retry row))) :
    row.leaseExpireTime = none := by
  cases phase with
  | manager process job progress =>
      cases permitted with
      | retry agent now _ _ _ => rfl
  | _ => cases permitted

def Vacant (state : State) : Prop :=
  state.run.worker = none → state.run.leaseExpireTime = none

theorem vacant_inductive : (discipline deployment admitted).Inductive
    (fun _ event => restores event = false) fun _ state _ => Vacant state where
  acts past state phases thread tag op oracle phase vacant _ _ permitted fresh := by
    intro none
    rw [show ((platformSystem deployment admitted).perform tag op oracle state).2 =
      (Op.perform op oracle state).2 from rfl] at none ⊢
    rcases perform_run op oracle state with
      same | ⟨site, expected, row, stores, hit, same⟩ | ⟨row, rfl, same⟩ | ⟨_, lease, rfl, same⟩
    · rw [same] at none ⊢
      exact vacant none
    · rw [same] at none ⊢
      cases clears : Fencing.clears site with
      | true => exact (Hands.clears_owner permitted stores clears).2
      | false =>
          obtain ⟨worker, lease⟩ := keeps_owner stores hit clears fresh
          exact (lease none).trans (vacant (worker ▸ none))
    · rw [same]
      exact retry_vacates permitted
    · rw [same] at none
      rw [show restores _ = state.run.worker.isNone from rfl, none] at fresh
      cases fresh
  launches past config phases entry state spawned _ vacant launched _ := by
    intro none
    rcases launch_moves launched with same | ⟨process, leaseSeconds, _, _, same⟩
    · rw [same] at none ⊢
      exact vacant none
    · rw [same] at none
      cases none

def Clocked (state : State) (phases : List Phase) : Prop :=
  ∀ (thread : Nat) process job progress now,
    phases[thread]? = some (.manager process job progress) → progress.now = some now →
    now ≤ state.clock

theorem now_after {job : ManagerProtocol.Job} {process : Process}
    {progress : ManagerProtocol.Progress} {now : Nat}
    (permitted : ManagerProtocol.Permitted process job progress op)
    (read : (progress.after op (Op.perform op oracle state).1).now = some now) :
    progress.now = some now ∨ now = state.clock := by
  cases permitted with
  | utcNow =>
      cases read
      exact Or.inr rfl
  | _ => exact Or.inl read

theorem clocked_inductive : (discipline deployment admitted).Inductive (fun _ _ => True)
    fun _ state phases => Clocked state phases where
  acts past state phases thread tag op oracle phase clocked present _ permitted _ := by
    intro index process job progress now found read
    have kept := (Leases.perform_clock op oracle state).1
    rw [show ((platformSystem deployment admitted).perform tag op oracle state).2 =
      (Op.perform op oracle state).2 from rfl, kept]
    rcases observe_phase present found with ⟨rfl, same⟩ | ⟨_, old⟩
    · cases phase with
      | manager own task earlier =>
          cases same
          rcases now_after permitted read with before | current
          · exact clocked index process job earlier now present before
          · exact Nat.le_of_eq current
      | _ => cases same
    · exact clocked index process job progress now old read
  launches past config phases entry state spawned _ clocked launched _ := by
    intro index process job progress now found read
    have later : config.state.clock ≤ state.clock := by
      rcases Leases.launch_times launched with ⟨_, _, _, rfl⟩ | ⟨_, _, later⟩
      · exact Nat.le_refl _
      · exact later
    rcases launch_phase launched found with old | ⟨_, start⟩
    · exact Nat.le_trans (clocked index process job progress now old read) later
    · have opening := Entry.phase_opening start
      rw [show progress = _ from opening] at read
      cases read

def Named (phases : List Phase) : Prop :=
  ∀ (thread : Nat) process worker progress,
    phases[thread]? = some (.execution process (some worker) progress) → worker = process

theorem named_inductive : (discipline deployment admitted).Inductive (fun _ _ => True)
    fun _ _ phases => Named phases where
  acts past state phases thread tag op oracle phase named present _ _ _ := by
    intro index process worker progress found
    rcases observe_phase present found with ⟨rfl, same⟩ | ⟨_, old⟩
    · cases phase with
      | execution own lease earlier =>
          cases same
          exact named index process worker earlier present
      | _ => cases same
    · exact named index process worker progress old
  launches past config phases entry state spawned _ named launched _ := by
    intro index process worker progress found
    rcases launch_phase launched found with old | ⟨_, start⟩
    · exact named index process worker progress old
    · cases entry with
      | dispatchReady own leaseSeconds =>
          cases start
          rfl
      | renewal own =>
          obtain ⟨_, _, same⟩ := Option.map_eq_some_iff.mp start
          cases same
      | dispatchDelivery claim =>
          obtain ⟨_, _, same⟩ := Option.map_eq_some_iff.mp start
          cases same
      | toolCall context toolName input idempotencyKey =>
          obtain ⟨_, _, same⟩ := Option.map_eq_some_iff.mp start
          cases same
      | runStage context stageKey stageInput definitionVersion maxAttempts idempotencyKey =>
          obtain ⟨_, _, same⟩ := Option.map_eq_some_iff.mp start
          cases same
      | saveCheckpoint context stageKey executionId checkpoint =>
          obtain ⟨_, _, same⟩ := Option.map_eq_some_iff.mp start
          cases same
      | _ => cases start

end Owners

def spawns (thread : Nat) : PlatformEvent → Bool
  | .launched _ (some (own, _)) _ _ => own = thread
  | _ => false

theorem spawned_inductive {deployment : Deployment} {admitted : Entry → Bool} :
    (discipline deployment admitted).Inductive (fun _ _ => True) fun past _ phases =>
      ∀ thread, thread < phases.length → past.any (spawns thread) = true where
  acts past state phases thread tag op oracle phase spawned _ _ _ _ := by
    intro index inside
    have length : index < phases.length := by
      simpa [System.performed, Discipline.observe] using inside
    rw [List.any_append, spawned index length]
    rfl
  launches past config phases entry state spawned tracked known launched _ := by
    intro index inside
    rw [observe_launch phases launched, List.length_append] at inside
    rw [List.any_append]
    by_cases old : index < phases.length
    · rw [known index old]
      rfl
    · have started := Entry.start_phase (launch_start launched).2.2
      cases spawned with
      | none =>
          simp only at started
          rw [started] at inside
          simp only [Option.toList_none, List.length_nil] at inside
          omega
      | some activity =>
          obtain ⟨phase, start, _⟩ := started
          rw [start] at inside
          simp only [Option.toList_some, List.length_singleton] at inside
          have position : index = config.threads.length := by
            rw [← tracked.length]
            omega
          simp [spawns, System.spawnedThread, position]

def Held (worker : Option Process) (state : State) : Prop :=
  state.run.status = .canceled ∨
    (state.run.worker = worker ∧ state.run.status ≠ .queued ∧ state.run.status ≠ .created)

def recovers : PlatformEvent → Bool
  | .acted _ tag _ _ _ _ => tag.role = .recover
  | _ => false

structure Moment (deployment : Deployment) (admitted : Entry → Bool) (past : List PlatformEvent)
    (config : PlatformConfig) : Prop where
  tracked : (discipline deployment admitted).Tracked config
    ((discipline deployment admitted).phases past)
  inv : Inv past ((discipline deployment admitted).phases past)
  lone : Lone config
  vacant : Vacant config.state
  clocked : Clocked config.state ((discipline deployment admitted).phases past)
  named : Named ((discipline deployment admitted).phases past)
  spawned : ∀ thread, thread < ((discipline deployment admitted).phases past).length →
    past.any (spawns thread) = true

structure Live (deployment : Deployment) (admitted : Entry → Bool) (past : List PlatformEvent)
    (config : PlatformConfig) (thread : Nat) (tag : Tag) (worker : Option Process) : Prop where
  unfinished : ∃ running, config.threads[thread]? = some running ∧ running.tag = tag ∧
    running.program.finished = false
  executes : tag.role.executes worker
  phase : ∃ progress, ((discipline deployment admitted).phases past)[thread]? =
    some (.execution tag.process worker progress)
  executing : Executing thread past

section Moments

variable {deployment : Deployment} {admitted : Entry → Bool} {start : State}
  {past rest : List PlatformEvent} {config final : PlatformConfig} {thread own : Nat} {tag : Tag}
  {worker : Option Process} {op : Op} {oracle : op.Answer} {phase : Phase} {site : Site}
  {expected : Expected} {row : AgentRun}

theorem moment (ran : (platformSystem deployment admitted).Run (atRest start) (past ++ rest) final)
    (vacant : Vacant start) (fresh : ∀ event ∈ past, restores event = false) :
    ∃ config, (platformSystem deployment admitted).Run (atRest start) past config ∧
      (platformSystem deployment admitted).Run config rest final ∧
      Moment deployment admitted past config := by
  obtain ⟨config, reached, remaining⟩ := ran.split
  refine ⟨config, reached, remaining, ?_, ?_, ?_, ?_, ?_, ?_, ?_⟩
  · exact Discipline.run_tracked reached (Discipline.tracked_empty rfl)
  · exact inv_inductive.run reached rfl (fun _ _ _ _ => trivial) inv_initial
  · exact lone_invariant.run reached rfl (fun _ _ _ _ => trivial) (lone_initial start)
  · apply vacant_inductive.run reached rfl _ vacant
    rintro left event right rfl
    exact fresh event (by simp)
  · apply clocked_inductive.run reached rfl (fun _ _ _ _ => trivial)
    intro index process job progress now found
    cases found
  · apply named_inductive.run reached rfl (fun _ _ _ _ => trivial)
    intro index process worker progress found
    cases found
  · apply spawned_inductive.run reached rfl (fun _ _ _ _ => trivial)
    intro index inside
    cases inside

theorem executes_unique {role : Role} {first second : Option Process}
    (one : role.executes first) (two : role.executes second) : first = second := by
  cases role <;> first | exact one.symm.trans two | exact one.trans two.symm | exact one.elim

theorem executes_some {role : Role} {process : Process}
    (executes : role.executes (some process)) : role = .background (some process) := by
  cases role with
  | background workerId => rw [show workerId = some process from executes]
  | direct => cases executes
  | _ => exact executes.elim

theorem executor (moment : Moment deployment admitted past config)
    (remaining : (platformSystem deployment admitted).Run config rest final)
    (executing : Executing thread past) (acts : Acts thread tag rest) :
    ∃ worker, Live deployment admitted past config thread tag worker := by
  obtain ⟨process, worker, progress, named⟩ := moment.inv.working thread executing
  have inside := (List.getElem?_eq_some_iff.mp named).1
  rw [moment.tracked.length] at inside
  have present := List.getElem?_eq_getElem inside
  obtain ⟨op, answer, before, after, member⟩ := acts
  obtain ⟨same, unfinished⟩ := remaining.acts_later present member
  obtain ⟨belongs, _⟩ := moment.tracked.follows thread _ _ present named
  rw [← same] at belongs
  obtain ⟨own, executes⟩ := belongs
  refine ⟨worker, ⟨_, present, same.symm, unfinished⟩, executes, ⟨progress, ?_⟩, executing⟩
  rw [own]
  exact named

theorem unchanged_admits {run : AgentRun} {state : State}
    (hit : (RunManager.unchanged run).admits state.run = true) :
    state.run.status = run.status ∧ state.run.worker = run.worker ∧
      state.run.leaseExpireTime = run.leaseExpireTime := by
  simp only [RunManager.unchanged, Expected.admits, Expected.matchesColumn, Bool.and_eq_true,
    decide_eq_true_eq, List.contains_iff_mem, List.mem_singleton] at hit
  exact ⟨hit.1.1, hit.1.2.symm, hit.2.symm⟩

theorem leased_earlier {run : AgentRun} {now later : Nat} (order : now ≤ later)
    (leased : RunManager.leased run later = true) : RunManager.leased run now = true := by
  simp only [RunManager.leased, Bool.and_eq_true, Option.any_eq_true, decide_eq_true_eq] at leased ⊢
  obtain ⟨owned, lease, held, live⟩ := leased
  exact ⟨owned, lease, held, Nat.lt_of_le_of_lt order live⟩

theorem leased_unexpired {run : AgentRun} {now : Nat}
    (leased : RunManager.leased run now = true) : RunManager.leaseExpired run now = false := by
  simp only [RunManager.leased, Bool.and_eq_true, Option.any_eq_true, decide_eq_true_eq] at leased
  obtain ⟨_, lease, held, live⟩ := leased
  simp [RunManager.leaseExpired, held, live]

/-- The lease of a queue execution holds, and nobody recovers behind a local one. -/
structure Guarded (worker : Option Process) (state : State) (event : PlatformEvent) : Prop where
  leased : ∀ process, worker = some process → state.run.worker = some process →
    state.run.status.executing = true → RunManager.leased state.run state.clock = true
  unrecovered : worker = none → recovers event = false

/-- The call whose update requeues the run, with the row it has found without a lease. -/
theorem requeue_source (permitted : phase.permits deployment.digest op)
    (stores : op.stores site expected row) (requeues : site = .recover ∨ site = .reclaim) :
    ∃ process job progress run now, phase = .manager process job progress ∧
      expected = RunManager.unchanged run ∧ progress.now = some now ∧
      ((site = .recover ∧ job = .recover ∧ RunManager.leased run now = false) ∨
        (site = .reclaim ∧ RunManager.leaseExpired run now = true)) := by
  have writes := Hands.stores_writes permitted stores
  cases phase with
  | manager process job progress =>
      cases permitted with
      | @recover run agent now duty seen read recovers free =>
          obtain ⟨rfl, rfl, _⟩ := stores
          exact ⟨process, job, progress, run, now, rfl, rfl, read, Or.inl ⟨rfl, duty, free⟩⟩
      | @reclaim run now duty seen read executes expired =>
          obtain ⟨rfl, rfl, _⟩ := stores
          exact ⟨process, job, progress, run, now, rfl, rfl, read, Or.inr ⟨rfl, expired⟩⟩
      | _ =>
          first
          | exact stores.elim
          | (obtain ⟨rfl, _⟩ := stores
             rcases requeues with same | same <;> cases same)
  | _ => rcases requeues with rfl | rfl <;> simp [Hands.writes] at writes

theorem held_requeued {after : RunStatus} (held : Held worker config.state)
    (requeues : site = .recover ∨ site = .reclaim)
    (moves : site.moves config.state.run.status after) :
    config.state.run.worker = worker ∧ config.state.run.status.executing = true := by
  have undone : config.state.run.status = .created ∨ config.state.run.status = .queued ∨
      config.state.run.status.executing = true := by
    rcases requeues with rfl | rfl
    · exact moves.1
    · exact Or.inr (Or.inr moves.1)
  rcases held with canceled | ⟨same, unqueued, uncreated⟩
  · rw [canceled] at undone
    rcases undone with created | queued | executing
    · cases created
    · cases queued
    · cases executing
  · rcases undone with created | queued | executing
    · exact absurd created uncreated
    · exact absurd queued unqueued
    · exact ⟨same, executing⟩

theorem requeue_misses (moment : Moment deployment admitted past config)
    (present : ((discipline deployment admitted).phases past)[own]? = some phase)
    (belongs : phase.belongs tag) (permitted : phase.permits deployment.digest op)
    (held : Held worker config.state)
    (guarded : Guarded worker config.state
      ((platformSystem deployment admitted).performed own tag op oracle config.state))
    (stores : op.stores site expected row) (hit : expected.admits config.state.run = true) :
    ¬ (site = .recover ∨ site = .reclaim) := by
  intro requeues
  obtain ⟨same, executing⟩ := held_requeued held requeues (stores_moves permitted stores hit)
  obtain ⟨process, job, progress, run, now, rfl, rfl, read, found⟩ :=
    requeue_source permitted stores requeues
  obtain ⟨_, owner, lease⟩ := unchanged_admits hit
  have order := moment.clocked own process job progress now present read
  cases worker with
  | none =>
      rcases found with ⟨_, rfl, _⟩ | ⟨_, expired⟩
      · have passive := guarded.unrecovered rfl
        cases belongs
        cases passive
      · have free := moment.vacant same
        rw [lease] at free
        rw [RunManager.leaseExpired, free] at expired
        cases expired
  | some holder =>
      have live := leased_earlier order (guarded.leased holder rfl same executing)
      rcases found with ⟨_, _, free⟩ | ⟨_, expired⟩
      · rw [RunManager.leased, owner, lease] at live
        rw [RunManager.leased, live] at free
        cases free
      · have unexpired := leased_unexpired live
        rw [RunManager.leaseExpired, lease] at unexpired
        rw [RunManager.leaseExpired, unexpired] at expired
        cases expired

theorem claim_misses {event : PlatformEvent} (moment : Moment deployment admitted past config)
    (held : Held worker config.state) (guarded : Guarded worker config.state event) :
    claimable config.state.run config.state.clock = false := by
  by_contra ready
  rw [Bool.not_eq_false, claimable, Bool.or_eq_true, Bool.and_eq_true, Bool.and_eq_true,
    decide_eq_true_eq] at ready
  rcases held with canceled | ⟨same, unqueued, _⟩
  · rw [canceled] at ready
    rcases ready with ⟨queued, _⟩ | ⟨executing, _⟩
    · cases queued
    · cases executing
  · rcases ready with ⟨queued, _⟩ | ⟨executing, expired⟩
    · exact unqueued queued
    · cases worker with
      | none =>
          rw [moment.vacant same] at expired
          cases expired
      | some holder =>
          have live := leased_unexpired (guarded.leased holder rfl same executing)
          rw [RunManager.leaseExpired, expired] at live
          cases live

theorem moves_unqueued {before after : RunStatus} (moves : site.moves before after)
    (requeues : ¬ (site = .recover ∨ site = .reclaim)) (unqueued : before ≠ .queued) :
    after ≠ .queued := by
  intro queued
  subst queued
  cases site with
  | recover => exact requeues (Or.inl rfl)
  | reclaim => exact requeues (Or.inr rfl)
  | attemptStart attempt =>
      have started := moves.2
      split at started <;> cases started
  | attemptFailed attempt attempts error =>
      have stored := moves.2
      rcases RunExecutor.classify_status attempt attempts error with same | same | same <;>
        rw [same] at stored <;> cases stored
  | _ => simp_all [Site.moves, RunStatus.settles, RunStatus.announces]

theorem release_source (permitted : phase.permits deployment.digest op)
    (stores : op.stores site expected row) (frees : site = .release ∨ site = .deadLetter) :
    ∃ process worker progress, phase = .execution process worker progress ∧
      expected.worker = some worker ∧ progress.step.releases := by
  have writes := Hands.stores_writes permitted stores
  cases phase with
  | execution process worker progress =>
      cases permitted with
      | release seen releases =>
          obtain ⟨rfl, rfl, _⟩ := stores
          exact ⟨process, worker, progress, rfl, rfl, releases⟩
      | deadLetter reason seen releases =>
          obtain ⟨rfl, rfl, _⟩ := stores
          exact ⟨process, worker, progress, rfl, rfl, releases⟩
      | _ =>
          first
          | exact stores.elim
          | (obtain ⟨rfl, _⟩ := stores
             rcases frees with same | same <;> cases same)
  | _ => rcases frees with rfl | rfl <;> simp [Hands.writes] at writes

/-- The execution of a queue worker is the only one under its id. -/
theorem same_execution {next : op.Answer → Program platform (Except Exc Json)}
    {process holder : Process} {progress : Progress} {own_tag : Tag}
    (moment : Moment deployment admitted past config)
    (acting : config.threads[own]? = some ⟨own_tag, .act op next⟩)
    (belongs : own_tag.process = process ∧ own_tag.role.executes (some holder))
    (present : ((discipline deployment admitted).phases past)[own]? =
      some (.execution process (some holder) progress))
    (live : Live deployment admitted past config thread tag (some holder)) : own = thread := by
  obtain ⟨running, waits, rfl, unfinished⟩ := live.unfinished
  obtain ⟨earlier, other⟩ := live.phase
  have mine := moment.named own process holder progress present
  have theirs := moment.named thread running.tag.process holder earlier other
  apply moment.lone holder
  · refine ⟨_, acting, belongs.1.trans mine.symm, ?_, rfl⟩
    rw [executes_some belongs.2]
    rfl
  · refine ⟨_, waits, theirs.symm, ?_, unfinished⟩
    rw [executes_some live.executes]
    rfl

/-- No update but a requeue takes a held run from its execution. -/
theorem held_stores {next : op.Answer → Program platform (Except Exc Json)} {own_tag : Tag}
    (moment : Moment deployment admitted past config)
    (acting : config.threads[own]? = some ⟨own_tag, .act op next⟩)
    (present : ((discipline deployment admitted).phases past)[own]? = some phase)
    (belongs : phase.belongs own_tag) (permitted : phase.permits deployment.digest op)
    (live : Live deployment admitted past config thread tag worker)
    (held : Held worker config.state) (stores : op.stores site expected row)
    (hit : expected.admits config.state.run = true)
    (keeps : ¬ (site = .recover ∨ site = .reclaim))
    (fresh : restores ((platformSystem deployment admitted).performed own own_tag op oracle
      config.state) = false)
    (shut : reopens ((platformSystem deployment admitted).performed own own_tag op oracle
      config.state) = false) :
    row.status = .canceled ∨
      (row.worker = worker ∧ row.status ≠ .queued ∧ row.status ≠ .created) := by
  have moves := stores_moves permitted stores hit
  rcases held with canceled | ⟨same, unqueued, uncreated⟩
  · left
    rw [canceled] at moves
    have still := Cancellation.moves_canceled moves
    split at still
    · next call =>
        subst call
        cases op with
        | run op =>
            cases op with
            | updateIfCurrent own guard stored =>
                obtain ⟨rfl, rfl, rfl⟩ := stores
                simp [reopens, System.performed, platformSystem, Op.perform, RunOp.perform,
                  State.updateIfCurrent, hit, canceled, RunStatus.executing,
                  executingRunStatuses] at shut
            | updateRunWithCallback own guard stored delivery =>
                obtain ⟨rfl, rfl, rfl⟩ := stores
                rcases (callback_moves permitted (admitted_status hit)).2 with same | same <;>
                  cases same
            | _ => exact stores.elim
        | _ => exact stores.elim
    · exact still
  · have status : row.status ≠ .queued ∧ row.status ≠ .created :=
      ⟨moves_unqueued moves keeps unqueued, fun created => uncreated (moves_created (created ▸ moves))⟩
    cases clears : Fencing.clears site with
    | false => exact Or.inr ⟨((keeps_owner stores hit clears fresh).1).trans same, status⟩
    | true =>
        have free := (Hands.clears_owner permitted stores clears).1
        cases worker with
        | none => exact Or.inr ⟨free, status⟩
        | some holder =>
            cases site with
            | cancel => exact Or.inl moves.2
            | recover => exact absurd (Or.inl rfl) keeps
            | reclaim => exact absurd (Or.inr rfl) keeps
            | _ =>
                obtain ⟨process, own_worker, progress, rfl, guard, releases⟩ :=
                  release_source permitted stores
                    (by first | exact Or.inl rfl | exact Or.inr rfl | cases clears)
                have column := (Fencing.admits_worker hit guard).symm.trans same
                subst column
                have mine := same_execution moment acting belongs present live
                subst mine
                have ended := (moment.inv.agrees own process _ progress present).stored
                  (releases_stored releases)
                rw [moment.inv.engaged own live.executing] at ended
                cases ended

/-- An operation that neither ends the execution nor resubmits the run leaves it held. -/
theorem held_acted {next : op.Answer → Program platform (Except Exc Json)} {own_tag : Tag}
    (moment : Moment deployment admitted past config)
    (acting : config.threads[own]? = some ⟨own_tag, .act op next⟩)
    (present : ((discipline deployment admitted).phases past)[own]? = some phase)
    (belongs : phase.belongs own_tag) (permitted : phase.permits deployment.digest op)
    (live : Live deployment admitted past config thread tag worker)
    (held : Held worker config.state)
    (guarded : Guarded worker config.state
      ((platformSystem deployment admitted).performed own own_tag op oracle config.state))
    (fresh : restores ((platformSystem deployment admitted).performed own own_tag op oracle
      config.state) = false)
    (shut : reopens ((platformSystem deployment admitted).performed own own_tag op oracle
      config.state) = false)
    (silent : engages thread ((platformSystem deployment admitted).performed own own_tag op oracle
      config.state) = none) : Held worker (Op.perform op oracle config.state).2 := by
  unfold Held
  rcases perform_run op oracle config.state with
    same | ⟨site, expected, row, stores, hit, same⟩ | ⟨row, rfl, same⟩ | ⟨_, lease, rfl, same⟩
  · rw [same]
    exact held
  · rw [same]
    have keeps := requeue_misses moment present belongs permitted held guarded stores hit
    exact held_stores moment acting present belongs permitted live held stores hit keeps fresh shut
  · cases silent
  · rw [same]
    exact held

theorem held_launched {entry : Entry} {after : State} {spawned : Option Activity}
    (moment : Moment deployment admitted past config) (held : Held worker config.state)
    (guarded : Guarded worker config.state
      (.launched entry (System.spawnedThread config spawned) config.state after))
    (launched : (platformSystem deployment admitted).launch entry config = some (after, spawned)) :
    Held worker after := by
  unfold Held
  rcases launch_moves launched with same | ⟨process, leaseSeconds, rfl, _, _⟩
  · rw [same]
    exact held
  · have ready := (launch_claim launched).2.1
    rw [claim_misses moment held guarded] at ready
    cases ready

theorem held_event {event : PlatformEvent} (moment : Moment deployment admitted past config)
    (remaining : (platformSystem deployment admitted).Run config (event :: rest) final)
    (live : Live deployment admitted past config thread tag worker)
    (held : Held worker event.before) (guarded : Guarded worker event.before event)
    (fresh : restores event = false) (shut : reopens event = false)
    (silent : engages thread event = none) : Held worker event.after := by
  cases remaining with
  | next move taken _ =>
      rw [(System.step_states taken).1] at held guarded
      cases move with
      | act own oracle =>
          obtain ⟨own_tag, op, next, acting, _, rfl, rfl⟩ := System.step_act taken
          obtain ⟨phase, present, belongs, follows⟩ := moment.tracked.phase acting
          exact held_acted moment acting present belongs follows.1 live held guarded fresh shut
            silent
      | launch entry =>
          obtain ⟨state, spawned, launched, rfl, rfl⟩ := System.step_launch taken
          exact held_launched moment held guarded launched

/-- A started attempt has left its row under the worker column of its execution. -/
theorem held_attempt {state : State} {attempt index : Nat} {own_tag : Tag} {oracle : Bool}
    {later : PlatformConfig}
    (present : ((discipline deployment admitted).phases past)[index]? = some phase)
    (permitted : phase.permits deployment.digest
      (.run (.updateIfCurrent (.attemptStart attempt) expected row)))
    (live : Live deployment admitted (past ++ [(platformSystem deployment admitted).performed
      index own_tag (.run (.updateIfCurrent (.attemptStart attempt) expected row)) oracle
      state]) later index tag worker)
    (hit : expected.admits state.run = true)
    (fresh : restores ((platformSystem deployment admitted).performed index own_tag
      (.run (.updateIfCurrent (.attemptStart attempt) expected row)) oracle state) = false) :
    row.worker = worker ∧ row.status ≠ .queued ∧ row.status ≠ .created := by
  obtain ⟨process, own_worker, progress, rfl⟩ := loop_writes permitted (Or.inl ⟨attempt, rfl⟩)
  obtain ⟨after, found⟩ := live.phase
  rw [Discipline.phases_snoc] at found
  have same : own_worker = worker := by
    rcases observe_phase present found with ⟨_, same⟩ | ⟨different, _⟩
    · cases same
      rfl
    · exact absurd rfl different
  have stores : Op.stores (.run (.updateIfCurrent (.attemptStart attempt) expected row))
      (.attemptStart attempt) expected row := ⟨rfl, rfl, rfl⟩
  have guard : expected.worker = some own_worker := by
    cases permitted
    rfl
  have keeps := (keeps_owner stores hit rfl fresh).1
  rw [Fencing.admits_worker hit guard, same] at keeps
  have started := (update_moves permitted (admitted_status hit)).2
  split at started <;> exact ⟨keeps, by rw [started]; exact nofun, by rw [started]; exact nofun⟩

theorem engages_event {event : PlatformEvent} (begins : engages thread event = some true) :
    (∃ process leaseSeconds tag before after, event =
      .launched (.dispatchReady process leaseSeconds) (some (thread, tag)) before after) ∨
    (∃ tag attempt expected row before after, event = .acted thread tag
      (.run (.updateIfCurrent (.attemptStart attempt) expected row)) true before after) := by
  unfold engages at begins
  split at begins
  · next process leaseSeconds own tag before after =>
      split at begins
      · next same =>
          subst same
          exact Or.inl ⟨process, leaseSeconds, tag, before, after, rfl⟩
      · cases begins
  · next own tag attempt expected row answer before after =>
      split at begins
      · next picked =>
          obtain ⟨rfl, hit⟩ := picked
          subst hit
          exact Or.inr ⟨tag, attempt, expected, row, before, after, rfl⟩
      · cases begins
  · split at begins <;> cases begins
  · cases begins
  · cases begins

theorem held_started {event : PlatformEvent} {later : PlatformConfig}
    (ran : (platformSystem deployment admitted).Run (atRest start) (past ++ event :: rest) final)
    (begins : engages thread event = some true)
    (live : Live deployment admitted (past ++ [event]) later thread tag worker)
    (fresh : restores event = false) : Held worker event.after := by
  rcases engages_event begins with ⟨process, leaseSeconds, own_tag, before, after, rfl⟩ |
    ⟨own_tag, attempt, expected, row, before, after, rfl⟩
  · obtain ⟨config, spawned, tracked, rfl, launched, named⟩ :=
      Discipline.run_launches (D := discipline deployment admitted) ran rfl
    obtain ⟨phase, start, found⟩ := launch_spawned tracked launched named
    obtain ⟨progress, executes⟩ := live.phase
    rw [Discipline.phases_snoc, found, ← start] at executes
    cases executes
    right
    rw [show (Event.launched _ _ _ after).after = after from rfl, launch_effect launched]
    exact ⟨rfl, nofun, nofun⟩
  · obtain ⟨phase, oracle, present, _, permitted, same⟩ :=
      Discipline.run_permits (D := discipline deployment admitted) ran rfl
    obtain ⟨hit, stored⟩ := updated_row ran
    rw [same] at live fresh
    right
    rw [show (Event.acted _ _ _ _ _ after).after = after from rfl, stored]
    exact held_attempt present permitted live hit fresh

theorem takes_event {event : PlatformEvent} {process : Process}
    (taken : takes event = some process) :
    (∃ leaseSeconds spawned before after, event =
      .launched (.dispatchReady process leaseSeconds) spawned before after) ∨
    (∃ own tag site expected row before after, event = .acted own tag
      (.run (.updateIfCurrent site expected row)) true before after ∧ tag.process = process ∧
      ((∃ attempt, site = .attemptStart attempt) ∨ site = .recover ∨ site = .reclaim)) := by
  unfold takes at taken
  split at taken
  · next own leaseSeconds spawned before after =>
      cases taken
      exact Or.inl ⟨leaseSeconds, spawned, before, after, rfl⟩
  · next own tag attempt expected row answer before after =>
      split at taken
      · next hit =>
          subst hit
          exact Or.inr ⟨own, tag, _, expected, row, before, after, rfl, Option.some.inj taken,
            Or.inl ⟨attempt, rfl⟩⟩
      · cases taken
  · next own tag expected row answer before after =>
      split at taken
      · next hit =>
          subst hit
          exact Or.inr ⟨own, tag, _, expected, row, before, after, rfl, Option.some.inj taken,
            Or.inr (Or.inl rfl)⟩
      · cases taken
  · next own tag expected row answer before after =>
      split at taken
      · next hit =>
          subst hit
          exact Or.inr ⟨own, tag, _, expected, row, before, after, rfl, Option.some.inj taken,
            Or.inr (Or.inr rfl)⟩
      · cases taken
  · cases taken

/-- An attempt of a held run starts under its worker column, in an execution that has
not ended its work; under a worker id that is the same process. -/
theorem attempt_source {attempt : Nat} {own_tag : Tag}
    (moment : Moment deployment admitted past config)
    (present : ((discipline deployment admitted).phases past)[own]? = some phase)
    (belongs : phase.belongs own_tag)
    (permitted : phase.permits deployment.digest
      (.run (.updateIfCurrent (.attemptStart attempt) expected row)))
    (live : Live deployment admitted past config thread tag worker)
    (held : Held worker config.state) (hit : expected.admits config.state.run = true) :
    own_tag.role.executes worker ∧ concluded own past = false ∧
      ∀ holder, worker = some holder → own_tag.process = tag.process := by
  obtain ⟨process, own_worker, progress, rfl⟩ := loop_writes permitted (Or.inl ⟨attempt, rfl⟩)
  have unspent : ¬ Spent progress.step := by
    cases permitted with
    | attemptStart attempt now seen live mayStart positive => exact mayStart_unspent mayStart
  have guard : expected.worker = some own_worker := by
    cases permitted
    rfl
  have column : own_worker = worker := by
    rcases held with canceled | ⟨owner, _, _⟩
    · exact absurd canceled (update_moves permitted (admitted_status hit)).1
    · exact (Fencing.admits_worker hit guard).symm.trans owner
  subst column
  refine ⟨belongs.2, ?_, ?_⟩
  · by_contra ended
    rw [Bool.not_eq_false] at ended
    exact unspent ((moment.inv.agrees own process own_worker progress present).spent ended)
  · rintro holder rfl
    obtain ⟨earlier, other⟩ := live.phase
    rw [belongs.1, ← moment.named own process holder progress present]
    exact moment.named thread tag.process holder earlier other

end Moments

/-- Since the thread has taken the object that it writes, another commit has changed the
owner, or the lease of a row without one. -/
def Disowned (thread : Nat) (role : Role) (site : Site) (past : List PlatformEvent) : Prop :=
  System.Since (Hands.takes thread role site past)
    (fun state run => run.worker ≠ state.run.worker ∨
      (run.worker = none ∧ run.leaseExpireTime ≠ state.run.leaseExpireTime)) past

/-- An update puts an outdated owner back, or a renewal comes when the row has none. -/
def PutsBack (past : List PlatformEvent) : PlatformEvent → Prop
  | .acted _ _ (.run (.renewUpdate _ _)) _ before _ => before.run.worker = none
  | .acted own tag op _ before _ => ∃ site expected row, op.stores site expected row ∧
      expected.admits before.run = true ∧ Fencing.clears site = false ∧
      Disowned own tag.role site past
  | _ => False

section Owners

variable {deployment : Deployment} {admitted : Entry → Bool} {start : State}
  {past later : List PlatformEvent} {final : PlatformConfig} {thread : Nat} {tag : Tag} {op : Op}
  {answer : op.Answer} {before after : State} {site : Site} {expected : Expected} {row : AgentRun}

theorem disowned_iff
    (ran : (platformSystem deployment admitted).Run (atRest start)
      (past ++ .acted thread tag op answer before after :: later) final)
    (stores : op.stores site expected row) (keeps : Fencing.clears site = false) :
    Disowned thread tag.role site past ↔ row.worker ≠ before.run.worker ∨
      (row.worker = none ∧ row.leaseExpireTime ≠ before.run.leaseExpireTime) := by
  obtain ⟨object, known, derived⟩ := Hands.stored_object ran stores
  obtain ⟨worker, lease⟩ := derived.owner keeps
  rw [worker, lease]
  apply ran.since_iff known
  intro left item right split picked
  rw [split, List.append_assoc] at ran
  rw [Hands.taken_row ran picked]
  simp

theorem restores_iff {event : PlatformEvent}
    (ran : (platformSystem deployment admitted).Run (atRest start) (past ++ event :: later) final) :
    PutsBack past event ↔ restores event = true := by
  cases event with
  | launched entry spawned before after => exact ⟨False.elim, fun back => by cases back⟩
  | acted own tag op answer before after =>
      have update : ∀ {site expected row}, op.stores site expected row →
          (restores (.acted own tag op answer before after) = true ↔
            expected.admits before.run = true ∧ Fencing.clears site = false ∧
              Disowned own tag.role site past) := by
        intro site expected row stores
        obtain ⟨_, oracle, _, _, _, same⟩ :=
          Discipline.run_permits (D := discipline deployment admitted) ran rfl
        rw [same, restores_stores stores]
        exact and_congr_right fun _ => and_congr_right fun keeps =>
          (disowned_iff ran stores keeps).symm
      cases op with
      | run op =>
          cases op with
          | updateIfCurrent site expected row =>
              have stores : Op.stores (.run (.updateIfCurrent site expected row)) site expected row :=
                ⟨rfl, rfl, rfl⟩
              rw [update stores]
              constructor
              · rintro ⟨_, _, _, ⟨rfl, rfl, rfl⟩, back⟩
                exact back
              · exact fun back => ⟨_, _, _, stores, back⟩
          | updateRunWithCallback site expected row delivery =>
              have stores : Op.stores (.run (.updateRunWithCallback site expected row delivery))
                  site expected row := ⟨rfl, rfl, rfl⟩
              rw [update stores]
              constructor
              · rintro ⟨_, _, _, ⟨rfl, rfl, rfl⟩, back⟩
                exact back
              · exact fun back => ⟨_, _, _, stores, back⟩
          | renewUpdate loaded lease => simp [PutsBack, restores]
          | _ => exact ⟨fun ⟨_, _, _, stores, _⟩ => stores.elim, fun back => by cases back⟩
      | _ => exact ⟨fun ⟨_, _, _, stores, _⟩ => stores.elim, fun back => by cases back⟩

end Owners

structure Secured (events : List PlatformEvent) : Prop where
  /-- The lease of a queue execution does not lapse. -/
  renewed : ∀ past event later thread tag process, events = past ++ event :: later →
    Executing thread past → Acts thread tag later → tag.role = .background (some process) →
    event.before.run.worker = some process → event.before.run.status.executing = true →
    RunManager.leased event.before.run event.before.clock = true
  /-- No `recover_incomplete` call runs beside a local execution. -/
  unrecovered : ∀ past event later thread tag, events = past ++ event :: later →
    Executing thread past → Acts thread tag later → tag.role.executes none →
    recovers event = false
  /-- Local executions of two processes do not overlap. -/
  alone : ∀ past rest first second one two, events = past ++ rest → Executing first past →
    Acts first one rest → one.role.executes none → past.any (spawns second) = true →
    concluded second past = false → Acts second two rest → two.role.executes none →
    two.process = one.process
  /-- No write puts an outdated owner back. -/
  owned : ∀ past event later, events = past ++ event :: later → ¬ PutsBack past event
  /-- No execution goes on with a finished run that is another's. -/
  follows : ∀ past event later, events = past ++ event :: later → ¬ Overruns past event
  /-- No tool call reopens a run. -/
  shut : ∀ event ∈ events, reopens event = false

section Secured

variable {deployment : Deployment} {admitted : Entry → Bool} {start : State}
  {past later : List PlatformEvent} {event : PlatformEvent} {final : PlatformConfig} {thread : Nat}
  {tag : Tag} {worker : Option Process} {process : Process}

theorem Acts.mono {earlier later : List PlatformEvent} (acts : Acts thread tag later)
    (subset : ∀ event ∈ later, event ∈ earlier) : Acts thread tag earlier := by
  obtain ⟨op, answer, before, after, member⟩ := acts
  exact ⟨op, answer, before, after, subset _ member⟩

theorem Secured.guarded (secured : Secured (past ++ event :: later))
    (executing : Executing thread past) (acts : Acts thread tag later)
    (executes : tag.role.executes worker) : Guarded worker event.before event := by
  constructor
  · rintro process rfl owner running
    exact secured.renewed past event later thread tag process rfl executing acts
      (executes_some executes) owner running
  · rintro rfl
    exact secured.unrecovered past event later thread tag rfl executing acts executes

theorem Secured.fresh {events : List PlatformEvent}
    (ran : (platformSystem deployment admitted).Run (atRest start) events final)
    (secured : Secured events) : ∀ event ∈ events, restores event = false := by
  intro event member
  obtain ⟨past, later, rfl⟩ := List.append_of_mem member
  rw [← Bool.not_eq_true, ← restores_iff ran]
  exact secured.owned past event later rfl

theorem held_live
    (ran : (platformSystem deployment admitted).Run (atRest start) (past ++ event :: later) final)
    (vacant : Vacant start) (secured : Secured (past ++ event :: later))
    (executing : Executing thread past) (acts : Acts thread tag later) :
    ∃ config worker, Moment deployment admitted past config ∧
      Live deployment admitted past config thread tag worker ∧ Held worker config.state ∧
      (platformSystem deployment admitted).Run config (event :: later) final := by
  have fresh := secured.fresh ran
  -- Every prefix in which the thread executes has its moment.
  have living : ∀ {left right : List PlatformEvent}, past ++ event :: later = left ++ right →
      Executing thread left → (∀ other ∈ event :: later, other ∈ right) →
      ∃ config worker, (platformSystem deployment admitted).Run (atRest start) left config ∧
        (platformSystem deployment admitted).Run config right final ∧
        Moment deployment admitted left config ∧
        Live deployment admitted left config thread tag worker := by
    intro left right split executing subset
    obtain ⟨config, reached, remaining, here⟩ := moment (split ▸ ran) vacant (by
      intro other member
      apply fresh
      rw [split]
      exact List.mem_append_left _ member)
    obtain ⟨worker, live⟩ := executor here remaining executing
      (acts.mono fun other member => subset other (List.mem_cons_of_mem _ member))
    exact ⟨config, worker, reached, remaining, here, live⟩
  obtain ⟨config, worker, reached, remaining, here, live⟩ :=
    living rfl executing fun _ member => member
  refine ⟨config, worker, here, live, ?_, remaining⟩
  obtain ⟨left, sign, right, rfl, begins, silent⟩ := latest_split executing
  apply reached.lasts (Held worker)
  · have grouped : left ++ sign :: right ++ event :: later =
        (left ++ [sign]) ++ (right ++ event :: later) := by simp
    have begun : Executing thread (left ++ [sign]) := by
      rw [executing_snoc, begins]
      rfl
    obtain ⟨_, other, _, _, _, early⟩ := living grouped begun
      fun _ member => List.mem_append_right _ member
    rw [executes_unique live.executes early.executes]
    rw [List.append_assoc, List.cons_append] at ran
    exact held_started ran begins early (fresh sign (by simp))
  · rintro passed next rest rfl held
    have grouped : left ++ sign :: (passed ++ next :: rest) ++ event :: later =
        (left ++ sign :: passed) ++ next :: (rest ++ event :: later) := by simp
    have still : Executing thread (left ++ sign :: passed) :=
      latest_of_split begins fun other member => silent other (by simp [member])
    obtain ⟨_, other, _, onward, there, between⟩ := living grouped still
      fun _ member => List.mem_cons_of_mem _ (List.mem_append_right _ member)
    rw [executes_unique live.executes between.executes] at held ⊢
    rw [grouped] at secured fresh
    exact held_event there onward between held
      (secured.guarded still (acts.mono fun other member =>
        List.mem_append_right _ (List.mem_cons_of_mem _ member)) between.executes)
      (fresh next (by simp)) (secured.shut next (by simp)) (silent next (by simp))

theorem held_untaken
    (ran : (platformSystem deployment admitted).Run (atRest start) (past ++ event :: later) final)
    (vacant : Vacant start) (secured : Secured (past ++ event :: later))
    (executing : Executing thread past) (acts : Acts thread tag later)
    (taken : takes event = some process) : process = tag.process := by
  obtain ⟨config, worker, here, live, held, remaining⟩ := held_live ran vacant secured executing acts
  have guarded := secured.guarded executing acts live.executes
  have state : event.before = config.state := by
    cases remaining with
    | next move stepped _ => exact (System.step_states stepped).1
  rw [state] at guarded
  rcases takes_event taken with ⟨leaseSeconds, spawned, before, after, rfl⟩ |
    ⟨own, own_tag, site, expected, row, before, after, rfl, rfl, kind⟩
  · obtain ⟨other, activity, _, same, launched, _⟩ :=
      Discipline.run_launches (D := discipline deployment admitted) ran rfl
    have ready := (launch_claim launched).2.1
    cases state
    rw [same, claim_misses here held guarded] at ready
    cases ready
  · cases state
    obtain ⟨phase, oracle, present, belongs, permitted, same⟩ :=
      Discipline.run_permits (D := discipline deployment admitted) ran rfl
    have hit := (updated_row ran).1
    rcases kind with ⟨attempt, rfl⟩ | requeues
    · obtain ⟨executes, idle, queued⟩ :=
        attempt_source here present belongs permitted live held hit
      cases worker with
      | some holder => exact queued holder rfl
      | none =>
          exact secured.alone past _ thread own tag own_tag rfl executing
            (acts.mono fun _ => List.mem_cons_of_mem _) live.executes
            (here.spawned own (List.getElem?_eq_some_iff.mp present).1) idle
            ⟨_, _, _, _, List.mem_cons_self⟩ executes
    · have stores : Op.stores (.run (.updateIfCurrent site expected row)) site expected row :=
        ⟨rfl, rfl, rfl⟩
      rw [same] at guarded
      exact absurd requeues (requeue_misses here present belongs permitted held guarded stores hit)

end Secured

/-- A run that is being executed is left alone by other processes, and one execution
commits its results, as long as its lease does not lapse, nobody recovers runs beside a
local execution, local executions do not overlap, no stale write puts an owner back
and nothing opens a finished row again. -/
theorem executions_exclusive {deployment : Deployment} {run : AgentRun} {clock : Nat}
    {conversation : Option String} {events : List PlatformEvent} {final : PlatformConfig}
    (submitted : RunService.Submitted run)
    (ran : (platformSystem deployment fun _ => true).Run
      (atRest (State.initial run clock conversation)) events final)
    (secured : Secured events) : Exclusive events := by
  have vacant : Vacant (State.initial run clock conversation) :=
    fun _ => (RunService.submitted_status submitted).2.2
  constructor
  · rintro past event later thread tag process rfl executing acts taken
    exact held_untaken ran vacant secured executing acts taken
  · rintro past first middle last later thread other rfl committed again settled
    exact committed_once ran (fun left event right split => secured.follows left event right split)
      secured.shut committed again settled

def submittedRun : AgentRun :=
  { RunService.queuedRun (RunService.newRun { routeTag := "echo", requestId := "REQ-1" } "RUN-1")
      sampleAgent 0 with conversationId := some "CONV-1" }

theorem submittedRun_submitted : RunService.Submitted submittedRun :=
  ⟨{ routeTag := "echo", requestId := "REQ-1" }, none, "RUN-1", .ok sampleAgent, 0,
    .created "CONV-1", .created "CONV-1", rfl⟩

def recoveredAlive : List (Move platform Entry) :=
  [.launch (.runBackground "api-1")] ++ steps 10 0 calm ++
    [.launch (.recoverIncomplete "api-2")] ++ steps 4 1 calm ++ steps 1 0 calm

def actsAt (thread : Nat) (process : Process) : PlatformEvent → Bool
  | .acted own tag _ _ _ _ => own = thread && tag.process = process
  | _ => false

theorem recoveredAlive_replays : ((platformSystem sampleDeployment fun _ => true).replay
    (atRest (State.initial submittedRun 0 none)) recoveredAlive).any (fun outcome =>
      latest (engages 0) (outcome.1.take 15) = some true &&
        (outcome.1[15]?).any (fun event => takes event = some "api-2") &&
        (outcome.1.drop 16).any (actsAt 0 "api-1")) = true := rfl

theorem actsAt_spec {thread : Nat} {process : Process} {events : List PlatformEvent}
    (acts : events.any (actsAt thread process) = true) :
    ∃ tag, tag.process = process ∧ Acts thread tag events := by
  obtain ⟨event, member, found⟩ := List.any_eq_true.mp acts
  unfold actsAt at found
  split at found
  · simp only [Bool.and_eq_true, decide_eq_true_eq] at found
    obtain ⟨rfl, own⟩ := found
    exact ⟨_, own, _, _, _, _, member⟩
  · cases found

/-- `recover_incomplete` requeues a run that a live process executes locally. -/
theorem live_execution_recovered : ∃ run events final, RunService.Submitted run ∧
    (platformSystem sampleDeployment fun _ => true).Run
      (atRest (State.initial run 0 none)) events final ∧ ¬ Exclusive events := by
  obtain ⟨events, final, ran, checked⟩ := System.replay_checked recoveredAlive_replays
  simp only [Bool.and_eq_true, decide_eq_true_eq, Option.any_eq_true] at checked
  obtain ⟨⟨executing, event, found, taken⟩, acts⟩ := checked
  obtain ⟨tag, own, acts⟩ := actsAt_spec acts
  refine ⟨submittedRun, events, final, submittedRun_submitted, ran, ?_⟩
  intro exclusive
  have same := exclusive.unshared _ event _ 0 tag "api-2" (split_at found) executing acts taken
  rw [own] at same
  revert same
  decide

def leftAlone : List (Move platform Entry) :=
  [.launch (.dispatchReady "worker" 30)] ++ steps 10 0 calm ++
    [.launch (.recoverIncomplete "api")] ++ steps 2 1 calm ++ steps 13 0 calm

/-- Every step is under a live lease, none belongs to a local execution, and none
writes where it should not. -/
def undisturbed : PlatformEvent → Bool
  | .acted own tag op answer before after =>
      !(tag.role = .background none || tag.role = .direct) &&
        (!before.run.status.executing || RunManager.leased before.run before.clock) &&
        (!finished before.run.status || !(decider (.acted own tag op answer before after)).isSome) &&
        !restores (.acted own tag op answer before after) &&
        !reopens (.acted own tag op answer before after)
  | .launched _ _ before _ =>
      !before.run.status.executing || RunManager.leased before.run before.clock

theorem leftAlone_replays : ((platformSystem sampleDeployment fun _ => true).replay
    (atRest (State.initial submittedRun 0 none)) leftAlone).any (fun outcome =>
      outcome.1.all undisturbed && outcome.1.any recovers) = true := rfl

theorem undisturbed_leased {event : PlatformEvent} (quiet : undisturbed event = true)
    (executing : event.before.run.status.executing = true) :
    RunManager.leased event.before.run event.before.clock = true := by
  cases event with
  | acted own tag op answer before after =>
      simp only [undisturbed, Bool.and_eq_true] at quiet
      have lease := quiet.1.1.1.2
      rw [show before.run.status.executing = true from executing] at lease
      exact lease
  | launched entry spawned before after =>
      simp only [undisturbed] at quiet
      rw [show before.run.status.executing = true from executing] at quiet
      exact quiet

theorem undisturbed_queued {events : List PlatformEvent} {thread : Nat} {tag : Tag}
    (quiet : ∀ event ∈ events, undisturbed event = true) (acts : Acts thread tag events) :
    ¬ tag.role.executes none := by
  intro executes
  obtain ⟨op, answer, before, after, member⟩ := acts
  have queued := quiet _ member
  simp only [undisturbed, Bool.and_eq_true, Bool.not_eq_true', Bool.or_eq_false_iff,
    decide_eq_false_iff_not] at queued
  obtain ⟨⟨⟨⟨⟨remote, indirect⟩, _⟩, _⟩, _⟩, _⟩ := queued
  cases role : tag.role with
  | background workerId =>
      rw [role] at executes
      rw [show workerId = none from executes] at role
      exact remote role
  | direct => exact indirect role
  | _ =>
      rw [role] at executes
      exact executes

theorem undisturbed_writes {event : PlatformEvent} (quiet : undisturbed event = true) :
    restores event = false ∧ reopens event = false ∧
      ∀ past, ¬ Overruns past event := by
  cases event with
  | acted own tag op answer before after =>
      simp only [undisturbed, Bool.and_eq_true, Bool.not_eq_true', Bool.or_eq_true] at quiet
      obtain ⟨⟨⟨_, undecided⟩, fresh⟩, shut⟩ := quiet
      refine ⟨fresh, shut, ?_⟩
      intro past overruns
      unfold Overruns at overruns
      split at overruns
      · next same =>
          cases same
          obtain ⟨rfl, late, done, _⟩ := overruns
          rcases undecided with undone | silent
          · rw [done] at undone
            cases undone
          · rcases late with ⟨attempt, rfl⟩ | rfl <;> cases silent
      · exact overruns
  | launched entry spawned before after => exact ⟨rfl, rfl, fun _ => id⟩

theorem undisturbed_secured {events : List PlatformEvent} {start : State} {final : PlatformConfig}
    (ran : (platformSystem sampleDeployment fun _ => true).Run (atRest start) events final)
    (quiet : ∀ event ∈ events, undisturbed event = true) : Secured events := by
  constructor
  · rintro past event later thread tag process rfl _ _ _ _ executing
    exact undisturbed_leased (quiet event (by simp)) executing
  · rintro past event later thread tag rfl _ acts executes
    exact absurd executes (undisturbed_queued (fun other member => quiet other (by simp [member])) acts)
  · rintro past rest first second one two rfl _ acts executes
    exact absurd executes (undisturbed_queued (fun other member => quiet other (by simp [member])) acts)
  · rintro past event later rfl
    rw [restores_iff ran, (undisturbed_writes (quiet event (by simp))).1]
    exact Bool.false_ne_true
  · rintro past event later rfl
    exact (undisturbed_writes (quiet event (by simp))).2.2 past
  · exact fun event member => (undisturbed_writes (quiet event member)).2.1

theorem executions_exclusive_left_alone : ∃ events final,
    (platformSystem sampleDeployment fun _ => true).Run
      (atRest (State.initial submittedRun 0 none)) events final ∧
    events.any recovers = true ∧ Exclusive events := by
  obtain ⟨events, final, ran, checked⟩ := System.replay_checked leftAlone_replays
  obtain ⟨quiet, recovering⟩ := Bool.and_eq_true_iff.mp checked
  exact ⟨events, final, ran, recovering, executions_exclusive submittedRun_submitted ran
    (undisturbed_secured ran (List.all_eq_true.mp quiet))⟩

end AgentTaskPlatform.Takeovers
