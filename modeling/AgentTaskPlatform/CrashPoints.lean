import AgentTaskPlatform.Fencing
import AgentTaskPlatform.Preparations

/-!
Crashes between the commits of an execution. Each commit is a transaction of its
own, and three scans look for the runs that a dead process left: recovery for
queued and executing runs, the queue for queued runs and expired leases, and the
dispatcher for pending deliveries. A status that none of them selects strands
the run unless it is final.
-/

namespace AgentTaskPlatform.CrashPoints

open Interleaving CallbackService RunExecutor RunManager Preparations

/-- Executions with their tool calls, stages and renewals, and the calls that put a
run back into the queue. -/
def executing : Entry → Bool
  | .cancel _ => false
  | .resendCallback _ => false
  | .dispatchPending _ _ _ => false
  | .dispatchDelivery _ => false
  | .prepareForRun _ => false
  | .prune _ => false
  | _ => true

def deliveryOf (callbacks : CallbackTable) (run : AgentRun) : Option CallbackDelivery :=
  run.callbackEventId.bind callbacks.find

inductive Rescued (maxAttempts : Nat) (state : State) : Prop
  /-- The outcome is stored, with the delivery that the callback asks for. -/
  | final (ended : state.run.status.terminal = true)
      (notified : subscribes state.run = true →
        (deliveryOf state.callbacks state.run).isSome = true)
  | recovered (now : Nat) (later : state.clock ≤ now) (selected : recoverable state.run = true)
      (free : leased state.run now = false)
  | claimed (now : Nat) (later : state.clock ≤ now) (selected : claimable state.run now = true)
  | reclaimed (now : Nat) (later : state.clock ≤ now)
      (selected : state.run.status.executing = true) (expired : leaseExpired state.run now = true)
  | dispatched
      (waits : state.run.status = .agentSucceeded ∨ state.run.status = .waitingCallback)
      (selected : Claimable maxAttempts state)

def unannounced (callbacks : CallbackTable) (run : AgentRun) : Prop :=
  run.status.terminal = true ∧ subscribes run = true ∧ deliveryOf callbacks run = none

def awaited (maxAttempts : Nat) (callbacks : CallbackTable) (run : AgentRun) : Prop :=
  ∃ delivery, deliveryOf callbacks run = some delivery ∧
    unfinished maxAttempts (some delivery) = true

/-- The commits after which nobody takes care of the run: a success before its
callback is prepared, an outcome that is not announced, and a success announced
over a finished delivery. -/
def Strands (maxAttempts : Nat) : PlatformEvent → Prop
  | .acted _ _ (.run (.updateIfCurrent site expected row)) _ before _ =>
      expected.admits before.run = true ∧
        match site with
        | .agentSucceeded => ¬ awaited maxAttempts before.callbacks row
        | .attemptFailed _ _ _ => unannounced before.callbacks row
        | .recovered => unannounced before.callbacks row
        | .backgroundFailure => unannounced before.callbacks row
        | _ => False
  | .acted _ _ (.run (.updateRunWithCallback .prepareCallback expected row delivery)) _ before _ =>
      expected.admits before.run = true ∧ row.status = .waitingCallback ∧
        unfinished maxAttempts (some delivery) = false
  | _ => False

inductive Kept (maxAttempts : Nat) (callbacks : CallbackTable) (run : AgentRun) : Prop
  | pending (selected : recoverable run = true)
  | final (ended : run.status.terminal = true)
      (notified : subscribes run = true → (deliveryOf callbacks run).isSome = true)
  | waiting (waits : run.status = .agentSucceeded ∨ run.status = .waitingCallback)
      (selected : awaited maxAttempts callbacks run)

section Scans

variable {maxAttempts : Nat} {state : State} {run : AgentRun} {callbacks : CallbackTable}

theorem deliverable_later {delivery : CallbackDelivery} (clock : Nat)
    (left : unfinished maxAttempts (some delivery) = true) :
    ∃ now, clock ≤ now ∧ deliverable now maxAttempts delivery = true := by
  refine ⟨max clock (max delivery.runAfter (delivery.leaseExpireTime.getD 0)),
    Nat.le_max_left _ _, ?_⟩
  simp only [unfinished] at left
  simp only [deliverable, Bool.and_eq_true, Bool.or_eq_true]
  refine ⟨⟨by simpa using left, by simp⟩, Or.inr ?_⟩
  cases delivery.leaseExpireTime with
  | none => rfl
  | some lease => simp

theorem claimable_awaited :
    Claimable maxAttempts state ↔ awaited maxAttempts state.callbacks state.run := by
  constructor
  · rintro ⟨eventId, delivery, named, here, now, _, selected⟩
    refine ⟨delivery, by simp [deliveryOf, named, here], ?_⟩
    simp only [deliverable, Bool.and_eq_true] at selected
    exact selected.1.1
  · rintro ⟨delivery, found, left⟩
    obtain ⟨eventId, named, here⟩ := Option.bind_eq_some_iff.mp found
    exact ⟨eventId, delivery, named, here, deliverable_later _ left⟩

theorem executing_recoverable (runs : run.status.executing = true) : recoverable run = true := by
  simp [recoverable, runs]

theorem claimable_recoverable {now : Nat} (selected : claimable run now = true) :
    recoverable run = true := by
  simp only [claimable, Bool.or_eq_true, Bool.and_eq_true, decide_eq_true_eq] at selected
  rcases selected with queued | runs
  · simp [recoverable, queued.1]
  · exact executing_recoverable runs.1

theorem leased_later (clock : Nat) (run : AgentRun) :
    ∃ now, clock ≤ now ∧ leased run now = false := by
  refine ⟨max clock (run.leaseExpireTime.getD 0), Nat.le_max_left _ _, ?_⟩
  unfold leased
  cases run.leaseExpireTime with
  | none => simp
  | some lease => simp

theorem rescued_iff :
    Rescued maxAttempts state ↔ Kept maxAttempts state.callbacks state.run := by
  constructor
  · rintro (⟨ended, notified⟩ | ⟨now, _, selected, _⟩ | ⟨now, _, selected⟩ |
      ⟨now, _, runs, _⟩ | ⟨waits, selected⟩)
    · exact .final ended notified
    · exact .pending selected
    · exact .pending (claimable_recoverable selected)
    · exact .pending (executing_recoverable runs)
    · exact .waiting waits (claimable_awaited.mp selected)
  · rintro (selected | ⟨ended, notified⟩ | ⟨waits, selected⟩)
    · obtain ⟨now, later, free⟩ := leased_later state.clock state.run
      exact .recovered now later selected free
    · exact .final ended notified
    · exact .dispatched waits (claimable_awaited.mpr selected)

/-- A final status is none of those that a scan selects. -/
theorem terminal_idle (ended : run.status.terminal = true) :
    recoverable run = false ∧ run.status ≠ .agentSucceeded ∧ run.status ≠ .waitingCallback := by
  unfold recoverable
  generalize run.status = status at ended
  cases status <;> first | exact absurd ended (by decide) | decide

theorem unannounced_lost (silent : unannounced callbacks run) : ¬ Kept maxAttempts callbacks run := by
  obtain ⟨ended, asks, missing⟩ := silent
  obtain ⟨idle, succeeded, waits⟩ := terminal_idle ended
  rintro (selected | ⟨_, notified⟩ | ⟨same | same, _⟩)
  · rw [idle] at selected
    cases selected
  · have here := notified asks
    rw [missing] at here
    cases here
  · exact succeeded same
  · exact waits same

theorem unawaited_lost (waits : run.status = .agentSucceeded ∨ run.status = .waitingCallback)
    (missing : ¬ awaited maxAttempts callbacks run) : ¬ Kept maxAttempts callbacks run := by
  rintro (selected | ⟨ended, _⟩ | ⟨_, selected⟩)
  · unfold recoverable at selected
    rcases waits with same | same <;> rw [same] at selected <;> exact absurd selected (by decide)
  · rcases waits with same | same <;> rw [same] at ended <;> exact absurd ended (by decide)
  · exact missing selected

theorem Kept.of_same {other : AgentRun} (kept : Kept maxAttempts callbacks run)
    (status : other.status = run.status) (callback : other.callback = run.callback)
    (error : other.errorType = run.errorType)
    (named : other.callbackEventId = run.callbackEventId) : Kept maxAttempts callbacks other := by
  have url : other.callbackUrl = run.callbackUrl := by
    unfold AgentRun.callbackUrl
    rw [callback]
  have asks : subscribes other = subscribes run := by
    unfold subscribes requestedEvents runEvent
    rw [url, callback, status, error]
  have row : deliveryOf callbacks other = deliveryOf callbacks run := by
    unfold deliveryOf
    rw [named]
  rcases kept with selected | ⟨ended, notified⟩ | ⟨waits, selected⟩
  · refine .pending ?_
    unfold recoverable at selected ⊢
    rwa [status]
  · refine .final (by rw [status]; exact ended) ?_
    rw [asks, row]
    exact notified
  · refine .waiting (by rw [status]; exact waits) ?_
    unfold awaited at selected ⊢
    rwa [row]

end Scans

def Extends (maxAttempts : Nat) (old new : CallbackTable) : Prop :=
  ∀ eventId delivery, old.find eventId = some delivery →
    ∃ later, new.find eventId = some later ∧
      (unfinished maxAttempts (some delivery) = true → unfinished maxAttempts (some later) = true)

def Knows (maxAttempts : Nat) (callbacks : CallbackTable) (eventId : Uuid) :
    Option CallbackDelivery → Prop
  | none => ∀ delivery, callbacks.find eventId = some delivery →
      unfinished maxAttempts (some delivery) = true
  | some known => known.eventId = eventId ∧ ∃ delivery, callbacks.find eventId = some delivery ∧
      unfinished maxAttempts (some delivery) = unfinished maxAttempts (some known)

section Tables

variable {maxAttempts : Nat} {callbacks : CallbackTable} {run : AgentRun} {eventId : Uuid}
  {existing : Option CallbackDelivery} {url : String} {body : CallbackPayload} {now : Nat}

theorem extends_self (callbacks : CallbackTable) : Extends maxAttempts callbacks callbacks :=
  fun _ delivery here => ⟨delivery, here, id⟩

theorem Kept.extended {later : CallbackTable} (kept : Kept maxAttempts callbacks run)
    (extension : Extends maxAttempts callbacks later) : Kept maxAttempts later run := by
  rcases kept with selected | ⟨ended, notified⟩ | ⟨waits, delivery, found, left⟩
  · exact .pending selected
  · refine .final ended fun asks => ?_
    obtain ⟨delivery, found⟩ := Option.isSome_iff_exists.mp (notified asks)
    obtain ⟨eventId, named, here⟩ := Option.bind_eq_some_iff.mp found
    obtain ⟨other, there, _⟩ := extension eventId delivery here
    simp [deliveryOf, named, there]
  · obtain ⟨eventId, named, here⟩ := Option.bind_eq_some_iff.mp found
    obtain ⟨other, there, keeps⟩ := extension eventId delivery here
    exact .waiting waits ⟨other, by simp [deliveryOf, named, there], keeps left⟩

theorem knows_find (callbacks : CallbackTable) (eventId : Uuid) :
    Knows maxAttempts callbacks eventId (callbacks.find eventId) := by
  cases found : callbacks.find eventId with
  | none =>
      intro delivery here
      rw [found] at here
      cases here
  | some delivery => exact ⟨KeyedTable.Table.find_key found, delivery, found, rfl⟩

theorem Knows.key (knows : Knows maxAttempts callbacks eventId existing) :
    (deliveryFor existing eventId url body now).eventId = eventId := by
  apply deliveryFor_key
  rintro delivery rfl
  exact knows.1

/-- A prepared delivery is finished if the row it reuses is. -/
theorem unfinished_deliveryFor : unfinished maxAttempts
    (some (deliveryFor existing eventId url body now)) = unfinished maxAttempts existing := by
  cases existing <;> rfl

theorem upsert_find (knows : Knows maxAttempts callbacks eventId existing) :
    (callbacks.upsert (deliveryFor existing eventId url body now)).find eventId =
      some (deliveryFor existing eventId url body now) := by
  have own := callbacks.find_upsert_self (deliveryFor existing eventId url body now)
  rwa [knows.key] at own

theorem upsert_other {other : Uuid} (knows : Knows maxAttempts callbacks eventId existing)
    (different : other ≠ eventId) :
    (callbacks.upsert (deliveryFor existing eventId url body now)).find other =
      callbacks.find other := by
  apply callbacks.find_upsert_other
  rw [knows.key]
  exact different

theorem upsert_extends (knows : Knows maxAttempts callbacks eventId existing) :
    Extends maxAttempts callbacks
      (callbacks.upsert (deliveryFor existing eventId url body now)) := by
  intro other delivery here
  by_cases same : other = eventId
  · subst same
    refine ⟨_, upsert_find knows, fun left => ?_⟩
    rw [unfinished_deliveryFor]
    cases existing with
    | none => rfl
    | some known =>
        obtain ⟨_, stored, there, agrees⟩ := knows
        rw [here] at there
        cases there
        rw [← agrees]
        exact left
  · exact ⟨delivery, by rw [upsert_other knows same]; exact here, id⟩

theorem Knows.upsert {other : Uuid} {found : Option CallbackDelivery}
    (knows : Knows maxAttempts callbacks eventId existing)
    (known : Knows maxAttempts callbacks other found) :
    Knows maxAttempts (callbacks.upsert (deliveryFor existing eventId url body now)) other
      found := by
  by_cases same : other = eventId
  · subst same
    cases found with
    | none =>
        intro delivery here
        rw [upsert_find knows] at here
        cases here
        rw [unfinished_deliveryFor]
        cases existing with
        | none => rfl
        | some reused =>
            obtain ⟨_, stored, there, agrees⟩ := knows
            rw [← agrees]
            exact known stored there
    | some reused =>
        obtain ⟨key, stored, here, agrees⟩ := known
        refine ⟨key, _, upsert_find knows, ?_⟩
        rw [unfinished_deliveryFor, ← agrees]
        cases existing with
        | none => exact (knows stored here).symm
        | some earlier =>
            obtain ⟨_, row, there, matching⟩ := knows
            rw [here] at there
            cases there
            exact matching.symm
  · cases found with
    | none =>
        intro delivery here
        rw [upsert_other knows same] at here
        exact known delivery here
    | some reused =>
        obtain ⟨key, stored, here, agrees⟩ := known
        exact ⟨key, stored, by rw [upsert_other knows same]; exact here, agrees⟩

end Tables

def Working : Phase → Prop
  | .manager _ job _ => ¬ job.notifies ∧ job ≠ .cancel
  | _ => True

structure Inv (maxAttempts : Nat) (state : State) (phases : List Phase) : Prop where
  row : Kept maxAttempts state.callbacks state.run
  held : ∀ (thread : Nat) phase run, phases[thread]? = some phase →
    (phase.seen = some run ∨ phase.written = some run) → Kept maxAttempts state.callbacks run
  known : ∀ (thread : Nat) phase eventId existing, phases[thread]? = some phase →
    phase.lookUp = some (eventId, existing) → Knows maxAttempts state.callbacks eventId existing
  working : ∀ (thread : Nat) phase, phases[thread]? = some phase → Working phase

section Stores

variable {maxAttempts : Nat} {process : Process} {worker : Option Process}
  {progress : ExecutionProtocol.Progress} {op : Op} {oracle : op.Answer} {state : State}
  {site : Site} {expected : Expected} {row : AgentRun}

theorem finishes_held {run : AgentRun} (finishes : progress.finishes run) :
    (Phase.execution process worker progress).seen = some run ∨
      (Phase.execution process worker progress).written = some run := by
  unfold ExecutionProtocol.Progress.finishes at finishes
  split at finishes
  · exact Or.inl finishes
  · next step =>
      obtain ⟨_, rfl⟩ := finishes
      exact Or.inr (by simp only [Phase.written, step])
  · exact finishes.elim

theorem skipped_kept {run : AgentRun} {callbacks : CallbackTable}
    (kept : Kept maxAttempts callbacks run) : Kept maxAttempts callbacks (skipped run) := by
  -- A status that waits for no callback is left as it is.
  by_cases waits : run.status = .agentSucceeded ∨ run.status = .waitingCallback
  · have settles : (skipped run).status = settledStatus run := by
      simp [skipped, waits]
    have ends : (settledStatus run).terminal = true := by
      unfold settledStatus
      simp only [Bool.or_eq_true, decide_eq_true_eq, waits, if_true]
      split
      · rfl
      · split <;> rfl
    have found : (deliveryOf callbacks run).isSome = true := by
      by_contra missing
      refine unawaited_lost waits ?_ kept
      rintro ⟨delivery, here, _⟩
      exact missing (by rw [here]; rfl)
    exact .final (by rw [settles]; exact ends) fun _ => found
  · refine kept.of_same ?_ rfl rfl rfl
    simp [skipped, waits]

theorem announced_kept {run : AgentRun} {callbacks : CallbackTable}
    (ended : run.status.terminal = true) (told : ¬ unannounced callbacks run) :
    Kept maxAttempts callbacks run := by
  refine .final ended fun asks => ?_
  by_contra missing
  exact told ⟨ended, asks, by simpa using missing⟩

theorem failed_kept {run : AgentRun} {attempt attempts timeout : Nat} {error : Exc}
    {callbacks : CallbackTable}
    (told : ¬ unannounced callbacks (failedRun run attempt attempts timeout error)) :
    Kept maxAttempts callbacks (failedRun run attempt attempts timeout error) := by
  have status : (failedRun run attempt attempts timeout error).status =
      (classify attempt attempts error).1 := rfl
  -- A retry can be recovered; a verdict must have been announced.
  rcases classify_status attempt attempts error with same | same | same
  · refine .pending (executing_recoverable ?_)
    rw [status, same]
    rfl
  · refine announced_kept ?_ told
    rw [status, same]
    rfl
  · refine announced_kept ?_ told
    rw [status, same]
    rfl

structure Holding (maxAttempts : Nat) (callbacks : CallbackTable) (phase : Phase) : Prop where
  run : ∀ run, (phase.seen = some run ∨ phase.written = some run) →
    Kept maxAttempts callbacks run
  known : ∀ eventId existing, phase.lookUp = some (eventId, existing) →
    Knows maxAttempts callbacks eventId existing
  working : Working phase

theorem execution_kept {answer : Bool} {after : State} {thread : Nat} {tag : Tag}
    (holding : Holding maxAttempts state.callbacks (.execution process worker progress))
    (permitted : ExecutionProtocol.Permitted process worker progress
      (.run (.updateIfCurrent site expected row)))
    (admitted : expected.admits state.run = true)
    (safe : ¬ Strands maxAttempts
      (.acted thread tag (.run (.updateIfCurrent site expected row)) answer state after)) :
    Kept maxAttempts state.callbacks row := by
  cases permitted with
  | attemptStart attempt now seen live _ _ =>
      refine .pending (executing_recoverable ?_)
      simp only [startedRun]
      split <;> rfl
  | agentSucceeded output now _ _ =>
      refine .waiting (Or.inl rfl) ?_
      by_contra missing
      exact safe ⟨admitted, missing⟩
  | attemptFailed attempts timeout error _ _ =>
      exact failed_kept fun silent => safe ⟨admitted, silent⟩
  | recovered attempts timeout error result now _ =>
      exact announced_kept rfl fun silent => safe ⟨admitted, silent⟩
  | finish now finishes =>
      exact (holding.run _ (finishes_held finishes)).of_same rfl rfl rfl rfl
  | skipCallback prepares _ =>
      exact skipped_kept (holding.run _ (Or.inr (Hands.prepares_written prepares)))
  | release seen _ => exact (holding.run _ (Or.inl seen)).of_same rfl rfl rfl rfl
  | deadLetter reason seen _ => exact (holding.run _ (Or.inl seen)).of_same rfl rfl rfl rfl
  | backgroundFailure error _ _ _ =>
      exact announced_kept rfl fun silent => safe ⟨admitted, silent⟩

theorem update_kept {digest : Digest} {phase : Phase} {answer : Bool} {after : State}
    {thread : Nat} {tag : Tag} (holding : Holding maxAttempts state.callbacks phase)
    (permitted : phase.permits digest (.run (.updateIfCurrent site expected row)))
    (admitted : expected.admits state.run = true)
    (safe : ¬ Strands maxAttempts
      (.acted thread tag (.run (.updateIfCurrent site expected row)) answer state after)) :
    Kept maxAttempts state.callbacks row := by
  cases phase with
  | execution process worker progress => exact execution_kept holding permitted admitted safe
  | tool context progress =>
      cases permitted with
      | markWaiting tool _ => exact .pending (executing_recoverable rfl)
  | stage index context stageKey progress =>
      cases permitted with
      | currentStep seen _ => exact (holding.run _ (Or.inl seen)).of_same rfl rfl rfl rfl
  | checkpoint index context stageKey progress =>
      cases permitted with
      | currentStep seen _ => exact (holding.run _ (Or.inl seen)).of_same rfl rfl rfl rfl
  | manager process job progress =>
      obtain ⟨silent, lasting⟩ := holding.working
      cases permitted with
      | cancel now same _ _ => exact absurd same lasting
      | recover agent now _ _ _ _ _ => exact .pending rfl
      | reclaim now _ _ _ _ _ => exact .pending rfl
      | skipCallback notifies _ _ => exact absurd notifies silent
      | exhausted dispatches _ _ =>
          exact absurd (ManagerProtocol.Job.dispatches_notifies dispatches) silent

theorem working_prepares {digest : Digest} {phase : Phase} {delivery : CallbackDelivery}
    (working : Working phase)
    (permitted : phase.permits digest (.run (.updateRunWithCallback site expected row delivery))) :
    site = .prepareCallback := by
  cases phase with
  | execution process worker progress =>
      cases permitted with
      | prepareCallback url body now _ _ _ _ _ _ => rfl
  | manager process job progress =>
      obtain ⟨silent, _⟩ := working
      cases permitted with
      | prepareCallback url body now _ _ _ _ _ _ => rfl
      | delivered now attempt dispatches _ _ _ =>
          exact absurd (ManagerProtocol.Job.dispatches_notifies dispatches) silent
  | _ => cases permitted

/-- A preparation leaves the run kept unless it announces a success over a finished
delivery. -/
theorem prepare_kept {digest : Digest} {phase : Phase} {delivery : CallbackDelivery}
    (holding : Holding maxAttempts state.callbacks phase)
    (permitted : phase.permits digest
      (.run (.updateRunWithCallback .prepareCallback expected row delivery)))
    (safe : ¬ (row.status = .waitingCallback ∧ unfinished maxAttempts (some delivery) = false)) :
    Kept maxAttempts (state.callbacks.upsert delivery) row ∧
      ∃ eventId existing url body now, Knows maxAttempts state.callbacks eventId existing ∧
        delivery = deliveryFor existing eventId url body now := by
  cases phase with
  | execution process worker progress =>
      cases permitted with
      | @prepareCallback run eventId existing url body now prepares _ known _ _ _ =>
          have kept : Kept maxAttempts state.callbacks run :=
            holding.run run (Or.inr (Hands.prepares_written prepares))
          have knows : Knows maxAttempts state.callbacks eventId existing :=
            holding.known eventId existing known
          refine ⟨?_, eventId, existing, url, body, now, knows, rfl⟩
          have stored : deliveryOf (state.callbacks.upsert
              (deliveryFor existing eventId url body now)) (announced run eventId) =
                some (deliveryFor existing eventId url body now) := by
            simp [deliveryOf, announced, upsert_find knows]
          have waiting : (announced run eventId).status = .waitingCallback →
              Kept maxAttempts (state.callbacks.upsert
                (deliveryFor existing eventId url body now)) (announced run eventId) := by
            intro waits
            refine .waiting (Or.inr waits) ⟨_, stored, ?_⟩
            by_contra finished
            exact safe ⟨waits, by simpa using finished⟩
          by_cases success : run.status = .agentSucceeded ∨ run.status = .succeeded
          · exact waiting (by simp [announced, success])
          · have same : (announced run eventId).status = run.status := by
              simp [announced, success]
            rcases kept with selected | ⟨ended, _⟩ | ⟨waits, _⟩
            · refine .pending ?_
              unfold recoverable at selected ⊢
              rw [same]
              exact selected
            · exact .final (by rw [same]; exact ended) fun _ => by rw [stored]; rfl
            · apply waiting
              rw [same]
              exact waits.resolve_left fun succeeded => success (Or.inl succeeded)
  | manager process job progress =>
      obtain ⟨silent, _⟩ := holding.working
      cases permitted with
      | prepareCallback url body now notifies _ _ _ _ _ => exact absurd notifies silent
  | tool context progress => cases permitted
  | stage index context stageKey progress => cases permitted
  | checkpoint index context stageKey progress => cases permitted

/-- What one operation leaves: a kept row, and tables that agree with what is known. -/
structure Progressed (maxAttempts : Nat) (before after : State) : Prop where
  row : Kept maxAttempts after.callbacks after.run
  extends_ : Extends maxAttempts before.callbacks after.callbacks
  knows : ∀ eventId found, Knows maxAttempts before.callbacks eventId found →
    Knows maxAttempts after.callbacks eventId found

theorem progressed_of_same {after : State} (same : after.callbacks = state.callbacks)
    (row : Kept maxAttempts state.callbacks after.run) : Progressed maxAttempts state after := by
  constructor
  · rw [same]
    exact row
  · rw [same]
    exact extends_self _
  · intro eventId found knows
    rw [same]
    exact knows

theorem unsaved {digest : Digest} {phase : Phase} {delivery : CallbackDelivery}
    (working : Working phase) (permitted : phase.permits digest (.callback (.save delivery))) :
    False := by
  cases phase with
  | manager process job progress =>
      obtain ⟨silent, _⟩ := working
      cases permitted with
      | saveResent now same _ =>
          rw [same] at silent
          exact silent trivial
      | saveFailed settings attempt error now dispatches _ _ =>
          exact silent (ManagerProtocol.Job.dispatches_notifies dispatches)
      | saveDelivered dispatches _ _ _ _ =>
          exact silent (ManagerProtocol.Job.dispatches_notifies dispatches)
      | saveExhausted dispatches _ _ =>
          exact silent (ManagerProtocol.Job.dispatches_notifies dispatches)
  | _ => cases permitted

theorem perform_progressed {digest : Digest} {phase : Phase} {thread : Nat} {tag : Tag}
    (holding : Holding maxAttempts state.callbacks phase)
    (kept : Kept maxAttempts state.callbacks state.run) (permitted : phase.permits digest op)
    (safe : ¬ Strands maxAttempts (.acted thread tag op (Op.perform op oracle state).1 state
      (Op.perform op oracle state).2)) :
    Progressed maxAttempts state (Op.perform op oracle state).2 := by
  cases op with
  | run op =>
      cases op with
      | updateIfCurrent site expected row =>
          by_cases hit : expected.admits state.run = true
          · refine progressed_of_same ?_ ?_
            · simp [Op.perform, RunOp.perform, State.updateIfCurrent, hit]
            · simp only [Op.perform, RunOp.perform, State.updateIfCurrent, hit, if_true]
              exact update_kept holding permitted hit safe
          · refine progressed_of_same ?_ ?_ <;>
              simp [Op.perform, RunOp.perform, State.updateIfCurrent, hit, kept]
      | updateRunWithCallback site expected row delivery =>
          have prepares := working_prepares holding.working permitted
          subst prepares
          by_cases hit : expected.admits state.run = true
          · obtain ⟨prepared, eventId, existing, url, body, now, knows, rfl⟩ :=
              prepare_kept holding permitted fun both => safe ⟨hit, both⟩
            constructor
            · simp only [Op.perform, RunOp.perform, hit, if_true]
              exact prepared
            · simp only [Op.perform, RunOp.perform, hit, if_true]
              exact upsert_extends knows
            · intro other found known
              simp only [Op.perform, RunOp.perform, hit, if_true]
              exact knows.upsert known
          · refine progressed_of_same ?_ ?_ <;> simp [Op.perform, RunOp.perform, hit, kept]
      | retry row =>
          refine progressed_of_same rfl (.pending ?_)
          have queued : row.status = .queued := retry_requeues permitted
          show recoverable row = true
          simp [recoverable, queued]
      | renewUpdate loaded lease => exact progressed_of_same rfl (kept.of_same rfl rfl rfl rfl)
      | _ => exact progressed_of_same rfl kept
  | stage op =>
      obtain ⟨_, same⟩ := op.perform_frame state
      refine progressed_of_same ?_ ?_ <;> simp only [Op.perform, same]
      exact kept
  | callback op =>
      cases op with
      | get eventId => exact progressed_of_same rfl kept
      | save delivery => exact (unsaved holding.working permitted).elim
  | process op =>
      obtain ⟨_, _, _, _, same⟩ := op.perform_frame state
      refine progressed_of_same ?_ ?_ <;> simp only [Op.perform, same]
      exact kept
  | external op => exact progressed_of_same rfl kept

end Stores

theorem working_after {phase : Phase} (op : Op) (answer : op.Answer) (working : Working phase) :
    Working (phase.after op answer) := by
  cases phase <;> exact working

/-- The entries of the system start executions and jobs that do not notify. -/
theorem working_start {state : State} {entry : Entry} {phase : Phase}
    (admitted : executing entry = true) (start : entry.phase state = some phase) :
    Working phase := by
  cases entry with
  | renewal process =>
      obtain ⟨_, _, rfl⟩ := Option.map_eq_some_iff.mp start
      exact ⟨id, nofun⟩
  | toolCall index toolName input idempotencyKey =>
      obtain ⟨_, _, rfl⟩ := Option.map_eq_some_iff.mp start
      trivial
  | runStage index stageKey stageInput definitionVersion maxAttempts idempotencyKey =>
      obtain ⟨_, _, rfl⟩ := Option.map_eq_some_iff.mp start
      trivial
  | saveCheckpoint index stageKey executionId checkpoint =>
      obtain ⟨_, _, rfl⟩ := Option.map_eq_some_iff.mp start
      trivial
  | dispatchReady process leaseSeconds =>
      cases start
      trivial
  | runBackground process =>
      cases start
      trivial
  | runNow process =>
      cases start
      trivial
  | retry process =>
      cases start
      exact ⟨id, nofun⟩
  | recoverIncomplete process =>
      cases start
      exact ⟨id, nofun⟩
  | reclaimExpiredLeases process =>
      cases start
      exact ⟨id, nofun⟩
  | tick elapsed => cases start
  | shutdown process => cases start
  | _ => cases admitted

section Runs

variable {deployment : Deployment} {maxAttempts : Nat}

/-- No launch of the system touches a delivery, and a claim leaves the run executing. -/
theorem launch_progressed {config : PlatformConfig} {entry : Entry} {state : State}
    {spawned : Option Activity}
    (launched : (platformSystem deployment executing).launch entry config = some (state, spawned))
    (kept : Kept maxAttempts config.state.callbacks config.state.run) :
    Progressed maxAttempts config.state state := by
  have table : state.callbacks = config.state.callbacks := by
    have admitted := (launch_start launched).1
    rw [launch_effect launched]
    cases entry with
    | shutdown process =>
        simp only [Entry.effect, State.shutdown]
        split <;> rfl
    | dispatchPending process workerId leaseSeconds => cases admitted
    | prune eventIds => cases admitted
    | _ => rfl
  apply progressed_of_same table
  rcases launch_moves launched with same | ⟨_, _, _, _, same⟩
  · rw [same]
    exact kept
  · rw [same]
    exact .pending (executing_recoverable rfl)

theorem inv_inductive : (discipline deployment executing).Inductive
    (fun _ event => ¬ Strands maxAttempts event)
    fun _ state phases => Inv maxAttempts state phases where
  acts past state phases thread tag op oracle phase inv present _ permitted safe := by
    have holding : Holding maxAttempts state.callbacks phase := by
      constructor
      · intro run inHand
        exact inv.held thread phase run present inHand
      · intro eventId existing known
        exact inv.known thread phase eventId existing present known
      · exact inv.working thread phase present
    have moved : Progressed maxAttempts state (Op.perform op oracle state).2 :=
      perform_progressed holding inv.row permitted safe
    constructor
    · exact moved.row
    · intro index later run found inHand
      rcases observe_phase present found with ⟨rfl, rfl⟩ | ⟨_, kept⟩
      · rcases inHand with seen | written
        · rcases seen_after permitted seen with ⟨rfl, rfl⟩ | ⟨_, before⟩
          · exact moved.row
          · exact (holding.run run (Or.inl before)).extended moved.extends_
        · rcases Fencing.written_after permitted written with
            before | ⟨site, expected, stores, admitted, _⟩
          · exact (holding.run run (Or.inr before)).extended moved.extends_
          · have row := moved.row
            rwa [stores_run stores admitted] at row
      · exact (inv.held index later run kept inHand).extended moved.extends_
    · intro index later eventId existing found known
      rcases observe_phase present found with ⟨rfl, rfl⟩ | ⟨_, kept⟩
      · rcases lookUp_after permitted known with ⟨rfl, rfl⟩ | ⟨_, before⟩
        · exact moved.knows _ _ (knows_find _ _)
        · exact moved.knows _ _ (holding.known eventId existing before)
      · exact moved.knows _ _ (inv.known index later eventId existing kept known)
    · intro index later found
      rcases observe_phase present found with ⟨rfl, rfl⟩ | ⟨_, kept⟩
      · exact working_after _ _ holding.working
      · exact inv.working index later kept
  launches past config phases entry state spawned _ inv launched _ := by
    have moved := launch_progressed launched inv.row
    constructor
    · exact moved.row
    · intro index later run found inHand
      rcases launch_phase launched found with old | ⟨_, start⟩
      · exact (inv.held index later run old inHand).extended moved.extends_
      · have opening := Entry.phase_opening start
        rw [Phase.opening_seen opening, Phase.opening_written opening] at inHand
        rcases inHand with none | none <;> cases none
    · intro index later eventId existing found known
      rcases launch_phase launched found with old | ⟨_, start⟩
      · exact moved.knows _ _ (inv.known index later eventId existing old known)
      · rw [opening_lookUp (Entry.phase_opening start)] at known
        cases known
    · intro index later found
      rcases launch_phase launched found with old | ⟨_, start⟩
      · exact inv.working index later old
      · exact working_start (launch_start launched).1 start

theorem inv_initial {state : State} (rescued : Rescued maxAttempts state) :
    Inv maxAttempts state [] := by
  constructor
  · exact rescued_iff.mp rescued
  · intro thread phase run found
    cases found
  · intro thread phase eventId existing found
    cases found
  · intro thread phase found
    cases found

/-- After a stranding commit no scan selects the run any more. -/
theorem strands_lost {admitted : Entry → Bool} {start : State} {past later : List PlatformEvent}
    {event : PlatformEvent} {final : PlatformConfig}
    (run : (platformSystem deployment admitted).Run (atRest start) (past ++ event :: later) final)
    (strands : Strands maxAttempts event) : ¬ Rescued maxAttempts event.after := by
  have found := found_inductive.before_event run rfl (fun _ _ _ _ => trivial) found_initial
  rw [rescued_iff]
  unfold Strands at strands
  split at strands
  · next thread tag site expected row answer before after =>
      obtain ⟨hit, strands⟩ := strands
      obtain ⟨phase, oracle, present, _, permitted, same⟩ :=
        Discipline.run_permits (D := discipline deployment admitted) run rfl
      cases same
      have stored : Event.after ((platformSystem deployment admitted).performed thread tag
          (.run (.updateIfCurrent site expected row)) oracle before) =
          { before with run := row } := by
        simp [System.performed, Event.after, platformSystem, Op.perform, RunOp.perform,
          State.updateIfCurrent, hit]
      show ¬ Kept maxAttempts (Event.after ((platformSystem deployment admitted).performed thread
        tag (.run (.updateIfCurrent site expected row)) oracle before)).callbacks
          (Event.after ((platformSystem deployment admitted).performed thread tag
            (.run (.updateIfCurrent site expected row)) oracle before)).run
      rw [stored]
      split at strands
      · have moves := update_moves permitted (admitted_status hit)
        exact unawaited_lost (Or.inl moves.2) strands
      · exact unannounced_lost strands
      · exact unannounced_lost strands
      · exact unannounced_lost strands
      · exact strands.elim
  · next thread tag expected row delivery answer before after =>
      obtain ⟨hit, waits, finished⟩ := strands
      obtain ⟨phase, oracle, present, _, permitted, same⟩ :=
        Discipline.run_permits (D := discipline deployment admitted) run rfl
      obtain ⟨announcing, eventId, existing, url, body, now, known, _, _, _, rfl, rfl⟩ :=
        prepared permitted
      cases same
      obtain ⟨_, key⟩ := found thread phase eventId existing present known
      have own : (deliveryFor existing eventId url body now).eventId = eventId :=
        deliveryFor_key key
      have here := before.callbacks.find_upsert_self (deliveryFor existing eventId url body now)
      rw [own] at here
      simp only [Event.after, platformSystem, Op.perform, RunOp.perform, hit, if_true]
      apply unawaited_lost (Or.inr waits)
      rintro ⟨delivery, there, left⟩
      simp only [deliveryOf, announced, Option.bind_some] at there
      rw [here] at there
      cases there
      rw [finished] at left
      cases left
  · exact strands.elim

end Runs

/-- Every crash point leaves a run that some scan selects, or a final one, in
exactly the runs of executions in which no commit strands the run. -/
theorem rescued_at_crash_iff {deployment : Deployment} {state : State}
    {events : List PlatformEvent} {final : PlatformConfig}
    (run : (platformSystem deployment executing).Run (atRest state) events final)
    (rescued : Rescued deployment.callbacks.maxAttempts state) :
    (∀ event ∈ events, Rescued deployment.callbacks.maxAttempts event.after) ↔
      ∀ event ∈ events, ¬ Strands deployment.callbacks.maxAttempts event := by
  constructor
  · intro picked event member strands
    obtain ⟨past, later, rfl⟩ := List.append_of_mem member
    exact strands_lost run strands (picked event member)
  · intro safe event member
    obtain ⟨past, later, rfl⟩ := List.append_of_mem member
    have grouped : past ++ event :: later = (past ++ [event]) ++ later := by simp
    rw [grouped] at run
    obtain ⟨middle, first, _⟩ := run.split
    have inv := inv_inductive.run first rfl
      (fun left other right split => safe other (by
        have inside : other ∈ past ++ [event] := by
          rw [split]
          simp
        rw [grouped]
        exact List.mem_append_left _ inside)) (inv_initial rescued)
    rw [first.ends]
    exact rescued_iff.mpr inv.row

def diesAfterSuccess : List (Move platform Entry) :=
  [.launch (.dispatchReady "worker" 30)] ++ steps 18 0 calm

def succeededUnprepared : PlatformEvent → Bool
  | .acted _ _ (.run (.updateIfCurrent .agentSucceeded _ _)) _ _ after =>
      after.run.status = .agentSucceeded && after.run.callbackEventId = none
  | _ => false

theorem diesAfterSuccess_replays : ((platformSystem sampleDeployment executing).replay
    (atRest (State.initial subscribedRun 0 none)) diesAfterSuccess).any
      (fun outcome => outcome.1.any succeededUnprepared) = true := rfl

theorem succeededUnprepared_spec {event : PlatformEvent}
    (unprepared : succeededUnprepared event = true) (maxAttempts : Nat) :
    ¬ Rescued maxAttempts event.after := by
  unfold succeededUnprepared at unprepared
  split at unprepared
  · simp only [Bool.and_eq_true, decide_eq_true_eq] at unprepared
    obtain ⟨succeeded, unnamed⟩ := unprepared
    rw [rescued_iff]
    apply unawaited_lost (Or.inl succeeded)
    rintro ⟨delivery, found, _⟩
    simp [deliveryOf, Event.after, unnamed] at found
  · cases unprepared

theorem queued_rescued (maxAttempts : Nat) {run : AgentRun} (queued : run.status = .queued)
    (clock : Nat) (conversation : Option String) :
    Rescued maxAttempts (State.initial run clock conversation) := by
  apply rescued_iff.mpr
  refine .pending ?_
  simp [State.initial, recoverable, queued]

/-- A crash between the success and the preparation of its callback leaves the run
AGENT_SUCCEEDED for ever. -/
theorem success_stranded : ∃ events final,
    (platformSystem sampleDeployment executing).Run (atRest (State.initial subscribedRun 0 none))
      events final ∧
    Rescued sampleDeployment.callbacks.maxAttempts (State.initial subscribedRun 0 none) ∧
    ∃ event ∈ events, ¬ Rescued sampleDeployment.callbacks.maxAttempts event.after := by
  obtain ⟨events, final, run, checked⟩ := System.replay_checked diesAfterSuccess_replays
  obtain ⟨event, member, unprepared⟩ := List.any_eq_true.mp checked
  exact ⟨events, final, run, queued_rescued _ rfl 0 none, event, member,
    succeededUnprepared_spec unprepared _⟩

/-- In the schedule above a commit strands the run. -/
theorem rescued_at_crash_iff_succeeded : ∃ events final,
    (platformSystem sampleDeployment executing).Run (atRest (State.initial subscribedRun 0 none))
      events final ∧
    ∃ event ∈ events, Strands sampleDeployment.callbacks.maxAttempts event := by
  obtain ⟨events, final, run, checked⟩ := System.replay_checked diesAfterSuccess_replays
  obtain ⟨event, member, unprepared⟩ := List.any_eq_true.mp checked
  refine ⟨events, final, run, ?_⟩
  by_contra safe
  push Not at safe
  exact succeededUnprepared_spec unprepared _
    ((rescued_at_crash_iff run (queued_rescued _ rfl 0 none)).mpr safe event member)

end AgentTaskPlatform.CrashPoints
