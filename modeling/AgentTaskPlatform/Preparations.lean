import AgentTaskPlatform.Readings

/-!
Preparations of a callback. `prepare_for_run` reuses the delivery row of an
earlier cycle, which it finds under the event id that the run keeps over a
retry. The status and the attempts of that row are left as they are, so a
prepared delivery can be claimed exactly when the row it was built on could.
-/

namespace AgentTaskPlatform

open Interleaving CallbackService

def Phase.lookUp : Phase → Option (Uuid × Option CallbackDelivery)
  | .execution _ _ progress => progress.delivery
  | .manager _ _ progress => progress.delivery
  | _ => none

namespace Preparations

def Prepares (thread : Nat) : PlatformEvent → Prop
  | .acted own _ (.run (.updateRunWithCallback .prepareCallback _ _ _)) answer _ _ =>
      own = thread ∧ answer = true
  | _ => False

def foundBy (thread : Nat) : PlatformEvent → Option (Option CallbackDelivery)
  | .acted own _ (.callback (.get _)) answer _ _ => if own = thread then some answer else none
  | _ => none

def lastFound (thread : Nat) (past : List PlatformEvent) : Option (Option CallbackDelivery) :=
  latest (foundBy thread) past

theorem prepared {digest : Digest} {phase : Phase} {expected : Expected} {row : AgentRun}
    {delivery : CallbackDelivery}
    (permitted : phase.permits digest
      (.run (.updateRunWithCallback .prepareCallback expected row delivery))) :
    ∃ run eventId existing url body now, phase.lookUp = some (eventId, existing) ∧
      subscribes run = true ∧ tells body run ∧
      expected = { statuses := [run.status], worker := some run.worker } ∧
      row = announced run eventId ∧ delivery = deliveryFor existing eventId url body now := by
  cases phase with
  | execution process worker progress =>
      cases permitted with
      | @prepareCallback run eventId existing url body now _ subscribed known _ told _ =>
          exact ⟨run, eventId, existing, url, body, now, known, subscribed, told, rfl, rfl, rfl⟩
  | manager process job progress =>
      cases permitted with
      | @prepareCallback run eventId existing url body now _ _ subscribed known _ told =>
          exact ⟨run, eventId, existing, url, body, now, known, subscribed, told, rfl, rfl, rfl⟩
  | tool context progress => cases permitted
  | stage index context stageKey progress => cases permitted
  | checkpoint index context stageKey progress => cases permitted

def Found (past : List PlatformEvent) (phases : List Phase) : Prop :=
  ∀ (thread : Nat) phase eventId existing, phases[thread]? = some phase →
    phase.lookUp = some (eventId, existing) →
    lastFound thread past = some existing ∧
      ∀ delivery, existing = some delivery → delivery.eventId = eventId

section Runs

variable {deployment : Deployment} {admitted : Entry → Bool} {past : List PlatformEvent}
  {phases : List Phase} {thread : Nat} {tag : Tag} {op : Op} {oracle : op.Answer}
  {state : State} {phase : Phase}

theorem lastFound_snoc (event : PlatformEvent) :
    lastFound thread (past ++ [event]) = (foundBy thread event).or (lastFound thread past) :=
  latest_snoc _ _ _

theorem foundBy_get {eventId : Uuid} {oracle : Option CallbackDelivery} :
    foundBy thread ((platformSystem deployment admitted).performed thread tag
      (.callback (.get eventId)) oracle state) = some (state.callbacks.find eventId) := by
  simp [foundBy, System.performed, platformSystem, Op.perform, CallbackOp.perform]

theorem foundBy_other {index : Nat}
    (other : index ≠ thread ∨ ∀ eventId, op ≠ .callback (.get eventId)) :
    foundBy index ((platformSystem deployment admitted).performed thread tag op oracle state) =
      none := by
  unfold foundBy System.performed
  split
  · next same =>
      cases same
      rcases other with different | another
      · simp [Ne.symm different]
      · exact absurd rfl (another _)
  · rfl

theorem lookUp_after {digest : Digest} {eventId : Uuid} {existing : Option CallbackDelivery}
    (permitted : phase.permits digest op)
    (known : (phase.after op (Op.perform op oracle state).1).lookUp = some (eventId, existing)) :
    (op = .callback (.get eventId) ∧ existing = state.callbacks.find eventId) ∨
      ((∀ other, op ≠ .callback (.get other)) ∧ phase.lookUp = some (eventId, existing)) := by
  cases phase with
  | execution process worker progress =>
      cases permitted with
      | lookUp asked _ =>
          cases known
          exact Or.inl ⟨rfl, rfl⟩
      | _ => exact Or.inr ⟨nofun, known⟩
  | manager process job progress =>
      cases permitted with
      | lookUp asked =>
          cases known
          exact Or.inl ⟨rfl, rfl⟩
      | _ => exact Or.inr ⟨nofun, known⟩
  | tool context progress => cases known
  | stage index context stageKey progress => cases known
  | checkpoint index context stageKey progress => cases known

theorem opening_lookUp (opening : phase.Opening) : phase.lookUp = none := by
  cases phase with
  | execution process worker progress => rw [show progress = _ from opening]; rfl
  | manager process job progress => rw [show progress = _ from opening]; rfl
  | _ => rfl

theorem found_inductive : (discipline deployment admitted).Inductive (fun _ _ => True)
    fun past _ phases => Found past phases where
  acts past state phases thread tag op oracle phase found present _ permitted _ := by
    intro index later eventId existing named known
    rw [lastFound_snoc]
    rcases observe_phase present named with ⟨rfl, rfl⟩ | ⟨different, kept⟩
    · rcases lookUp_after permitted known with ⟨rfl, rfl⟩ | ⟨other, kept⟩
      · rw [foundBy_get]
        exact ⟨rfl, fun delivery here => KeyedTable.Table.find_key here⟩
      · rw [foundBy_other (Or.inr other)]
        exact found index phase eventId existing present kept
    · rw [foundBy_other (Or.inl different)]
      exact found index later eventId existing kept known
  launches past config phases entry state spawned _ found launched _ := by
    intro index later eventId existing named known
    rw [lastFound_snoc]
    rcases launch_phase launched named with old | ⟨_, start⟩
    · exact found index later eventId existing old known
    · rw [opening_lookUp (Entry.phase_opening start)] at known
      cases known

theorem found_initial : Found [] [] := by
  intro thread phase eventId existing found
  cases found

end Runs

theorem prepares_spec {deployment : Deployment} {admitted : Entry → Bool} {start : State}
    {past later : List PlatformEvent} {event : PlatformEvent} {final : PlatformConfig}
    {thread : Nat}
    (run : (platformSystem deployment admitted).Run (atRest start) (past ++ event :: later) final)
    (prepares : Prepares thread event) :
    ∃ announcing eventId existing url body now,
      lastFound thread past = some existing ∧
      (∀ delivery, existing = some delivery → delivery.eventId = eventId) ∧
      subscribes announcing = true ∧ tells body announcing ∧
      event.before.run.status = announcing.status ∧
      event.before.run.worker = announcing.worker ∧
      event.after.run = announced announcing eventId ∧
      event.after.clock = event.before.clock ∧
      event.after.callbacks =
        event.before.callbacks.upsert (deliveryFor existing eventId url body now) := by
  have found := found_inductive.before_event run rfl (fun _ _ _ _ => trivial) found_initial
  unfold Prepares at prepares
  split at prepares
  · next own tag expected row delivery answer before after =>
      obtain ⟨rfl, hit⟩ := prepares
      obtain ⟨phase, oracle, present, _, permitted, same⟩ :=
        Discipline.run_permits (D := discipline deployment admitted) run rfl
      obtain ⟨announcing, eventId, existing, url, body, now, known, subscribed, told, rfl, rfl,
        rfl⟩ := prepared permitted
      cases same
      obtain ⟨last, key⟩ := found own phase eventId existing present known
      have admits : Expected.admits
          { statuses := [announcing.status], worker := some announcing.worker } before.run =
            true := by
        by_contra miss
        simp [platformSystem, Op.perform, RunOp.perform, miss] at hit
      have status := List.mem_singleton.mp (admitted_status admits)
      have worker : before.run.worker = announcing.worker := by
        simp only [Expected.admits, Expected.matchesColumn, Bool.and_eq_true,
          decide_eq_true_eq] at admits
        exact admits.1.2.symm
      refine ⟨announcing, eventId, existing, url, body, now, last, key, subscribed, told, status,
        worker, ?_⟩
      simp only [Event.after, Event.before, platformSystem, Op.perform, RunOp.perform, admits,
        if_true, and_self]
  · exact prepares.elim

def Claimable (maxAttempts : Nat) (state : State) : Prop :=
  ∃ eventId delivery, state.run.callbackEventId = some eventId ∧
    state.callbacks.find eventId = some delivery ∧
    ∃ now, state.clock ≤ now ∧ deliverable now maxAttempts delivery = true

def unfinished (maxAttempts : Nat) : Option CallbackDelivery → Bool
  | none => true
  | some delivery =>
      delivery.status = .pending || (delivery.status = .failed && delivery.attempts < maxAttempts)

theorem deliveryFor_key {existing : Option CallbackDelivery} {eventId : Uuid} {url : String}
    {body : CallbackPayload} {now : Nat}
    (key : ∀ delivery, existing = some delivery → delivery.eventId = eventId) :
    (deliveryFor existing eventId url body now).eventId = eventId := by
  cases existing with
  | none => rfl
  | some delivery => exact key delivery rfl

/-- The claim of a prepared delivery depends on the row it was built on. -/
theorem deliverable_deliveryFor (maxAttempts clock : Nat) (existing : Option CallbackDelivery)
    (eventId : Uuid) (url : String) (body : CallbackPayload) (now : Nat) :
    (∃ later, clock ≤ later ∧
      deliverable later maxAttempts (deliveryFor existing eventId url body now) = true) ↔
      unfinished maxAttempts existing = true := by
  cases existing with
  | none =>
      constructor
      · intro _
        rfl
      · intro _
        refine ⟨max clock now, Nat.le_max_left _ _, ?_⟩
        simp [deliverable, deliveryFor]
  | some delivery =>
      constructor
      · rintro ⟨later, _, claimed⟩
        simp only [deliverable, deliveryFor, Bool.and_eq_true] at claimed
        exact claimed.1.1
      · intro left
        refine ⟨max clock now, Nat.le_max_left _ _, ?_⟩
        simp only [unfinished] at left
        simp only [deliverable, deliveryFor, Bool.and_eq_true]
        exact ⟨⟨left, by simp⟩, by simp⟩

section Runs

variable {deployment : Deployment} {admitted : Entry → Bool} {state : State}
  {past later : List PlatformEvent} {event : PlatformEvent} {final : PlatformConfig}
  {thread : Nat}

/-- The row a preparation reuses is finished: DELIVERED, SKIPPED, or FAILED with
all its attempts used. -/
def ReusesFinished (maxAttempts thread : Nat) (past : List PlatformEvent) : Prop :=
  ∃ existing, lastFound thread past = some existing ∧ unfinished maxAttempts existing = false

theorem claimable_iff (maxAttempts : Nat)
    (run : (platformSystem deployment admitted).Run (atRest state) (past ++ event :: later) final)
    (prepares : Prepares thread event) :
    Claimable maxAttempts event.after ↔ ¬ ReusesFinished maxAttempts thread past := by
  obtain ⟨announcing, eventId, existing, url, body, now, last, key, _, _, _, _, row, _, table⟩ :=
    prepares_spec run prepares
  have own : (deliveryFor existing eventId url body now).eventId = eventId := deliveryFor_key key
  have stored : event.after.callbacks.find eventId =
      some (deliveryFor existing eventId url body now) := by
    rw [table]
    have found := event.before.callbacks.find_upsert_self
      (deliveryFor existing eventId url body now)
    rwa [own] at found
  have claims := deliverable_deliveryFor maxAttempts event.after.clock existing eventId url body now
  constructor
  · rintro ⟨named, delivery, same, here, claimed⟩ ⟨_, known, finished⟩
    rw [row] at same
    cases same
    rw [stored] at here
    cases here
    rw [last] at known
    cases known
    rw [claims, finished] at claimed
    cases claimed
  · intro fresh
    refine ⟨eventId, _, by rw [row]; rfl, stored, ?_⟩
    rw [claims]
    by_contra finished
    exact fresh ⟨existing, last, by simpa using finished⟩

end Runs

/-- Every prepared delivery can be claimed in exactly the runs in which no
preparation reuses a delivery row that is finished. -/
theorem prepared_claimable_iff {deployment : Deployment} {admitted : Entry → Bool}
    {state : State} {events : List PlatformEvent} {final : PlatformConfig}
    (run : (platformSystem deployment admitted).Run (atRest state) events final) :
    (∀ event ∈ events, (∃ thread, Prepares thread event) →
      Claimable deployment.callbacks.maxAttempts event.after) ↔
      ∀ past event later thread, events = past ++ event :: later → Prepares thread event →
        ¬ ReusesFinished deployment.callbacks.maxAttempts thread past := by
  constructor
  · intro claimable past event later thread split prepares
    subst split
    exact (claimable_iff _ run prepares).mp (claimable event (by simp) ⟨thread, prepares⟩)
  · rintro fresh event member ⟨thread, prepares⟩
    obtain ⟨past, later, rfl⟩ := List.append_of_mem member
    exact (claimable_iff _ run prepares).mpr (fresh past event later thread rfl prepares)

def retriedAfterDelivery : List (Move platform Entry) :=
  [.launch (.dispatchReady "worker" 30)] ++ steps 28 0 failing ++
    [.launch (.dispatchPending "api" "callbacks" 30), .launch (.dispatchDelivery 0)] ++
    steps 7 1 calm ++ [.launch (.retry "api")] ++ steps 4 2 calm ++
    [.launch (.dispatchReady "worker" 30)] ++ steps 22 3 calm

def waitsForDelivered : PlatformEvent → Bool
  | .acted _ _ (.run (.updateRunWithCallback .prepareCallback _ _ delivery)) answer _ after =>
      answer && delivery.status = .delivered && after.run.status = .waitingCallback &&
        after.run.callbackEventId = some delivery.eventId &&
        (after.callbacks.find delivery.eventId).any (·.status = .delivered)
  | _ => false

theorem retriedAfterDelivery_replays : ((platformSystem sampleDeployment fun _ => true).replay
    (atRest (State.initial subscribedRun 0 none)) retriedAfterDelivery).any
      (fun outcome => outcome.1.any waitsForDelivered) = true := rfl

theorem waitsForDelivered_spec {event : PlatformEvent} (waits : waitsForDelivered event = true)
    (maxAttempts : Nat) :
    (∃ thread, Prepares thread event) ∧ event.after.run.status = .waitingCallback ∧
      ¬ Claimable maxAttempts event.after := by
  unfold waitsForDelivered at waits
  split at waits
  · next own tag expected row delivery answer before after =>
      simp only [Bool.and_eq_true, decide_eq_true_eq, Option.any_eq_true] at waits
      obtain ⟨⟨⟨⟨stored, _⟩, waiting⟩, named⟩, found, present, delivered⟩ := waits
      refine ⟨⟨own, rfl, stored⟩, waiting, ?_⟩
      rintro ⟨eventId, other, same, here, now, _, claimed⟩
      have key : delivery.eventId = eventId := Option.some.inj (named.symm.trans same)
      subst key
      have equal : found = other := Option.some.inj (present.symm.trans here)
      subst equal
      simp [deliverable, delivered] at claimed
  · cases waits

/-- The retried run waits for a delivery that nobody will ever claim. -/
theorem retried_run_waits_forever : ∃ events final,
    (platformSystem sampleDeployment fun _ => true).Run
      (atRest (State.initial subscribedRun 0 none)) events final ∧
    ∃ event ∈ events, (∃ thread, Prepares thread event) ∧
      event.after.run.status = .waitingCallback ∧
      ¬ Claimable sampleDeployment.callbacks.maxAttempts event.after := by
  obtain ⟨events, final, run, checked⟩ := System.replay_checked retriedAfterDelivery_replays
  obtain ⟨event, member, waits⟩ := List.any_eq_true.mp checked
  exact ⟨events, final, run, event, member, waitsForDelivered_spec waits _⟩

/-- In the schedule above a preparation reuses a finished row. -/
theorem prepared_claimable_iff_retried : ∃ events final,
    (platformSystem sampleDeployment fun _ => true).Run
      (atRest (State.initial subscribedRun 0 none)) events final ∧
    ∃ past event later thread, events = past ++ event :: later ∧ Prepares thread event ∧
      ReusesFinished sampleDeployment.callbacks.maxAttempts thread past := by
  obtain ⟨events, final, run, checked⟩ := System.replay_checked retriedAfterDelivery_replays
  obtain ⟨event, member, waits⟩ := List.any_eq_true.mp checked
  obtain ⟨prepares, _, stranded⟩ :=
    waitsForDelivered_spec waits sampleDeployment.callbacks.maxAttempts
  refine ⟨events, final, run, ?_⟩
  by_contra fresh
  push Not at fresh
  exact stranded ((prepared_claimable_iff run).mpr fresh event member prepares)

end Preparations

end AgentTaskPlatform
