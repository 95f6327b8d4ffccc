import AgentTaskPlatform.DeliveryAttempts

/-!
Acknowledged deliveries. A dispatcher saves the delivery object it was handed
without a test of the stored row, so an acknowledgement lasts only while no call
fails in another dispatcher of the same delivery, and while nothing raises between
the acknowledgement and the end of its own dispatcher.
-/

namespace AgentTaskPlatform.Acknowledgements

open Interleaving CallbackService Settlement DeliveryAttempts

def savedBy (thread : Nat) : PlatformEvent → Option CallbackDelivery
  | .acted own _ (.callback (.save delivery)) _ _ _ =>
      if own = thread then some delivery else none
  | .acted own _ (.run (.updateRunWithCallback .delivered _ _ delivery)) answer _ _ =>
      if own = thread ∧ answer = true then some delivery else none
  | _ => none

def Acknowledges (thread : Nat) (delivery : CallbackDelivery) (event : PlatformEvent) : Prop :=
  savedBy thread event = some delivery ∧ delivery.status = .delivered

def settledBy (thread : Nat) : PlatformEvent → Bool
  | .acted own _ (.run (.updateRunWithCallback .delivered _ _ _)) answer _ _ =>
      own = thread && answer
  | _ => false

def givesUp (thread : Nat) : PlatformEvent → Bool
  | .acted own _ (.run (.updateIfCurrent .exhausted _ _)) answer _ _ => own = thread && answer
  | _ => false

def raises (thread : Nat) : PlatformEvent → Bool
  | .acted own _ (.external _) (.error _) _ _ => own = thread
  | _ => false

def posts (thread : Nat) : PlatformEvent → Bool
  | .acted own _ (.external (.post _ _)) _ _ _ => own = thread
  | _ => false

def reopens (eventId : Uuid) : PlatformEvent → Bool
  | .acted _ tag (.callback (.save delivery)) _ _ _ =>
      tag.role = .resend && delivery.status = .pending && delivery.eventId = eventId
  | .acted _ _ (.run (.updateRunWithCallback .prepareCallback _ _ delivery)) answer _ _ =>
      answer && delivery.eventId = eventId
  | .launched (.prune eventIds) _ _ _ => eventIds.contains eventId
  | _ => false

def announces : PlatformEvent → Bool
  | .acted _ _ (.run (.updateRunWithCallback .prepareCallback _ _ _)) answer _ _ => answer
  | .acted _ _ (.run (.updateIfCurrent .skipCallback _ _)) answer _ _ => answer
  | _ => false

def Delivered (acked : CallbackDelivery) (state : State) : Prop :=
  ∃ stored, state.callbacks.find acked.eventId = some stored ∧ stored.status = .delivered ∧
    acked.attempts ≤ stored.attempts

/-- An acknowledgement lasts until a resend or a new preparation, in the delivery
and in the run, and its dispatcher does not post again. -/
structure Sticky (events : List PlatformEvent) : Prop where
  row : ∀ past first middle last later thread acked,
    events = past ++ first :: (middle ++ last :: later) → Acknowledges thread acked first →
    (∀ event ∈ middle ++ [last], reopens acked.eventId event = false) → Delivered acked last.after
  run : ∀ past first middle last later thread,
    events = past ++ first :: (middle ++ last :: later) → settledBy thread first = true →
    (∀ event ∈ middle ++ [last], announces event = false) →
    last.after.run.callbackStatus = .delivered
  once : ∀ past first middle last later thread acked,
    events = past ++ first :: (middle ++ last :: later) → Acknowledges thread acked first →
    posts thread last = false

def Worse (acked delivery : CallbackDelivery) : Prop :=
  delivery.status ≠ .delivered ∨ delivery.attempts < acked.attempts

def storesRun (thread : Nat) : PlatformEvent → Bool
  | .acted own _ (.run (.updateIfCurrent _ _ _)) answer _ _ => own = thread && answer
  | .acted own _ (.run (.updateRunWithCallback _ _ _ _)) answer _ _ => own = thread && answer
  | _ => false

/-- No call of the other dispatcher fails after the acknowledgement, none that failed
before it is still to be stored, and the other one has lost as many attempts as the
acknowledged one, but not all. -/
structure Spared (maxAttempts thread other : Nat) (past : List PlatformEvent)
    (first : PlatformEvent) (middle : List PlatformEvent) : Prop where
  told : (workOf other past).failing = false
  calls : ∀ event ∈ middle, raises other event = false
  abreast : (workOf thread past).spent ≤ (workOf other (past ++ first :: middle)).spent
  reserve : (workOf other (past ++ first :: middle)).spent < maxAttempts

/-- Claims may overlap, but a dispatcher that still stores something after another one
has been acknowledged is spared, and no call raises after the own acknowledgement. -/
structure Orderly (maxAttempts : Nat) (events : List PlatformEvent) : Prop where
  overtaken : ∀ past first middle last later thread other acked delivery,
    events = past ++ first :: (middle ++ last :: later) → Acknowledges thread acked first →
    savedBy other last = some delivery → other ≠ thread → delivery.eventId = acked.eventId →
    (∀ event ∈ middle ++ [last], reopens acked.eventId event = false) →
    Spared maxAttempts thread other past first middle
  reserves : ∀ past first middle last later thread other,
    events = past ++ first :: (middle ++ last :: later) → settledBy thread first = true →
    other ≠ thread → storesRun other last = true →
    (∀ event ∈ middle ++ [last], announces event = false) →
    (workOf other (past ++ first :: middle)).spent < maxAttempts
  raised : ∀ past first middle last later thread acked,
    events = past ++ first :: (middle ++ last :: later) → Acknowledges thread acked first →
    raises thread last = false

def closes (thread : Nat) : PlatformEvent → Option Bool
  | .acted own _ (.callback (.save delivery)) _ _ _ =>
      if own = thread ∧ delivery.status = .delivered then some true else none
  | .acted own _ (.run (.updateRunWithCallback .delivered _ _ _)) answer _ _ =>
      if own = thread ∧ answer = true then some true else none
  | .acted own _ (.external _) (.error _) _ _ => if own = thread then some false else none
  | _ => none

section Dispatchers

variable {process : Process} {job : ManagerProtocol.Job} {progress : ManagerProtocol.Progress}

/-- After its acknowledgement a dispatcher leaves the delivery alone. -/
theorem closed_saves {delivery : CallbackDelivery} (closed : progress.closed = true)
    (permitted : ManagerProtocol.Permitted process job progress (.callback (.save delivery))) :
    job = .resend ∧ delivery.status = .pending := by
  cases permitted with
  | saveResent now resend _ => exact ⟨resend, rfl⟩
  | saveFailed settings attempt error now _ _ opened =>
      rw [closed] at opened
      cases opened
  | saveDelivered _ _ _ _ opened =>
      rw [closed] at opened
      cases opened
  | saveExhausted _ _ opened =>
      rw [closed] at opened
      cases opened

theorem closed_delivers {expected : Expected} {row : AgentRun} {delivery : CallbackDelivery}
    (closed : progress.closed = true) : ¬ ManagerProtocol.Permitted process job progress
      (.run (.updateRunWithCallback .delivered expected row delivery)) := by
  intro permitted
  cases permitted with
  | delivered now attempt _ _ _ opened =>
      rw [closed] at opened
      cases opened

theorem closed_exhausts {expected : Expected} {row : AgentRun}
    (closed : progress.closed = true) : ¬ ManagerProtocol.Permitted process job progress
      (.run (.updateIfCurrent .exhausted expected row)) := by
  intro permitted
  cases permitted with
  | exhausted _ _ opened =>
      rw [closed] at opened
      cases opened

theorem closed_posts {delivery : CallbackDelivery} {body : CallbackPayload}
    (closed : progress.closed = true) : ¬ ManagerProtocol.Permitted process job progress
      (.external (.post delivery body)) := by
  intro permitted
  cases permitted with
  | external op silent _ => cases silent
  | post body _ _ opened _ =>
      rw [closed] at opened
      cases opened

end Dispatchers

structure Marked (past : List PlatformEvent) (phases : List Phase) : Prop where
  closed : ∀ (thread : Nat) process job progress,
    phases[thread]? = some (.manager process job progress) →
    latest (closes thread) past = some true → progress.closed = true
  unborn : ∀ (thread : Nat), phases.length ≤ thread → latest (closes thread) past = none

section Runs

variable {deployment : Deployment} {admitted : Entry → Bool} {past : List PlatformEvent}
  {phases : List Phase} {thread : Nat} {tag : Tag} {op : Op} {oracle : op.Answer}
  {state : State}

theorem closes_other {index : Nat} (other : index ≠ thread) :
    closes index ((platformSystem deployment admitted).performed thread tag op oracle state) =
      none := by
  have apart : thread ≠ index := fun same => other same.symm
  unfold closes System.performed
  split <;> next same =>
    first
    | rfl
    | (cases same; simp [apart])

/-- The mark of a dispatcher follows its own operations. -/
theorem closed_after {process : Process} {job : ManagerProtocol.Job}
    {progress : ManagerProtocol.Progress}
    (permitted : ManagerProtocol.Permitted process job progress op)
    (before : latest (closes thread) past = some true → progress.closed = true)
    (closed : (closes thread
      ((platformSystem deployment admitted).performed thread tag op oracle state)).or
        (latest (closes thread) past) = some true) :
    (progress.after op (Op.perform op oracle state).1).closed = true := by
  cases permitted with
  | external op _ _ =>
      cases oracle with
      | error error => simp [closes, System.performed, platformSystem, Op.perform] at closed
      | ok answer =>
          have held : progress.closed = true := before closed
          show (progress.closed && true) = true
          rw [held]
          rfl
  | post body _ _ opened _ =>
      cases oracle with
      | error error => simp [closes, System.performed, platformSystem, Op.perform] at closed
      | ok answer =>
          have held : progress.closed = true := before closed
          show (progress.closed && true) = true
          rw [held]
          rfl
  | saveResent now _ _ =>
      have held : progress.closed = true := by
        apply before
        simpa [closes, System.performed, resent] using closed
      simp [ManagerProtocol.Progress.after, held]
  | saveFailed settings attempt error now _ _ opened =>
      have held : progress.closed = true := by
        apply before
        simpa [closes, System.performed, failedDelivery] using closed
      simp [ManagerProtocol.Progress.after, held]
  | saveDelivered _ _ delivered _ _ => simp [ManagerProtocol.Progress.after, delivered]
  | @saveExhausted delivery _ _ opened =>
      by_cases delivered : delivery.status = .delivered
      · simp [ManagerProtocol.Progress.after, delivered]
      · have held : progress.closed = true := by
          apply before
          simpa [closes, System.performed, delivered] using closed
        simp [ManagerProtocol.Progress.after, held]
  | @delivered run delivery now attempt _ _ _ opened =>
      by_cases hit : Expected.admits { statuses := [run.status] } state.run = true
      · simp [ManagerProtocol.Progress.after, Op.perform, RunOp.perform, hit]
      · have held : progress.closed = true := by
          apply before
          simpa [closes, System.performed, platformSystem, Op.perform, RunOp.perform, hit]
            using closed
        rw [opened] at held
        cases held
  | _ => exact before closed

theorem marked_inductive : (discipline deployment admitted).Inductive (fun _ _ => True)
    fun past _ phases => Marked past phases where
  acts past state phases thread tag op oracle phase marked present _ permitted _ := by
    have inside := (List.getElem?_eq_some_iff.mp present).1
    constructor
    · intro index process job progress found closed
      rw [latest_snoc] at closed
      rcases observe_phase present found with ⟨rfl, same⟩ | ⟨different, kept⟩
      · cases phase with
        | manager own task earlier =>
            cases same
            exact closed_after permitted (marked.closed index process job earlier present) closed
        | _ => cases same
      · rw [closes_other different] at closed
        exact marked.closed index process job progress kept closed
    · intro index outside
      have length : phases.length ≤ index := by
        simpa [System.performed, Discipline.observe] using outside
      rw [latest_snoc, closes_other (by omega)]
      exact marked.unborn index length
  launches past config phases entry state spawned _ marked launched _ := by
    constructor
    · intro index process job progress found closed
      rw [latest_snoc] at closed
      rcases launch_phase launched found with old | ⟨rfl, _⟩
      · exact marked.closed index process job progress old closed
      · have silent := marked.unborn phases.length (Nat.le_refl _)
        rw [silent] at closed
        cases closed
    · intro index outside
      rw [latest_snoc]
      rw [observe_launch phases launched, List.length_append] at outside
      exact marked.unborn index (by omega)

theorem marked_initial : Marked [] [] := by
  constructor
  · intro thread process job progress found
    cases found
  · intro thread _
    rfl

theorem delivered_same {acked : CallbackDelivery} {before after : State}
    (held : Delivered acked before)
    (same : after.callbacks.find acked.eventId = before.callbacks.find acked.eventId) :
    Delivered acked after := by
  obtain ⟨stored, found, rest⟩ := held
  exact ⟨stored, same.trans found, rest⟩

theorem delivered_upsert {acked delivery : CallbackDelivery} {before after : State}
    (held : Delivered acked before) (table : after.callbacks = before.callbacks.upsert delivery)
    (kept : delivery.eventId = acked.eventId → ¬ Worse acked delivery) :
    Delivered acked after := by
  by_cases own : delivery.eventId = acked.eventId
  · have better := kept own
    simp only [Worse, not_or, not_not, Nat.not_lt] at better
    refine ⟨delivery, ?_, better⟩
    rw [table, ← own]
    exact before.callbacks.find_upsert_self delivery
  · apply delivered_same held
    rw [table]
    exact before.callbacks.find_upsert_other (Ne.symm own)

/-- An operation keeps an acknowledged row, unless it saves the delivery or reopens it. -/
theorem delivered_acted {digest : Digest} {phase : Phase} {acked : CallbackDelivery}
    (permitted : phase.permits digest op) (held : Delivered acked state)
    (kept : ∀ delivery, savedBy thread
      ((platformSystem deployment admitted).performed thread tag op oracle state) = some delivery →
      delivery.eventId = acked.eventId → ¬ Worse acked delivery)
    (shut : reopens acked.eventId
      ((platformSystem deployment admitted).performed thread tag op oracle state) = false) :
    Delivered acked (Op.perform op oracle state).2 := by
  cases op with
  | run op =>
      cases op with
      | updateIfCurrent site expected row =>
          apply delivered_same held
          simp only [Op.perform, RunOp.perform, State.updateIfCurrent]
          split <;> rfl
      | updateRunWithCallback site expected row delivery =>
          by_cases hit : expected.admits state.run = true
          · have table : (Op.perform (.run (.updateRunWithCallback site expected row delivery))
                oracle state).2.callbacks = state.callbacks.upsert delivery := by
              simp [Op.perform, RunOp.perform, hit]
            apply delivered_upsert held table
            intro own
            rcases (callback_moves permitted (admitted_status hit)).2 with rfl | rfl
            · simp [reopens, System.performed, platformSystem, Op.perform, RunOp.perform, hit,
                own] at shut
            · refine kept delivery ?_ own
              simp [savedBy, System.performed, platformSystem, Op.perform, RunOp.perform, hit]
          · apply delivered_same held
            simp [Op.perform, RunOp.perform, hit]
      | _ => exact delivered_same held rfl
  | callback op =>
      cases op with
      | get eventId => exact delivered_same held rfl
      | save delivery =>
          exact delivered_upsert held rfl fun own => kept delivery (by simp [savedBy,
            System.performed]) own
  | stage op =>
      obtain ⟨_, same⟩ := op.perform_frame state
      apply delivered_same held
      simp only [Op.perform, same]
  | process op =>
      obtain ⟨_, _, _, _, same⟩ := op.perform_frame state
      apply delivered_same held
      simp only [Op.perform, same]
  | external op => exact delivered_same held rfl

/-- A claim passes over acknowledged rows. -/
theorem delivered_launched {config : PlatformConfig} {entry : Entry} {after : State}
    {spawned : Option Activity} {acked : CallbackDelivery}
    (launched : (platformSystem deployment admitted).launch entry config = some (after, spawned))
    (held : Delivered acked config.state)
    (shut : reopens acked.eventId
      (.launched entry (System.spawnedThread config spawned) config.state after) = false) :
    Delivered acked after := by
  rw [launch_effect launched]
  cases entry with
  | dispatchPending process workerId leaseSeconds =>
      obtain ⟨stored, found, delivered, attempts⟩ := held
      refine ⟨stored, ?_, delivered, attempts⟩
      simp only [Entry.effect, State.claimPending]
      rw [KeyedTable.Table.find_updateWhere, found]
      simp [deliverable, delivered]
  | prune eventIds =>
      obtain ⟨stored, found, rest⟩ := held
      have key : stored.eventId = acked.eventId := KeyedTable.Table.find_key found
      have spared : eventIds.contains stored.eventId = false := by
        rw [key]
        exact shut
      have member : stored ∈ (State.prune config.state eventIds).callbacks.rows := by
        simp only [State.prune, KeyedTable.Table.deleteWhere, List.mem_filter]
        exact ⟨KeyedTable.Table.find_mem found, by rw [spared]; rfl⟩
      have still := KeyedTable.Table.mem_find member
      rw [key] at still
      exact ⟨stored, still, rest⟩
  | shutdown process =>
      apply delivered_same held
      simp only [Entry.effect, State.shutdown]
      split <;> rfl
  | _ => exact delivered_same held rfl

end Runs

section Orders

variable {deployment : Deployment} {start : State} {past later : List PlatformEvent}
  {final : PlatformConfig} {thread : Nat}

theorem closes_raises {event : PlatformEvent} (reopened : closes thread event = some false) :
    raises thread event = true := by
  unfold closes at reopened
  split at reopened
  · split at reopened <;> cases reopened
  · split at reopened <;> cases reopened
  · split at reopened
    · next own => simpa [raises] using own
    · cases reopened
  · cases reopened

theorem acknowledges_closes {first : PlatformEvent} {acked : CallbackDelivery}
    (acknowledges : Acknowledges thread acked first) : closes thread first = some true := by
  obtain ⟨saved, delivered⟩ := acknowledges
  unfold savedBy at saved
  split at saved
  · split at saved
    · next own =>
        cases saved
        simp [closes, own, delivered]
    · cases saved
  · split at saved
    · next own => simp [closes, own]
    · cases saved
  · cases saved

theorem acknowledged_closed {first : PlatformEvent} {acked : CallbackDelivery}
    {middle : List PlatformEvent} (acknowledges : Acknowledges thread acked first)
    (calm : ∀ event ∈ middle, raises thread event = false) :
    latest (closes thread) (past ++ first :: middle) = some true := by
  apply latest_kept (acknowledges_closes acknowledges)
  intro other member found picked
  -- Only an exception opens the dispatcher again.
  cases found with
  | true => rfl
  | false =>
      have raised := closes_raises picked
      rw [calm other member] at raised
      cases raised

variable {tag : Tag} {op : Op} {answer : op.Answer} {before after : State}

theorem acted_job
    (ran : (platformSystem deployment notifying).Run (atRest start)
      (past ++ .acted thread tag op answer before after :: later) final) :
    ∃ process job progress oracle, ManagerProtocol.Permitted process job progress op ∧
      tag = ⟨process, job.role⟩ ∧ job.notifies ∧
      (latest (closes thread) past = some true → progress.closed = true) ∧
      (.acted thread tag op answer before after : PlatformEvent) =
        (platformSystem deployment notifying).performed thread tag op oracle before := by
  have inv := inv_inductive.before_event ran rfl (fun _ _ _ _ => trivial) (inv_initial start)
  have marked := marked_inductive.before_event ran rfl (fun _ _ _ _ => trivial) marked_initial
  obtain ⟨phase, oracle, present, belongs, permitted, same⟩ :=
    Discipline.run_permits (D := discipline deployment notifying) ran rfl
  obtain ⟨process, job, progress, rfl, notifies⟩ := inv.notifies thread phase present
  exact ⟨process, job, progress, oracle, permitted, belongs, notifies,
    marked.closed thread process job progress present, same⟩

theorem closed_reopens {delivery : CallbackDelivery}
    (ran : (platformSystem deployment notifying).Run (atRest start)
      (past ++ .acted thread tag op answer before after :: later) final)
    (closed : latest (closes thread) past = some true)
    (saved : savedBy thread (.acted thread tag op answer before after) = some delivery) :
    reopens delivery.eventId (.acted thread tag op answer before after) = true := by
  obtain ⟨process, job, progress, oracle, permitted, named, _, mark, _⟩ := acted_job ran
  unfold savedBy at saved
  split at saved
  · next own tag stored answer before after same =>
      cases same
      simp only [if_true, Option.some.injEq] at saved
      subst saved
      -- The one save that is left to a closed dispatcher puts the delivery back to pending.
      obtain ⟨rfl, pending⟩ := closed_saves (mark closed) permitted
      rw [named]
      simp [reopens, pending, ManagerProtocol.Job.role]
  · next own tag expected row stored answer before after same =>
      cases same
      exact absurd permitted (closed_delivers (mark closed))
  · cases saved

theorem settled_status {first : PlatformEvent}
    (ran : (platformSystem deployment notifying).Run (atRest start) (past ++ first :: later) final)
    (settled : settledBy thread first = true) :
    first.after.run.callbackStatus = .delivered ∧ ∃ acked, Acknowledges thread acked first := by
  unfold settledBy at settled
  split at settled
  · next own tag expected row delivery answer before after =>
      simp only [Bool.and_eq_true, decide_eq_true_eq] at settled
      obtain ⟨rfl, hit⟩ := settled
      obtain ⟨process, job, progress, oracle, permitted, _, _, _, same⟩ := acted_job ran
      cases same
      cases permitted with
      | @delivered run handed now attempt _ _ _ _ =>
          have admits : Expected.admits { statuses := [run.status] } before.run = true := by
            by_contra miss
            simp [platformSystem, Op.perform, RunOp.perform, miss] at hit
          constructor
          · simp [Event.after, platformSystem, Op.perform, RunOp.perform, admits,
              CallbackService.settled]
          · refine ⟨deliveredDelivery handed attempt, ?_, rfl⟩
            simp [savedBy, hit]
  · cases settled

theorem acknowledged_delivered {first : PlatformEvent} {acked : CallbackDelivery}
    (ran : (platformSystem deployment notifying).Run (atRest start) (past ++ first :: later) final)
    (acknowledges : Acknowledges thread acked first) : Delivered acked first.after := by
  have stored : first.after.callbacks = first.before.callbacks.upsert acked := by
    obtain ⟨saved, _⟩ := acknowledges
    cases first with
    | launched entry spawned before after => cases saved
    | acted own tag op answer before after =>
        obtain ⟨_, _, _, oracle, permitted, _, _, _, same⟩ := acted_job ran
        cases same
        unfold savedBy at saved
        split at saved
        · next same =>
            cases same
            split at saved
            · cases saved
              rfl
            · cases saved
        · next expected row delivery answer before after same =>
            cases same
            split at saved
            · next hit =>
                cases saved
                have admits : expected.admits before.run = true := by
                  by_contra miss
                  simp [platformSystem, Op.perform, RunOp.perform, miss] at hit
                simp [Event.after, Event.before, platformSystem, Op.perform, RunOp.perform, admits]
            · cases saved
        · cases saved
  refine ⟨acked, ?_, acknowledges.2, Nat.le_refl _⟩
  rw [stored]
  exact first.before.callbacks.find_upsert_self acked

end Orders

section Orderly

variable {deployment : Deployment} {state : State} {events past middle later : List PlatformEvent}
  {first last : PlatformEvent} {final : PlatformConfig} {thread : Nat}

theorem run_until
    (ran : (platformSystem deployment notifying).Run (atRest state)
      (past ++ first :: (middle ++ last :: later)) final) :
    ∃ reached, (platformSystem deployment notifying).Run (atRest state)
      (past ++ first :: (middle ++ [last])) reached ∧ reached.state = last.after := by
  have grouped : past ++ first :: (middle ++ last :: later) =
      (past ++ first :: (middle ++ [last])) ++ later := by simp
  rw [grouped] at ran
  obtain ⟨reached, earlier, _⟩ := ran.split
  have ending : past ++ first :: (middle ++ [last]) = (past ++ first :: middle) ++ [last] := by simp
  refine ⟨reached, earlier, ?_⟩
  rw [ending] at earlier
  exact earlier.ends.symm

theorem resplit {prior next : List PlatformEvent} {event : PlatformEvent}
    (split : middle ++ [last] = prior ++ event :: next) :
    past ++ first :: (middle ++ last :: later) =
      past ++ first :: (prior ++ event :: (next ++ later)) := by
  have inner : middle ++ last :: later = (middle ++ [last]) ++ later := by simp
  rw [inner, split]
  simp

theorem prior_member {prior next : List PlatformEvent} {event other : PlatformEvent}
    (split : middle ++ [last] = prior ++ event :: next) (member : other ∈ prior ++ [event]) :
    other ∈ middle ++ [last] := by
  rw [split]
  rcases List.mem_append.mp member with inside | single
  · exact List.mem_append_left _ inside
  · rw [List.mem_singleton.mp single]
    simp

theorem Orderly.calm (orderly : Orderly deployment.callbacks.maxAttempts (past ++ first :: later)) {acked : CallbackDelivery}
    (acknowledges : Acknowledges thread acked first) :
    ∀ event ∈ later, raises thread event = false := by
  intro event member
  obtain ⟨left, right, rfl⟩ := List.append_of_mem member
  exact orderly.raised past first left event right thread acked rfl acknowledges

theorem Orderly.closed (orderly : Orderly deployment.callbacks.maxAttempts (past ++ first :: (middle ++ last :: later)))
    {acked : CallbackDelivery} (acknowledges : Acknowledges thread acked first) :
    latest (closes thread) (past ++ first :: middle) = some true :=
  acknowledged_closed acknowledges fun event member =>
    orderly.calm acknowledges event (List.mem_append_left _ member)

theorem saved_thread {index : Nat} {tag : Tag} {op : Op} {answer : op.Answer}
    {before after : State} {delivery : CallbackDelivery}
    (saved : savedBy thread (.acted index tag op answer before after) = some delivery) :
    index = thread := by
  unfold savedBy at saved
  split at saved
  · next same =>
      cases same
      split at saved
      · assumption
      · cases saved
  · next same =>
      cases same
      split at saved
      · next both => exact both.1
      · cases saved
  · cases saved

/-- A delivery is saved after a failure, by a dispatcher that gives up, at the next
attempt, or by a resend. -/
theorem saved_cases {delivery : CallbackDelivery}
    (ran : (platformSystem deployment notifying).Run (atRest state) (past ++ last :: later) final)
    (saved : savedBy thread last = some delivery) :
    ((workOf thread past).failing = true ∧ delivery.status = .failed) ∨
      deployment.callbacks.maxAttempts ≤ (workOf thread past).spent ∨
      (delivery.status = .delivered ∧
        delivery.attempts = (workOf thread past).spent + 1) ∨
      (delivery.status = .pending ∧ reopens delivery.eventId last = true) := by
  cases last with
  | launched entry spawned before after => cases saved
  | acted index tag op answer before after =>
      cases saved_thread saved
      obtain ⟨phase, permitted, counted, resends⟩ := acted_work ran
      unfold savedBy at saved
      split at saved
      · next same =>
          cases same
          simp only [if_true, Option.some.injEq] at saved
          subst saved
          rcases counted with failed | spent | acknowledged | ⟨again, pending⟩
          · exact Or.inl failed
          · exact Or.inr (Or.inl spent)
          · exact Or.inr (Or.inr (Or.inl acknowledged))
          · refine Or.inr (Or.inr (Or.inr ⟨pending, ?_⟩))
            simp [reopens, pending, resends again]
      · next same =>
          cases same
          split at saved
          · cases saved
            refine Or.inr (Or.inr (Or.inl ⟨?_, counted⟩))
            cases phase with
            | manager process job progress =>
                cases permitted with
                | delivered now attempt _ _ _ _ => rfl
            | _ => cases permitted
          · cases saved
      · cases saved

theorem failing_kept {known : Option Work} {event : PlatformEvent}
    (told : (known.getD {}).failing = false) (calm : raises thread event = false) :
    ((learn Work.opening Work.after thread known event).getD {}).failing = false := by
  cases event with
  | launched entry spawned before after =>
      cases spawned with
      | none => exact told
      | some spawned =>
          simp only [learn]
          split
          · cases entry <;> rfl
          · exact told
  | acted own tag op answer before after =>
      simp only [learn]
      split
      · next mine =>
          cases known with
          | none => rfl
          | some work =>
              simp only [Option.map_some, Option.getD_some] at told ⊢
              unfold Work.after
              split
              · rfl
              · simp [raises, mine] at calm
              · rfl
              · exact told
      · exact told

theorem failing_unraised {other : Nat} (told : (workOf other past).failing = false)
    (calm : ∀ event ∈ middle, raises other event = false) :
    (workOf other (past ++ middle)).failing = false := by
  unfold workOf at told ⊢
  rw [List.foldl_append]
  generalize past.foldl (learn Work.opening Work.after other) none = known at told ⊢
  induction middle generalizing known with
  | nil => exact told
  | cons event rest ih =>
      apply ih (fun later member => calm later (List.mem_cons_of_mem _ member))
      exact failing_kept told (calm event List.mem_cons_self)

theorem acknowledges_calm {acked : CallbackDelivery} {other : Nat}
    (acknowledges : Acknowledges thread acked first) : raises other first = false := by
  obtain ⟨saved, _⟩ := acknowledges
  unfold savedBy at saved
  split at saved
  · rfl
  · rfl
  · cases saved

/-- A spared dispatcher is acknowledged too, at no earlier attempt. -/
theorem spared_saved {acked delivery : CallbackDelivery} {other : Nat}
    (ran : (platformSystem deployment notifying).Run (atRest state)
      (past ++ first :: (middle ++ last :: later)) final)
    (acknowledges : Acknowledges thread acked first) (saved : savedBy other last = some delivery)
    (shut : ∀ event ∈ middle ++ [last], reopens acked.eventId event = false)
    (own : delivery.eventId = acked.eventId)
    (spared : Spared deployment.callbacks.maxAttempts thread other past first middle) :
    ¬ Worse acked delivery := by
  have grouped : past ++ first :: (middle ++ last :: later) =
      (past ++ first :: middle) ++ last :: later := by simp
  have unhurt : (workOf other (past ++ first :: middle)).failing = false := by
    apply failing_unraised spared.told
    intro event member
    rcases List.mem_cons.mp member with rfl | inside
    · exact acknowledges_calm acknowledges
    · exact spared.calls event inside
  have reserve := spared.reserve
  have abreast := spared.abreast
  have counted : acked.attempts = (workOf thread past).spent + 1 := by
    rcases saved_cases ran acknowledges.1 with ⟨_, failed⟩ | spent | ⟨_, attempts⟩ | ⟨pending, _⟩
    · rw [acknowledges.2] at failed
      cases failed
    · omega
    · exact attempts
    · rw [acknowledges.2] at pending
      cases pending
  rcases saved_cases (grouped ▸ ran) saved with ⟨failing, _⟩ | spent | ⟨delivered, attempts⟩ |
    ⟨_, reopened⟩
  · rw [unhurt] at failing
    cases failing
  · omega
  · unfold Worse
    rw [not_or, not_not, Nat.not_lt]
    exact ⟨delivered, by omega⟩
  · rw [own, shut last (by simp)] at reopened
    cases reopened

theorem Orderly.saved (orderly : Orderly deployment.callbacks.maxAttempts (past ++ first :: (middle ++ last :: later)))
    {acked delivery : CallbackDelivery} {other : Nat}
    (ran : (platformSystem deployment notifying).Run (atRest state)
      (past ++ first :: (middle ++ last :: later)) final)
    (acknowledges : Acknowledges thread acked first)
    (shut : ∀ event ∈ middle ++ [last], reopens acked.eventId event = false)
    (saved : savedBy other last = some delivery) (own : delivery.eventId = acked.eventId) :
    ¬ Worse acked delivery := by
  by_cases same : other = thread
  · subst same
    cases last with
    | launched entry spawned before after => cases saved
    | acted index tag op answer before after =>
        have mine := saved_thread saved
        subst mine
        have grouped : past ++ first :: (middle ++ .acted index tag op answer before after :: later) =
            (past ++ first :: middle) ++ .acted index tag op answer before after :: later := by simp
        have reopened := closed_reopens (grouped ▸ ran) (orderly.closed acknowledges) saved
        rw [own, shut _ (by simp)] at reopened
        cases reopened
  · exact spared_saved ran acknowledges saved shut own
      (orderly.overtaken past first middle last later thread other acked delivery rfl
        acknowledges saved same own shut)

theorem row_sticky (orderly : Orderly deployment.callbacks.maxAttempts (past ++ first :: (middle ++ last :: later)))
    {acked : CallbackDelivery}
    (ran : (platformSystem deployment notifying).Run (atRest state)
      (past ++ first :: (middle ++ last :: later)) final)
    (acknowledges : Acknowledges thread acked first)
    (shut : ∀ event ∈ middle ++ [last], reopens acked.eventId event = false) :
    Delivered acked last.after := by
  obtain ⟨reached, earlier, same⟩ := run_until ran
  rw [← same]
  apply earlier.lasts (Delivered acked) (acknowledged_delivered ran acknowledges)
  intro prior event next split held
  have whole : past ++ first :: (middle ++ last :: later) =
      past ++ first :: (prior ++ event :: (next ++ later)) := resplit split
  rw [whole] at ran orderly
  have closed : ∀ other ∈ prior ++ [event], reopens acked.eventId other = false :=
    fun other member => shut other (prior_member split member)
  have grouped : past ++ first :: (prior ++ event :: (next ++ later)) =
      (past ++ first :: prior) ++ event :: (next ++ later) := by simp
  have reached := grouped ▸ ran
  cases event with
  | acted own tag op answer before after =>
      obtain ⟨process, job, progress, oracle, permitted, _, _, _, same⟩ := acted_job reached
      have kept : ∀ delivery, savedBy own (.acted own tag op answer before after) = some delivery →
          delivery.eventId = acked.eventId → ¬ Worse acked delivery :=
        fun _ => orderly.saved ran acknowledges closed
      have still := closed _ (List.mem_append_right _ (List.mem_singleton_self _))
      cases same
      have phase : (Phase.manager process job progress).permits deployment.digest op := permitted
      exact delivered_acted phase held kept still
  | launched entry spawned before after =>
      obtain ⟨start, thread, _, rfl, launched, rfl⟩ :=
        Discipline.run_launches (D := discipline deployment notifying) reached rfl
      exact delivered_launched launched held
        (closed _ (List.mem_append_right _ (List.mem_singleton_self _)))

theorem status_acted {process : Process} {job : ManagerProtocol.Job}
    {progress : ManagerProtocol.Progress} {own : Nat} {tag : Tag} {op : Op} {oracle : op.Answer}
    {before : State} (notifies : job.notifies)
    (permitted : ManagerProtocol.Permitted process job progress op)
    (held : before.run.callbackStatus = .delivered)
    (silent : announces ((platformSystem deployment notifying).performed own tag op oracle before) =
      false)
    (stays : givesUp own
      ((platformSystem deployment notifying).performed own tag op oracle before) = false) :
    (Op.perform op oracle before).2.run.callbackStatus = .delivered := by
  rcases perform_run op oracle before with
    same | ⟨site, expected, row, stores, admitted, same⟩ | ⟨row, rfl, _⟩ | ⟨_, lease, rfl, _⟩
  · rw [same]
    exact held
  · rw [same]
    cases permitted with
    | skipCallback _ _ _ =>
        obtain ⟨rfl, rfl, rfl⟩ := stores
        simp [announces, System.performed, platformSystem, Op.perform, RunOp.perform,
          State.updateIfCurrent, admitted] at silent
    | prepareCallback url body now _ _ _ _ _ _ =>
        obtain ⟨rfl, rfl, rfl⟩ := stores
        simp [announces, System.performed, platformSystem, Op.perform, RunOp.perform,
          admitted] at silent
    | delivered now attempt _ _ _ _ =>
        obtain ⟨rfl, rfl, rfl⟩ := stores
        rfl
    | exhausted _ _ _ =>
        obtain ⟨rfl, rfl, rfl⟩ := stores
        simp [givesUp, System.performed, platformSystem, Op.perform, RunOp.perform,
          State.updateIfCurrent, admitted] at stays
    | cancel now own _ _ => cases own; exact notifies.elim
    | recover agent now own _ _ _ _ => cases own; exact notifies.elim
    | reclaim now own _ _ _ _ => cases own; exact notifies.elim
    | _ => exact stores.elim
  · cases permitted with
    | retry agent now own _ _ => cases own; exact notifies.elim
  · cases permitted with
    | renewUpdate _ own _ _ => cases own; exact notifies.elim

theorem gives_stores {event : PlatformEvent} (gives : givesUp thread event = true) :
    storesRun thread event = true := by
  unfold givesUp at gives
  split at gives
  · exact gives
  · cases gives

theorem gives_exhausted {event : PlatformEvent}
    (ran : (platformSystem deployment notifying).Run (atRest state) (past ++ event :: later) final)
    (gives : givesUp thread event = true) :
    deployment.callbacks.maxAttempts ≤ (workOf thread past).spent := by
  unfold givesUp at gives
  split at gives
  · simp only [Bool.and_eq_true, decide_eq_true_eq] at gives
    obtain ⟨rfl, _⟩ := gives
    obtain ⟨_, _, spent, _⟩ := acted_work ran
    exact spent
  · cases gives

theorem run_sticky (orderly : Orderly deployment.callbacks.maxAttempts (past ++ first :: (middle ++ last :: later)))
    (ran : (platformSystem deployment notifying).Run (atRest state)
      (past ++ first :: (middle ++ last :: later)) final)
    (settled : settledBy thread first = true)
    (silent : ∀ event ∈ middle ++ [last], announces event = false) :
    last.after.run.callbackStatus = .delivered := by
  obtain ⟨established, acked, acknowledges⟩ := settled_status ran settled
  obtain ⟨reached, earlier, same⟩ := run_until ran
  rw [← same]
  apply earlier.lasts (fun state => state.run.callbackStatus = .delivered) established
  intro prior event next split held
  have whole : past ++ first :: (middle ++ last :: later) =
      past ++ first :: (prior ++ event :: (next ++ later)) := resplit split
  rw [whole] at ran orderly
  have quiet : ∀ other ∈ prior ++ [event], announces other = false :=
    fun other member => silent other (prior_member split member)
  have grouped : past ++ first :: (prior ++ event :: (next ++ later)) =
      (past ++ first :: prior) ++ event :: (next ++ later) := by simp
  have reached := grouped ▸ ran
  cases event with
  | acted own tag op answer before after =>
      obtain ⟨process, job, progress, oracle, permitted, _, notifies, mark, same⟩ :=
        acted_job reached
      have stays : givesUp own (.acted own tag op answer before after) = false := by
        by_cases mine : own = thread
        · subst mine
          have closed := mark (orderly.closed acknowledges)
          unfold givesUp
          split
          · next same =>
              cases same
              exact absurd permitted (closed_exhausts closed)
          · rfl
        · by_contra gives
          simp only [Bool.not_eq_false] at gives
          have reserve := orderly.reserves past first prior _ (next ++ later) thread own rfl
            settled mine (gives_stores gives) quiet
          have spent := gives_exhausted reached gives
          omega
      have unannounced := quiet _ (List.mem_append_right _ (List.mem_singleton_self _))
      cases same
      exact status_acted notifies permitted held unannounced stays
  | launched entry spawned before after =>
      obtain ⟨start, thread, _, rfl, launched, rfl⟩ :=
        Discipline.run_launches (D := discipline deployment notifying) reached rfl
      show after.run.callbackStatus = .delivered
      rw [launched_row launched]
      exact held

theorem posted_once (orderly : Orderly deployment.callbacks.maxAttempts (past ++ first :: (middle ++ last :: later)))
    {acked : CallbackDelivery}
    (ran : (platformSystem deployment notifying).Run (atRest state)
      (past ++ first :: (middle ++ last :: later)) final)
    (acknowledges : Acknowledges thread acked first) : posts thread last = false := by
  have grouped : past ++ first :: (middle ++ last :: later) =
      (past ++ first :: middle) ++ last :: later := by simp
  have closed := orderly.closed acknowledges
  rw [grouped] at ran
  unfold posts
  split
  · next own tag delivery body answer before after =>
      by_contra mine
      simp only [decide_eq_false_iff_not, not_not] at mine
      subst mine
      obtain ⟨_, _, _, _, permitted, _, _, mark, _⟩ := acted_job ran
      exact closed_posts (mark closed) permitted
  · rfl

end Orderly

/-- An acknowledgement lasts in every run in which no call fails in a dispatcher that has
been overtaken, nor in any dispatcher after its own acknowledgement. -/
theorem delivered_sticky {deployment : Deployment} {state : State} {events : List PlatformEvent}
    {final : PlatformConfig}
    (ran : (platformSystem deployment notifying).Run (atRest state) events final)
    (orderly : Orderly deployment.callbacks.maxAttempts events) : Sticky events := by
  constructor
  · rintro past first middle last later thread acked rfl acknowledges shut
    exact row_sticky orderly ran acknowledges shut
  · rintro past first middle last later thread rfl settled silent
    exact run_sticky orderly ran settled silent
  · rintro past first middle last later thread acked rfl acknowledges
    exact posted_once orderly ran acknowledges

def smooth : PlatformEvent → Bool
  | .acted _ _ (.external _) (.error _) _ _ => false
  | .acted _ _ (.run (.updateRunWithCallback .prepareCallback _ _ delivery)) _ _ _ =>
      delivery.attempts = 0
  | .launched (.dispatchDelivery index) _ before _ =>
      (before.claimed[index]?).all fun claim => claim.2.attempts = 0
  | _ => true

theorem smooth_raises {event : PlatformEvent} {thread : Nat} (calm : smooth event = true) :
    raises thread event = false := by
  unfold raises
  split
  · cases calm
  · rfl

def Untouched (work : Work) : Prop := work.spent = 0 ∧ work.failing = false

theorem smooth_recalled {known : Option Work} {event : PlatformEvent} {thread : Nat}
    (untouched : Untouched (known.getD {})) (calm : smooth event = true) :
    Untouched ((learn Work.opening Work.after thread known event).getD {}) := by
  cases event with
  | launched entry spawned before after =>
      cases spawned with
      | none => exact untouched
      | some spawned =>
          simp only [learn]
          split
          · cases entry with
            | dispatchDelivery index =>
                refine ⟨?_, rfl⟩
                simp only [smooth] at calm
                cases found : before.claimed[index]? with
                | none => simp [Work.opening, found]
                | some claim => simpa [Work.opening, found] using calm
            | _ => exact ⟨rfl, rfl⟩
          · exact untouched
  | acted own tag op answer before after =>
      simp only [learn]
      split
      · cases known with
        | none => exact untouched
        | some work =>
            simp only [Option.map_some, Option.getD_some] at untouched ⊢
            unfold Work.after
            split
            · exact ⟨by simpa [smooth] using calm, rfl⟩
            · cases calm
            · exact ⟨untouched.1, rfl⟩
            · exact untouched
      · exact untouched

theorem smooth_untouched {past : List PlatformEvent} (thread : Nat)
    (calm : ∀ event ∈ past, smooth event = true) : Untouched (workOf thread past) := by
  unfold workOf
  induction past using List.reverseRecOn with
  | nil => exact ⟨rfl, rfl⟩
  | append_singleton past event ih =>
      rw [List.foldl_append]
      exact smooth_recalled (ih fun earlier member => calm earlier (List.mem_append_left _ member))
        (calm event (by simp))

theorem smooth_orderly {maxAttempts : Nat} {events : List PlatformEvent}
    (attempts : 0 < maxAttempts) (calm : ∀ event ∈ events, smooth event = true) :
    Orderly maxAttempts events := by
  constructor
  · rintro past first middle last later thread other acked delivery rfl _ _ _ _ _
    have before : ∀ event ∈ past, smooth event = true := fun event member =>
      calm event (by simp [member])
    have until_last : ∀ event ∈ past ++ first :: middle, smooth event = true := by
      intro event member
      apply calm
      simp only [List.mem_append, List.mem_cons] at member ⊢
      grind
    have own := smooth_untouched thread before
    have others := smooth_untouched other before
    have later := smooth_untouched other until_last
    refine ⟨others.2, fun event member => smooth_raises (calm event (by simp [member])), ?_, ?_⟩
    · rw [own.1]
      exact Nat.zero_le _
    · rw [later.1]
      exact attempts
  · rintro past first middle last later thread other rfl _ _ _ _
    have until_last : ∀ event ∈ past ++ first :: middle, smooth event = true := by
      intro event member
      apply calm
      simp only [List.mem_append, List.mem_cons] at member ⊢
      grind
    rw [(smooth_untouched other until_last).1]
    exact attempts
  · rintro past first middle last later thread acked rfl _
    exact smooth_raises (calm last (by simp))

/-- The claim of a dispatcher ends before its post; another one delivers meanwhile, and
the first one posts and is acknowledged too. -/
def overlaps : List (Move platform Entry) :=
  [.launch (.prepareForRun "api")] ++ steps 7 0 calm ++
    [.launch (.dispatchPending "api" "callbacks" 30), .launch (.dispatchDelivery 0)] ++
    steps 3 1 calm ++
    [.launch (.tick 31), .launch (.dispatchPending "standby" "callbacks" 30),
      .launch (.dispatchDelivery 0)] ++
    steps 7 2 calm ++ steps 5 1 calm

theorem overlaps_replays : ((platformSystem sampleDeployment notifying).replay
    (atRest (State.initial { subscribedRun with status := .agentSucceeded } 0 none)) overlaps).any
      (fun outcome => outcome.1.all smooth && outcome.1.any (settledBy 2) &&
        (outcome.1.drop 22).any fun event => (savedBy 1 event).isSome) = true := rfl

/-- Two dispatchers of one delivery overlap, and the acknowledgement lasts. -/
theorem delivered_sticky_overlapping : ∃ events final,
    (platformSystem sampleDeployment notifying).Run
      (atRest (State.initial { subscribedRun with status := .agentSucceeded } 0 none)) events
      final ∧
    (∃ event ∈ events, settledBy 2 event = true) ∧
    (∃ event ∈ events.drop 22, (savedBy 1 event).isSome = true) ∧
    Orderly sampleDeployment.callbacks.maxAttempts events ∧ Sticky events := by
  obtain ⟨events, final, ran, checked⟩ := System.replay_checked overlaps_replays
  simp only [Bool.and_eq_true, List.all_eq_true, List.any_eq_true] at checked
  have orderly : Orderly sampleDeployment.callbacks.maxAttempts events :=
    smooth_orderly (by decide) checked.1.1
  exact ⟨events, final, ran, checked.1.2, checked.2, orderly, delivered_sticky ran orderly⟩

/-- The claim of a dispatcher ends before its post; another one delivers meanwhile,
and the first post is refused. -/
def takenOver : List (Move platform Entry) :=
  [.launch (.prepareForRun "api")] ++ steps 7 0 calm ++
    [.launch (.dispatchPending "api" "callbacks" 30), .launch (.dispatchDelivery 0)] ++
    steps 3 1 calm ++
    [.launch (.tick 31), .launch (.dispatchPending "standby" "callbacks" 30),
      .launch (.dispatchDelivery 0)] ++
    steps 7 2 calm ++ steps 3 1 refusing

def overturned (events : List PlatformEvent) : Bool :=
  match events[21]?, (events.drop 22)[3]? with
  | some first, some last =>
      (savedBy 2 first).any (fun delivery =>
        delivery.status = .delivered && delivery.eventId = ⟨0⟩) &&
      (((events.drop 22).take 3 ++ [last]).all fun event => !reopens ⟨0⟩ event) &&
      (last.after.callbacks.find ⟨0⟩).any fun delivery => delivery.status = .failed
  | _, _ => false

theorem takenOver_replays : ((platformSystem sampleDeployment notifying).replay
    (atRest (State.initial { subscribedRun with status := .agentSucceeded } 0 none)) takenOver).any
      (fun outcome => overturned outcome.1) = true := rfl

/-- A refused post of the overtaken dispatcher stores FAILED over DELIVERED. -/
theorem failure_stored_over_delivered : ∃ events final,
    (platformSystem sampleDeployment notifying).Run
      (atRest (State.initial { subscribedRun with status := .agentSucceeded } 0 none)) events
      final ∧ ¬ Sticky events := by
  obtain ⟨events, final, ran, checked⟩ := System.replay_checked takenOver_replays
  refine ⟨events, final, ran, fun sticky => ?_⟩
  simp only [overturned] at checked
  split at checked
  · next first last here there =>
      simp only [Bool.and_eq_true, Option.any_eq_true, decide_eq_true_eq, List.all_eq_true,
        Bool.not_eq_true'] at checked
      obtain ⟨⟨⟨acked, saved, delivered, key⟩, shut⟩, stored, found, failed⟩ := checked
      have split : events = events.take 21 ++
          first :: ((events.drop 22).take 3 ++ last :: (events.drop 22).drop 4) := by
        rw [← split_at there]
        exact split_at here
      obtain ⟨row, present, kept, _⟩ := sticky.row _ first _ last _ 2 acked split ⟨saved, delivered⟩
        (by rw [key]; exact shut)
      rw [key, found] at present
      cases present
      rw [failed] at kept
      cases kept
  · cases checked

end AgentTaskPlatform.Acknowledgements
