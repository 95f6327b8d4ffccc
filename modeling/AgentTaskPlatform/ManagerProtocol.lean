import AgentTaskPlatform.ExecutionProtocol

/-!
The protocol of the other writers of a run: the calls of `RunManager`, lease
renewal, and the delivery of callbacks.
-/

namespace AgentTaskPlatform.ManagerProtocol

open Interleaving CoroutineRules CallbackService RunManager

inductive Job where
  | renewal (leaseSeconds : Nat)
  | cancel
  | retry
  | recover
  | reclaim
  | resend
  | delivery
  | prepare

def Job.notifies : Job → Prop
  | .resend => True
  | .delivery => True
  | .prepare => True
  | _ => False

def Job.dispatches : Job → Prop
  | .resend => True
  | .delivery => True
  | _ => False

theorem Job.dispatches_notifies {job : Job} (dispatches : job.dispatches) : job.notifies := by
  cases job <;> trivial

def Job.leaves : Job → Prop
  | .renewal _ => False
  | _ => True

theorem Job.dispatches_leaves {job : Job} (dispatches : job.dispatches) : job.leaves := by
  cases job <;> trivial

structure Progress where
  /-- The run object in hand. -/
  seen : Option AgentRun := none
  now : Option Nat := none
  /-- The answer of the last `SELECT` of a renewal. -/
  owned : Bool := false
  /-- The answer of the last update. -/
  stored : Bool := false
  delivery : Option (Uuid × Option CallbackDelivery) := none
  issued : Option Uuid := none
  /-- The delivery object in hand. -/
  hand : Option CallbackDelivery := none
  /-- The delivery has been stored as delivered, and nothing has raised since. -/
  closed : Bool := false

def Progress.after (progress : Progress) : (op : Op) → op.Answer → Progress
  | .run .get, run => { progress with seen := some run }
  | .process .utcNow, now => { progress with now := some now }
  | .run (.renewSelect _), entity => { progress with owned := entity.isSome }
  | .run (.updateIfCurrent _ _ _), stored => { progress with stored := stored }
  | .run (.renewUpdate _ _), _ => { progress with stored := true }
  | .run (.updateRunWithCallback .delivered _ row delivery), stored =>
      { progress with
        stored := stored
        seen := some row
        hand := some delivery
        closed := stored }
  | .run (.updateRunWithCallback _ _ _ delivery), stored =>
      { progress with hand := if stored then some delivery else progress.hand }
  | .callback (.get eventId), delivery => { progress with delivery := some (eventId, delivery) }
  | .callback (.save delivery), _ =>
      { progress with
        hand := some delivery
        closed := progress.closed || delivery.status = .delivered }
  | .process .uuid4, id => { progress with issued := some id }
  | .external _, answer => { progress with closed := progress.closed && answer.isOk }
  | _, _ => progress

theorem Progress.after_external {progress : Progress} (opened : progress.closed = false)
    (op : External) (answer : Except Exc op.Result) :
    progress.after (.external op) answer = progress := by
  cases progress
  simp_all [Progress.after]

section

variable (process : Process) (job : Job)

inductive Permitted : Progress → Op → Prop
  | read {progress} : Permitted progress (.run .get)
  | utcNow {progress} : Permitted progress (.process .utcNow)
  | uuid4 {progress} : Permitted progress (.process .uuid4)
  | conversation {progress} : Permitted progress (.process .conversation)
  | external {progress} (op) : ExecutionProtocol.External.dispatches op = false → job.leaves →
      Permitted progress (.external op)
  | lookUp {progress} (eventId) : Permitted progress (.callback (.get eventId))
  | saveResent {progress} {eventId delivery} (now) : job = .resend →
      progress.delivery = some (eventId, some delivery) →
      Permitted progress (.callback (.save (resent delivery now)))
  | saveFailed {progress} {delivery} (settings attempt error now) : job.dispatches →
      progress.hand = some delivery → progress.closed = false →
      Permitted progress (.callback (.save (failedDelivery settings delivery attempt error now)))
  | saveDelivered {progress} {delivery} : job.dispatches → progress.hand = some delivery →
      delivery.status = .delivered → progress.stored = false → progress.closed = false →
      Permitted progress (.callback (.save delivery))
  | saveExhausted {progress} {delivery} : job.dispatches → progress.hand = some delivery →
      progress.closed = false →
      Permitted progress (.callback (.save
        { delivery with worker := none, leaseExpireTime := none }))
  | post {progress} {delivery} (body) : job.dispatches → progress.hand = some delivery →
      progress.closed = false → (∀ frozen, delivery.payload = some frozen → body = frozen) →
      Permitted progress (.external (.post delivery body))
  | setEvent {progress} : job = .cancel → progress.stored = true →
      Permitted progress (.process (.setEvent process))
  | renewSelect {progress} {leaseSeconds} : job = .renewal leaseSeconds →
      Permitted progress (.run (.renewSelect process))
  | renewUpdate {progress} {leaseSeconds now} (loaded) : job = .renewal leaseSeconds →
      progress.owned = true → progress.now = some now →
      Permitted progress (.run (.renewUpdate loaded (now + leaseSeconds)))
  | cancel {progress} {run} (now) : job = .cancel → progress.seen = some run →
      run.status.terminal = false →
      Permitted progress (.run (.updateIfCurrent .cancel { statuses := [run.status] }
        (canceledRun run now)))
  | retry {progress} {run} (agent now) : job = .retry → progress.seen = some run →
      retryable run = true → Permitted progress (.run (.retry (retriedRun run agent now)))
  | recover {progress} {run} (agent now) : job = .recover → progress.seen = some run →
      progress.now = some now → recoverable run = true → leased run now = false →
      Permitted progress (.run (.updateIfCurrent .recover (unchanged run)
        (requeuedRun run agent now)))
  | reclaim {progress} {run} (now) : job = .reclaim → progress.seen = some run →
      progress.now = some now → run.status.executing = true → leaseExpired run now = true →
      Permitted progress (.run (.updateIfCurrent .reclaim (unchanged run) (reclaimedRun run)))
  | skipCallback {progress} {run} : job.notifies → progress.seen = some run →
      subscribes run = false →
      Permitted progress (.run (.updateIfCurrent .skipCallback
        { statuses := [run.status], worker := some run.worker } (skipped run)))
  | prepareCallback {progress} {run eventId existing} (url body now) : job.notifies →
      progress.seen = some run → subscribes run = true →
      progress.delivery = some (eventId, existing) →
      run.callbackEventId.or progress.issued = some eventId → tells body run →
      Permitted progress (.run (.updateRunWithCallback .prepareCallback
        { statuses := [run.status], worker := some run.worker } (announced run eventId)
        (deliveryFor existing eventId url body now)))
  | delivered {progress} {run delivery} (now attempt) : job.dispatches →
      progress.seen = some run → progress.hand = some delivery → progress.closed = false →
      Permitted progress (.run (.updateRunWithCallback .delivered { statuses := [run.status] }
        (settled run now) (deliveredDelivery delivery attempt)))
  | exhausted {progress} {run} : job.dispatches → progress.seen = some run →
      progress.closed = false →
      Permitted progress (.run (.updateIfCurrent .exhausted { statuses := [run.status] }
        { run with callbackStatus := .failed }))

def protocol : Protocol platform Progress where
  permits := Permitted process job
  after := Progress.after

end

section Walk

variable {process : Process} {job : Job} {progress : Progress}

theorem renewLease_follows (leaseSeconds : Nat) :
    (protocol process (.renewal leaseSeconds)).Follows progress (renewLease process leaseSeconds)
      fun outcome after => outcome = .ok (.bool true) → after.stored = true := by
  unfold renewLease
  rw [follows_utcNow]
  refine ⟨.utcNow, fun now => ?_⟩
  rw [follows_perform]
  refine ⟨.renewSelect rfl, fun entity => ?_⟩
  cases entity with
  | none =>
      intro returned
      cases returned
  | some loaded =>
      rw [follows_perform]
      exact ⟨.renewUpdate loaded rfl rfl rfl, fun _ _ => rfl⟩

theorem cancelFrom_follows (rounds : Nat) :
    (protocol process .cancel).Follows progress (cancelFrom process rounds)
      fun _ _ => True := by
  induction rounds generalizing progress with
  | zero => trivial
  | succ rounds ih =>
      unfold cancelFrom
      rw [follows_requireRun]
      refine ⟨.read, fun run => ?_⟩
      split
      · trivial
      · next live =>
          rw [follows_utcNow]
          refine ⟨.utcNow, fun now => ?_⟩
          rw [follows_updateIfCurrent]
          refine ⟨.cancel now rfl rfl (by simpa using live), fun stored => ?_⟩
          cases stored with
          | false => exact ih
          | true =>
              simp only [if_true]
              rw [follows_perform]
              exact ⟨.setEvent rfl rfl, fun _ => trivial⟩

theorem retry_follows :
    (protocol process .retry).Follows progress retry fun _ _ => True := by
  unfold retry
  rw [follows_requireRun]
  refine ⟨.read, fun run => ?_⟩
  split
  · next again =>
      rw [follows_external]
      refine ⟨.external _ rfl trivial, fun answer => ?_⟩
      cases answer with
      | error _ => trivial
      | ok agent =>
          simp only [Protocol.continued]
          rw [follows_utcNow]
          refine ⟨.utcNow, fun now => ?_⟩
          rw [follows_perform]
          exact ⟨.retry agent now rfl rfl again, fun _ => trivial⟩
  · trivial

theorem recoverIncomplete_follows :
    (protocol process .recover).Follows progress recoverIncomplete fun _ _ => True := by
  unfold recoverIncomplete
  rw [follows_requireRun]
  refine ⟨.read, fun run => ?_⟩
  split
  · next recovers =>
      rw [follows_utcNow]
      refine ⟨.utcNow, fun now => ?_⟩
      split
      · trivial
      · next unleased =>
          rw [follows_attempt_next, follows_external_last]
          refine ⟨.external _ rfl trivial, fun answer => ?_⟩
          cases answer with
          | error error =>
              simp only
              split <;> trivial
          | ok agent =>
              simp only
              rw [follows_updateIfCurrent]
              exact ⟨.recover agent now rfl rfl rfl recovers (by simpa using unleased),
                fun _ => trivial⟩
  · trivial

theorem reclaimExpiredLeases_follows :
    (protocol process .reclaim).Follows progress (reclaimExpiredLeases process)
      fun _ _ => True := by
  unfold reclaimExpiredLeases
  rw [follows_utcNow]
  refine ⟨.utcNow, fun now => ?_⟩
  rw [follows_requireRun]
  refine ⟨.read, fun run => ?_⟩
  split
  · next expired =>
      rw [follows_external]
      refine ⟨.external _ rfl trivial, fun answer => ?_⟩
      cases answer with
      | error _ => trivial
      | ok active =>
          simp only [Protocol.continued]
          split
          · trivial
          · rw [follows_updateIfCurrent]
            simp only [Bool.and_eq_true] at expired
            exact ⟨.reclaim now rfl rfl rfl expired.1 expired.2, fun _ => trivial⟩
  · trivial

theorem payload_follows (run : AgentRun) (eventId : Uuid) :
    (protocol process job).Follows progress (payload run eventId) fun outcome after =>
      ∃ body, outcome = .ok body ∧ tells body run ∧ after.seen = progress.seen ∧
        after.issued = progress.issued ∧ after.hand = progress.hand ∧
        after.closed = progress.closed := by
  unfold payload
  rw [follows_perform]
  refine ⟨.conversation, fun conversation => ?_⟩
  unfold finishedAt
  cases run.finishTime with
  | some time => exact ⟨_, rfl, ⟨rfl, rfl⟩, rfl, rfl, rfl, rfl⟩
  | none =>
      rw [follows_utcNow]
      exact ⟨.utcNow, fun now => ⟨_, rfl, ⟨rfl, rfl⟩, rfl, rfl, rfl, rfl⟩⟩

theorem prepareForRun_follows {run : AgentRun} (notifies : job.notifies)
    (seen : progress.seen = some run) :
    (protocol process job).Follows progress (prepareForRun run) fun outcome after =>
      ∃ prepared, outcome = .ok prepared ∧ after.closed = progress.closed ∧
        ∀ delivery, prepared.2 = some delivery → after.hand = some delivery := by
  unfold prepareForRun
  have skips : subscribes run = false →
      (protocol process job).Follows progress (skipCallback run) fun outcome after =>
        outcome = .ok (skipped run) ∧ after.closed = progress.closed := by
    intro declined
    unfold skipCallback
    rw [follows_updateIfCurrent]
    exact ⟨.skipCallback notifies seen declined, fun _ => ⟨rfl, rfl⟩⟩
  cases url : run.callbackUrl with
  | none =>
      have declined : subscribes run = false := by simp [subscribes, url]
      apply (skips declined).next
      · rintro row after ⟨_, kept⟩
        exact ⟨_, rfl, kept, by simp⟩
      · rintro error after ⟨same, _⟩
        cases same
  | some target =>
      simp only
      split
      · next asked =>
          have subscribed : subscribes run = true := by
            rw [subscribes, url, asked]
            rfl
          have drawn : (protocol process job).Follows progress (eventIdFor run)
              fun outcome after => ∃ eventId, outcome = .ok eventId ∧
                after.seen = progress.seen ∧
                run.callbackEventId.or after.issued = some eventId ∧
                after.closed = progress.closed := by
            unfold eventIdFor
            cases known : run.callbackEventId with
            | some eventId => exact ⟨eventId, rfl, rfl, rfl, rfl⟩
            | none =>
                rw [follows_uuid4_last]
                exact ⟨.uuid4, fun eventId => ⟨eventId, rfl, rfl, rfl, rfl⟩⟩
          apply drawn.next
          · rintro eventId issuing ⟨_, same, kept, named, unmoved⟩
            cases same
            apply (payload_follows _ _).next
            · rintro body middle ⟨_, made, told, read, drew, _, still⟩
              cases made
              rw [follows_perform]
              refine ⟨.lookUp eventId, fun existing => ?_⟩
              rw [follows_utcNow]
              refine ⟨.utcNow, fun now => ?_⟩
              rw [follows_perform]
              have inHand : middle.seen = some run := by rw [read, kept, seen]
              have issued : run.callbackEventId.or middle.issued = some eventId := by
                rw [drew]
                exact named
              refine ⟨.prepareCallback target body now notifies inHand subscribed rfl issued told,
                fun stored => ⟨_, rfl, still.trans unmoved, ?_⟩⟩
              cases stored with
              | false => simp
              | true =>
                  intro delivery same
                  exact same
            · rintro error middle ⟨_, same, _⟩
              cases same
          · rintro error middle ⟨_, same, _⟩
            cases same
      · next unasked =>
          have declined : subscribes run = false := by simpa [subscribes, url] using unasked
          apply (skips declined).next
          · rintro row after ⟨_, kept⟩
            exact ⟨_, rfl, kept, by simp⟩
          · rintro error after ⟨same, _⟩
            cases same

structure Dispatching (job : Job) (progress : Progress) (run : AgentRun)
    (delivery : CallbackDelivery) (body : CallbackPayload) : Prop where
  dispatches : job.dispatches
  seen : progress.seen = some run
  hand : progress.hand = some delivery
  frozen : ∀ payload, delivery.payload = some payload → body = payload

section Dispatch

variable {run : AgentRun} {delivery : CallbackDelivery} {body : CallbackPayload}

theorem Dispatching.called (dispatching : Dispatching job progress run delivery body)
    (op : External) (answer : Except Exc op.Result) :
    Dispatching job (progress.after (.external op) answer) run delivery body :=
  ⟨dispatching.dispatches, dispatching.seen, dispatching.hand, dispatching.frozen⟩

theorem recordFailure_follows (settings : Settings) (attempt : Nat) (error : Exc)
    (dispatching : Dispatching job progress run delivery body)
    (opened : progress.closed = false) :
    (protocol process job).Follows progress (recordFailure settings delivery attempt error)
      fun outcome after => ∀ failed, outcome = .ok failed →
        Dispatching job after run failed body ∧ after.closed = false := by
  unfold recordFailure
  rw [follows_utcNow]
  refine ⟨.utcNow, fun now => ?_⟩
  rw [follows_perform]
  refine ⟨.saveFailed settings attempt error now dispatching.dispatches dispatching.hand opened,
    fun _ => ?_⟩
  have kept : Dispatching job
      ((progress.after (.process .utcNow) now).after
        (.callback (.save (failedDelivery settings delivery attempt error now))) ()) run
      (failedDelivery settings delivery attempt error now) body :=
    ⟨dispatching.dispatches, dispatching.seen, rfl, dispatching.frozen⟩
  have still : ((progress.after (.process .utcNow) now).after
      (.callback (.save (failedDelivery settings delivery attempt error now))) ()).closed =
        false := by
    simp [Progress.after, failedDelivery, opened]
  unfold pause
  split
  · rw [follows_external]
    refine ⟨.external _ rfl (Job.dispatches_leaves dispatching.dispatches), fun answer => ?_⟩
    cases answer with
    | error _ =>
        intro failed same
        cases same
    | ok _ =>
        intro failed same
        cases same
        have slept := Progress.after_external still (.sleep (settings.delayForAttempt attempt))
          (.ok ())
        refine ⟨kept.called _ _, ?_⟩
        rw [← slept] at still
        exact still
  · intro failed same
    cases same
    exact ⟨kept, still⟩

theorem postOnce_follows (dispatching : Dispatching job progress run delivery body)
    (opened : progress.closed = false) :
    (protocol process job).Follows progress (postOnce delivery body) fun _ after =>
      after = progress := by
  unfold postOnce
  rw [follows_external]
  refine ⟨.external _ rfl (Job.dispatches_leaves dispatching.dispatches), fun answer => ?_⟩
  have same : (protocol process job).after progress (.external (.validateUrl delivery.url)) answer =
      progress := Progress.after_external opened _ answer
  rw [same]
  cases answer with
  | error _ => exact rfl
  | ok _ =>
      simp only [Protocol.continued]
      rw [follows_external_last]
      exact ⟨.post body dispatching.dispatches dispatching.hand opened dispatching.frozen,
        fun answer => Progress.after_external opened _ answer⟩

theorem saveUnless_follows {stored : Bool} (answered : progress.stored = stored)
    (closed : progress.closed = stored) (delivered : delivery.status = .delivered)
    (dispatching : Dispatching job progress run delivery body) :
    (protocol process job).Follows progress (saveUnless stored delivery) fun _ after =>
      Dispatching job after run delivery body := by
  unfold saveUnless
  split
  · exact dispatching
  · next missed =>
      have missed : stored = false := by simpa using missed
      rw [follows_perform_last]
      exact ⟨.saveDelivered dispatching.dispatches dispatching.hand delivered
        (answered.trans missed) (closed.trans missed),
        fun _ => ⟨dispatching.dispatches, dispatching.seen, rfl, dispatching.frozen⟩⟩

theorem deliverFrom_follows (settings : Settings) (remaining : Nat)
    (dispatching : Dispatching job progress run delivery body)
    (opened : progress.closed = false) :
    (protocol process job).Follows progress
      (deliverFrom settings body remaining run delivery) fun _ _ => True := by
  induction remaining generalizing progress run delivery with
  | zero =>
      unfold deliverFrom
      rw [follows_updateIfCurrent]
      refine ⟨.exhausted dispatching.dispatches dispatching.seen opened, fun _ => ?_⟩
      rw [follows_perform]
      refine ⟨.saveExhausted dispatching.dispatches dispatching.hand opened, fun _ => ?_⟩
      rw [follows_external]
      refine ⟨.external _ rfl (Job.dispatches_leaves dispatching.dispatches), fun answer => ?_⟩
      cases answer <;> trivial
  | succ remaining ih =>
      unfold deliverFrom
      simp only
      rw [follows_attempt_next]
      apply (postOnce_follows dispatching opened).mono
      intro posted after same
      rw [same]
      cases posted with
      | error error =>
          simp only
          split
          · apply (recordFailure_follows settings _ error dispatching opened).next
            · intro failed recorded kept
              exact ih (kept failed rfl).1 (kept failed rfl).2
            · intro _ _ _
              trivial
          · trivial
      | ok _ =>
          simp only
          rw [follows_utcNow]
          refine ⟨.utcNow, fun now => ?_⟩
          rw [follows_perform]
          refine ⟨.delivered now _ dispatching.dispatches dispatching.seen dispatching.hand opened,
            fun stored => ?_⟩
          have acknowledged : Dispatching job
              { progress with
                now := some now
                stored := stored
                seen := some (settled run now)
                hand := some (deliveredDelivery delivery (settings.maxAttempts - remaining))
                closed := stored }
              (settled run now) (deliveredDelivery delivery (settings.maxAttempts - remaining))
              body :=
            ⟨dispatching.dispatches, rfl, rfl, dispatching.frozen⟩
          apply Protocol.Follows.next (saveUnless_follows rfl rfl rfl acknowledged)
          · intro _ saved dispatching
            rw [follows_attempt_next, follows_external_last]
            refine ⟨.external _ rfl (Job.dispatches_leaves dispatching.dispatches), fun ended => ?_⟩
            cases ended with
            | ok _ => trivial
            | error error =>
                simp only
                split
                · have reopened : (saved.after (.external (.hook "on_callback_end"))
                      (.error error)).closed = false := by
                    simp [Progress.after, Except.isOk, Except.toBool]
                  apply Protocol.Follows.next
                    (recordFailure_follows settings _ error (dispatching.called _ _) reopened)
                  · intro failed recorded kept
                    exact ih (kept failed rfl).1 (kept failed rfl).2
                  · intro _ _ _
                    trivial
                · trivial
          · intro _ _ _
            trivial

theorem dispatchDelivery_follows (settings : Settings) (dispatches : job.dispatches)
    (hand : progress.hand = some delivery) (opened : progress.closed = false) :
    (protocol process job).Follows progress (dispatchDelivery settings delivery)
      fun _ _ => True := by
  unfold dispatchDelivery
  rw [follows_requireRun]
  refine ⟨.read, fun run => ?_⟩
  have built : (protocol process job).Follows { progress with seen := some run }
      (bodyFor run delivery) fun outcome after => ∀ body, outcome = .ok body →
        Dispatching job after run delivery body ∧ after.closed = false := by
    unfold bodyFor
    cases stored : delivery.payload with
    | some body =>
        rintro _ ⟨⟩
        refine ⟨⟨dispatches, rfl, hand, ?_⟩, opened⟩
        intro payload same
        exact Option.some.inj (stored.symm.trans same)
    | none =>
        apply (payload_follows _ _).mono
        rintro outcome after ⟨body, rfl, _, seen, _, kept, still⟩ _ ⟨⟩
        refine ⟨⟨dispatches, seen, kept.trans hand, ?_⟩, still.trans opened⟩
        intro payload same
        rw [stored] at same
        cases same
  apply Protocol.Follows.next built
  · intro body after built
    obtain ⟨dispatching, still⟩ := built body rfl
    rw [follows_external]
    refine ⟨.external _ rfl (Job.dispatches_leaves dispatches), fun answer => ?_⟩
    have same : (protocol process job).after after (.external (.hook "on_callback_start")) answer =
        after := Progress.after_external still _ answer
    rw [same]
    cases answer with
    | error _ => trivial
    | ok _ => exact deliverFrom_follows settings _ dispatching still
  · intro _ _ _
    trivial

end Dispatch

theorem dispatchForRun_follows (settings : Settings) {run : AgentRun} (notifies : job.notifies)
    (dispatches : job.dispatches) (seen : progress.seen = some run)
    (opened : progress.closed = false) :
    (protocol process job).Follows progress (dispatchForRun settings run) fun _ _ => True := by
  unfold dispatchForRun
  apply (prepareForRun_follows notifies seen).next
  · rintro prepared after ⟨_, same, still, stored⟩
    cases same
    cases found : prepared.2 with
    | none => trivial
    | some delivery =>
        exact (dispatchDelivery_follows settings dispatches (stored delivery found)
          (still.trans opened)).next (fun _ _ _ => trivial) fun _ _ _ => trivial
  · intro _ _ _
    trivial

theorem resendCallback_follows (settings : Settings) (opened : progress.closed = false) :
    (protocol process .resend).Follows progress (resendCallback settings) fun _ _ => True := by
  unfold resendCallback
  rw [follows_requireRun]
  refine ⟨.read, fun run => ?_⟩
  have resent : (protocol process .resend).Follows { progress with seen := some run }
      (resend settings run) fun _ _ => True := by
    unfold resend
    cases run.callbackEventId with
    | none => exact dispatchForRun_follows settings trivial trivial rfl opened
    | some eventId =>
        simp only
        rw [follows_perform]
        refine ⟨.lookUp eventId, fun existing => ?_⟩
        cases existing with
        | none => exact dispatchForRun_follows settings trivial trivial rfl opened
        | some delivery =>
            simp only
            rw [follows_utcNow]
            refine ⟨.utcNow, fun now => ?_⟩
            rw [follows_perform]
            refine ⟨.saveResent now rfl rfl, fun _ =>
              dispatchForRun_follows settings trivial trivial rfl ?_⟩
            show (progress.closed || decide ((resent delivery now).status = .delivered)) = false
            simp [resent, opened]
  exact Protocol.Follows.next resent (fun _ _ _ => trivial) fun _ _ _ => trivial

theorem delivery_follows (settings : Settings) {delivery : CallbackDelivery}
    (hand : progress.hand = some delivery) (opened : progress.closed = false) :
    (protocol process .delivery).Follows progress
      (do
        let _ ← dispatchDelivery settings delivery
        return .null : Coroutine Json)
      fun _ _ => True := by
  have dispatched : (protocol process .delivery).Follows progress
      (dispatchDelivery settings delivery) fun _ _ => True :=
    dispatchDelivery_follows settings trivial hand opened
  exact dispatched.next (fun _ _ _ => trivial) fun _ _ _ => trivial

theorem preparation_follows :
    (protocol process .prepare).Follows progress
      (do
        let run ← Coroutine.requireRun
        let _ ← prepareForRun run
        return .null : Coroutine Json)
      fun _ _ => True := by
  rw [follows_requireRun]
  refine ⟨.read, fun run => ?_⟩
  have notifies : Job.prepare.notifies := trivial
  have prepared : (protocol process .prepare).Follows { progress with seen := some run }
      (prepareForRun run) fun _ _ => True :=
    (prepareForRun_follows notifies rfl).mono fun _ _ _ => trivial
  exact Protocol.Follows.next prepared (fun _ _ _ => trivial) fun _ _ _ => trivial

end Walk

end AgentTaskPlatform.ManagerProtocol
