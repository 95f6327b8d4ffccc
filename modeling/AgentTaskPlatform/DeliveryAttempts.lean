import AgentTaskPlatform.Companions
import AgentTaskPlatform.Settlement

/-!
The attempts of a dispatcher. What it has behind it are the attempts of the delivery as it
was handed out and the calls that have failed since; from this follows which attempt it
acknowledges, when it records a failure, and when it gives up.
-/

namespace AgentTaskPlatform.DeliveryAttempts

open Interleaving CoroutineRules CallbackService RunManager Settlement

structure Work where
  spent : Nat := 0
  /-- A call has failed, and the failure is not stored yet. -/
  failing : Bool := false
  resends : Bool := false

def Work.opening : Entry → State → Work
  | .dispatchDelivery index, state =>
      { spent := (state.claimed[index]?).elim 0 fun claim => claim.2.attempts }
  | .resendCallback _, _ => { resends := true }
  | _, _ => {}

def Work.after (work : Work) : (op : Op) → op.Answer → Work
  | .run (.updateRunWithCallback .prepareCallback _ _ delivery), true =>
      { work with spent := delivery.attempts, failing := false }
  | .external _, .error _ => { work with spent := work.spent + 1, failing := true }
  | .callback (.save _), _ => { work with failing := false }
  | _, _ => work

theorem after_resends (work : Work) (op : Op) (answer : op.Answer) :
    (work.after op answer).resends = work.resends := by
  unfold Work.after
  split <;> rfl

def workOf (thread : Nat) (past : List PlatformEvent) : Work :=
  (past.foldl (learn Work.opening Work.after thread) none).getD {}

section Rules

variable (maxAttempts : Nat)

def permits (work : Work) : Op → Prop
  | .callback (.save delivery) =>
      (work.failing = true ∧ delivery.status = .failed) ∨ maxAttempts ≤ work.spent ∨
        (delivery.status = .delivered ∧ delivery.attempts = work.spent + 1) ∨
        (work.resends = true ∧ delivery.status = .pending)
  | .run (.updateRunWithCallback .delivered _ _ delivery) => delivery.attempts = work.spent + 1
  | .run (.updateIfCurrent .exhausted _ _) => maxAttempts ≤ work.spent
  | _ => True

def protocol : Protocol platform Work where
  permits := permits maxAttempts
  after := Work.after

end Rules

section Walk

variable {settings : Settings} {work : Work} {body : CallbackPayload}
  {delivery : CallbackDelivery}

def Work.left (work : Work) (settings : Settings) : Nat := settings.maxAttempts - work.spent

theorem recordFailure_follows (attempt : Nat) (error : Exc) (failing : work.failing = true) :
    (protocol settings.maxAttempts).Follows work (recordFailure settings delivery attempt error)
      fun outcome after => ∀ failed, outcome = .ok failed → after.spent = work.spent := by
  unfold recordFailure
  rw [follows_utcNow]
  refine ⟨trivial, fun now => ?_⟩
  rw [follows_perform]
  refine ⟨Or.inl ⟨failing, rfl⟩, fun _ => ?_⟩
  unfold pause
  split
  · rw [follows_external]
    refine ⟨trivial, fun answer => ?_⟩
    cases answer with
    | error _ =>
        intro failed same
        cases same
    | ok _ =>
        intro failed _
        rfl
  · intro failed _
    rfl

theorem postOnce_follows :
    (protocol settings.maxAttempts).Follows work (postOnce delivery body) fun outcome after =>
      (outcome = .ok () ∧ after = work) ∨
        ∃ error, outcome = .error error ∧ after.spent = work.spent + 1 ∧ after.failing = true := by
  unfold postOnce
  rw [follows_external]
  refine ⟨trivial, fun answer => ?_⟩
  cases answer with
  | error error => exact Or.inr ⟨error, rfl, rfl, rfl⟩
  | ok _ =>
      simp only [Protocol.continued]
      rw [follows_external_last]
      refine ⟨trivial, fun answer => ?_⟩
      cases answer with
      | error error => exact Or.inr ⟨error, rfl, rfl, rfl⟩
      | ok _ => exact Or.inl ⟨rfl, rfl⟩

theorem saveUnless_follows {stored : Bool} (delivered : delivery.status = .delivered)
    (attempts : delivery.attempts = work.spent + 1) :
    (protocol settings.maxAttempts).Follows work (saveUnless stored delivery)
      fun _ after => after.spent = work.spent := by
  unfold saveUnless
  split
  · rfl
  · rw [follows_perform_last]
    exact ⟨Or.inr (Or.inr (Or.inl ⟨delivered, attempts⟩)), fun _ => rfl⟩

/-- A dispatcher counts one attempt for each failed call. -/
theorem deliverFrom_follows (remaining : Nat) (run : AgentRun)
    (counted : remaining = work.left settings) :
    (protocol settings.maxAttempts).Follows work (deliverFrom settings body remaining run delivery)
      fun _ _ => True := by
  induction remaining generalizing work run delivery with
  | zero =>
      have spent : settings.maxAttempts ≤ work.spent := by
        unfold Work.left at counted
        omega
      unfold deliverFrom
      rw [follows_updateIfCurrent]
      refine ⟨spent, fun _ => ?_⟩
      rw [follows_perform]
      refine ⟨Or.inr (Or.inl spent), fun _ => ?_⟩
      rw [follows_external]
      refine ⟨trivial, fun answer => ?_⟩
      cases answer <;> trivial
  | succ remaining ih =>
      unfold Work.left at counted
      have attempt : settings.maxAttempts - remaining = work.spent + 1 := by omega
      have next : ∀ {after : Work}, after.spent = work.spent + 1 →
          remaining = after.left settings := by
        intro after spent
        unfold Work.left
        omega
      unfold deliverFrom
      simp only
      rw [follows_attempt_next]
      apply postOnce_follows.mono
      rintro posted after (⟨rfl, rfl⟩ | ⟨error, rfl, spent, failing⟩)
      · simp only
        rw [follows_utcNow]
        refine ⟨trivial, fun now => ?_⟩
        rw [follows_perform]
        refine ⟨attempt, fun stored => ?_⟩
        apply Protocol.Follows.next (saveUnless_follows rfl attempt)
        · intro _ saved kept
          rw [follows_attempt_next, follows_external_last]
          refine ⟨trivial, fun ended => ?_⟩
          cases ended with
          | ok _ => trivial
          | error error =>
              simp only
              split
              · apply Protocol.Follows.next (recordFailure_follows _ error rfl)
                · intro failed recorded same
                  apply ih
                  apply next
                  rw [same failed rfl]
                  exact congrArg (· + 1) kept
                · intro _ _ _
                  trivial
              · trivial
        · intro _ _ _
          trivial
      · simp only
        split
        · apply Protocol.Follows.next (recordFailure_follows _ error failing)
          · intro failed recorded same
            apply ih
            apply next
            rw [same failed rfl, spent]
          · intro _ _ _
            trivial
        · trivial

theorem payload_follows {maxAttempts : Nat} (run : AgentRun) (eventId : Uuid) :
    (protocol maxAttempts).Follows work (payload run eventId) fun _ after => after = work := by
  unfold payload
  rw [follows_perform]
  refine ⟨trivial, fun conversation => ?_⟩
  unfold finishedAt
  cases run.finishTime with
  | some time => rfl
  | none =>
      rw [follows_utcNow]
      exact ⟨trivial, fun now => rfl⟩

theorem dispatchDelivery_follows (spent : work.spent = delivery.attempts) :
    (protocol settings.maxAttempts).Follows work (dispatchDelivery settings delivery)
      fun _ _ => True := by
  unfold dispatchDelivery
  rw [follows_requireRun]
  refine ⟨trivial, fun run => ?_⟩
  have built : (protocol settings.maxAttempts).Follows work (bodyFor run delivery)
      fun _ after => after = work := by
    unfold bodyFor
    cases delivery.payload with
    | some body => rfl
    | none => exact payload_follows _ _
  apply Protocol.Follows.next built
  · rintro body after rfl
    rw [follows_external]
    refine ⟨trivial, fun answer => ?_⟩
    cases answer with
    | error _ => trivial
    | ok _ =>
        apply deliverFrom_follows
        unfold Work.left
        simp [protocol, Work.after, spent]
  · intro _ _ _
    trivial

theorem prepareForRun_follows {maxAttempts : Nat} (run : AgentRun) :
    (protocol maxAttempts).Follows work (prepareForRun run) fun outcome after =>
      ∀ prepared delivery, outcome = .ok prepared → prepared.2 = some delivery →
        after.spent = delivery.attempts := by
  unfold prepareForRun
  have skips : (protocol maxAttempts).Follows work (skipCallback run) fun _ _ => True := by
    unfold skipCallback
    rw [follows_updateIfCurrent]
    exact ⟨trivial, fun _ => trivial⟩
  have skipped : (protocol maxAttempts).Follows work
      (do
        let run ← skipCallback run
        return (run, none) : Coroutine (AgentRun × Option CallbackDelivery))
      fun outcome after => ∀ prepared delivery, outcome = .ok prepared →
        prepared.2 = some delivery → after.spent = delivery.attempts := by
    apply skips.next
    · intro row after _ prepared delivery same found
      cases same
      cases found
    · intro error after _ prepared delivery same
      cases same
  cases run.callbackUrl with
  | none => exact skipped
  | some target =>
      simp only
      split
      · have drawn : (protocol maxAttempts).Follows work (eventIdFor run) fun _ _ => True := by
          unfold eventIdFor
          split
          · trivial
          · rw [follows_uuid4_last]
            exact ⟨trivial, fun _ => trivial⟩
        apply drawn.next
        · intro eventId issuing _
          apply (payload_follows _ eventId).next
          · intro body middle _
            rw [follows_perform]
            refine ⟨trivial, fun existing => ?_⟩
            rw [follows_utcNow]
            refine ⟨trivial, fun now => ?_⟩
            rw [follows_perform]
            refine ⟨trivial, fun stored => ?_⟩
            intro prepared delivery same found
            cases same
            cases stored with
            | false => cases found
            | true =>
                cases found
                rfl
          · intro error middle _ prepared delivery same
            cases same
        · intro error issuing _ prepared delivery same
          cases same
      · exact skipped

theorem dispatchForRun_follows (run : AgentRun) :
    (protocol settings.maxAttempts).Follows work (dispatchForRun settings run)
      fun _ _ => True := by
  unfold dispatchForRun
  apply (prepareForRun_follows run).next
  · intro prepared after spent
    cases found : prepared.2 with
    | none => trivial
    | some delivery =>
        exact (dispatchDelivery_follows (spent prepared delivery rfl found)).next
          (fun _ _ _ => trivial) fun _ _ _ => trivial
  · intro _ _ _
    trivial

theorem resendCallback_follows (resends : work.resends = true) :
    (protocol settings.maxAttempts).Follows work (resendCallback settings) fun _ _ => True := by
  unfold resendCallback
  rw [follows_requireRun]
  refine ⟨trivial, fun run => ?_⟩
  have resent : (protocol settings.maxAttempts).Follows work (resend settings run)
      fun _ _ => True := by
    unfold resend
    cases run.callbackEventId with
    | none => exact dispatchForRun_follows run
    | some eventId =>
        simp only
        rw [follows_perform]
        refine ⟨trivial, fun existing => ?_⟩
        cases existing with
        | none => exact dispatchForRun_follows run
        | some delivery =>
            simp only
            rw [follows_utcNow]
            refine ⟨trivial, fun now => ?_⟩
            rw [follows_perform]
            exact ⟨Or.inr (Or.inr (Or.inr ⟨resends, rfl⟩)), fun _ => dispatchForRun_follows run⟩
  exact Protocol.Follows.next resent (fun _ _ _ => trivial) fun _ _ _ => trivial

end Walk

def companion (deployment : Deployment) : Companion (platformSystem deployment notifying) Work where
  protocol := protocol deployment.callbacks.maxAttempts
  start := Work.opening
  concludes _ _ := True
  launched := by
    intro entry config state thread launched
    obtain ⟨admitted, _, started⟩ := launch_start launched
    cases entry with
    | resendCallback process =>
        cases started
        exact resendCallback_follows rfl
    | dispatchDelivery index =>
        simp only [Entry.start] at started
        split at started
        · cases started
        · next process delivery found =>
            cases started
            have spent : (Work.opening (.dispatchDelivery index) config.state).spent =
                delivery.attempts := by
              simp [Work.opening, found]
            exact (dispatchDelivery_follows spent).next (fun _ _ _ => trivial)
              fun _ _ _ => trivial
    | prepareForRun process =>
        cases started
        rw [follows_requireRun]
        refine ⟨trivial, fun run => ?_⟩
        exact (prepareForRun_follows run).next (fun _ _ _ => trivial) fun _ _ _ => trivial
    | tick elapsed => cases started
    | dispatchPending process workerId leaseSeconds => cases started
    | prune eventIds => cases started
    | _ => cases admitted

section Runs

variable {deployment : Deployment} {state : State} {past later : List PlatformEvent}
  {final : PlatformConfig} {thread : Nat} {tag : Tag} {op : Op} {answer : op.Answer}
  {before after : State}

theorem resends_inductive :
    ((companion deployment).discipline (discipline deployment notifying)).Inductive
      (fun _ _ => True) fun _ _ phases => ∀ (thread : Nat) phase (work : Work),
        phases[thread]? = some (phase, work) → work.resends = true →
          ∃ process progress, phase = .manager process .resend progress where
  acts past state phases thread tag op oracle phase known present _ _ _ := by
    intro index later work found resends
    rcases Discipline.performed_phase present found with ⟨rfl, same⟩ | ⟨_, kept⟩
    · cases same
      have earlier : phase.2.resends = true := by
        rw [← after_resends phase.2 op]
        exact resends
      obtain ⟨process, progress, same⟩ := known index phase.1 phase.2 present earlier
      exact ⟨process, progress.after op (Op.perform op oracle state).1, by rw [same]; rfl⟩
    · exact known index later work kept resends
  launches past config phases entry state spawned _ known launched _ := by
    intro index later work found resends
    rcases Companion.launched_phases found with old | ⟨_, start, rfl⟩
    · exact known index later work old resends
    · cases entry with
      | resendCallback process =>
          cases start
          exact ⟨process, {}, rfl⟩
      | _ => cases resends

/-- A thread operates as its protocol and its attempts allow. -/
theorem acted_work
    (ran : (platformSystem deployment notifying).Run (atRest state)
      (past ++ .acted thread tag op answer before after :: later) final) :
    ∃ phase : Phase, phase.permits deployment.digest op ∧
      permits deployment.callbacks.maxAttempts (workOf thread past) op ∧
      ((workOf thread past).resends = true → tag.role = .resend) := by
  obtain ⟨phase, work, present, _, recalled, belongs, permitted, counted⟩ :=
    (companion deployment).run_permits (D := discipline deployment notifying) ran rfl
  have same : workOf thread past = work := by
    unfold workOf
    rw [show past.foldl (learn Work.opening Work.after thread) none = some work from recalled]
    rfl
  refine ⟨phase, permitted, same ▸ counted, fun resends => ?_⟩
  have known := resends_inductive.before_event ran rfl (fun _ _ _ _ => trivial)
    (fun _ _ _ found => by cases found)
  obtain ⟨process, progress, rfl⟩ := known thread phase work present (same ▸ resends)
  cases belongs
  rfl

end Runs

end AgentTaskPlatform.DeliveryAttempts
