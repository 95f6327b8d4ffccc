import AgentTaskPlatform.Activities
import AgentTaskPlatform.Companions

/-!
What a thread needs in hand before it stores an output, announces a delivery or posts one:
an output comes from the agent or from an error handler, a delivery from the run it tells
of, and a post from the check of its URL. The programs are walked once more for this.
-/

namespace AgentTaskPlatform.Trails

open Interleaving CoroutineRules CallbackService RunExecutor

structure Trail where
  read : Option AgentRun := none
  /-- The answer of the last look-up of a delivery. -/
  looked : Option (Option CallbackDelivery) := none
  /-- What the agent returned last, -/
  returned : Option Json := none
  /-- and the output that passed its check since. -/
  checked : Option Json := none
  offered : Option RunErrorResult := none
  /-- The URL that the last operation of the thread let pass. -/
  validated : Option String := none

def Trail.after (trail : Trail) : (op : Op) → op.Answer → Trail
  | .run .get, run => { trail with read := some run, validated := none }
  | .callback (.get _), found => { trail with looked := some found, validated := none }
  | .external (.agentRun _ _), .ok output =>
      { trail with returned := some output, checked := none, validated := none }
  | .external (.validateAgentOutput _ output), .ok _ =>
      { trail with checked := some output, validated := none }
  | .external (.errorHandler _ _ _), .ok (some result) =>
      { trail with offered := some result, validated := none }
  | .external (.validateUrl url), .ok _ => { trail with validated := some url }
  | _, _ => { trail with validated := none }

structure Describes (body : CallbackPayload) (run : AgentRun) : Prop where
  requestId : body.requestId = run.requestId
  conversationId : body.conversationId = run.conversationId
  runId : body.runId = run.runId
  routeTag : body.routeTag = run.routeTag
  agentName : body.agentName = run.agent.map AgentRef.name
  agentVersion : body.agentVersion = run.agent.map AgentRef.version

def permits (trail : Trail) : Op → Prop
  | .run (.updateIfCurrent .agentSucceeded _ row) => ∃ run output now,
      trail.returned = some output ∧ trail.checked = some output ∧
        row = succeededRun run output now
  | .run (.updateIfCurrent .recovered _ row) => ∃ run result now,
      trail.offered = some result ∧ row = recoveredRun run result now
  | .run (.updateRunWithCallback .prepareCallback _ row delivery) =>
      ∃ run url eventId existing body now, run.callbackUrl = some url ∧
        trail.looked = some existing ∧ Describes body run ∧ row = announced run eventId ∧
        delivery = deliveryFor existing eventId url body now
  | .external (.post delivery body) => trail.validated = some delivery.url ∧
      (∀ frozen, delivery.payload = some frozen → body = frozen) ∧
      (delivery.payload = none → ∃ run, trail.read = some run ∧ Describes body run)
  | _ => True

def protocol : Protocol platform Trail where
  permits := permits
  after := Trail.after

def watched : Op → Bool
  | .run (.updateIfCurrent .agentSucceeded _ _) => true
  | .run (.updateIfCurrent .recovered _ _) => true
  | .run (.updateRunWithCallback .prepareCallback _ _ _) => true
  | .external (.post _ _) => true
  | _ => false

theorem permits_unwatched {trail : Trail} {op : Op} (free : watched op = false) :
    permits trail op := by
  cases op with
  | run op =>
      cases op with
      | updateIfCurrent site expected row => cases site <;> trivial
      | updateRunWithCallback site expected row delivery => cases site <;> trivial
      | _ => trivial
  | external op => cases op <;> trivial
  | _ => trivial

section Rules

variable {α β : Type}

def Anywhere (program : Coroutine α) : Prop :=
  ∀ trail, protocol.Follows trail program fun _ _ => True

theorem Anywhere.bind {program : Coroutine β} {rest : β → Coroutine α} (first : Anywhere program)
    (later : ∀ value, Anywhere (rest value)) : Anywhere (program >>= rest) := by
  intro trail
  exact (first trail).next (fun value middle _ => later value middle) fun _ _ _ => trivial

theorem anywhere_pure (value : α) : Anywhere (pure value : Coroutine α) := fun _ => trivial

theorem anywhere_raise (error : Exc) : Anywhere (Coroutine.raise error : Coroutine α) :=
  fun _ => trivial

theorem anywhere_perform {op : Op} (free : watched op = false) :
    Anywhere (Coroutine.perform op) := fun _ =>
  follows_perform_last.mpr ⟨permits_unwatched free, fun _ => trivial⟩

theorem anywhere_external {op : External} (free : watched (.external op) = false) :
    Anywhere (Coroutine.external op) := fun _ =>
  follows_external_last.mpr ⟨permits_unwatched free, fun _ => trivial⟩

theorem anywhere_requireRun : Anywhere Coroutine.requireRun := anywhere_perform rfl

theorem anywhere_utcNow : Anywhere Coroutine.utcNow := anywhere_perform rfl

theorem anywhere_updateIfCurrent {site : Site} {expected : Expected} {row : AgentRun}
    (free : watched (.run (.updateIfCurrent site expected row)) = false) :
    Anywhere (Coroutine.updateIfCurrent site expected row) := anywhere_perform free

theorem Anywhere.attempt {program : Coroutine α} (first : Anywhere program) :
    Anywhere (Fallible.attempt program : Coroutine (Except Exc α)) := fun trail =>
  Protocol.follows_attempt.mpr ((first trail).mono fun _ _ _ => trivial)

theorem anywhere_ofExcept (outcome : Except Exc α) :
    Anywhere (Fallible.ofExcept outcome : Coroutine α) := fun _ =>
  Protocol.follows_ofExcept.mpr trivial

theorem Anywhere.finallyDo {program : Coroutine α} {cleanup : Coroutine Unit}
    (first : Anywhere program) (last : Anywhere cleanup) :
    Anywhere (Fallible.finallyDo program cleanup : Coroutine α) :=
  first.attempt.bind fun outcome => last.bind fun _ => anywhere_ofExcept outcome

theorem Anywhere.ite {condition : Prop} [Decidable condition] {first last : Coroutine α}
    (yes : Anywhere first) (no : Anywhere last) : Anywhere (if condition then first else last) := by
  split
  · exact yes
  · exact no

end Rules

section Announcing

variable {trail : Trail}

theorem payload_follows (run : AgentRun) (eventId : Uuid) :
    protocol.Follows trail (payload run eventId) fun outcome after =>
      ∃ body, outcome = .ok body ∧ Describes body run ∧ after.read = trail.read := by
  unfold payload
  rw [follows_perform]
  refine ⟨trivial, fun conversation => ?_⟩
  unfold finishedAt
  cases run.finishTime with
  | some time => exact ⟨_, rfl, ⟨rfl, rfl, rfl, rfl, rfl, rfl⟩, rfl⟩
  | none =>
      rw [follows_utcNow]
      exact ⟨trivial, fun now => ⟨_, rfl, ⟨rfl, rfl, rfl, rfl, rfl, rfl⟩, rfl⟩⟩

theorem anywhere_skipCallback (run : AgentRun) : Anywhere (skipCallback run) :=
  (anywhere_updateIfCurrent rfl).bind fun _ => anywhere_pure _

/-- The delivery is looked up right before it is announced. -/
theorem anywhere_prepareForRun (run : AgentRun) : Anywhere (prepareForRun run) := by
  unfold prepareForRun
  cases url : run.callbackUrl with
  | none => exact (anywhere_skipCallback run).bind fun _ => anywhere_pure _
  | some target =>
      simp only
      split
      · have drawn : Anywhere (eventIdFor run) := by
          unfold eventIdFor
          split
          · exact anywhere_pure _
          · exact anywhere_perform rfl
        refine drawn.bind fun eventId trail => ?_
        apply (payload_follows _ eventId).next
        · rintro body middle ⟨_, same, describes, _⟩
          cases same
          rw [follows_perform]
          refine ⟨trivial, fun existing => ?_⟩
          rw [follows_utcNow]
          refine ⟨trivial, fun now => ?_⟩
          rw [follows_perform]
          refine ⟨⟨run, target, eventId, existing, body, now, url, rfl, ?_, rfl, rfl⟩,
            fun _ => trivial⟩
          exact ⟨describes.requestId, describes.conversationId, describes.runId,
            describes.routeTag, describes.agentName, describes.agentVersion⟩
        · exact fun _ _ _ => trivial
      · exact (anywhere_skipCallback run).bind fun _ => anywhere_pure _

end Announcing

section Execution

variable (process : Process) (workerId : Option Process)

theorem anywhere_updateOwned {site : Site} {run : AgentRun} {statuses : List RunStatus}
    (free : ∀ expected, watched (.run (.updateIfCurrent site expected run)) = false) :
    Anywhere (updateOwned workerId site run statuses) := anywhere_updateIfCurrent (free _)

theorem anywhere_markQueueCompleted : Anywhere (markQueueCompleted workerId) := by
  refine anywhere_requireRun.bind fun run => ?_
  split
  · exact anywhere_pure _
  · exact (anywhere_updateOwned workerId fun _ => rfl).bind fun _ => anywhere_pure _

theorem anywhere_markQueueDead (reason : String) : Anywhere (markQueueDead workerId reason) :=
  anywhere_requireRun.bind fun _ =>
    (anywhere_updateOwned workerId fun _ => rfl).bind fun _ => anywhere_pure _

theorem anywhere_notify (run : AgentRun) : Anywhere (notify run) := by
  unfold notify
  split
  · exact (anywhere_prepareForRun run).bind fun _ => anywhere_pure _
  · exact anywhere_pure _

theorem finalizeRunWithResult_follows {trail : Trail} {result : RunErrorResult} (run : AgentRun)
    (offered : trail.offered = some result) :
    protocol.Follows trail (finalizeRunWithResult workerId run result) fun _ _ => True := by
  unfold finalizeRunWithResult
  rw [follows_utcNow]
  refine ⟨trivial, fun now => ?_⟩
  unfold updateOwned
  rw [follows_updateIfCurrent]
  refine ⟨⟨run, result, now, offered, rfl⟩, fun stored => ?_⟩
  exact Anywhere.ite ((anywhere_notify _).bind fun _ =>
    (anywhere_markQueueCompleted workerId).bind fun _ => anywhere_requireRun)
    anywhere_requireRun _

/-- The success path stores what the agent has returned and the check has let pass. -/
theorem completeRun_follows {trail : Trail} {output : Json} (returned : trail.returned = some output)
    (checked : trail.checked = some output) :
    protocol.Follows trail (completeRun workerId output) fun _ _ => True := by
  unfold completeRun
  rw [follows_requireRun]
  refine ⟨trivial, fun run => ?_⟩
  rw [follows_utcNow]
  refine ⟨trivial, fun now => ?_⟩
  unfold updateOwned
  rw [follows_updateIfCurrent]
  refine ⟨⟨run, output, now, returned, checked, rfl⟩, fun stored => ?_⟩
  exact Anywhere.ite ((anywhere_prepareForRun _).bind fun _ =>
    (anywhere_markQueueCompleted workerId).bind fun _ => anywhere_requireRun)
    anywhere_requireRun _

theorem anywhere_finishRun (run : AgentRun) : Anywhere (finishRun workerId run) := by
  refine anywhere_utcNow.bind fun now => ?_
  refine (anywhere_updateOwned workerId fun _ => rfl).bind fun stored => ?_
  split
  · refine (anywhere_external rfl).bind fun _ => (anywhere_notify _).bind fun notified => ?_
    split
    · exact (anywhere_markQueueDead workerId _).bind fun _ => anywhere_requireRun
    · exact (anywhere_markQueueCompleted workerId).bind fun _ => anywhere_requireRun
  · exact anywhere_requireRun

theorem runAgent_follows {trail : Trail} (agent : AgentSpec) (run : AgentRun) :
    protocol.Follows trail (runAgent process agent run) fun outcome after =>
      ∀ output, outcome = .ok output →
        after.returned = some output ∧ after.checked = some output := by
  unfold runAgent
  rw [follows_perform]
  refine ⟨trivial, fun signal => ?_⟩
  rw [follows_perform]
  refine ⟨trivial, fun context => ?_⟩
  rw [follows_external]
  refine ⟨trivial, fun answer => ?_⟩
  cases answer with
  | error error => exact nofun
  | ok output =>
      simp only [Protocol.continued]
      rw [follows_external]
      refine ⟨trivial, fun passed => ?_⟩
      cases passed with
      | error error => exact nofun
      | ok _ =>
          intro same equal
          cases equal
          exact ⟨rfl, rfl⟩

theorem tryErrorHandler_follows {trail : Trail} (error : Exc) (run : AgentRun) :
    protocol.Follows trail (tryErrorHandler error run) fun outcome after =>
      ∀ result, outcome = .ok (some result) → after.offered = some result := by
  unfold tryErrorHandler
  cases handlerKind error with
  | none => exact nofun
  | some kind =>
      simp only
      rw [follows_external_last]
      refine ⟨trivial, fun answer result same => ?_⟩
      cases same
      rfl

theorem anywhere_backOff (agent : AgentSpec) (attempt attempts : Nat) :
    Anywhere (backOff agent attempt attempts) :=
  Anywhere.ite (anywhere_external rfl) (anywhere_pure _)

theorem anywhere_attemptFrom (agent : AgentSpec) (cancelEvent attempts timeout remaining : Nat)
    (run : AgentRun) : Anywhere
      (attemptFrom process workerId agent cancelEvent attempts timeout remaining run) := by
  induction remaining generalizing run with
  | zero => exact anywhere_finishRun workerId run
  | succ remaining ih =>
      unfold attemptFrom
      refine anywhere_requireRun.bind fun fresh => (anywhere_perform rfl).bind fun canceled => ?_
      split
      · exact anywhere_pure _
      · refine anywhere_utcNow.bind fun now =>
          (anywhere_updateOwned workerId fun _ => rfl).bind fun stored => ?_
        split
        · exact anywhere_requireRun
        · refine (anywhere_external rfl).bind fun _ trail => ?_
          rw [follows_attempt_next]
          apply (runAgent_follows process agent _).mono
          intro outcome after produced
          cases outcome with
          | ok output =>
              obtain ⟨returned, checked⟩ := produced output rfl
              exact completeRun_follows workerId returned checked
          | error error =>
              dsimp only
              split
              · exact anywhere_requireRun after
              · split
                · exact anywhere_raise error after
                · apply (tryErrorHandler_follows error _).next
                  · intro recovery middle offered
                    cases recovery with
                    | some result =>
                        exact finalizeRunWithResult_follows workerId _ (offered result rfl)
                    | none =>
                        refine Anywhere.bind (anywhere_updateOwned workerId fun _ => rfl)
                          (fun recorded => ?_) middle
                        exact anywhere_requireRun.ite ((anywhere_finishRun workerId _).ite
                          ((anywhere_backOff agent _ _).bind fun _ => ih _))
                  · exact fun _ _ _ => trivial

theorem anywhere_execute (agentName agentVersion : String) :
    Anywhere (execute process workerId agentName agentVersion) :=
  anywhere_requireRun.bind fun run => (anywhere_external rfl).bind fun agent =>
    (anywhere_perform rfl).bind fun cancelEvent =>
      (anywhere_attemptFrom process workerId agent cancelEvent _ _ _ run).finallyDo
        (anywhere_perform rfl)

theorem anywhere_runNow : Anywhere (RunManager.runNow process workerId) := by
  refine anywhere_requireRun.bind fun run => ?_
  split
  · exact anywhere_pure _
  · exact (anywhere_external rfl).bind fun agent => (anywhere_external rfl).bind fun _ =>
      anywhere_execute process workerId _ _

theorem anywhere_runBackground : Anywhere (RunManager.runBackground process workerId) := by
  refine (anywhere_runNow process workerId).attempt.bind fun outcome => ?_
  cases outcome with
  | ok run => exact anywhere_pure _
  | error error =>
      dsimp only
      split
      · exact anywhere_requireRun.bind fun _ => (anywhere_updateIfCurrent rfl).bind fun _ =>
          anywhere_pure _
      · exact anywhere_raise error

end Execution

section Dispatching

variable (settings : Settings)

structure Carries (trail : Trail) (delivery : CallbackDelivery) (body : CallbackPayload) : Prop where
  frozen : ∀ frozen, delivery.payload = some frozen → body = frozen
  fresh : delivery.payload = none → ∃ run, trail.read = some run ∧ Describes body run

theorem Carries.later {trail after : Trail} {delivery next : CallbackDelivery}
    {body : CallbackPayload} (carries : Carries trail delivery body)
    (payload : next.payload = delivery.payload) (read : after.read = trail.read) :
    Carries after next body where
  frozen frozen same := carries.frozen frozen (payload ▸ same)
  fresh missing := read ▸ carries.fresh (payload ▸ missing)

/-- A post comes right after the check of its URL. -/
theorem postOnce_follows {trail : Trail} {delivery : CallbackDelivery} {body : CallbackPayload}
    (carries : Carries trail delivery body) :
    protocol.Follows trail (postOnce delivery body) fun _ after => after.read = trail.read := by
  unfold postOnce
  rw [follows_external]
  refine ⟨trivial, fun answer => ?_⟩
  cases answer with
  | error error => rfl
  | ok _ =>
      simp only [Protocol.continued]
      rw [follows_external_last]
      exact ⟨⟨rfl, carries.frozen, carries.fresh⟩, fun _ => rfl⟩

theorem recordFailure_follows {trail : Trail} (delivery : CallbackDelivery) (attempt : Nat)
    (error : Exc) : protocol.Follows trail (recordFailure settings delivery attempt error)
      fun outcome after => after.read = trail.read ∧
        ∀ failed, outcome = .ok failed → failed.payload = delivery.payload := by
  unfold recordFailure
  rw [follows_utcNow]
  refine ⟨trivial, fun now => ?_⟩
  rw [follows_perform]
  refine ⟨trivial, fun _ => ?_⟩
  have paused : protocol.Follows ((trail.after (.process .utcNow) now).after
      (.callback (.save (failedDelivery settings delivery attempt error now))) ())
      (pause settings attempt) fun _ after => after.read = trail.read := by
    unfold pause
    split
    · rw [follows_external_last]
      exact ⟨trivial, fun _ => rfl⟩
    · rfl
  apply paused.next
  · intro _ middle read
    refine ⟨read, fun failed same => ?_⟩
    cases same
    rfl
  · exact fun _ _ read => ⟨read, nofun⟩

theorem deliverFrom_follows {body : CallbackPayload} (remaining : Nat) (run : AgentRun)
    {delivery : CallbackDelivery} {trail : Trail} (carries : Carries trail delivery body) :
    protocol.Follows trail (deliverFrom settings body remaining run delivery)
      fun _ _ => True := by
  induction remaining generalizing run delivery trail with
  | zero =>
      exact ((anywhere_updateIfCurrent rfl).bind fun _ => (anywhere_perform rfl).bind fun _ =>
        (anywhere_external rfl).bind fun _ => anywhere_pure _) trail
  | succ remaining ih =>
      unfold deliverFrom
      rw [follows_attempt_next]
      apply (postOnce_follows carries).mono
      intro posted after read
      have again (next : CallbackDelivery) (same : next.payload = delivery.payload) (row : AgentRun)
          (attempt : Nat) (error : Exc) {middle : Trail} (kept : middle.read = trail.read) :
          protocol.Follows middle (recordFailure settings next attempt error >>= fun failed =>
            deliverFrom settings body remaining row failed : Coroutine CallbackDelivery)
            fun _ _ => True := by
        apply (recordFailure_follows settings next attempt error).next
        · rintro failed last ⟨still, payload⟩
          exact ih row (carries.later ((payload failed rfl).trans same) (still.trans kept))
        · exact fun _ _ _ => trivial
      cases posted with
      | error error =>
          dsimp only
          split
          · exact again delivery rfl run _ error read
          · exact anywhere_raise error after
      | ok _ =>
          dsimp only
          rw [follows_utcNow]
          refine ⟨trivial, fun now => ?_⟩
          rw [follows_perform]
          refine ⟨trivial, fun stored => ?_⟩
          have saved : protocol.Follows ((after.after (.process .utcNow) now).after
              (.run (.updateRunWithCallback .delivered { statuses := [run.status] }
                (settled run now)
                (deliveredDelivery delivery (settings.maxAttempts - remaining)))) stored)
              (saveUnless stored (deliveredDelivery delivery (settings.maxAttempts - remaining)))
              fun _ last => last.read = trail.read := by
            unfold saveUnless
            split
            · exact read
            · exact ⟨trivial, fun _ => read⟩
          apply saved.next
          · intro _ middle kept
            rw [follows_attempt_next, follows_external_last]
            refine ⟨trivial, fun ended => ?_⟩
            cases ended with
            | ok _ => trivial
            | error error =>
                dsimp only
                split
                · refine again _ ?_ _ _ error ?_
                  · rfl
                  · exact kept
                · exact anywhere_raise error _
          · exact fun _ _ _ => trivial

theorem anywhere_dispatchDelivery (delivery : CallbackDelivery) :
    Anywhere (dispatchDelivery settings delivery) := by
  intro trail
  unfold dispatchDelivery
  rw [follows_requireRun]
  refine ⟨trivial, fun run => ?_⟩
  have chosen : protocol.Follows (trail.after (.run .get) run) (bodyFor run delivery)
      fun outcome after => ∀ body, outcome = .ok body → Carries after delivery body := by
    unfold bodyFor
    cases payload : delivery.payload with
    | some frozen =>
        intro body same
        cases same
        refine ⟨fun other equal => ?_, fun missing => ?_⟩
        · rw [payload] at equal
          exact Option.some.inj equal
        · rw [payload] at missing
          cases missing
    | none =>
        apply (payload_follows run delivery.eventId).mono
        rintro outcome after ⟨body, rfl, describes, read⟩ other same
        cases same
        refine ⟨fun frozen equal => ?_, fun _ => ⟨run, read, describes⟩⟩
        rw [payload] at equal
        cases equal
  apply chosen.next
  · intro body middle carries
    rw [follows_external]
    refine ⟨trivial, fun answer => ?_⟩
    cases answer with
    | error error => trivial
    | ok _ =>
        exact deliverFrom_follows settings _ run (carries body rfl |>.later rfl rfl)
  · exact fun _ _ _ => trivial

theorem anywhere_dispatchForRun (run : AgentRun) : Anywhere (dispatchForRun settings run) := by
  refine (anywhere_prepareForRun run).bind fun prepared => ?_
  split
  · exact anywhere_pure _
  · exact (anywhere_dispatchDelivery settings _).bind fun _ => anywhere_pure _

theorem anywhere_resendCallback : Anywhere (RunManager.resendCallback settings) := by
  refine anywhere_requireRun.bind fun run => Anywhere.bind ?_ fun _ => anywhere_pure _
  unfold resend
  split
  · exact anywhere_dispatchForRun settings run
  · refine (anywhere_perform rfl).bind fun existing => ?_
    split
    · exact anywhere_dispatchForRun settings run
    · exact anywhere_utcNow.bind fun now => (anywhere_perform rfl).bind fun _ =>
        anywhere_dispatchForRun settings run

end Dispatching

section Companion

theorem dispatches_unwatched {op : External} (free : ExecutionProtocol.External.dispatches op = false) :
    watched (.external op) = false := by
  cases op <;> first | rfl | cases free

def plain : Phase → Prop
  | .execution _ _ _ => False
  | .manager _ job _ => ¬ job.notifies
  | _ => True

theorem plain_after (phase : Phase) (op : Op) (answer : op.Answer) (own : plain phase) :
    plain (phase.after op answer) := by
  cases phase with
  | execution process worker progress => exact own
  | manager process job progress => exact own
  | _ => trivial

theorem plain_unwatched {digest : Digest} (phase : Phase) (op : Op) (own : plain phase)
    (permitted : phase.permits digest op) : watched op = false := by
  cases phase with
  | execution process worker progress => exact own.elim
  | tool context progress =>
      cases permitted with
      | external op free => exact dispatches_unwatched free
      | _ => rfl
  | stage index context stageKey progress =>
      cases permitted with
      | external op free => exact dispatches_unwatched free
      | _ => rfl
  | checkpoint index context stageKey progress =>
      cases permitted with
      | external op free => exact dispatches_unwatched free
      | _ => rfl
  | manager process job progress =>
      cases permitted with
      | external op free _ => exact dispatches_unwatched free
      | prepareCallback _ _ _ notifies _ _ _ _ _ => exact absurd notifies own
      | post _ dispatches _ _ _ =>
          exact absurd (ManagerProtocol.Job.dispatches_notifies dispatches) own
      | _ => rfl

theorem start_anywhere {deployment : Deployment} {config : PlatformConfig} {entry : Entry}
    {state : State} {thread : Activity}
    (started : entry.start deployment config = some (state, some thread)) :
    Anywhere thread.program := by
  cases entry with
  | dispatchReady process leaseSeconds =>
      simp only [Entry.start] at started
      split at started
      · cases started
      · cases started
        exact anywhere_runBackground process (some process)
  | runBackground process =>
      simp only [Entry.start] at started
      split at started
      · cases started
      · cases started
        exact anywhere_runBackground process none
  | runNow process =>
      cases started
      exact (anywhere_runNow process none).bind fun _ => anywhere_pure _
  | resendCallback process =>
      cases started
      exact anywhere_resendCallback deployment.callbacks
  | dispatchDelivery index =>
      simp only [Entry.start] at started
      split at started
      · cases started
      · cases started
        exact (anywhere_dispatchDelivery deployment.callbacks _).bind fun _ => anywhere_pure _
  | prepareForRun process =>
      cases started
      exact anywhere_requireRun.bind fun run =>
        (anywhere_prepareForRun run).bind fun _ => anywhere_pure _
  | _ =>
      obtain ⟨phase, start, _, follows⟩ := Entry.start_phase started
      have own : plain phase := by
        cases phase with
        | execution process worker progress => simp [Entry.phase] at start
        | manager process job progress =>
            simp only [Entry.phase, Option.map_eq_some_iff] at start
            grind [plain, ManagerProtocol.Job.notifies]
        | _ => trivial
      exact fun _ => follows.covered plain plain_after (fun phase op safe permitted _ =>
        permits_unwatched (plain_unwatched phase op safe permitted)) own

variable (deployment : Deployment) (admitted : Entry → Bool)

def companion : Companion (platformSystem deployment admitted) Trail where
  protocol := protocol
  start _ _ := {}
  concludes _ _ := True
  launched _ _ _ _ launched := start_anywhere (launch_start launched).2.2 {}

end Companion

end AgentTaskPlatform.Trails
