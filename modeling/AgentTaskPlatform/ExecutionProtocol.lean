import AgentTaskPlatform.CoroutineRules
import AgentTaskPlatform.Platform

/-!
The protocol of one execution: what `run_now` and `execute` may do next, given
the steps they have committed and the row they read last. The programs are
walked once, here; results about executions argue over `Permitted`.
-/

namespace AgentTaskPlatform.ExecutionProtocol

open Interleaving CallbackService RunExecutor

/-- The last step of the execution that reached the database, with the run
object it wrote. -/
inductive Step where
  | opening
  | running (attempt : Nat) (run : AgentRun)
  | failed (attempt attempts : Nat) (error : Exc) (run : AgentRun)
  | succeeded (run : AgentRun)
  | recovered (run : AgentRun)
  | ended (run : AgentRun)
  | settled
  | closed

structure Progress where
  step : Step
  /-- The row as read since the execution was suspended last. -/
  seen : Option AgentRun := none
  /-- The delivery row as looked up last, with its event id. -/
  delivery : Option (Uuid × Option CallbackDelivery) := none
  /-- The identifier drawn last. -/
  issued : Option Uuid := none
  /-- Since its last update the execution has seen a call raise, -/
  raised : Bool := false
  /-- its cancellation event set, -/
  stopped : Bool := false
  /-- and the row without worker and lease. -/
  free : Bool := false

def Step.after : Step → Site → AgentRun → Bool → Step
  | _, .attemptStart attempt, row, true => .running attempt row
  | _, .agentSucceeded, row, true => .succeeded row
  | _, .attemptFailed attempt attempts error, row, true => .failed attempt attempts error row
  | _, .recovered, row, true => .recovered row
  | _, .finish, row, true => .ended row
  | _, .skipCallback, _, _ => .settled
  | _, .prepareCallback, _, _ => .settled
  | _, _, _, _ => .closed

/-- A read row is stale once the coroutine may have been suspended. -/
def Progress.called (progress : Progress) (op : External) : Progress :=
  { progress with seen := if op.awaits then none else progress.seen }

def Progress.after (progress : Progress) : (op : Op) → op.Answer → Progress
  | .run .get, run =>
      { progress with
        seen := some run
        free := progress.free || run.worker.isNone && run.leaseExpireTime.isNone }
  | .run (.updateIfCurrent site _ row), stored =>
      { progress with
        step := progress.step.after site row stored
        raised := false
        stopped := false
        free := false }
  | .run (.updateRunWithCallback site _ row _), stored =>
      { progress with
        step := progress.step.after site row stored
        free := false }
  | .callback (.get eventId), delivery => { progress with delivery := some (eventId, delivery) }
  | .process .uuid4, id => { progress with issued := some id }
  | .process (.isSet _), set => { progress with stopped := progress.stopped || set }
  | .external op, answer =>
      { progress.called op with raised := progress.raised || !answer.isOk }
  | _, _ => progress

def retries (attempt attempts : Nat) (error : Exc) : Prop :=
  attempt < attempts ∧ (classify attempt attempts error).2.isRetryable = true

def Step.mayStart : Step → Nat → Prop
  | .opening, _ => True
  | .failed last attempts error _, attempt => retries last attempts error ∧ attempt = last + 1
  | _, _ => False

def Progress.finishes (progress : Progress) (run : AgentRun) : Prop :=
  match progress.step with
  | .opening => progress.seen = some run
  | .failed attempt attempts error last => ¬ retries attempt attempts error ∧ run = last
  | _ => False

def Step.prepares : Step → AgentRun → Prop
  | .succeeded run, handed => handed = run
  | .recovered run, handed => handed = run ∧ run.callbackUrl.isSome = true
  | .ended run, handed => handed = run ∧ run.callbackUrl.isSome = true
  | _, _ => False

def Step.releases : Step → Prop
  | .recovered run => run.callbackUrl.isSome = false
  | .ended run => run.callbackUrl.isSome = false
  | .settled => True
  | _ => False

def Step.mayBreak : Step → Prop
  | .opening => True
  | .running _ _ => True
  | .failed _ _ _ _ => True
  | .ended _ => True
  | _ => False

def Step.quiet : Step → Prop
  | .opening => True
  | .closed => True
  | _ => False

theorem Step.quiet_prepares {step : Step} {run : AgentRun} (quiet : step.quiet) :
    ¬ step.prepares run := by
  cases step <;> simp_all [Step.quiet, Step.prepares]

theorem Step.quiet_releases {step : Step} (quiet : step.quiet) : ¬ step.releases := by
  cases step <;> simp_all [Step.quiet, Step.releases]

/-- Outside the callback preparation an update that misses ends the execution. -/
theorem Step.after_missed {step : Step} {site : Site} {row : AgentRun}
    (skip : site ≠ .skipCallback) (prepare : site ≠ .prepareCallback) :
    step.after site row false = .closed := by
  cases site <;> simp_all [Step.after]

/-- External calls that run tools or stage operations or post a delivery. -/
def External.dispatches : External → Bool
  | .invoke _ _ _ => true
  | .operation _ _ => true
  | .post _ _ => true
  | _ => false

section

variable (process : Process) (worker : Option Process)

def owned (statuses : List RunStatus) : Expected := { statuses := statuses, worker := some worker }

inductive Permitted : Progress → Op → Prop
  | read {progress} : Permitted progress (.run .get)
  | utcNow {progress} : Permitted progress (.process .utcNow)
  | uuid4 {progress} : Permitted progress (.process .uuid4)
  | conversation {progress} : Permitted progress (.process .conversation)
  | registerEvent {progress} : Permitted progress (.process (.registerEvent process))
  | dropEvent {progress} (event) : Permitted progress (.process (.dropEvent process event))
  | signal {progress} : Permitted progress (.process (.cancellationSignal process))
  | isSet {progress} (event) : Permitted progress (.process (.isSet event))
  | lookUp {progress} {run} (eventId) : progress.step.prepares run →
      Permitted progress (.callback (.get eventId))
  | external {progress} (op) : External.dispatches op = false → progress.step.mayBreak →
      Permitted progress (.external op)
  | createContext {progress} {attempt run} (agent signal) :
      progress.step = .running attempt run →
      Permitted progress (.process (.createContext ⟨process, run, agent, signal, []⟩))
  | attemptStart {progress} {run} (attempt now) :
      progress.seen = some run → run.status ≠ .canceled → progress.step.mayStart attempt →
      0 < attempt →
      Permitted progress (.run (.updateIfCurrent (.attemptStart attempt)
        (owned worker [run.status]) (startedRun run attempt now)))
  | agentSucceeded {progress} {attempt run fresh} (output now) :
      progress.step = .running attempt run → progress.seen = some fresh →
      Permitted progress (.run (.updateIfCurrent .agentSucceeded
        (owned worker executingRunStatuses) (succeededRun fresh output now)))
  | attemptFailed {progress} {attempt run} (attempts timeout error) :
      progress.step = .running attempt run → attempt ≤ attempts →
      Permitted progress (.run (.updateIfCurrent (.attemptFailed attempt attempts error)
        (owned worker executingRunStatuses) (failedRun run attempt attempts timeout error)))
  | recovered {progress} {attempt run} (attempts timeout error result now) :
      progress.step = .running attempt run →
      Permitted progress (.run (.updateIfCurrent .recovered
        (owned worker executingRunStatuses)
        (recoveredRun (failedRun run attempt attempts timeout error) result now)))
  | finish {progress} {run} (now) : progress.finishes run →
      Permitted progress (.run (.updateIfCurrent .finish (owned worker [run.status])
        (finishedRun run now)))
  | skipCallback {progress} {run} : progress.step.prepares run →
      CallbackService.subscribes run = false →
      Permitted progress (.run (.updateIfCurrent .skipCallback (owned run.worker [run.status])
        (skipped run)))
  | prepareCallback {progress} {run eventId existing} (url body now) :
      progress.step.prepares run → CallbackService.subscribes run = true →
      progress.delivery = some (eventId, existing) →
      run.callbackEventId.or progress.issued = some eventId → tells body run →
      progress.raised = false →
      Permitted progress (.run (.updateRunWithCallback .prepareCallback
        (owned run.worker [run.status]) (announced run eventId)
        (deliveryFor existing eventId url body now)))
  | release {progress} {run} : progress.seen = some run → progress.step.releases →
      Permitted progress (.run (.updateIfCurrent .release (owned worker [run.status])
        (releasedRun run)))
  | deadLetter {progress} {run} (reason) : progress.seen = some run → progress.step.releases →
      Permitted progress (.run (.updateIfCurrent .deadLetter (owned worker [run.status])
        (deadRun run reason)))
  | backgroundFailure {progress} {run} (error) : progress.seen = some run →
      progress.step.mayBreak → progress.raised = true →
      Permitted progress (.run (.updateIfCurrent .backgroundFailure
        (owned worker (executingRunStatuses ++ [.queued])) (RunManager.brokenRun run error)))

def protocol : Protocol platform Progress where
  permits := Permitted process worker
  after := Progress.after

end

/-- An execution that leaves the attempt loop early has a reason, and one that has
stored an outcome has announced it and found its row released. -/
def Progress.rests (progress : Progress) : Prop :=
  match progress.step with
  | .opening =>
      (∃ run, progress.seen = some run ∧ run.status.terminal = true) ∨ progress.stopped = true
  | .running _ _ => progress.raised = true
  | .failed _ _ _ _ =>
      (∃ run, progress.seen = some run ∧ run.status = .canceled) ∨ progress.stopped = true
  | .succeeded _ => False
  | .recovered run => run.callbackUrl.isSome = false ∧ progress.free = true
  | .ended run => run.callbackUrl.isSome = false ∧ progress.free = true
  | .settled => progress.free = true
  | .closed => True

def Ends {α : Type} : Except Exc α → Progress → Prop
  | .ok _, progress => progress.rests
  | .error _, progress => progress.step.mayBreak ∧ progress.raised = true

open CoroutineRules

section Walk

variable {process : Process} {worker : Option Process} {progress : Progress}

theorem requireRun_follows :
    (protocol process worker).Follows progress Coroutine.requireRun fun outcome after =>
      ∃ run, outcome = .ok run ∧ after = progress.after (.run .get) run := by
  rw [follows_requireRun_last]
  exact ⟨.read, fun run => ⟨run, rfl, rfl⟩⟩

theorem payload_follows (run : AgentRun) (eventId : Uuid) :
    (protocol process worker).Follows progress (payload run eventId) fun outcome after =>
      ∃ body, outcome = .ok body ∧ tells body run ∧ after = progress := by
  unfold payload
  rw [follows_perform]
  refine ⟨.conversation, fun conversation => ?_⟩
  unfold finishedAt
  cases run.finishTime with
  | some time => exact ⟨_, rfl, ⟨rfl, rfl⟩, rfl⟩
  | none =>
      rw [follows_utcNow]
      exact ⟨.utcNow, fun now => ⟨_, rfl, ⟨rfl, rfl⟩, rfl⟩⟩

theorem skipCallback_follows {run : AgentRun} (prepares : progress.step.prepares run)
    (declined : subscribes run = false) :
    (protocol process worker).Follows progress (skipCallback run) fun outcome after =>
      outcome = .ok (skipped run) ∧ after.step = .settled := by
  unfold skipCallback
  rw [follows_updateIfCurrent]
  exact ⟨.skipCallback prepares declined, fun stored => ⟨rfl, by cases stored <;> rfl⟩⟩

/-- `prepare_for_run` leaves nothing to announce, whatever it stored. -/
theorem prepareForRun_follows {run : AgentRun} (prepares : progress.step.prepares run)
    (unraised : progress.raised = false) :
    (protocol process worker).Follows progress (prepareForRun run) fun outcome after =>
      ∃ prepared, outcome = .ok prepared ∧ after.step = .settled := by
  unfold prepareForRun
  cases url : run.callbackUrl with
  | none =>
      have declined : subscribes run = false := by simp [subscribes, url]
      apply (skipCallback_follows prepares declined).next
      · intro row after skipped
        exact ⟨_, rfl, skipped.2⟩
      · intro error after skipped
        cases skipped.1
  | some target =>
      simp only
      split
      · next asked =>
          have subscribed : subscribes run = true := by
            rw [subscribes, url, asked]
            rfl
          have drawn : (protocol process worker).Follows progress (eventIdFor run)
              fun outcome after => ∃ eventId, outcome = .ok eventId ∧
                after.step = progress.step ∧
                run.callbackEventId.or after.issued = some eventId ∧
                after.raised = progress.raised := by
            unfold eventIdFor
            cases known : run.callbackEventId with
            | some eventId => exact ⟨eventId, rfl, rfl, rfl, rfl⟩
            | none =>
                rw [follows_uuid4_last]
                exact ⟨.uuid4, fun eventId => ⟨eventId, rfl, rfl, rfl, rfl⟩⟩
          apply drawn.next
          · intro eventId issuing found
            obtain ⟨_, same, kept, named, calm⟩ := found
            cases same
            apply (payload_follows _ _).next
            · intro body middle built
              obtain ⟨_, made, told, rfl⟩ := built
              cases made
              have handed : middle.step.prepares run := kept ▸ prepares
              rw [follows_perform]
              refine ⟨.lookUp eventId handed, fun existing => ?_⟩
              rw [follows_utcNow]
              refine ⟨.utcNow, fun now => ?_⟩
              rw [follows_perform]
              exact ⟨.prepareCallback target body now handed subscribed rfl named told
                (calm.trans unraised), fun stored => ⟨_, rfl, by cases stored <;> rfl⟩⟩
            · intro error middle built
              obtain ⟨_, same, _⟩ := built
              cases same
          · intro error middle found
            obtain ⟨_, same, _⟩ := found
            cases same
      · next unasked =>
          have declined : subscribes run = false := by
            simpa [subscribes, url] using unasked
          apply (skipCallback_follows prepares declined).next
          · intro row after skipped
            exact ⟨_, rfl, skipped.2⟩
          · intro error after skipped
            cases skipped.1

def Progress.released (progress : Progress) : Prop :=
  progress.step = .closed ∨ (progress.step.releases ∧ progress.free = true)

theorem Progress.released_rests {progress : Progress} (released : progress.released) :
    progress.rests := by
  unfold Progress.rests
  rcases released with closed | ⟨releases, free⟩
  · rw [closed]
    trivial
  · unfold Step.releases at releases
    split at releases
    · next step =>
        rw [step]
        exact ⟨releases, free⟩
    · next step =>
        rw [step]
        exact ⟨releases, free⟩
    · next step =>
        rw [step]
        exact free
    · exact releases.elim

theorem markQueueCompleted_follows (releases : progress.step.releases) :
    (protocol process worker).Follows progress (markQueueCompleted worker) fun outcome after =>
      outcome = .ok () ∧ after.released := by
  unfold markQueueCompleted
  rw [follows_requireRun]
  refine ⟨.read, fun run => ?_⟩
  split
  · next free =>
      refine ⟨rfl, Or.inr ⟨releases, ?_⟩⟩
      show (progress.free || run.worker.isNone && run.leaseExpireTime.isNone) = true
      rw [free]
      exact Bool.or_true _
  · unfold updateOwned
    rw [follows_updateIfCurrent]
    exact ⟨.release rfl releases, fun stored => ⟨rfl, Or.inl rfl⟩⟩

theorem markQueueDead_follows (reason : String) (releases : progress.step.releases) :
    (protocol process worker).Follows progress (markQueueDead worker reason) fun outcome after =>
      outcome = .ok () ∧ after.released := by
  unfold markQueueDead
  rw [follows_requireRun]
  refine ⟨.read, fun run => ?_⟩
  unfold updateOwned
  rw [follows_updateIfCurrent]
  exact ⟨.deadLetter reason rfl releases, fun stored => ⟨rfl, Or.inl rfl⟩⟩

theorem notify_follows {run : AgentRun}
    (step : progress.step = .recovered run ∨ progress.step = .ended run)
    (unraised : progress.raised = false) :
    (protocol process worker).Follows progress (notify run) fun outcome after =>
      ∃ prepared, outcome = .ok prepared ∧ after.step.releases := by
  unfold notify
  split
  · next url =>
      have prepares : progress.step.prepares run := by
        rcases step with same | same <;> rw [same] <;> exact ⟨rfl, url⟩
      apply (prepareForRun_follows prepares unraised).next
      · intro prepared after found
        refine ⟨_, rfl, ?_⟩
        rw [found.choose_spec.2]
        trivial
      · intro error after found
        cases found.choose_spec.1
  · next missing =>
      refine ⟨_, rfl, ?_⟩
      rcases step with same | same <;> rw [same] <;> simpa [Step.releases] using missing

theorem lastRead_follows (rests : ∀ run, (progress.after (.run .get) run).rests) :
    (protocol process worker).Follows progress Coroutine.requireRun Ends := by
  apply requireRun_follows.mono
  rintro outcome after ⟨run, rfl, rfl⟩
  exact rests run

theorem release_follows {release : Coroutine Unit}
    (released : (protocol process worker).Follows progress release fun outcome after =>
      outcome = .ok () ∧ after.released) :
    (protocol process worker).Follows progress
      (release >>= fun _ => Coroutine.requireRun : Coroutine AgentRun) Ends := by
  apply released.next
  · rintro _ after ⟨_, released⟩
    apply lastRead_follows
    intro run
    apply Progress.released_rests
    rcases released with closed | ⟨releases, free⟩
    · exact Or.inl closed
    · refine Or.inr ⟨releases, ?_⟩
      show (after.free || _) = true
      rw [free]
      exact Bool.true_or _
  · rintro error after ⟨same, _⟩
    cases same

theorem finalizeRunWithResult_follows {attempt : Nat} {run : AgentRun} (attempts timeout : Nat)
    (error : Exc) (result : RunErrorResult) (step : progress.step = .running attempt run) :
    (protocol process worker).Follows progress
      (finalizeRunWithResult worker (failedRun run attempt attempts timeout error) result)
      Ends := by
  unfold finalizeRunWithResult
  rw [follows_utcNow]
  refine ⟨.utcNow, fun now => ?_⟩
  unfold updateOwned
  rw [follows_updateIfCurrent]
  refine ⟨.recovered attempts timeout error result now step, fun stored => ?_⟩
  cases stored with
  | false => exact lastRead_follows fun _ => trivial
  | true =>
      apply (notify_follows (Or.inl rfl) rfl).next
      · intro prepared after found
        exact release_follows (markQueueCompleted_follows found.choose_spec.2)
      · intro error after found
        cases found.choose_spec.1

theorem completeRun_follows {attempt : Nat} {run : AgentRun} (output : Json)
    (step : progress.step = .running attempt run) :
    (protocol process worker).Follows progress (completeRun worker output) Ends := by
  unfold completeRun
  rw [follows_requireRun]
  refine ⟨.read, fun fresh => ?_⟩
  rw [follows_utcNow]
  refine ⟨.utcNow, fun now => ?_⟩
  unfold updateOwned
  rw [follows_updateIfCurrent]
  refine ⟨.agentSucceeded output now step rfl, fun stored => ?_⟩
  cases stored with
  | false => exact lastRead_follows fun _ => trivial
  | true =>
      have prepares : (Step.succeeded (succeededRun fresh output now)).prepares
          (succeededRun fresh output now) := rfl
      apply Protocol.Follows.next (prepareForRun_follows prepares rfl)
      · intro prepared after found
        apply release_follows
        apply markQueueCompleted_follows
        rw [found.choose_spec.2]
        trivial
      · intro error after found
        cases found.choose_spec.1

theorem finishRun_follows {run : AgentRun} (finishes : progress.finishes run) :
    (protocol process worker).Follows progress (finishRun worker run) Ends := by
  unfold finishRun
  rw [follows_utcNow]
  refine ⟨.utcNow, fun now => ?_⟩
  unfold updateOwned
  rw [follows_updateIfCurrent]
  refine ⟨.finish now finishes, fun stored => ?_⟩
  cases stored with
  | false => exact lastRead_follows fun _ => trivial
  | true =>
      simp only [if_true]
      rw [follows_external]
      refine ⟨.external _ rfl trivial, fun answer => ?_⟩
      cases answer with
      | error error => exact ⟨trivial, rfl⟩
      | ok _ =>
          apply Protocol.Follows.next (notify_follows (Or.inr rfl) rfl)
          · intro notified after found
            split
            · exact release_follows (markQueueDead_follows _ found.choose_spec.2)
            · exact release_follows (markQueueCompleted_follows found.choose_spec.2)
          · intro error after found
            cases found.choose_spec.1

theorem mayBreak_running {attempt : Nat} {run : AgentRun}
    (step : progress.step = .running attempt run) : progress.step.mayBreak := by
  rw [step]
  trivial

theorem mayBreak_failed {attempt attempts : Nat} {error : Exc} {run : AgentRun}
    (step : progress.step = .failed attempt attempts error run) : progress.step.mayBreak := by
  rw [step]
  trivial

theorem mayBreak_opening (step : progress.step = .opening) : progress.step.mayBreak := by
  rw [step]
  trivial

theorem raised_after (op : External) (error : Exc) :
    (progress.after (.external op) (.error error)).raised = true := by
  show (progress.raised || true) = true
  exact Bool.or_true _

/-- A call keeps the step; if it raises, an exception may leave the execution. -/
theorem external_follows {op : External} (silent : External.dispatches op = false)
    (mayBreak : progress.step.mayBreak) :
    (protocol process worker).Follows progress (Coroutine.external op) fun outcome after =>
      after.step = progress.step ∧ ∀ error, outcome = .error error → after.raised = true := by
  rw [follows_external_last]
  refine ⟨.external op silent mayBreak, fun answer => ⟨rfl, ?_⟩⟩
  rintro error rfl
  exact raised_after op error

theorem runAgent_follows {attempt : Nat} {run : AgentRun} (agent : AgentSpec)
    (step : progress.step = .running attempt run) :
    (protocol process worker).Follows progress (runAgent process agent run) fun outcome after =>
      after.step = .running attempt run ∧
        ∀ error, outcome = .error error → after.raised = true := by
  unfold runAgent
  rw [follows_perform]
  refine ⟨.signal, fun signal => ?_⟩
  rw [follows_perform]
  refine ⟨.createContext agent signal step, fun context => ?_⟩
  apply (external_follows rfl (mayBreak_running step)).next
  · rintro output after ⟨kept, _⟩
    have still : after.step = .running attempt run := kept.trans step
    apply (external_follows rfl (mayBreak_running still)).next
    · rintro _ last ⟨kept, _⟩
      exact ⟨kept.trans still, nofun⟩
    · rintro error last ⟨kept, raised⟩
      exact ⟨kept.trans still, fun _ _ => raised error rfl⟩
  · rintro error after ⟨kept, raised⟩
    exact ⟨kept.trans step, fun _ _ => raised error rfl⟩

theorem tryErrorHandler_follows (error : Exc) (run : AgentRun) (mayBreak : progress.step.mayBreak) :
    (protocol process worker).Follows progress (tryErrorHandler error run) fun outcome after =>
      after.step = progress.step ∧ ∀ error, outcome = .error error → after.raised = true := by
  unfold tryErrorHandler
  cases handlerKind error with
  | none => exact ⟨rfl, nofun⟩
  | some kind => exact external_follows rfl mayBreak

theorem backOff_follows (agent : AgentSpec) (attempt attempts : Nat)
    (mayBreak : progress.step.mayBreak) :
    (protocol process worker).Follows progress (backOff agent attempt attempts) fun outcome after =>
      after.step = progress.step ∧ ∀ error, outcome = .error error → after.raised = true := by
  unfold backOff
  split
  · exact external_follows rfl mayBreak
  · exact ⟨rfl, nofun⟩

/-- The loop is about to take the first of the remaining attempts, with the run
object it would finish with if none remained. -/
inductive Ready (attempts : Nat) : Nat → AgentRun → Progress → Prop
  | opening {remaining run progress} : progress.step = .opening → progress.seen = some run →
      remaining ≤ attempts → Ready attempts remaining run progress
  | failed {remaining run progress} {last error} :
      progress.step = .failed last attempts error run → last + remaining = attempts →
      0 < last → (classify last attempts error).2.isRetryable = true →
      Ready attempts remaining run progress

theorem Ready.finishes {attempts : Nat} {run : AgentRun}
    (ready : Ready attempts 0 run progress) : progress.finishes run := by
  unfold Progress.finishes
  cases ready with
  | opening step seen _ => rw [step]; exact seen
  | failed step total _ _ =>
      rw [step]
      refine ⟨?_, rfl⟩
      intro again
      have below := again.1
      omega

theorem Ready.mayStart {attempts remaining : Nat} {run : AgentRun}
    (ready : Ready attempts (remaining + 1) run progress) :
    progress.step.mayStart (attempts - remaining) ∧ 0 < attempts - remaining := by
  unfold Step.mayStart
  cases ready with
  | opening step _ bounded => rw [step]; exact ⟨trivial, by omega⟩
  | failed step total positive retryable =>
      rw [step]
      exact ⟨⟨⟨by omega, retryable⟩, by omega⟩, by omega⟩

/-- Before an attempt the loop ends when the row or the event says so. -/
theorem Ready.rests {attempts remaining : Nat} {run current : AgentRun} {set : Bool}
    (ready : Ready attempts remaining run progress) (event : Nat)
    (stops : current.status = .canceled ∨ set = true) :
    ((progress.after (.run .get) current).after (.process (.isSet event)) set).rests := by
  have stopped : set = true →
      ((progress.after (.run .get) current).after (.process (.isSet event)) set).stopped = true := by
    rintro rfl
    exact Bool.or_true _
  cases ready with
  | opening step _ _ =>
      have kept : ((progress.after (.run .get) current).after (.process (.isSet event)) set).step =
          .opening := step
      unfold Progress.rests
      rw [kept]
      exact stops.imp (fun canceled => ⟨current, rfl, by rw [canceled]; rfl⟩) stopped
  | failed step _ _ _ =>
      have kept : ((progress.after (.run .get) current).after (.process (.isSet event)) set).step =
          .failed _ attempts _ run := step
      unfold Progress.rests
      rw [kept]
      exact stops.imp (fun canceled => ⟨current, rfl, canceled⟩) stopped

theorem attemptFrom_follows (agent : AgentSpec) (cancelEvent attempts timeout remaining : Nat)
    {run : AgentRun} (ready : Ready attempts remaining run progress) :
    (protocol process worker).Follows progress
      (attemptFrom process worker agent cancelEvent attempts timeout remaining run) Ends := by
  induction remaining generalizing progress run with
  | zero => exact finishRun_follows ready.finishes
  | succ remaining ih =>
      obtain ⟨mayStart, positive⟩ := ready.mayStart
      unfold attemptFrom
      simp only
      rw [follows_requireRun]
      refine ⟨.read, fun current => ?_⟩
      rw [follows_perform]
      refine ⟨.isSet cancelEvent, fun canceled => ?_⟩
      split
      · next stops =>
          simp only [Bool.or_eq_true, decide_eq_true_eq] at stops
          exact ready.rests cancelEvent stops
      · next live =>
          have uncanceled : current.status ≠ .canceled := by
            intro same
            simp [same] at live
          rw [follows_utcNow]
          refine ⟨.utcNow, fun now => ?_⟩
          unfold updateOwned
          rw [follows_updateIfCurrent]
          refine ⟨.attemptStart _ now rfl uncanceled mayStart positive, fun stored => ?_⟩
          cases stored with
          | false => exact lastRead_follows fun _ => trivial
          | true =>
              simp only [Bool.not_true, Bool.false_eq_true, if_false]
              rw [follows_external]
              refine ⟨.external _ rfl trivial, fun answer => ?_⟩
              cases answer with
              | error error => exact ⟨trivial, rfl⟩
              | ok _ =>
                  simp only [Protocol.continued]
                  rw [follows_attempt_next]
                  apply Protocol.Follows.mono (runAgent_follows agent rfl)
                  rintro outcome after ⟨step, broken⟩
                  cases outcome with
                  | ok output => exact completeRun_follows output step
                  | error error =>
                      have raised : after.raised = true := broken error rfl
                      simp only
                      split
                      · apply lastRead_follows
                        intro run
                        have kept : (after.after (.run .get) run).step = .running _ _ := step
                        unfold Progress.rests
                        rw [kept]
                        exact raised
                      · split
                        · exact ⟨mayBreak_running step, raised⟩
                        · apply (tryErrorHandler_follows error _ (mayBreak_running step)).next
                          · rintro recovery handled ⟨kept, _⟩
                            have running := kept.trans step
                            cases recovery with
                            | some result =>
                                exact finalizeRunWithResult_follows attempts timeout error result
                                  running
                            | none =>
                                simp only
                                rw [follows_updateIfCurrent]
                                refine ⟨.attemptFailed attempts timeout error running (by omega),
                                  fun recorded => ?_⟩
                                cases recorded with
                                | false => exact lastRead_follows fun _ => trivial
                                | true =>
                                    simp only [Bool.not_true, Bool.false_eq_true, if_false]
                                    split
                                    · next final =>
                                        apply finishRun_follows
                                        refine ⟨?_, rfl⟩
                                        intro again
                                        rw [again.2] at final
                                        cases final
                                    · next retryable =>
                                        apply (backOff_follows agent _ _ (mayBreak_failed rfl)).next
                                        · rintro _ waited ⟨kept, _⟩
                                          apply ih
                                          exact .failed kept (by omega) positive
                                            (by simpa using retryable)
                                        · rintro error waited ⟨kept, broken⟩
                                          refine ⟨?_, broken error rfl⟩
                                          rw [kept]
                                          trivial
                          · rintro error handled ⟨kept, broken⟩
                            exact ⟨mayBreak_running (kept.trans step), broken error rfl⟩

theorem execute_follows (agentName agentVersion : String) (step : progress.step = .opening) :
    (protocol process worker).Follows progress (execute process worker agentName agentVersion)
      Ends := by
  unfold execute
  rw [follows_requireRun]
  refine ⟨.read, fun run => ?_⟩
  rw [follows_external]
  refine ⟨.external _ rfl (mayBreak_opening step), fun answer => ?_⟩
  cases answer with
  | error error => exact ⟨mayBreak_opening step, raised_after _ error⟩
  | ok agent =>
      simp only [Protocol.continued]
      rw [follows_perform]
      refine ⟨.registerEvent, fun cancelEvent => ?_⟩
      rw [follows_finallyDo]
      have loop : (protocol process worker).Follows
          ((progress.after (.run .get) run).after (.external (.getAgent agentName agentVersion))
            (.ok agent))
          (executeWithCancel process worker run agent cancelEvent) Ends :=
        attemptFrom_follows agent cancelEvent _ _ _ (.opening step rfl (Nat.sub_le _ _))
      apply Protocol.Follows.mono loop
      intro outcome after breaks
      rw [follows_perform]
      refine ⟨.dropEvent cancelEvent, fun _ => ?_⟩
      rw [Protocol.follows_ofExcept]
      cases outcome <;> exact breaks

theorem runNow_follows (step : progress.step = .opening) :
    (protocol process worker).Follows progress (RunManager.runNow process worker) Ends := by
  unfold RunManager.runNow
  rw [follows_requireRun]
  refine ⟨.read, fun run => ?_⟩
  split
  · next ended =>
      have kept : (progress.after (.run .get) run).step = .opening := step
      show (progress.after (.run .get) run).rests
      unfold Progress.rests
      rw [kept]
      exact Or.inl ⟨run, rfl, ended⟩
  · rw [follows_external]
    refine ⟨.external _ rfl (mayBreak_opening step), fun answer => ?_⟩
    cases answer with
    | error error => exact ⟨mayBreak_opening step, raised_after _ error⟩
    | ok agent =>
        simp only [Protocol.continued]
        rw [follows_external]
        refine ⟨.external _ rfl (mayBreak_opening step), fun answer => ?_⟩
        cases answer with
        | error error => exact ⟨mayBreak_opening step, raised_after _ error⟩
        | ok _ => exact execute_follows _ _ step

theorem runBackground_follows (step : progress.step = .opening) :
    (protocol process worker).Follows progress (RunManager.runBackground process worker) Ends := by
  unfold RunManager.runBackground
  rw [follows_attempt_next]
  apply (runNow_follows step).mono
  intro outcome after ends
  cases outcome with
  | ok _ => exact ends
  | error error =>
      simp only
      split
      · rw [follows_requireRun]
        refine ⟨.read, fun run => ?_⟩
        rw [follows_updateIfCurrent]
        exact ⟨.backgroundFailure error rfl ends.1 ends.2, fun _ => trivial⟩
      · exact ends

theorem directRun_follows (step : progress.step = .opening) :
    (protocol process worker).Follows progress
      (do
        let _ ← RunManager.runNow process worker
        return .null : Coroutine Json) Ends := by
  apply (runNow_follows step).next
  · intro _ _ ends
    exact ends
  · intro _ _ ends
    exact ends

end Walk

end AgentTaskPlatform.ExecutionProtocol
