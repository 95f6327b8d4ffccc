import AgentTaskPlatform.CallbackService
import AgentTaskPlatform.StatefulCalls

/-!
Batches of claimed deliveries and the two loops that poll for them. A delivery may raise at
every point of its dispatch; the batch is gathered without looking at exceptions, and of the
loops one guards the batch and the other does not.
-/

namespace AgentTaskPlatform.CallbackPolling

open CallbackService StatefulCalls

inductive WriteFault where
  | refused (error : Exc)
  | unacknowledged (error : Exc)

inductive Update where
  | applied
  | missed
  | failed (fault : WriteFault)

/-- What may go wrong in one attempt; all of it raises exceptions. -/
structure AttemptPoints where
  /-- The checks of the URL, the post and the acknowledgement. -/
  posted : Option Exc := none
  update : Update := .applied
  save : Option WriteFault := none
  log : Option Exc := none
  hook : Option Exc := none
  /-- The clock when the failure is recorded. -/
  now : Nat := 0
  failureSave : Option WriteFault := none
  failureLog : Option Exc := none

structure DispatchPoints where
  /-- `runs.get`, and whether there is such a run. -/
  run : Except Exc Bool := .ok true
  payload : Option Exc := none
  startHook : Option Exc := none
  attempt : Nat → AttemptPoints
  exhausted : Option Exc := none
  finalSave : Option WriteFault := none
  endHook : Option Exc := none

abbrev Step (α : Type) := Method Exc CallbackDelivery α

def save (fault : Option WriteFault) (delivery : CallbackDelivery) : Step Unit :=
  ExceptT.mk fun row => match fault with
    | none => (.ok (), delivery)
    | some (.refused error) => (.error error, row)
    | some (.unacknowledged error) => (.error error, delivery)

section Dispatch

variable (settings : Settings)

/-- The write of an acknowledged delivery; where the run has moved on it is saved alone. -/
def acknowledge (points : AttemptPoints) (delivery : CallbackDelivery) : Step Unit :=
  match points.update with
  | .applied => save none delivery
  -- `if not updated: self.store.callbacks.save(delivery)`
  | .missed => save points.save delivery
  | .failed fault => save (some fault) delivery

def deliverOnce (points : AttemptPoints) (delivery : CallbackDelivery) (attempt : Nat) :
    Step CallbackDelivery := do
  point points.posted
  acknowledge points (deliveredDelivery delivery attempt)
  point points.log
  point points.hook
  return deliveredDelivery delivery attempt

def leftObject (points : AttemptPoints) (delivery : CallbackDelivery) (attempt : Nat) :
    CallbackDelivery :=
  match points.posted with
  -- The object is changed only after the post was acknowledged.
  | some _ => delivery
  | none => deliveredDelivery delivery attempt

def recordFailure (points : AttemptPoints) (delivery : CallbackDelivery) (attempt : Nat)
    (error : Exc) : Step CallbackDelivery := do
  let failed := failedDelivery settings delivery attempt error points.now
  save points.failureSave failed
  point points.failureLog
  return failed

def released (delivery : CallbackDelivery) : CallbackDelivery :=
  { delivery with worker := none, leaseExpireTime := none }

def deliverFrom (points : DispatchPoints) : Nat → CallbackDelivery → Step CallbackDelivery
  | 0, delivery => do
      point points.exhausted
      save points.finalSave (released delivery)
      point points.endHook
      return released delivery
  | remaining + 1, delivery =>
      let attempt := settings.maxAttempts - remaining
      let own := points.attempt attempt
      tryCatch (deliverOnce own delivery attempt) fun error => do
        let failed ← recordFailure settings own (leftObject own delivery attempt) attempt error
        deliverFrom points remaining failed

def unknownRun : Exc := ⟨.exception, "KeyError", "Unknown callback run_id"⟩

def dispatchDelivery (points : DispatchPoints) (delivery : CallbackDelivery) :
    Step CallbackDelivery := do
  let known ← ExceptT.mk (pure points.run)
  point (if known then none else some unknownRun)
  point points.payload
  point points.startHook
  deliverFrom settings points (settings.maxAttempts - delivery.attempts) delivery

end Dispatch

section Rows

variable (settings : Settings)

def FailsDue (lapse : Nat) (points : AttemptPoints) (attempt : Nat) : Prop :=
  attempt < settings.maxAttempts ∧ points.now + settings.delayForAttempt attempt ≤ lapse

def Raises (points : AttemptPoints) : Prop :=
  points.posted ≠ none ∨ (∃ fault, points.update = .failed fault) ∨
    (points.update = .missed ∧ points.save ≠ none) ∨ points.log ≠ none ∨ points.hook ≠ none

def Acknowledged (points : AttemptPoints) : Prop :=
  points.posted = none ∧ (points.update = .applied ∨
    (∃ error, points.update = .failed (.unacknowledged error)) ∨
    points.update = .missed ∧ ∀ error, points.save ≠ some (.refused error))

/-- If the attempts that are left raise, the last write that was applied to the row is due
again before the given time; `due` says so of the row before them. -/
def Resumes (lapse : Nat) (points : DispatchPoints) : Nat → Prop → Prop
  | 0, due => points.exhausted ≠ none ∨ points.finalSave ≠ none ∨ points.endHook ≠ none → due
  | remaining + 1, due =>
      let attempt := settings.maxAttempts - remaining
      let own := points.attempt attempt
      Raises own → match own.failureSave with
        | some (.refused _) => due ∧ ¬ Acknowledged own
        | some (.unacknowledged _) => FailsDue settings lapse own attempt
        | none =>
            if own.failureLog.isSome then FailsDue settings lapse own attempt
            else Resumes lapse points remaining (FailsDue settings lapse own attempt)

/-- Where the dispatch raises before its first attempt, the row is as it was claimed. -/
def DispatchResumes (lapse : Nat) (points : DispatchPoints) (attempts : Nat) : Prop :=
  points.run = .ok true → points.payload = none → points.startHook = none →
    Resumes settings lapse points (settings.maxAttempts - attempts) True

def Lapses (lapse : Nat) (row : CallbackDelivery) : Prop :=
  row.worker = none ∨ row.leaseExpireTime.all (· ≤ lapse) = true

variable {settings} {lapse : Nat}

theorem deliverable_iff (delivery : CallbackDelivery) :
    deliverable lapse settings.maxAttempts delivery = true ↔
      (delivery.status = .pending ∨
        delivery.status = .failed ∧ delivery.attempts < settings.maxAttempts) ∧
      delivery.runAfter ≤ lapse ∧ Lapses lapse delivery := by
  simp [deliverable, Lapses, and_assoc]

theorem deliverable_delivered (delivery : CallbackDelivery) (attempt : Nat) :
    ¬ deliverable lapse settings.maxAttempts (deliveredDelivery delivery attempt) = true := by
  simp [deliverable_iff, deliveredDelivery]

theorem deliverable_failed {object : CallbackDelivery} (lapses : Lapses lapse object)
    (points : AttemptPoints) (attempt : Nat) (error : Exc) :
    deliverable lapse settings.maxAttempts
        (failedDelivery settings object attempt error points.now) = true ↔
      FailsDue settings lapse points attempt := by
  have free : Lapses lapse (failedDelivery settings object attempt error points.now) := lapses
  rw [deliverable_iff]
  simp only [free, and_true]
  simp [failedDelivery, FailsDue]

theorem deliverable_released {delivery : CallbackDelivery} (lapses : Lapses lapse delivery) :
    deliverable lapse settings.maxAttempts (released delivery) = true ↔
      deliverable lapse settings.maxAttempts delivery = true := by
  have free : Lapses lapse (released delivery) := Or.inl rfl
  rw [deliverable_iff, deliverable_iff]
  simp only [free, lapses, and_true]
  rfl

theorem leftObject_lapses (points : AttemptPoints) {delivery : CallbackDelivery}
    (lapses : Lapses lapse delivery) (attempt : Nat) :
    Lapses lapse (leftObject points delivery attempt) := by
  unfold leftObject
  cases points.posted with
  | some _ => exact lapses
  | none => exact Or.inl rfl

theorem acknowledge_run (points : AttemptPoints) (delivery row : CallbackDelivery)
    (posted : points.posted = none) :
    (acknowledge points delivery row = (.ok (), delivery) ∧ Acknowledged points ∧
      ¬ ((∃ fault, points.update = .failed fault) ∨
        points.update = .missed ∧ points.save ≠ none)) ∨
    ∃ error after, acknowledge points delivery row = (.error error, after) ∧
      ((∃ fault, points.update = .failed fault) ∨
        points.update = .missed ∧ points.save ≠ none) ∧
      (Acknowledged points → after = delivery) ∧ (¬ Acknowledged points → after = row) := by
  unfold acknowledge Acknowledged
  cases points.update with
  | applied => exact Or.inl ⟨rfl, by simp [posted], by simp⟩
  | missed =>
      rcases points.save with _ | error | error
      · exact Or.inl ⟨rfl, by simp [posted], by simp⟩
      · exact Or.inr ⟨error, row, rfl, by simp, by simp, fun _ => rfl⟩
      · exact Or.inr ⟨error, delivery, rfl, by simp, fun _ => rfl, by simp [posted]⟩
  | failed fault =>
      rcases fault with error | error
      · exact Or.inr ⟨error, row, rfl, by simp, by simp, fun _ => rfl⟩
      · exact Or.inr ⟨error, delivery, rfl, by simp, fun _ => rfl, by simp [posted]⟩

theorem deliverOnce_run (points : AttemptPoints) (delivery row : CallbackDelivery)
    (attempt : Nat) :
    (¬ Raises points ∧ ∃ value after,
      deliverOnce points delivery attempt row = (.ok value, after)) ∨
    Raises points ∧ ∃ error after,
      deliverOnce points delivery attempt row = (.error error, after) ∧
        (Acknowledged points → after = deliveredDelivery delivery attempt) ∧
        (¬ Acknowledged points → after = row) := by
  unfold deliverOnce
  rw [bind_run]
  cases posted : points.posted with
  | some error =>
      refine Or.inr ⟨Or.inl (by simp [posted]), error, row, rfl, ?_, fun _ => rfl⟩
      rintro ⟨sent, _⟩
      rw [posted] at sent
      cases sent
  | none =>
      simp only [point_none]
      rw [bind_run]
      rcases acknowledge_run points (deliveredDelivery delivery attempt) row posted with
        ⟨called, written, smooth⟩ | ⟨error, after, called, struck, stored, kept⟩
      · rw [called]
        simp only
        rw [bind_run]
        cases log : points.log with
        | some error =>
            refine Or.inr ⟨by simp [Raises, log], error, _, rfl, fun _ => rfl, ?_⟩
            exact fun unwritten => absurd written unwritten
        | none =>
            simp only [point_none]
            rw [bind_run]
            cases hook : points.hook with
            | some error =>
                refine Or.inr ⟨by simp [Raises, hook], error, _, rfl, fun _ => rfl, ?_⟩
                exact fun unwritten => absurd written unwritten
            | none =>
                refine Or.inl ⟨?_, _, _, rfl⟩
                simpa [Raises, posted, log, hook] using smooth
      · rw [called]
        refine Or.inr ⟨?_, error, after, rfl, stored, kept⟩
        rcases struck with failed | missed
        · exact Or.inr (Or.inl failed)
        · exact Or.inr (Or.inr (Or.inl missed))

theorem exhausted_resumes (points : DispatchPoints) {delivery row : CallbackDelivery}
    (stored : deliverable lapse settings.maxAttempts row = true ↔
      deliverable lapse settings.maxAttempts delivery = true)
    (lapses : Lapses lapse delivery) {error : Exc} {after : CallbackDelivery}
    (raised : deliverFrom settings points 0 delivery row = (.error error, after)) :
    (points.exhausted ≠ none ∨ points.finalSave ≠ none ∨ points.endHook ≠ none) ∧
      (deliverable lapse settings.maxAttempts after = true ↔
        deliverable lapse settings.maxAttempts delivery = true) := by
  have freed : deliverable lapse settings.maxAttempts (released delivery) = true ↔
      deliverable lapse settings.maxAttempts delivery = true := deliverable_released lapses
  simp only [deliverFrom, bind_run] at raised
  cases exhausted : points.exhausted with
  | some struck =>
      rw [exhausted] at raised
      cases raised
      exact ⟨by simp, stored⟩
  | none =>
      rw [exhausted] at raised
      simp only [point_none] at raised
      rcases finalSave : points.finalSave with _ | struck | struck
      · rw [finalSave] at raised
        cases endHook : points.endHook with
        | some struck =>
            rw [endHook] at raised
            cases raised
            exact ⟨by simp, freed⟩
        | none =>
            rw [endHook] at raised
            cases raised
      · rw [finalSave] at raised
        cases raised
        exact ⟨by simp, stored⟩
      · rw [finalSave] at raised
        cases raised
        exact ⟨by simp, freed⟩

/-- A dispatch that raises leaves its row due, exactly if its points resume. The object of the
delivery is the stored row when an attempt begins. -/
theorem deliverFrom_resumes (points : DispatchPoints) (remaining : Nat) (due : Prop)
    {delivery : CallbackDelivery} (lapses : Lapses lapse delivery)
    (stored : deliverable lapse settings.maxAttempts delivery = true ↔ due) {error : Exc}
    {after : CallbackDelivery}
    (raised : deliverFrom settings points remaining delivery delivery = (.error error, after)) :
    deliverable lapse settings.maxAttempts after = true ↔
      Resumes settings lapse points remaining due := by
  induction remaining generalizing delivery due with
  | zero =>
      obtain ⟨struck, same⟩ := exhausted_resumes points Iff.rfl lapses raised
      rw [same, stored]
      exact ⟨fun still _ => still, fun resumes => resumes struck⟩
  | succ remaining ih =>
      simp only [deliverFrom, tryCatch_run] at raised
      simp only [Resumes]
      -- Only the points of this attempt matter before the next one.
      generalize points.attempt (settings.maxAttempts - remaining) = own at raised ⊢
      generalize settings.maxAttempts - remaining = attempt at raised ⊢
      rcases deliverOnce_run own delivery delivery attempt with
        ⟨_, value, final, called⟩ | ⟨struck, failure, left_, called, written, kept⟩
      · rw [called] at raised
        cases raised
      · rw [called] at raised
        simp only [recordFailure, bind_run] at raised
        have recorded : deliverable lapse settings.maxAttempts (failedDelivery settings
            (leftObject own delivery attempt) attempt failure own.now) = true ↔
            FailsDue settings lapse own attempt :=
          deliverable_failed (leftObject_lapses own lapses attempt) own attempt failure
        -- the record of the failure decides what stands in the row
        rcases failureSave : own.failureSave with _ | strike | strike
        · rw [failureSave] at raised
          cases failureLog : own.failureLog with
          | some strike =>
              rw [failureLog] at raised
              cases raised
              simp only [Option.isSome_some, if_true]
              exact ⟨fun still _ => recorded.mp still, fun resumes => recorded.mpr (resumes struck)⟩
          | none =>
              rw [failureLog] at raised
              have free : Lapses lapse (failedDelivery settings
                  (leftObject own delivery attempt) attempt failure own.now) :=
                leftObject_lapses own lapses attempt
              have later := ih (FailsDue settings lapse own attempt) free recorded raised
              simp only [Option.isSome_none, Bool.false_eq_true, if_false]
              exact ⟨fun still _ => later.mp still, fun resumes => later.mpr (resumes struck)⟩
        · rw [failureSave] at raised
          cases raised
          by_cases acknowledged : Acknowledged own
          · rw [written acknowledged]
            simp [deliverable_delivered, acknowledged, struck]
          · rw [kept acknowledged, stored]
            simp [acknowledged, struck]
        · rw [failureSave] at raised
          cases raised
          exact ⟨fun still _ => recorded.mp still, fun resumes => recorded.mpr (resumes struck)⟩

/-- A claimed delivery that raises is due again when the lease of its claim ends. -/
theorem dispatch_resumes (points : DispatchPoints) {delivery : CallbackDelivery}
    (due : deliverable lapse settings.maxAttempts delivery = true) {error : Exc}
    {after : CallbackDelivery}
    (raised : dispatchDelivery settings points delivery delivery = (.error error, after)) :
    deliverable lapse settings.maxAttempts after = true ↔
      DispatchResumes settings lapse points delivery.attempts := by
  have lapses : Lapses lapse delivery := ((deliverable_iff delivery).mp due).2.2
  simp only [dispatchDelivery, bind_run, lift_run] at raised
  unfold DispatchResumes
  cases run : points.run with
  | error struck =>
      rw [run] at raised
      cases raised
      exact iff_of_true due (by simp)
  | ok known =>
      rw [run] at raised
      cases known with
      | false =>
          cases raised
          exact iff_of_true due (by simp)
      | true =>
          cases payload : points.payload with
          | some struck =>
              rw [payload] at raised
              cases raised
              exact iff_of_true due (by simp)
          | none =>
              cases startHook : points.startHook with
              | some struck =>
                  rw [payload, startHook] at raised
                  cases raised
                  exact iff_of_true due (by simp)
              | none =>
                  rw [payload, startHook] at raised
                  have begun : deliverFrom settings points (settings.maxAttempts -
                      delivery.attempts) delivery delivery = (.error error, after) := raised
                  rw [deliverFrom_resumes points _ True lapses (by simp [due]) begun]
                  simp

end Rows

section Polls

variable (settings : Settings)

structure Task (now : Nat) where
  pending : CallbackDelivery
  due : deliverable now settings.maxAttempts pending = true
  points : DispatchPoints

structure Poll where
  now : Nat
  workerId : String
  leaseSeconds : Nat
  /-- The answer of `dispatch_ready`, which only the worker asks for. -/
  ready : Except Exc Nat := .ok 0
  /-- The batch, in the order in which its tasks end. -/
  ended : List (Task settings now)
  reclaim : Except Exc Nat := .ok 0

variable {settings}

def Poll.lapse (poll : Poll settings) : Nat := poll.now + poll.leaseSeconds

def Poll.claim (poll : Poll settings) (task : Task settings poll.now) : CallbackDelivery :=
  { task.pending with
    worker := some poll.workerId
    leaseExpireTime := some poll.lapse }

def Poll.dispatch (poll : Poll settings) (task : Task settings poll.now) :
    Except Exc CallbackDelivery × CallbackDelivery :=
  dispatchDelivery settings task.points (poll.claim task) (poll.claim task)

def Poll.raises (poll : Poll settings) (task : Task settings poll.now) : Prop :=
  ∃ error after, poll.dispatch task = (.error error, after)

/-- `asyncio.gather`: it raises with the first task that does and leaves the tasks alone that
have not ended by then. -/
def gather (poll : Poll settings) :
    List (Task settings poll.now) → Except Exc Nat × List (Task settings poll.now)
  | [] => (.ok 0, [])
  | task :: rest =>
      match (poll.dispatch task).1 with
      -- The tasks that have not ended are not cancelled, and nothing waits for them.
      | .error error => (.error error, rest)
      | .ok _ => ((gather poll rest).1.map (· + 1), (gather poll rest).2)

def dispatchPending (poll : Poll settings) : Except Exc Nat := (gather poll poll.ended).1

structure WorkerStats where
  polls : Nat := 0
  dispatched : Nat := 0
  errors : Nat := 0
  callbacksDispatched : Nat := 0
  expiredLeasesReclaimed : Nat := 0

namespace WorkerStats

def runOnce (stats : WorkerStats) (ready : Except Exc Nat) : WorkerStats :=
  match ready with
  | .ok dispatched =>
      { stats with polls := stats.polls + 1, dispatched := stats.dispatched + dispatched }
  | .error _ => { stats with polls := stats.polls + 1, errors := stats.errors + 1 }

def maybeDispatchCallbacks (stats : WorkerStats) (dispatched : Except Exc Nat) : WorkerStats :=
  match dispatched with
  | .ok count => { stats with callbacksDispatched := stats.callbacksDispatched + count }
  | .error _ => { stats with errors := stats.errors + 1 }

def maybeReclaimExpiredLeases (stats : WorkerStats) (reclaim : Except Exc Nat) :
    Except Exc WorkerStats :=
  reclaim.map fun reclaimed =>
    { stats with expiredLeasesReclaimed := stats.expiredLeasesReclaimed + reclaimed }

end WorkerStats

/-- `_dispatch_callbacks_forever` of the server and `RunWorker.run_forever`. -/
inductive Loop where
  | server
  | worker
  deriving DecidableEq

def Loop.turn (loop : Loop) (stats : WorkerStats) (poll : Poll settings) :
    Except Exc WorkerStats :=
  match loop with
  | .server => (dispatchPending poll).map fun _ => stats
  | .worker =>
      ((stats.runOnce poll.ready).maybeDispatchCallbacks
        (dispatchPending poll)).maybeReclaimExpiredLeases poll.reclaim

def Loop.run (loop : Loop) (stats : WorkerStats) :
    List (Poll settings) → List (Poll settings) × Except Exc WorkerStats
  | [] => ([], .ok stats)
  | poll :: rest =>
      match loop.turn stats poll with
      | .error error => ([poll], .error error)
      | .ok next => (poll :: (loop.run next rest).1, (loop.run next rest).2)

/-- What the poll loops owe to their deliveries: they go on, they wait for the whole batch, and
a delivery that raises can be claimed again when its lease ends. -/
structure Serves (loop : Loop) (stats : WorkerStats) (polls : List (Poll settings)) : Prop where
  continues : ∃ final, loop.run stats polls = (polls, .ok final)
  awaited : ∀ poll ∈ (loop.run stats polls).1, (gather poll poll.ended).2 = []
  claimable : ∀ poll ∈ (loop.run stats polls).1, ∀ task ∈ poll.ended, ∀ error after,
    poll.dispatch task = (.error error, after) →
      deliverable poll.lapse settings.maxAttempts after = true

structure Benign (loop : Loop) (poll : Poll settings) : Prop where
  /-- Of the batch only the task that ends last may raise. -/
  last : ∀ before task after, poll.ended = before ++ task :: after → poll.raises task → after = []
  resumes : ∀ task ∈ poll.ended, poll.raises task →
    DispatchResumes settings poll.lapse task.points task.pending.attempts
  server : loop = .server → ∀ task ∈ poll.ended, ¬ poll.raises task
  worker : loop = .worker → ∃ reclaimed, poll.reclaim = .ok reclaimed

theorem gather_left (poll : Poll settings) (tasks : List (Task settings poll.now)) :
    (gather poll tasks).2 = [] ↔
      ∀ before task after, tasks = before ++ task :: after → poll.raises task → after = [] := by
  induction tasks with
  | nil => simp [gather]
  | cons first rest ih =>
      simp only [gather]
      cases dispatched : poll.dispatch first with
      | mk outcome row =>
          cases outcome with
          | error error =>
              simp only
              constructor
              · rintro rfl before task after split _
                cases before with
                | nil => simp at split; exact split.2
                | cons _ _ => simp at split
              · intro last
                exact last [] first rest rfl ⟨error, row, dispatched⟩
          | ok value =>
              simp only
              rw [ih]
              constructor
              · intro last before task after split raised
                cases before with
                | nil =>
                    cases split
                    obtain ⟨error, _, struck⟩ := raised
                    rw [dispatched] at struck
                    cases struck
                | cons _ before =>
                    cases split
                    exact last before task after rfl raised
              · rintro last before task after rfl raised
                exact last (first :: before) task after rfl raised

theorem gather_ok (poll : Poll settings) (tasks : List (Task settings poll.now)) :
    (∃ count, (gather poll tasks).1 = .ok count) ↔ ∀ task ∈ tasks, ¬ poll.raises task := by
  induction tasks with
  | nil => simp [gather]
  | cons first rest ih =>
      simp only [gather, List.forall_mem_cons, ← ih]
      cases dispatched : poll.dispatch first with
      | mk outcome row =>
          cases outcome with
          | error error =>
              have raised : poll.raises first := ⟨error, row, dispatched⟩
              simp [raised]
          | ok value =>
              have smooth : ¬ poll.raises first := by
                rintro ⟨error, _, struck⟩
                rw [dispatched] at struck
                cases struck
              cases (gather poll rest).1 <;> simp [smooth, Except.map]

theorem claim_due (poll : Poll settings) (task : Task settings poll.now) :
    deliverable poll.lapse settings.maxAttempts (poll.claim task) = true := by
  obtain ⟨status, after, _⟩ := (deliverable_iff task.pending).mp task.due
  rw [deliverable_iff]
  refine ⟨status, ?_, Or.inr ?_⟩
  · exact Nat.le_trans after (Nat.le_add_right poll.now poll.leaseSeconds)
  · simp [Poll.claim]

theorem turn_ok (loop : Loop) (stats : WorkerStats) (poll : Poll settings) :
    (∃ next, loop.turn stats poll = .ok next) ↔
      (loop = .server → ∀ task ∈ poll.ended, ¬ poll.raises task) ∧
        (loop = .worker → ∃ reclaimed, poll.reclaim = .ok reclaimed) := by
  -- The server gives up its loop on any exception; the worker only on that of the reclaim.
  cases loop with
  | server =>
      have gathered := gather_ok poll poll.ended
      simp only [Loop.turn, dispatchPending, reduceCtorEq, false_implies, and_true, true_implies]
      rw [← gathered]
      cases (gather poll poll.ended).1 <;> simp [Except.map]
  | worker =>
      simp only [Loop.turn, WorkerStats.maybeReclaimExpiredLeases, reduceCtorEq, false_implies,
        true_and, true_implies]
      cases poll.reclaim <;> simp [Except.map]

/-- A loop gets through its turns, if each of them lets it go on. -/
theorem run_continues (loop : Loop) (stats : WorkerStats) (polls : List (Poll settings)) :
    (∃ final, loop.run stats polls = (polls, .ok final)) ↔
      ∀ poll ∈ polls, ∀ stats, ∃ next, loop.turn stats poll = .ok next := by
  induction polls generalizing stats with
  | nil => simp [Loop.run]
  | cons poll rest ih =>
      have same : ∀ other, (∃ next, loop.turn other poll = .ok next) ↔
          ∃ next, loop.turn stats poll = .ok next :=
        fun other => (turn_ok loop other poll).trans (turn_ok loop stats poll).symm
      simp only [Loop.run, List.forall_mem_cons]
      cases turned : loop.turn stats poll with
      | error error =>
          constructor
          · rintro ⟨final, stopped⟩
            cases stopped
          · rintro ⟨goes, _⟩
            obtain ⟨next, going⟩ := goes stats
            rw [turned] at going
            cases going
      | ok next =>
          simp only [Prod.mk.injEq, List.cons.injEq, true_and]
          constructor
          · rintro ⟨final, rows, ended⟩
            refine ⟨fun other => (same other).mpr ⟨next, turned⟩, (ih next).mp ⟨final, ?_⟩⟩
            exact Prod.ext rows ended
          · rintro ⟨_, later⟩
            obtain ⟨final, ran⟩ := (ih next).mpr later
            exact ⟨final, by rw [ran], by rw [ran]⟩

theorem claimable_iff (poll : Poll settings) (task : Task settings poll.now) :
    (∀ error after, poll.dispatch task = (.error error, after) →
        deliverable poll.lapse settings.maxAttempts after = true) ↔
      (poll.raises task →
        DispatchResumes settings poll.lapse task.points task.pending.attempts) := by
  constructor
  · rintro claimable ⟨error, after, raised⟩
    exact (dispatch_resumes task.points (claim_due poll task) raised).mp
      (claimable error after raised)
  · intro resumes error after raised
    exact (dispatch_resumes task.points (claim_due poll task) raised).mpr
      (resumes ⟨error, after, raised⟩)

end Polls

/-- The poll loops lose nothing in a run, exactly if every turn of it is benign. -/
theorem poll_loops_serve_iff {settings : Settings} (loop : Loop) (stats : WorkerStats)
    (polls : List (Poll settings)) :
    Serves loop stats polls ↔ ∀ poll ∈ polls, Benign loop poll := by
  constructor
  · rintro ⟨continues, awaited, claimable⟩ poll member
    have turns := (run_continues loop stats polls).mp continues poll member stats
    obtain ⟨final, ran⟩ := continues
    rw [ran] at awaited claimable
    obtain ⟨server, worker⟩ := (turn_ok loop stats poll).mp turns
    exact
      { last := (gather_left poll poll.ended).mp (awaited poll member)
        resumes := fun task inside =>
          (claimable_iff poll task).mp (claimable poll member task inside)
        server
        worker }
  · intro benign
    have continues := (run_continues loop stats polls).mpr fun poll member stats =>
      (turn_ok loop stats poll).mpr ⟨(benign poll member).server, (benign poll member).worker⟩
    have reached : (loop.run stats polls).1 = polls := by
      obtain ⟨final, ran⟩ := continues
      rw [ran]
    refine ⟨continues, ?_, ?_⟩
    · rw [reached]
      exact fun poll member => (gather_left poll poll.ended).mpr (benign poll member).last
    · rw [reached]
      exact fun poll member task inside =>
        (claimable_iff poll task).mpr ((benign poll member).resumes task inside)

section Samples

def fresh (eventId : Nat) : CallbackDelivery := { eventId := ⟨eventId⟩, url := "https://receiver" }

def task (eventId : Nat) (points : DispatchPoints) : Task {} 10 :=
  ⟨fresh eventId, rfl, points⟩

def smooth : DispatchPoints := { attempt := fun _ => {} }

def orphaned : DispatchPoints := { smooth with run := .ok false }

def orphanedPoll : Poll {} :=
  { now := 10, workerId := "server-callback-dispatcher", leaseSeconds := 35,
    ended := [task 1 orphaned, task 2 smooth] }

/-- One delivery without a run ends the loop of the server, which leaves its batch alone. -/
theorem bad_delivery_stops_server : ¬ Serves .server {} [orphanedPoll] ∧
    (Loop.run .server {} [orphanedPoll]).2 = .error unknownRun ∧
    (gather orphanedPoll orphanedPoll.ended).2.length = 1 := by
  refine ⟨?_, rfl, rfl⟩
  rintro ⟨⟨final, ran⟩, _⟩
  cases ran

end Samples

end AgentTaskPlatform.CallbackPolling
