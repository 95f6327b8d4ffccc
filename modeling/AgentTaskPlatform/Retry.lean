import AgentTaskPlatform.Readings

/-!
`RunManager.retry` between its read and its write. The write is the one
unconditional update of the run row: it requeues the run whatever the row holds
by then. The two are one atomic step exactly as long as the commits in between
leave the status that was examined.
-/

namespace AgentTaskPlatform.Retry

open Interleaving RunManager

def Requeues (thread : Nat) : PlatformEvent → Prop
  | .acted own _ (.run (.retry _)) _ _ _ => own = thread
  | _ => False

def ended (status : RunStatus) : Prop :=
  status = .failed ∨ status = .timeout ∨ status = .waitingCallback

def Examined (thread : Nat) (past : List PlatformEvent) (commit : PlatformEvent) : Prop :=
  ∃ read, lastRead thread past = some read ∧ retryable read = true ∧
    commit.before.run.status = read.status

structure Atomic (events : List PlatformEvent) : Prop where
  examined : ∀ past commit later thread, events = past ++ commit :: later →
    Requeues thread commit → Examined thread past commit
  /-- Between two requeues an execution has ended, with a failure or with a
  success that waits for its callback. -/
  once : ∀ past first between second later thread other,
    events = past ++ first :: (between ++ second :: later) → Requeues thread first →
    Requeues other second →
    ∃ event ∈ between, ¬ ended event.before.run.status ∧ ended event.after.run.status

theorem retryable_ended {run : AgentRun} (again : retryable run = true) : ended run.status := by
  simp only [retryable, Bool.and_eq_true, Bool.or_eq_true, decide_eq_true_eq, or_assoc] at again
  exact again.1

theorem ended_not_queued {status : RunStatus} (queued : status = .queued) : ¬ ended status := by
  rw [queued]
  simp [ended]

section Runs

variable {deployment : Deployment} {admitted : Entry → Bool} {state : State}
  {past later : List PlatformEvent} {commit : PlatformEvent} {final : PlatformConfig}
  {thread : Nat}

theorem requeue_row (run : (platformSystem deployment admitted).Run (atRest state)
    (past ++ commit :: later) final) (requeues : Requeues thread commit) :
    (∃ read, lastRead thread past = some read ∧ retryable read = true) ∧
      commit.after.run.status = .queued := by
  unfold Requeues at requeues
  split at requeues
  · next own tag row answer before after =>
      subst requeues
      have fresh := fresh_inductive.before_event run rfl (fun _ _ _ _ => trivial) fresh_initial
      obtain ⟨phase, oracle, present, _, permitted, same⟩ :=
        Discipline.run_permits (D := discipline deployment admitted) run rfl
      constructor
      · cases phase with
        | manager process job progress =>
            cases permitted with
            | @retry read agent now own seen again =>
                subst own
                exact ⟨read, fresh _ _ read present seen, again⟩
        | _ => cases permitted
      · cases same
        exact retry_requeues permitted
  · exact requeues.elim

theorem examined_iff (run : (platformSystem deployment admitted).Run (atRest state)
    (past ++ commit :: later) final) (requeues : Requeues thread commit) :
    Examined thread past commit ↔ ¬ Overtaken AgentRun.status thread past := by
  obtain ⟨⟨read, known, again⟩, _⟩ := requeue_row run requeues
  rw [overtaken_iff AgentRun.status run known, not_not]
  constructor
  · rintro ⟨_, same, _, status⟩
    rw [known] at same
    cases same
    exact status
  · intro status
    exact ⟨read, known, again, status⟩

end Runs

/-- `retry` is atomic in exactly the runs in which no other commit moves the run
between the read of a `retry` and its write. -/
theorem retry_atomic_iff {deployment : Deployment} {admitted : Entry → Bool} {state : State}
    {events : List PlatformEvent} {final : PlatformConfig}
    (run : (platformSystem deployment admitted).Run (atRest state) events final) :
    Atomic events ↔ ∀ past commit later thread, events = past ++ commit :: later →
      Requeues thread commit → ¬ Overtaken AgentRun.status thread past := by
  constructor
  · intro atomic past commit later thread split requeues
    subst split
    exact (examined_iff run requeues).mp (atomic.examined past commit later thread rfl requeues)
  · intro steady
    have examined : ∀ past commit later thread, events = past ++ commit :: later →
        Requeues thread commit → Examined thread past commit := by
      intro past commit later thread split requeues
      have own := steady past commit later thread split requeues
      subst split
      exact (examined_iff run requeues).mpr own
    refine ⟨examined, ?_⟩
    intro past first between second later thread other split begins repeats
    obtain ⟨read, _, again, status⟩ :=
      examined (past ++ first :: between) second later other (by rw [split]; simp) repeats
    subst split
    -- The first call leaves the run QUEUED, the second one finds it ended.
    have queued := (requeue_row run begins).2
    have grouped : past ++ first :: (between ++ second :: later) =
        (past ++ [first]) ++ (between ++ second :: later) := by simp
    rw [grouped] at run
    obtain ⟨opened, opens, continues⟩ := run.split
    obtain ⟨middle, _, _, through, taken, _⟩ := continues.at_event
    rw [opens.ends] at queued
    rw [(System.step_states taken).1] at status
    apply through.crosses (fun state => ended state.run.status) (ended_not_queued queued)
    rw [status]
    exact retryable_ended again

def retriedTwice : List (Move platform Entry) :=
  [.launch (.retry "api-1")] ++ steps 1 0 calm ++ [.launch (.retry "api-2")] ++ steps 4 1 calm ++
    [.launch (.dispatchReady "worker" 30)] ++ steps 3 0 calm

def interrupts : PlatformEvent → Bool
  | .acted _ _ (.run (.retry _)) _ before _ => before.run.status.executing
  | _ => false

theorem retriedTwice_replays : ((platformSystem sampleDeployment fun _ => true).replay
    (atRest (State.initial { sampleRun with status := .failed } 0 none)) retriedTwice).any
      (fun outcome => outcome.1.any interrupts &&
        outcome.2.state.run.status = .queued) = true := rfl

theorem interrupts_requeues {event : PlatformEvent} (interrupted : interrupts event = true) :
    (∃ thread, Requeues thread event) ∧ event.before.run.status.executing = true := by
  unfold interrupts at interrupted
  split at interrupted
  · exact ⟨⟨_, rfl⟩, interrupted⟩
  · cases interrupted

theorem examined_not_executing {thread : Nat} {past : List PlatformEvent} {commit : PlatformEvent}
    (examined : Examined thread past commit) : commit.before.run.status.executing = false := by
  obtain ⟨read, _, again, status⟩ := examined
  rw [status]
  rcases retryable_ended again with same | same | same <;> rw [same] <;> rfl

/-- The second `retry` requeues the run that the worker is executing. -/
theorem retry_requeues_executing : ∃ events final,
    (platformSystem sampleDeployment fun _ => true).Run
      (atRest (State.initial { sampleRun with status := .failed } 0 none)) events final ∧
    ¬ Atomic events ∧ final.state.run.status = .queued := by
  obtain ⟨events, final, run, checked⟩ := System.replay_checked retriedTwice_replays
  simp only [Bool.and_eq_true, List.any_eq_true, decide_eq_true_eq] at checked
  obtain ⟨⟨event, member, interrupted⟩, queued⟩ := checked
  obtain ⟨⟨thread, requeues⟩, executing⟩ := interrupts_requeues interrupted
  obtain ⟨past, later, rfl⟩ := List.append_of_mem member
  refine ⟨_, final, run, ?_, queued⟩
  intro atomic
  have idle := examined_not_executing (atomic.examined past event later thread rfl requeues)
  rw [executing] at idle
  cases idle

/-- In the schedule above a `retry` is overtaken. -/
theorem retry_atomic_iff_retried_twice : ∃ events final,
    (platformSystem sampleDeployment fun _ => true).Run
      (atRest (State.initial { sampleRun with status := .failed } 0 none)) events final ∧
    ∃ past commit later thread, events = past ++ commit :: later ∧ Requeues thread commit ∧
      Overtaken AgentRun.status thread past := by
  obtain ⟨events, final, run, checked⟩ := System.replay_checked retriedTwice_replays
  simp only [Bool.and_eq_true, List.any_eq_true] at checked
  obtain ⟨⟨event, member, interrupted⟩, _⟩ := checked
  obtain ⟨⟨thread, requeues⟩, executing⟩ := interrupts_requeues interrupted
  obtain ⟨past, later, rfl⟩ := List.append_of_mem member
  refine ⟨_, final, run, ?_⟩
  by_contra steady
  push Not at steady
  have atomic := (retry_atomic_iff run).mpr steady
  have idle := examined_not_executing (atomic.examined past event later thread rfl requeues)
  rw [executing] at idle
  cases idle

end AgentTaskPlatform.Retry
