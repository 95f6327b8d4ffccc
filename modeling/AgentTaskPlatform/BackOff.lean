import AgentTaskPlatform.Readings

/-!
The status between two attempts. An `except` clause chooses the status of a
failed attempt, and the error type decides after it whether the loop goes on;
the clauses for timeouts, registry errors and refused permissions choose a final
status with an error type that is retried.
-/

namespace AgentTaskPlatform.BackOff

open Interleaving ExecutionProtocol RunExecutor RunManager

/-- An exception for which the loop goes on although the stored status is final. -/
def stopsShort (error : Exc) : Bool :=
  match error.kind with
  | .externalSideEffectOutcomeUnknownError => false
  | .timeoutError => true
  | .registryError => !mentions error.message "schema"
  | .toolExecutionError => false
  | _ =>
      !(mentions error.message "validation" || mentions error.message "schema") &&
        !(mentions error.message "not found" || mentions error.message "no enabled") &&
        (mentions error.message "permission" || mentions error.message "unauthorized")

/-- The two decisions about a failed attempt, compared. -/
theorem classify_disagrees {attempt attempts : Nat} (error : Exc) (remain : attempt < attempts) :
    ((classify attempt attempts error).2.isRetryable = true ∧
      (classify attempt attempts error).1.executing = false) ↔ stopsShort error = true := by
  have again : retryStatus attempt attempts = .retrying := if_pos remain
  unfold classify stopsShort
  cases error.kind with
  | externalSideEffectOutcomeUnknownError =>
      simp only
      decide
  | timeoutError =>
      simp only
      decide
  | registryError =>
      simp only
      cases mentions error.message "schema" <;> decide
  | toolExecutionError =>
      simp only [again]
      decide
  | _ =>
      simp only [again]
      cases mentions error.message "validation" || mentions error.message "schema" <;>
        cases mentions error.message "not found" || mentions error.message "no enabled" <;>
          cases mentions error.message "permission" || mentions error.message "unauthorized" <;>
            decide

/-- A row between two attempts: it is executing, so that `cancel` and `renew_lease`
reach it and `retry` leaves it alone. -/
structure Open (run : AgentRun) : Prop where
  executing : run.status.executing = true
  cancelable : run.status.terminal = false
  renewable : ∀ worker, run.worker = some worker → leasedBy run worker = true
  unretryable : retryable run = false

theorem executing_open {run : AgentRun} (executing : run.status.executing = true) : Open run := by
  have cases : run.status = .running ∨ run.status = .waitingTool ∨ run.status = .retrying := by
    simpa [RunStatus.executing, executingRunStatuses] using executing
  refine ⟨executing, ?_, ?_, ?_⟩
  · rcases cases with same | same | same <;> rw [same] <;> rfl
  · intro worker held
    simp [leasedBy, held, executing]
  · rcases cases with same | same | same <;> simp [retryable, same]

def Fails (attempt attempts : Nat) (error : Exc) : PlatformEvent → Prop
  | .acted _ _ (.run (.updateIfCurrent site expected _)) _ before _ =>
      site = .attemptFailed attempt attempts error ∧ expected.admits before.run = true
  | _ => False

def Starts (thread : Nat) : PlatformEvent → Prop
  | .acted own _ (.run (.updateIfCurrent (.attemptStart _) _ _)) _ _ _ => own = thread
  | _ => False

structure Visible (events : List PlatformEvent) : Prop where
  /-- After a failure that the loop retries, while attempts remain. -/
  waiting : ∀ commit ∈ events, ∀ attempt attempts error, Fails attempt attempts error commit →
    attempt < attempts →
    (∀ errorType, commit.after.run.errorType = some errorType → errorType.isRetryable = true) →
    Open commit.after.run
  /-- After whatever an execution stores before it goes for another attempt. -/
  between : ∀ past store middle start later thread row,
    events = past ++ store :: (middle ++ start :: later) → storedBy thread store = some row →
    Starts thread start → Open row

def spent : Step → Prop
  | .opening => False
  | .running _ _ => False
  | .failed attempt attempts error _ => ¬ retries attempt attempts error
  | _ => True

def loops : Site → Bool
  | .attemptStart _ => true
  | .attemptFailed _ _ _ => true
  | _ => false

def Inv (past : List PlatformEvent) (phases : List Phase) : Prop :=
  ∀ store ∈ past, ∀ (thread : Nat) row, storedBy thread store = some row →
    thread < phases.length ∧ (row.status.executing = true ∨ ∀ process worker progress,
      phases[thread]? = some (.execution process worker progress) → spent progress.step)

def steady (_ : List PlatformEvent) (event : PlatformEvent) : Prop :=
  ∀ attempt attempts error, Fails attempt attempts error event → attempt < attempts →
    stopsShort error = false

section Steps

variable {process : Process} {worker : Option Process} {progress : Progress} {op : Op}
  {oracle : op.Answer} {state : State}

theorem spent_starts {attempt : Nat} (done : spent progress.step) :
    ¬ progress.step.mayStart attempt := by
  unfold Step.mayStart
  cases step : progress.step with
  | failed last attempts error run =>
      rw [step] at done
      rintro ⟨again, _⟩
      exact done again
  | opening =>
      rw [step] at done
      exact done.elim
  | _ => exact id

theorem update_spent {site : Site} {expected : Expected} {row : AgentRun} {stored : Bool}
    (ends : loops site = false) :
    spent (progress.after (.run (.updateIfCurrent site expected row)) stored).step := by
  show spent (progress.step.after site row stored)
  cases site with
  | attemptStart attempt => cases ends
  | attemptFailed attempt attempts error => cases ends
  | _ => cases stored <;> trivial

theorem spent_after (permitted : Permitted process worker progress op)
    (done : spent progress.step) :
    spent (progress.after op (Op.perform op oracle state).1).step := by
  cases permitted with
  | attemptStart attempt now _ _ mayStart _ => exact absurd mayStart (spent_starts done)
  | attemptFailed attempts timeout error step _ =>
      rw [step] at done
      exact done.elim
  | agentSucceeded output now _ _ => exact update_spent rfl
  | recovered attempts timeout error result now _ => exact update_spent rfl
  | skipCallback _ _ => exact update_spent rfl
  | prepareCallback url body now _ _ _ _ _ _ => trivial
  | finish now _ => exact update_spent rfl
  | release _ _ => exact update_spent rfl
  | deadLetter reason _ _ => exact update_spent rfl
  | backgroundFailure error _ _ _ => exact update_spent rfl
  | _ => exact done

theorem failed_open {attempt attempts timeout : Nat} {error : Exc} {run : AgentRun}
    (remain : attempt < attempts)
    (retryable : (classify attempt attempts error).2.isRetryable = true)
    (agrees : stopsShort error = false) :
    (failedRun run attempt attempts timeout error).status.executing = true := by
  by_contra final
  have short := (classify_disagrees error remain).mp ⟨retryable, Bool.eq_false_iff.mpr final⟩
  rw [agrees] at short
  cases short

theorem started_open {run : AgentRun} {attempt now : Nat} :
    (startedRun run attempt now).status.executing = true := by
  unfold startedRun
  simp only
  split <;> rfl

/-- Where failed attempts do not stop short, a store leaves an executing row or is
the last before the end of the loop. -/
theorem store_open {site : Site} {expected : Expected} {row : AgentRun} {oracle : Bool}
    (permitted : Permitted process worker progress (.run (.updateIfCurrent site expected row)))
    (admitted : expected.admits state.run = true)
    (agrees : ∀ attempt attempts error, site = .attemptFailed attempt attempts error →
      attempt < attempts → stopsShort error = false) :
    row.status.executing = true ∨ spent (progress.after (.run (.updateIfCurrent site expected row))
      (Op.perform (.run (.updateIfCurrent site expected row)) oracle state).1).step := by
  cases permitted with
  | attemptStart attempt now _ _ _ _ => exact Or.inl started_open
  | @attemptFailed attempt run attempts timeout error step bounded =>
      by_cases again : retries attempt attempts error
      · exact Or.inl (failed_open again.1 again.2 (agrees _ _ _ rfl again.1))
      · right
        simp only [Progress.after, Op.perform, RunOp.perform, State.updateIfCurrent, admitted,
          if_true]
        exact again
  | _ => exact Or.inr (update_spent rfl)

end Steps

section Runs

variable {deployment : Deployment} {admitted : Entry → Bool} {past : List PlatformEvent}
  {state : State} {events : List PlatformEvent} {final : PlatformConfig} {thread : Nat}

theorem inv_inductive : (discipline deployment admitted).Inductive steady
    fun past _ phases => Inv past phases where
  acts past state phases thread tag op oracle phase inv present _ permitted agrees := by
    have length : ((discipline deployment admitted).observe phases
        ((platformSystem deployment admitted).performed thread tag op oracle state)).length =
          phases.length := by
      simp [System.performed, Discipline.observe]
    intro store member index row stores
    rw [length]
    rcases List.mem_append.mp member with earlier | single
    · obtain ⟨inside, kept⟩ := inv store earlier index row stores
      refine ⟨inside, ?_⟩
      rcases kept with executing | done
      · exact Or.inl executing
      · right
        intro process worker progress found
        rcases observe_phase present found with ⟨rfl, same⟩ | ⟨_, kept⟩
        · cases phase with
          | execution own other before =>
              cases same
              exact spent_after permitted (done process worker before present)
          | _ => cases same
        · exact done process worker progress kept
    · rw [List.mem_singleton.mp single] at stores
      obtain ⟨rfl, site, expected, rfl, hit⟩ := storedBy_inv stores
      refine ⟨(List.getElem?_eq_some_iff.mp present).1, ?_⟩
      cases phase with
      | execution process worker progress =>
          rcases store_open permitted hit (fun attempt attempts error same remain =>
            agrees attempt attempts error ⟨same, hit⟩ remain) with executing | done
          · exact Or.inl executing
          · right
            intro _ _ later found
            rcases observe_phase present found with ⟨_, same⟩ | ⟨different, _⟩
            · cases same
              exact done
            · exact absurd rfl different
      | _ =>
          right
          intro _ _ later found
          rcases observe_phase present found with ⟨_, same⟩ | ⟨different, _⟩
          · cases same
          · exact absurd rfl different
  launches past config phases entry state spawned _ inv launched _ := by
    intro store member index row stores
    rw [observe_launch phases launched, List.length_append]
    rcases List.mem_append.mp member with earlier | single
    · obtain ⟨inside, kept⟩ := inv store earlier index row stores
      refine ⟨by omega, kept.imp_right fun done process worker progress found => ?_⟩
      rw [List.getElem?_append_left inside] at found
      exact done process worker progress found
    · rw [List.mem_singleton.mp single] at stores
      cases stores

theorem fails_row {later : List PlatformEvent} {commit : PlatformEvent}
    {attempt attempts : Nat} {error : Exc}
    (run : (platformSystem deployment admitted).Run (atRest state) (past ++ commit :: later) final)
    (fails : Fails attempt attempts error commit) : ∃ before timeout,
      commit.after.run = failedRun before attempt attempts timeout error := by
  unfold Fails at fails
  split at fails
  · next thread tag site expected row answer before after =>
      obtain ⟨phase, oracle, _, _, permitted, same⟩ :=
        Discipline.run_permits (D := discipline deployment admitted) run rfl
      cases same
      obtain ⟨rfl, hit⟩ := fails
      have stored : (Op.perform (.run (.updateIfCurrent (.attemptFailed attempt attempts error)
          expected row)) oracle before).2.run = row := stores_run ⟨rfl, rfl, rfl⟩ hit
      cases phase with
      | execution process worker progress =>
          cases permitted with
          | @attemptFailed _ started _ timeout _ _ _ => exact ⟨started, timeout, stored⟩
      | _ => cases permitted
  · exact fails.elim

/-- A failure that leaves an open row where the loop goes on does not stop short. -/
theorem waiting_agrees {later : List PlatformEvent} {commit : PlatformEvent}
    {attempt attempts : Nat} {error : Exc}
    (run : (platformSystem deployment admitted).Run (atRest state) (past ++ commit :: later) final)
    (fails : Fails attempt attempts error commit) (remain : attempt < attempts)
    (waiting : (∀ errorType, commit.after.run.errorType = some errorType →
      errorType.isRetryable = true) → Open commit.after.run) : stopsShort error = false := by
  by_contra short
  have short : stopsShort error = true := by simpa using short
  obtain ⟨again, final⟩ := (classify_disagrees error remain).mpr short
  obtain ⟨before, timeout, row⟩ := fails_row run fails
  have opened := waiting (by
    intro errorType stored
    rw [row] at stored
    cases stored
    exact again)
  have executing := opened.executing
  rw [row] at executing
  have both : false = true := final.symm.trans executing
  cases both

theorem starts_open {later : List PlatformEvent} {start store : PlatformEvent} {row : AgentRun}
    (run : (platformSystem deployment admitted).Run (atRest state) (past ++ start :: later) final)
    (agrees : ∀ left event right, past = left ++ event :: right → steady left event)
    (member : store ∈ past) (stores : storedBy thread store = some row)
    (starts : Starts thread start) : row.status.executing = true := by
  have inv := inv_inductive.before_event run rfl agrees (by rintro _ ⟨⟩)
  rcases (inv store member thread row stores).2 with executing | done
  · exact executing
  · unfold Starts at starts
    split at starts
    · next own tag attempt expected stored answer before after =>
        subst starts
        obtain ⟨phase, oracle, present, _, permitted, _⟩ :=
          Discipline.run_permits (D := discipline deployment admitted) run rfl
        cases phase with
        | execution process worker progress =>
            cases permitted with
            | attemptStart attempt now _ _ mayStart _ =>
                exact absurd mayStart (spent_starts (done process worker progress present))
        | _ => cases permitted
    · exact starts.elim

end Runs

/-- No final status is visible while attempts remain in exactly the runs in which no
attempt with successors fails with a timeout, a registry error that does not
mention a schema, or a refused permission. -/
theorem visible_iff {deployment : Deployment} {admitted : Entry → Bool} {state : State}
    {events : List PlatformEvent} {final : PlatformConfig}
    (run : (platformSystem deployment admitted).Run (atRest state) events final) :
    Visible events ↔ ∀ commit ∈ events, ∀ attempt attempts error,
      Fails attempt attempts error commit → attempt < attempts → stopsShort error = false := by
  constructor
  · intro visible commit member attempt attempts error fails remain
    have waiting := visible.waiting commit member attempt attempts error fails remain
    obtain ⟨past, later, rfl⟩ := List.append_of_mem member
    exact waiting_agrees run fails remain waiting
  · intro agrees
    constructor
    · intro commit member attempt attempts error fails remain again
      have agree := agrees commit member attempt attempts error fails remain
      obtain ⟨past, later, rfl⟩ := List.append_of_mem member
      obtain ⟨before, timeout, row⟩ := fails_row run fails
      rw [row] at again ⊢
      exact executing_open (failed_open remain (again _ rfl) agree)
    · intro past store middle start later thread row split stores starts
      apply executing_open
      have grouped : past ++ store :: (middle ++ start :: later) =
          (past ++ store :: middle) ++ start :: later := by simp
      rw [split, grouped] at run
      refine starts_open run ?_ (by simp) stores starts
      intro left event right inner
      apply agrees event
      rw [split, grouped, inner]
      simp

def expiring : (op : External) → Except Exc op.Result
  | .agentRun _ _ => .error ⟨.timeoutError, "TimeoutError", ""⟩
  | op => persistent op

def timedOut : List (Move platform Entry) :=
  [.launch (.dispatchReady "worker" 30)] ++ steps 21 0 expiring

def showsTimeout : PlatformEvent → Bool
  | .acted _ _ (.run (.updateIfCurrent (.attemptFailed attempt attempts error) expected _)) _
      before after =>
      expected.admits before.run && attempt < attempts && stopsShort error &&
        after.run.status = .timeout && retryable after.run
  | _ => false

theorem timedOut_replays : ((platformSystem sampleDeployment fun _ => true).replay
    (atRest (State.initial sampleRun 0 none)) timedOut).any
      (fun outcome => outcome.1.any showsTimeout) = true := rfl

theorem showsTimeout_spec {event : PlatformEvent} (shown : showsTimeout event = true) :
    ∃ attempt attempts error, Fails attempt attempts error event ∧ attempt < attempts ∧
      stopsShort error = true ∧ event.after.run.status = .timeout ∧
      retryable event.after.run = true := by
  unfold showsTimeout at shown
  split at shown
  · next thread tag attempt attempts error expected row answer before after =>
      simp only [Bool.and_eq_true, decide_eq_true_eq] at shown
      obtain ⟨⟨⟨⟨hit, remain⟩, short⟩, timeout⟩, again⟩ := shown
      exact ⟨attempt, attempts, error, ⟨rfl, hit⟩, remain, short, timeout, again⟩
  · cases shown

/-- During the back-off after a timeout the row is final and `retry` would requeue it. -/
theorem timeout_visible_before_retry : ∃ events final,
    (platformSystem sampleDeployment fun _ => true).Run (atRest (State.initial sampleRun 0 none))
      events final ∧
    ¬ Visible events ∧ ∃ commit ∈ events, ∃ attempt attempts error,
      Fails attempt attempts error commit ∧ attempt < attempts ∧
      commit.after.run.status = .timeout ∧ retryable commit.after.run = true := by
  obtain ⟨events, final, run, checked⟩ := System.replay_checked timedOut_replays
  obtain ⟨commit, member, found⟩ := List.any_eq_true.mp checked
  obtain ⟨attempt, attempts, error, fails, remain, short, timeout, again⟩ :=
    showsTimeout_spec found
  refine ⟨events, final, run, ?_, commit, member, attempt, attempts, error, fails, remain, timeout,
    again⟩
  intro visible
  have waiting := visible.waiting commit member attempt attempts error fails remain
  obtain ⟨past, later, rfl⟩ := List.append_of_mem member
  rw [waiting_agrees run fails remain waiting] at short
  cases short

/-- In the schedule above an attempt with a successor times out. -/
theorem visible_iff_timed_out : ∃ events final,
    (platformSystem sampleDeployment fun _ => true).Run (atRest (State.initial sampleRun 0 none))
      events final ∧
    ¬ Visible events ∧ ∃ commit ∈ events, ∃ attempt attempts error,
      Fails attempt attempts error commit ∧ attempt < attempts ∧ stopsShort error = true := by
  obtain ⟨events, final, run, checked⟩ := System.replay_checked timedOut_replays
  obtain ⟨commit, member, found⟩ := List.any_eq_true.mp checked
  obtain ⟨attempt, attempts, error, fails, remain, short, _, _⟩ := showsTimeout_spec found
  refine ⟨events, final, run, ?_, commit, member, attempt, attempts, error, fails, remain, short⟩
  intro visible
  have steady := (visible_iff run).mp visible commit member attempt attempts error fails remain
  rw [short] at steady
  cases steady

end AgentTaskPlatform.BackOff
