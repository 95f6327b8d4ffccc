import AgentTaskPlatform.AttemptCounters
import AgentTaskPlatform.Takeovers

/-!
The budget of attempts between two submissions. The counter of a row goes up where
an attempt starts and down where a claim, a reclaim or a recovery takes the attempt
for interrupted. Status RETRYING does not tell a running attempt from one that has
failed and backs off, and a claim sets RUNNING before any attempt has started.
-/

namespace AgentTaskPlatform.AttemptBudget

open Interleaving ExecutionProtocol Takeovers Hands AttemptCounters

inductive Mark where
  | started (thread : Nat)
  | stored
  | taken
  deriving DecidableEq

def mark : PlatformEvent → Option Mark
  | .launched (.dispatchReady _ _) _ _ _ => some .taken
  | .acted own _ (.run (.updateIfCurrent site _ _)) answer _ _ =>
      if answer then match site with
        | .attemptStart _ => some (.started own)
        | .recover => some .taken
        | .reclaim => some .taken
        | site => if decides site then some .stored else none
      else none
  | _ => none

def standing (past : List PlatformEvent) : Option Mark := latestSince resubmits mark past

/-- The thread stores that an attempt failed or timed out, perhaps with the result of
an error handler. -/
def fails : PlatformEvent → Option Nat
  | .acted own _ (.run (.updateIfCurrent (.attemptFailed _ _ _) _ _)) answer _ _ =>
      if answer then some own else none
  | .acted own _ (.run (.updateIfCurrent .recovered _ _)) answer _ _ =>
      if answer then some own else none
  | _ => none

def failures (past : List PlatformEvent) : Nat :=
  countSince resubmits (fun event => (fails event).isSome) past

def refunds (event : PlatformEvent) : Bool :=
  mark event = some .taken && event.after.run.attempts < event.before.run.attempts

def takesBack (event : PlatformEvent) : Bool :=
  mark event = some .taken && event.before.run.status.executing && 0 < event.before.run.attempts

/-- The thread writes an object whose counter the row has left behind. -/
def behind (past : List PlatformEvent) : PlatformEvent → Bool
  | .acted own tag (.run (.updateIfCurrent site _ _)) answer before _ =>
      answer && (held own tag.role site past).any (· < before.run.attempts)
  | .acted own tag (.run (.updateRunWithCallback site _ _ _)) answer before _ =>
      answer && (held own tag.role site past).any (· < before.run.attempts)
  | _ => false

/-- The attempt started last has stored no outcome, and nothing has been refunded
since. -/
def Interrupted (past : List PlatformEvent) : Prop :=
  ∃ left start between thread, past = left ++ start :: between ∧
    mark start = some (.started thread) ∧
    ∀ event ∈ between, resubmits event = false ∧ decider event = none ∧ refunds event = false

structure Budgeted (events : List PlatformEvent) : Prop where
  bounded : ∀ past thread tag attempt attempts error expected row before after later,
    events = past ++ .acted thread tag (.run (.updateIfCurrent
      (.attemptFailed attempt attempts error) expected row)) true before after :: later →
    failures past + 1 ≤ attempts
  counted : ∀ past event later, events = past ++ event :: later →
    failures (past ++ [event]) ≤ event.after.run.attempts
  refunded : ∀ past event later, events = past ++ event :: later → refunds event = true →
    Interrupted past ∧ event.before.run.attempts = event.after.run.attempts + 1

/-- Nothing takes the row while no attempt of it runs, an execution stores the failure of
the attempt that was started last, and no thread writes an outdated counter. -/
structure Accounted (events : List PlatformEvent) : Prop where
  running : ∀ past event later, events = past ++ event :: later → takesBack event = true →
    ∃ thread, standing past = some (.started thread)
  own : ∀ past event later thread, events = past ++ event :: later → fails event = some thread →
    standing past = some (.started thread)
  current : ∀ past event later, events = past ++ event :: later → behind past event = false

/-- The least counter that a write of the site may leave. -/
def least (site : Site) (counter : Nat) : Nat :=
  match site with
  | .attemptStart _ => counter + 1
  | .recover => counter - 1
  | .reclaim => counter - 1
  | _ => counter

def lowers : PlatformEvent → Bool
  | .acted _ _ (.run (.updateIfCurrent site _ row)) answer before _ =>
      answer && row.attempts < least site before.run.attempts
  | .acted _ _ (.run (.updateRunWithCallback _ _ row _)) answer before _ =>
      answer && row.attempts < before.run.attempts
  | _ => false

structure Covered (past : List PlatformEvent) (state : State) : Prop where
  failed : failures past ≤ state.run.attempts
  started : ∀ thread, standing past = some (.started thread) →
    failures past + 1 ≤ state.run.attempts

theorem standing_snoc (past : List PlatformEvent) (event : PlatformEvent) :
    standing (past ++ [event]) =
      if resubmits event then none else (mark event).or (standing past) :=
  latestSince_snoc resubmits mark past event

theorem failures_snoc (past : List PlatformEvent) (event : PlatformEvent) :
    failures (past ++ [event]) = if resubmits event then 0 else
      if (fails event).isSome then failures past + 1 else failures past :=
  countSince_snoc resubmits _ past event

theorem Covered.quiet {past : List PlatformEvent} {event : PlatformEvent} {before after : State}
    (covered : Covered past before) (settled : resubmits event = false)
    (unmarked : mark event = none) (unfailed : fails event = none)
    (kept : before.run.attempts ≤ after.run.attempts) : Covered (past ++ [event]) after := by
  constructor
  · rw [failures_snoc, settled, unfailed]
    exact Nat.le_trans covered.failed kept
  · intro thread
    rw [standing_snoc, failures_snoc, settled, unmarked, unfailed]
    exact fun started => Nat.le_trans (covered.started thread started) kept

theorem Covered.taken {past : List PlatformEvent} {event : PlatformEvent}
    (covered : Covered past event.before) (settled : resubmits event = false)
    (marked : mark event = some .taken) (unfailed : fails event = none)
    (running : refunds event = true → ∃ thread, standing past = some (.started thread))
    (once : event.before.run.attempts ≤ event.after.run.attempts + 1) :
    Covered (past ++ [event]) event.after := by
  constructor
  · rw [failures_snoc, settled, unfailed]
    show failures past ≤ event.after.run.attempts
    have enough := covered.failed
    by_cases fewer : event.after.run.attempts < event.before.run.attempts
    · obtain ⟨thread, started⟩ := running (by simp [refunds, marked, fewer])
      have spare := covered.started thread started
      omega
    · omega
  · intro thread
    rw [standing_snoc, settled, marked]
    exact nofun

theorem Covered.begun {past : List PlatformEvent} {event : PlatformEvent}
    (covered : Covered past event.before) (settled : resubmits event = false)
    (unfailed : fails event = none)
    (counts : event.before.run.attempts + 1 ≤ event.after.run.attempts) :
    Covered (past ++ [event]) event.after := by
  have enough := Nat.le_trans (Nat.succ_le_succ covered.failed) counts
  constructor
  · rw [failures_snoc, settled, unfailed]
    exact Nat.le_of_succ_le enough
  · intro _ _
    rw [failures_snoc, settled, unfailed]
    exact enough

theorem Covered.ended {past : List PlatformEvent} {event : PlatformEvent}
    (covered : Covered past event.before) (settled : resubmits event = false)
    (marked : mark event = some .stored) (unfailed : fails event = none)
    (kept : event.before.run.attempts ≤ event.after.run.attempts) :
    Covered (past ++ [event]) event.after := by
  constructor
  · rw [failures_snoc, settled, unfailed]
    exact Nat.le_trans covered.failed kept
  · intro thread
    rw [standing_snoc, settled, marked]
    exact nofun

theorem Covered.spent {past : List PlatformEvent} {event : PlatformEvent} {thread : Nat}
    (covered : Covered past event.before) (settled : resubmits event = false)
    (marked : mark event = some .stored) (failed : fails event = some thread)
    (own : standing past = some (.started thread))
    (kept : event.before.run.attempts ≤ event.after.run.attempts) :
    Covered (past ++ [event]) event.after := by
  constructor
  · rw [failures_snoc, settled, failed]
    exact Nat.le_trans (covered.started thread own) kept
  · intro other
    rw [standing_snoc, settled, marked]
    exact nofun

section Runs

variable {deployment : Deployment} {admitted : Entry → Bool} {past : List PlatformEvent}
  {thread : Nat} {tag : Tag} {op : Op} {oracle : op.Answer} {state : State} {phase : Phase}

structure Accounts (past : List PlatformEvent) (event : PlatformEvent) : Prop where
  running : refunds event = true → ∃ thread, standing past = some (.started thread)
  own : ∀ thread, fails event = some thread → standing past = some (.started thread)
  current : lowers event = false

theorem covered_update {site : Site} {expected : Expected} {row : AgentRun} {before after : State}
    (covered : Covered past before) (left : after.run = row)
    (accounts : Accounts past
      (.acted thread tag (.run (.updateIfCurrent site expected row)) true before after)) :
    Covered (past ++
      [.acted thread tag (.run (.updateIfCurrent site expected row)) true before after]) after := by
  subst left
  have kept : least site before.run.attempts ≤ after.run.attempts := by
    simpa [lowers] using accounts.current
  cases site with
  | attemptStart attempt => exact covered.begun rfl rfl kept
  | attemptFailed attempt attempts error =>
      exact covered.spent rfl rfl rfl (accounts.own thread rfl) kept
  | recovered => exact covered.spent rfl rfl rfl (accounts.own thread rfl) kept
  | recover => exact covered.taken rfl rfl rfl accounts.running (Nat.le_add_of_sub_le kept)
  | reclaim => exact covered.taken rfl rfl rfl accounts.running (Nat.le_add_of_sub_le kept)
  | agentSucceeded => exact covered.ended rfl rfl rfl kept
  | finish => exact covered.ended rfl rfl rfl kept
  | backgroundFailure => exact covered.ended rfl rfl rfl kept
  | _ => exact covered.quiet rfl rfl rfl kept

theorem covered_acted (covered : Covered past state)
    (accounts : Accounts past
      ((platformSystem deployment admitted).performed thread tag op oracle state)) :
    Covered (past ++ [(platformSystem deployment admitted).performed thread tag op oracle state])
      (Op.perform op oracle state).2 := by
  cases op with
  | run op =>
      cases op with
      | updateIfCurrent site expected row =>
          by_cases hit : expected.admits state.run = true
          · have left : Op.perform (.run (.updateIfCurrent site expected row)) oracle state =
                (true, { state with run := row }) := by
              simp [Op.perform, RunOp.perform, State.updateIfCurrent, hit]
            simp only [System.performed, platformSystem, left] at accounts ⊢
            exact covered_update covered rfl accounts
          · have left : Op.perform (.run (.updateIfCurrent site expected row)) oracle state =
                (false, state) := by
              simp [Op.perform, RunOp.perform, State.updateIfCurrent, hit]
            simp only [System.performed, platformSystem, left]
            exact covered.quiet rfl rfl (by cases site <;> rfl) (Nat.le_refl _)
      | updateRunWithCallback site expected row delivery =>
          by_cases hit : expected.admits state.run = true
          · have left : Op.perform (.run (.updateRunWithCallback site expected row delivery)) oracle
                state = (true,
                  { state with run := row, callbacks := state.callbacks.upsert delivery }) := by
              simp [Op.perform, RunOp.perform, hit]
            have current := accounts.current
            simp only [System.performed, platformSystem, left, lowers, Bool.true_and,
              decide_eq_false_iff_not, Nat.not_lt] at current ⊢
            exact covered.quiet rfl rfl rfl current
          · have left : Op.perform (.run (.updateRunWithCallback site expected row delivery)) oracle
                state = (false, state) := by
              simp [Op.perform, RunOp.perform, hit]
            simp only [System.performed, platformSystem, left]
            exact covered.quiet rfl rfl rfl (Nat.le_refl _)
      | retry row =>
          constructor
          · rw [failures_snoc]
            exact Nat.zero_le _
          · intro other
            rw [standing_snoc]
            intro wrong
            cases wrong
      | renewUpdate loaded lease => exact covered.quiet rfl rfl rfl (Nat.le_refl _)
      | get => exact covered.quiet rfl rfl rfl (Nat.le_refl _)
      | renewSelect worker => exact covered.quiet rfl rfl rfl (Nat.le_refl _)
  | _ => exact covered.quiet rfl rfl rfl (by simp [Op.perform])

theorem covered_launched {config : PlatformConfig} {entry : Entry} {after : State}
    {spawned : Option Activity} (covered : Covered past config.state)
    (launched : (platformSystem deployment admitted).launch entry config = some (after, spawned))
    (accounts : Accounts past
      (.launched entry (System.spawnedThread config spawned) config.state after)) :
    Covered (past ++ [.launched entry (System.spawnedThread config spawned) config.state after])
      after := by
  cases entry with
  | dispatchReady process leaseSeconds =>
      have once : config.state.run.attempts ≤ after.run.attempts + 1 := by
        rw [launch_effect launched]
        show config.state.run.attempts ≤ (claimedRun _ _ _ _).attempts + 1
        unfold claimedRun
        simp only
        split <;> omega
      let event : PlatformEvent :=
        .launched (.dispatchReady process leaseSeconds) (System.spawnedThread config spawned)
          config.state after
      have start : Covered past event.before := covered
      exact start.taken rfl rfl rfl accounts.running once
  | _ =>
      have kept : config.state.run.attempts ≤ after.run.attempts := by
        rcases launch_moves launched with same | ⟨_, _, same, _⟩
        · rw [same]
        · cases same
      exact covered.quiet rfl rfl rfl kept

theorem covered_inductive : (discipline deployment admitted).Inductive Accounts
    fun past state _ => Covered past state where
  acts _ _ _ _ _ _ _ _ covered _ _ _ accounts := covered_acted covered accounts
  launches _ _ _ _ _ _ _ covered launched accounts := covered_launched covered launched accounts

def Numbered (phases : List Phase) : Prop :=
  ∀ (thread : Nat) process worker progress attempt run,
    phases[thread]? = some (.execution process worker progress) →
    progress.step = .running attempt run → run.attempts = attempt

theorem numbered_after {process : Process} {worker : Option Process} {progress : Progress}
    {answer : op.Answer} {attempt : Nat} {run : AgentRun}
    (numbered : ∀ attempt run, progress.step = .running attempt run → run.attempts = attempt)
    (permitted : Permitted process worker progress op)
    (step : (progress.after op answer).step = .running attempt run) : run.attempts = attempt := by
  cases permitted with
  | attemptStart number now seen live mayStart positive =>
      cases answer with
      | true =>
          cases step
          rfl
      | false => cases step
  | agentSucceeded output now step' seen => cases answer <;> cases step
  | attemptFailed attempts timeout error step' bounded => cases answer <;> cases step
  | recovered attempts timeout error result now step' => cases answer <;> cases step
  | finish now finishes => cases answer <;> cases step
  | backgroundFailure error seen breaks raised => cases step
  | skipCallback prepares declined => cases step
  | prepareCallback url body now prepares subscribed known named told unraised => cases step
  | release seen releases => cases step
  | deadLetter reason seen releases => cases step
  | _ => exact numbered attempt run step

theorem numbered_inductive : (discipline deployment admitted).Inductive (fun _ _ => True)
    fun _ _ phases => Numbered phases where
  acts past state phases thread tag op oracle phase numbered present _ permitted _ := by
    intro index process worker progress attempt run found step
    rcases observe_phase present found with ⟨rfl, same⟩ | ⟨_, old⟩
    · cases phase with
      | execution own lease earlier =>
          cases same
          exact numbered_after (fun attempt run => numbered index process worker earlier attempt run
            present) permitted step
      | _ => cases same
    · exact numbered index process worker progress attempt run old step
  launches past config phases entry state spawned _ numbered launched _ := by
    intro index process worker progress attempt run found step
    rcases launch_phase launched found with old | ⟨_, start⟩
    · exact numbered index process worker progress attempt run old step
    · have opening : progress = { step := .opening } := Entry.phase_opening start
      rw [opening] at step
      cases step

end Runs

theorem mark_decider {event : PlatformEvent} (unmarked : mark event = none) :
    decider event = none := by
  unfold decider
  split
  · next own tag site expected row answer before after =>
      cases answer with
      | false => rfl
      | true => cases site <;> first | rfl | cases unmarked
  · rfl

theorem mark_taken {event : PlatformEvent} (marked : mark event = some .taken) :
    (∃ process leaseSeconds spawned before after,
      event = .launched (.dispatchReady process leaseSeconds) spawned before after) ∨
    (∃ own tag site expected row before after, event = .acted own tag
      (.run (.updateIfCurrent site expected row)) true before after ∧
      (site = .recover ∨ site = .reclaim)) := by
  unfold mark at marked
  split at marked
  · exact Or.inl ⟨_, _, _, _, _, rfl⟩
  · next own tag site expected row answer before after =>
      cases answer with
      | false => cases marked
      | true =>
          right
          refine ⟨own, tag, site, expected, row, before, after, rfl, ?_⟩
          cases site with
          | recover => exact Or.inl rfl
          | reclaim => exact Or.inr rfl
          | _ => cases marked
  · cases marked

/-- An attempt that has started and stored nothing since is interrupted by whatever
takes the row. -/
theorem interrupted_of_standing {past : List PlatformEvent} {thread : Nat}
    (started : standing past = some (.started thread)) : Interrupted past := by
  obtain ⟨left, start, between, rfl, marked, silent⟩ := latestSince_split started
  refine ⟨left, start, between, thread, rfl, marked, ?_⟩
  intro event member
  obtain ⟨settled, unmarked⟩ := silent event member
  exact ⟨settled, mark_decider unmarked, by simp [refunds, unmarked]⟩

section Budget

variable {deployment : Deployment} {admitted : Entry → Bool} {start : State}
  {past later events : List PlatformEvent} {event : PlatformEvent} {final : PlatformConfig}

theorem announced_site {digest : Digest} {phase : Phase} {site : Site} {expected : Expected}
    {row : AgentRun} {delivery : CallbackDelivery}
    (permitted : phase.permits digest (.run (.updateRunWithCallback site expected row delivery))) :
    site = .prepareCallback ∨ site = .delivered := by
  cases phase <;> cases permitted
  · exact Or.inl rfl
  · exact Or.inl rfl
  · exact Or.inr rfl

theorem held_current {own : Nat} {role : Role} {site : Site} {counter : Nat} {before : State}
    (known : held own role site past = some counter)
    (current : (true && (held own role site past).any (· < before.run.attempts)) = false) :
    before.run.attempts ≤ counter := by
  rw [known] at current
  simpa using current

/-- A write of the counter in hand takes at most the attempt of a requeue back. -/
theorem unlowered
    (ran : (platformSystem deployment admitted).Run (atRest start) (past ++ event :: later) final)
    (current : behind past event = false) : lowers event = false := by
  unfold lowers
  split
  · next own tag site expected row answer before after =>
      cases answer with
      | false => rfl
      | true =>
          obtain ⟨counter, known, carries⟩ := stored_counter ran ⟨rfl, rfl, rfl⟩
          have enough := held_current known current
          have kept : least site before.run.attempts ≤ row.attempts := by
            cases site <;> simp only [Carries] at carries <;> simp only [least] <;> omega
          simpa using kept
  · next own tag site expected row delivery answer before after =>
      cases answer with
      | false => rfl
      | true =>
          obtain ⟨counter, known, carries⟩ := stored_counter ran ⟨rfl, rfl, rfl⟩
          have enough := held_current known current
          obtain ⟨phase, _, _, _, permitted, _⟩ :=
            Discipline.run_permits (D := discipline deployment admitted) ran rfl
          have kept : row.attempts = counter := by
            rcases announced_site permitted with rfl | rfl <;> exact carries
          simp only [Bool.true_and, decide_eq_false_iff_not]
          omega
  · rfl

theorem claimed_attempts {process : Process} {leaseSeconds : Nat} {spawned : Option (Nat × Tag)}
    {before after : State}
    (ran : (platformSystem deployment admitted).Run (atRest start)
      (past ++ .launched (.dispatchReady process leaseSeconds) spawned before after :: later)
      final) : after.run.attempts =
      if before.run.status.executing then before.run.attempts - 1 else before.run.attempts := by
  obtain ⟨config, activity, _, rfl, launched, _⟩ :=
    Discipline.run_launches (D := discipline deployment admitted) ran rfl
  rw [launch_effect launched]
  rfl

/-- Only a row that looks running gives an attempt back. -/
theorem refunds_takesBack
    (ran : (platformSystem deployment admitted).Run (atRest start) (past ++ event :: later) final)
    (current : behind past event = false) (refunded : refunds event = true) :
    takesBack event = true := by
  simp only [refunds, Bool.and_eq_true, decide_eq_true_eq] at refunded
  obtain ⟨marked, fewer⟩ := refunded
  have executing : event.before.run.status.executing = true := by
    rcases mark_taken marked with ⟨process, leaseSeconds, spawned, before, after, rfl⟩ |
      ⟨own, tag, site, expected, row, before, after, rfl, requeues⟩
    · have claimed := claimed_attempts ran
      have lower : after.run.attempts < before.run.attempts := fewer
      show before.run.status.executing = true
      by_contra waiting
      rw [if_neg waiting] at claimed
      omega
    · obtain ⟨hit, left⟩ := updated_row ran
      obtain ⟨counter, known, carries⟩ := stored_counter ran ⟨rfl, rfl, rfl⟩
      have enough := held_current known current
      have same : after.run.attempts = row.attempts := by rw [left]
      have lower : after.run.attempts < before.run.attempts := fewer
      have status := admitted_status hit
      show before.run.status.executing = true
      rcases requeues with rfl | rfl
      · rcases carries with kept | ⟨_, statuses⟩
        · omega
        · exact statuses _ status
      · exact carries.2 _ status
  simp only [takesBack, marked, executing, decide_true, Bool.true_and, decide_eq_true_eq]
  omega

theorem Accounted.accounts
    (ran : (platformSystem deployment admitted).Run (atRest start) (past ++ event :: later) final)
    (accounted : Accounted (past ++ event :: later)) : Accounts past event :=
  have current := accounted.current past event later rfl
  ⟨fun refunded => accounted.running past event later rfl (refunds_takesBack ran current refunded),
    fun thread => accounted.own past event later thread rfl, unlowered ran current⟩

theorem Accounted.covered
    (ran : (platformSystem deployment admitted).Run (atRest start) (past ++ event :: later) final)
    (accounted : Accounted (past ++ event :: later)) :
    Covered past event.before ∧ Covered (past ++ [event]) event.after := by
  have allowed : ∀ left item right, past ++ [event] = left ++ item :: right → Accounts left item := by
    intro left item right split
    have grouped : past ++ event :: later = left ++ item :: (right ++ later) := by
      rw [← List.cons_append, ← List.append_assoc, ← split]
      simp
    exact Accounted.accounts (grouped ▸ ran) (grouped ▸ accounted)
  have initial : Covered [] start := ⟨Nat.zero_le _, nofun⟩
  constructor
  · apply covered_inductive.before_event ran rfl _ initial
    rintro left item right rfl
    exact allowed left item (right ++ [event]) (by simp)
  · have grouped : past ++ event :: later = (past ++ [event]) ++ later := by simp
    rw [grouped] at ran
    obtain ⟨middle, reached, _⟩ := ran.split
    rw [reached.ends]
    exact covered_inductive.run reached rfl allowed initial

theorem refund_once
    (ran : (platformSystem deployment admitted).Run (atRest start) (past ++ event :: later) final)
    (current : lowers event = false) (refunded : refunds event = true) :
    event.before.run.attempts = event.after.run.attempts + 1 := by
  simp only [refunds, Bool.and_eq_true, decide_eq_true_eq] at refunded
  obtain ⟨marked, fewer⟩ := refunded
  have once : event.before.run.attempts ≤ event.after.run.attempts + 1 := by
    rcases mark_taken marked with ⟨process, leaseSeconds, spawned, before, after, rfl⟩ |
      ⟨own, tag, site, expected, row, before, after, rfl, requeues⟩
    · show before.run.attempts ≤ after.run.attempts + 1
      rw [claimed_attempts ran]
      split <;> omega
    · have left := (updated_row ran).2
      show before.run.attempts ≤ after.run.attempts + 1
      rw [left]
      simp only [lowers, Bool.true_and, decide_eq_false_iff_not, Nat.not_lt] at current
      rcases requeues with rfl | rfl <;> exact Nat.le_add_of_sub_le current
  omega

end Budget

/-- While nothing takes the row between two attempts, no execution stores the failure of
another one's attempt and no thread writes an outdated counter, the failures stay within
the attempts that the executor allows, and each refund is that of an interrupted attempt. -/
theorem failures_within_budget {deployment : Deployment} {start : State}
    {events : List PlatformEvent} {final : PlatformConfig}
    (ran : (platformSystem deployment fun _ => true).Run (atRest start) events final)
    (accounted : Accounted events) : Budgeted events := by
  constructor
  · rintro past thread tag attempt attempts error expected row before after later rfl
    obtain ⟨phase, oracle, present, _, permitted, _⟩ :=
      Discipline.run_permits (D := discipline deployment fun _ => true) ran rfl
    have numbered : Numbered ((discipline deployment fun _ => true).phases past) := by
      obtain ⟨middle, reached, _⟩ := ran.split
      apply numbered_inductive.run reached rfl (fun _ _ _ _ => trivial)
      intro index process worker progress attempt run found
      cases found
    have started := (accounted.covered ran).1.started thread
      (accounted.own past _ later thread rfl rfl)
    have current := unlowered ran (accounted.current past _ later rfl)
    simp only [lowers, Bool.true_and, decide_eq_false_iff_not, Nat.not_lt] at current
    cases phase with
    | execution process worker progress =>
        cases permitted with
        | @attemptFailed _ run _ timeout _ step bounded =>
            have number := numbered thread process worker progress attempt run present step
            calc failures past + 1
              _ ≤ before.run.attempts := started
              _ ≤ (RunExecutor.failedRun run attempt attempts timeout error).attempts := current
              _ = attempt := number
              _ ≤ attempts := bounded
    | manager process job progress => cases permitted
    | tool context progress => cases permitted
    | stage index context stageKey progress => cases permitted
    | checkpoint index context stageKey progress => cases permitted
  · rintro past event later rfl
    exact (accounted.covered ran).2.failed
  · rintro past event later rfl refunded
    have accounts := accounted.accounts ran
    obtain ⟨thread, started⟩ := accounts.running refunded
    exact ⟨interrupted_of_standing started, refund_once ran accounts.current refunded⟩

def hopeless : (op : External) → Except Exc op.Result
  | .agentRun _ _ => .error (.runtime "no answer")
  | op => persistent op

/-- The first attempt fails, the worker dies while it backs off, and the second worker
claims the run. -/
def diesBackingOff : List (Move platform Entry) :=
  [.launch (.dispatchReady "worker-1" 30)] ++ steps 16 0 hopeless ++ [.launch (.tick 30)] ++
    [.launch (.dispatchReady "worker-2" 30)] ++ steps 27 1 hopeless

def exceeds (past : List PlatformEvent) : PlatformEvent → Bool
  | .acted _ _ (.run (.updateIfCurrent (.attemptFailed _ attempts _) _ _)) answer _ _ =>
      answer && attempts ≤ failures past
  | _ => false

theorem exceeds_spec {past later : List PlatformEvent} {event : PlatformEvent}
    (exceeded : exceeds past event = true) : ¬ Budgeted (past ++ event :: later) := by
  intro budgeted
  unfold exceeds at exceeded
  split at exceeded
  · simp only [Bool.and_eq_true, decide_eq_true_eq] at exceeded
    obtain ⟨rfl, many⟩ := exceeded
    have bounded := budgeted.bounded _ _ _ _ _ _ _ _ _ _ _ rfl
    omega
  · cases exceeded

theorem diesBackingOff_replays : ((platformSystem sampleDeployment fun _ => true).replay
    (atRest (State.initial sampleRun 0 none)) diesBackingOff).any (fun outcome =>
      (outcome.1[45]?).any (exceeds (outcome.1.take 45))) = true := rfl

/-- A third failure of a run with two attempts is stored. -/
theorem budget_exceeded : ∃ events final,
    (platformSystem sampleDeployment fun _ => true).Run
      (atRest (State.initial sampleRun 0 none)) events final ∧ ¬ Budgeted events := by
  obtain ⟨events, final, ran, checked⟩ := System.replay_checked diesBackingOff_replays
  obtain ⟨event, found, exceeded⟩ := (Option.any_eq_true _ _).mp checked
  have split : events = events.take 45 ++ event :: events.drop 46 := split_at found
  refine ⟨events, final, ran, ?_⟩
  intro budgeted
  rw [split] at budgeted
  exact exceeds_spec exceeded budgeted

def diesRunning : List (Move platform Entry) :=
  [.launch (.dispatchReady "worker-1" 30)] ++ steps 10 0 hopeless ++ [.launch (.tick 30)] ++
    [.launch (.dispatchReady "worker-2" 30)] ++ steps 27 1 hopeless

def accounts (past : List PlatformEvent) (event : PlatformEvent) : Bool :=
  (!takesBack event || (standing past).any fun mark => match mark with
    | .started _ => true
    | _ => false) &&
  (fails event).all (fun thread => standing past = some (.started thread)) && !behind past event

theorem accounted_of_checked {events : List PlatformEvent}
    (checked : everyAt accounts events = true) : Accounted events := by
  have each : ∀ past event later, events = past ++ event :: later →
      accounts past event = true := by
    rintro past event later rfl
    exact everyAt_split checked
  simp only [accounts, Bool.and_eq_true, Bool.or_eq_true, Bool.not_eq_true',
    Option.any_eq_true, Option.all_eq_true, decide_eq_true_eq] at each
  constructor
  · intro past event later split taken
    rcases (each past event later split).1.1 with spared | ⟨mark, found, started⟩
    · rw [taken] at spared
      cases spared
    · split at started
      · exact ⟨_, found⟩
      · cases started
  · exact fun past event later thread split => (each past event later split).1.2 thread
  · exact fun past event later split => (each past event later split).2

theorem diesRunning_replays : ((platformSystem sampleDeployment fun _ => true).replay
    (atRest (State.initial sampleRun 0 none)) diesRunning).any (fun outcome =>
      everyAt accounts outcome.1 && outcome.1.any refunds && failures outcome.1 = 2) = true := rfl

theorem failures_within_budget_interrupted : ∃ events final,
    (platformSystem sampleDeployment fun _ => true).Run
      (atRest (State.initial sampleRun 0 none)) events final ∧
    events.any refunds = true ∧ failures events = 2 ∧ Budgeted events := by
  obtain ⟨events, final, ran, checked⟩ := System.replay_checked diesRunning_replays
  simp only [Bool.and_eq_true, decide_eq_true_eq] at checked
  obtain ⟨⟨accounted, refunded⟩, failed⟩ := checked
  exact ⟨events, final, ran, refunded, failed,
    failures_within_budget ran (accounted_of_checked accounted)⟩

end AgentTaskPlatform.AttemptBudget
