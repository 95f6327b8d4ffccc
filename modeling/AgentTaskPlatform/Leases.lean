import AgentTaskPlatform.Fencing
import AgentTaskPlatform.Renewal

/-!
The lease of a run that its owner keeps writing. Every update of the row stores
a whole run object, and with it the lease that the object was read with. The
object of a failed attempt is the one its attempt started with, so its write
takes back whatever the renewal loop has stored in the meantime.
-/

namespace AgentTaskPlatform.Leases

open Interleaving Interleaving.System Fencing

def Covers (old new : Option Nat) : Prop :=
  ∀ stored, old = some stored → ∃ lease, new = some lease ∧ stored ≤ lease

theorem covers_self (lease : Option Nat) : Covers lease lease :=
  fun stored same => ⟨stored, same, Nat.le_refl stored⟩

def OwnWrite (process : Process) : PlatformEvent → Prop
  | .acted _ tag _ _ _ after => tag.process = process ∧ after.run.worker = some process
  | _ => False

structure Keeps (event : PlatformEvent) : Prop where
  lease : Covers event.before.run.leaseExpireTime event.after.run.leaseExpireTime
  unclaimable : ∀ now stored, event.before.run.status.executing = true →
    event.before.run.leaseExpireTime = some stored → now < stored →
    claimable event.after.run now = false

/-- Since the thread has taken the object that it writes, another commit has left a
later lease. -/
def Outdated (thread : Nat) (site : Site) (past : List PlatformEvent) : Prop :=
  Since (basis thread site past)
    (fun state run => ¬ Covers state.run.leaseExpireTime run.leaseExpireTime) past

def Restores (thread : Nat) (site : Site) : PlatformEvent → Prop
  | .acted own tag op _ before after => own = thread ∧
      (∃ expected row, op.stores site expected row ∧ expected.admits before.run = true) ∧
      after.run.worker = some tag.process
  | _ => False

section Sources

variable {digest : Digest} {phase : Phase} {op : Op} {oracle : op.Answer} {state : State}
  {site : Site} {expected : Expected} {row : AgentRun}

/-- An update that keeps the worker never requeues a run. -/
theorem moves_queued {before after : RunStatus} (moves : site.moves before after)
    (executing : before.executing = true) (keeps : clears site = false) : after ≠ .queued := by
  have queued : before ≠ .queued := by
    rintro rfl
    exact absurd executing (by decide)
  have settled : ¬ (before = .agentSucceeded ∨ before = .waitingCallback) := by
    rintro (rfl | rfl) <;> exact absurd executing (by decide)
  have announced : ¬ (before = .agentSucceeded ∨ before = .succeeded) := by
    rintro (rfl | rfl) <;> exact absurd executing (by decide)
  cases site with
  | attemptStart attempt =>
      rw [moves.2]
      split <;> exact nofun
  | attemptFailed attempt attempts error =>
      rw [moves.2]
      rcases RunExecutor.classify_status attempt attempts error with same | same | same <;>
        rw [same] <;> exact nofun
  | skipCallback =>
      simp only [Site.moves, RunStatus.settles, if_neg settled] at moves
      rwa [moves]
  | delivered =>
      simp only [Site.moves, RunStatus.settles, if_neg settled] at moves
      rwa [moves]
  | prepareCallback =>
      simp only [Site.moves, RunStatus.announces, if_neg announced] at moves
      rwa [moves]
  | recover => cases keeps
  | reclaim => cases keeps
  | _ => simp_all [Site.moves]

end Sources

def Within (state : State) (process : Process) (run : AgentRun) : Prop :=
  ∀ seconds lease, state.leaseSeconds process = some seconds →
    run.leaseExpireTime = some lease → lease ≤ state.clock + seconds

/-- No lease in the row or in the hands of a thread exceeds what a renewal of its
process would store now, and no lease changes while a renewal runs. -/
structure Inv (first : Option Process) (past : List PlatformEvent) (config : PlatformConfig)
    (phases : List Phase) : Prop where
  fencing : Fencing.Inv first past config phases
  row : ∀ process, config.state.run.worker = some process →
    Within config.state process config.state.run
  read : ∀ (thread : Nat) tag op next phase run,
    config.threads[thread]? = some ⟨tag, .act op next⟩ → phases[thread]? = some phase →
    op.awaits = false → phase.seen = some run → run.worker = some phase.process →
    Within config.state phase.process run
  written : ∀ (thread : Nat) tag op next phase run,
    config.threads[thread]? = some ⟨tag, .act op next⟩ → phases[thread]? = some phase →
    phase.written = some run → Within config.state phase.process run
  renewing : ∀ (thread : Nat) tag op next process seconds progress,
    config.threads[thread]? = some ⟨tag, .act op next⟩ →
    phases[thread]? = some (.manager process (.renewal seconds) progress) →
    config.state.leaseSeconds process = some seconds ∧
      ∀ now, progress.now = some now → now ≤ config.state.clock ∧
        (config.state.run.worker = some process →
          Covers config.state.run.leaseExpireTime (some (now + seconds)))

def renewsOwn (_ : List PlatformEvent) (event : PlatformEvent) : Prop :=
  ∀ thread process, Renewal.Renews thread process event → Renewal.Fenced process event

section Steps

variable {digest : Digest} {phase : Phase} {op : Op} {oracle : op.Answer} {state : State}

theorem perform_clock (op : Op) (oracle : op.Answer) (state : State) :
    (Op.perform op oracle state).2.clock = state.clock ∧
      (Op.perform op oracle state).2.leaseSeconds = state.leaseSeconds := by
  cases op with
  | run op =>
      obtain ⟨_, _, _, same⟩ := op.perform_frame state
      simp only [Op.perform, same, and_self]
  | stage op =>
      obtain ⟨_, same⟩ := op.perform_frame state
      simp only [Op.perform, same, and_self]
  | callback op =>
      obtain ⟨_, same⟩ := op.perform_frame state
      simp only [Op.perform, same, and_self]
  | process op =>
      obtain ⟨_, _, _, _, same⟩ := op.perform_frame state
      simp only [Op.perform, same, and_self]
  | external op => exact ⟨rfl, rfl⟩

theorem within_perform {process : Process} {run : AgentRun} (op : Op) (oracle : op.Answer)
    (within : Within state process run) : Within (Op.perform op oracle state).2 process run := by
  obtain ⟨clock, seconds⟩ := perform_clock op oracle state
  intro length lease known stored
  rw [seconds] at known
  rw [clock]
  exact within length lease known stored

theorem renewal_awake {process : Process} {seconds : Nat} {progress : ManagerProtocol.Progress}
    (permitted : ManagerProtocol.Permitted process (.renewal seconds) progress op) :
    op.awaits = false := by
  cases permitted with
  | external op _ leaves => exact leaves.elim
  | post body dispatches _ _ _ => exact dispatches.elim
  | _ => rfl

end Steps

section Runs

variable {deployment : Deployment} {first : Option Process} {past : List PlatformEvent}
  {config : PlatformConfig} {phases : List Phase} {thread : Nat} {tag : Tag} {op : Op}
  {next : op.Answer → Program platform (Except Exc Json)} {oracle : op.Answer} {phase : Phase}
  {site : Site} {expected : Expected} {row : AgentRun}

theorem stores_awake (stores : op.stores site expected row) : op.awaits = false := by
  cases op with
  | external op => exact stores.elim
  | _ => rfl

theorem Inv.stored_within (inv : Inv first past config phases)
    (present : config.threads[thread]? = some ⟨tag, .act op next⟩)
    (named : phases[thread]? = some phase) (permitted : phase.permits deployment.digest op)
    (stores : op.stores site expected row) (admitted : expected.admits config.state.run = true)
    {process : Process} (held : row.worker = some process) :
    process = phase.process ∧ clears site = false ∧ Within config.state process row := by
  have awake := stores_awake stores
  have informed := inv.fencing.informed present named awake
  rcases stores_worker informed permitted stores admitted with ⟨_, column⟩ | ⟨_, none, _⟩
  · rw [held] at column
    split at column
    · cases column
    · next keeps =>
        have keeps : clears site = false := by simpa using keeps
        cases column
        refine ⟨rfl, keeps, ?_⟩
        intro seconds lease known stored
        cases Hands.stores_source permitted stores with
        | stored run wrote _ derived =>
            obtain ⟨_, same⟩ := derived.owner keeps
            exact inv.written thread tag op next phase run present named wrote seconds lease known
              (same.symm.trans stored)
        | read run seen _ _ derived =>
            obtain ⟨worker, same⟩ := derived.owner keeps
            exact inv.read thread tag op next phase run present named awake seen
              (worker.symm.trans held) seconds lease known (same.symm.trans stored)
        | handed process job progress run managed seen hands derived =>
            subst managed
            rcases hands with clearing | notifies
            · rw [keeps] at clearing
              cases clearing
            · exact absurd notifies informed.leased
  · rw [held] at none
    cases none

theorem Inv.stored_held (inv : Inv first past config phases)
    (present : config.threads[thread]? = some ⟨tag, .act op next⟩)
    (named : phases[thread]? = some phase) (permitted : phase.permits deployment.digest op)
    (stores : op.stores site expected row) (admitted : expected.admits config.state.run = true)
    (keeps : clears site = false) : row.worker = some phase.process := by
  have informed := inv.fencing.informed present named (stores_awake stores)
  rcases stores_worker informed permitted stores admitted with ⟨_, column⟩ | ⟨clearing, _⟩
  · rw [column, keeps]
    rfl
  · rw [keeps] at clearing
    cases clearing

theorem Inv.changed_by (inv : Inv first past config phases)
    (present : config.threads[thread]? = some ⟨tag, .act op next⟩)
    (named : phases[thread]? = some phase) (permitted : phase.permits deployment.digest op)
    (own : renewsOwn past ((platformSystem deployment queued).performed thread tag op oracle
      config.state)) (belongs : phase.belongs tag) {process : Process}
    (held : (Op.perform op oracle config.state).2.run.worker = some process) :
    process = phase.process ∨
      (Op.perform op oracle config.state).2.run = config.state.run := by
  rcases perform_run op oracle config.state with
    same | ⟨site, expected, row, stores, admitted, same⟩ | ⟨row, rfl, same⟩ | ⟨loaded, lease, rfl, same⟩
  · exact Or.inr same
  · rw [same] at held
    exact Or.inl (inv.stored_within present named permitted stores admitted held).1
  · rw [same, retry_frees permitted] at held
    cases held
  · left
    have fenced : Renewal.Fenced tag.process _ := own thread tag.process ⟨rfl, rfl⟩
    simp only [Renewal.Fenced, leasedBy, Bool.and_eq_true, decide_eq_true_eq] at fenced
    rw [same] at held
    have both : some process = some tag.process := held.symm.trans fenced.1
    rw [← Phase.belongs_process belongs]
    exact Option.some.inj both

theorem within_covers {state : State} {process : Process} {run : AgentRun} {seconds : Nat}
    (within : Within state process run) (known : state.leaseSeconds process = some seconds) :
    Covers run.leaseExpireTime (some (state.clock + seconds)) := by
  intro stored same
  exact ⟨_, rfl, within seconds stored known same⟩

/-- The step of a renewal keeps the row within the lease it is about to store. -/
theorem renewing_after {state : State} {process : Process} {seconds : Nat}
    {progress : ManagerProtocol.Progress}
    (permitted : ManagerProtocol.Permitted process (.renewal seconds) progress op)
    (known : state.leaseSeconds process = some seconds)
    (row : state.run.worker = some process → Within state process state.run)
    (covers : ∀ now, progress.now = some now → now ≤ state.clock ∧
      (state.run.worker = some process →
        Covers state.run.leaseExpireTime (some (now + seconds)))) :
    ∀ now, (progress.after op (Op.perform op oracle state).1).now = some now →
      now ≤ state.clock ∧ ((Op.perform op oracle state).2.run.worker = some process →
        Covers (Op.perform op oracle state).2.run.leaseExpireTime (some (now + seconds))) := by
  intro now read
  cases permitted with
  | utcNow =>
      cases read
      exact ⟨Nat.le_refl _, fun held => within_covers (row held) known⟩
  | renewUpdate loaded job owned told =>
      cases job
      have same : now = _ := Option.some.inj (read.symm.trans told)
      rw [same]
      refine ⟨(covers _ told).1, ?_⟩
      simp only [Op.perform, RunOp.perform]
      split
      · exact (covers _ told).2
      · exact fun _ => covers_self _
  | external op _ leaves => exact leaves.elim
  | saveResent now job _ => cases job
  | saveFailed settings attempt error now dispatches _ _ => exact dispatches.elim
  | saveDelivered dispatches _ _ _ _ => exact dispatches.elim
  | saveExhausted dispatches _ _ => exact dispatches.elim
  | post body dispatches _ _ _ => exact dispatches.elim
  | setEvent job _ => cases job
  | cancel now job _ _ => cases job
  | retry agent now job _ _ => cases job
  | recover agent now job _ _ _ _ => cases job
  | reclaim now job _ _ _ _ => cases job
  | skipCallback notifies _ _ => exact notifies.elim
  | prepareCallback url body now notifies _ _ _ _ _ => exact notifies.elim
  | delivered now attempt dispatches _ _ _ => exact dispatches.elim
  | exhausted dispatches _ _ => exact dispatches.elim
  | _ => exact covers now read

theorem inv_acts (inv : Inv first past config phases)
    (tracked : (discipline deployment queued).Tracked config phases)
    (present : config.threads[thread]? = some ⟨tag, .act op next⟩)
    (idle : (platformSystem deployment queued).idleExcept config tag.process (some thread) = true)
    (named : phases[thread]? = some phase) (permitted : phase.permits deployment.digest op)
    (belongs : phase.belongs tag)
    (own : renewsOwn past ((platformSystem deployment queued).performed thread tag op oracle
      config.state)) :
    Inv first (past ++ [(platformSystem deployment queued).performed thread tag op oracle
        config.state])
      { state := (Op.perform op oracle config.state).2
        threads := config.threads.set thread ⟨tag, next (Op.perform op oracle config.state).1⟩ }
      ((discipline deployment queued).observe phases
        ((platformSystem deployment queued).performed thread tag op oracle config.state)) := by
  have others : ∀ {index : Nat} {other waiting rest}, index ≠ thread →
      (config.threads.set thread ⟨tag, next (Op.perform op oracle config.state).1⟩)[index]? =
        some ⟨other, .act waiting rest⟩ → config.threads[index]? = some ⟨other, .act waiting rest⟩ := by
    intro index other waiting rest different running
    rwa [List.getElem?_set_ne (Ne.symm different)] at running
  refine ⟨Fencing.inv_acts inv.fencing present named permitted, ?_, ?_, ?_, ?_⟩
  · intro process held
    rcases perform_run op oracle config.state with
      same | ⟨site, expected, row, stores, admitted, same⟩ | ⟨row, rfl, same⟩ | ⟨loaded, lease, rfl, same⟩
    · rw [same] at held ⊢
      exact within_perform op oracle (inv.row process held)
    · rw [same] at held ⊢
      exact within_perform op oracle
        (inv.stored_within present named permitted stores admitted held).2.2
    · rw [same, retry_frees permitted] at held
      cases held
    · have fenced : Renewal.Fenced tag.process _ := own thread tag.process ⟨rfl, rfl⟩
      simp only [Renewal.Fenced, leasedBy, Bool.and_eq_true, decide_eq_true_eq] at fenced
      cases phase with
      | manager other job progress =>
          cases permitted with
          | @renewUpdate seconds now loaded renewal owned told =>
              subst renewal
              obtain ⟨known, covers⟩ := inv.renewing thread tag
                (.run (.renewUpdate loaded (now + seconds))) next other seconds progress present named
              have mine : process = other := by
                have both : some process = some tag.process := held.symm.trans fenced.1
                rw [Option.some.inj both]
                exact Phase.belongs_manager belongs
              subst mine
              intro length lease given stored
              have given : config.state.leaseSeconds process = some length := given
              rw [known] at given
              cases given
              rw [same] at stored
              cases stored
              exact Nat.add_le_add_right (covers now told).1 seconds
      | _ => cases permitted
  · intro index other waiting rest later run running found awake seen held
    rcases observe_phase named found with ⟨rfl, rfl⟩ | ⟨different, kept⟩
    · rw [Phase.process_after] at held ⊢
      apply within_perform
      rcases seen_after permitted seen with ⟨rfl, rfl⟩ | ⟨steady, known⟩
      · exact inv.row _ held
      · exact inv.read index tag op next phase run present named steady known held
    · exact within_perform op oracle
        (inv.read index other waiting rest later run (others different running) kept awake seen held)
  · intro index other waiting rest later run running found wrote
    rcases observe_phase named found with ⟨rfl, rfl⟩ | ⟨different, kept⟩
    · rw [Phase.process_after]
      apply within_perform
      rcases written_after permitted wrote with before | ⟨site, expected, stores, hit, keeping⟩
      · exact inv.written index tag op next phase run present named before
      · exact (inv.stored_within present named permitted stores hit
          (inv.stored_held present named permitted stores hit keeping)).2.2
    · exact within_perform op oracle
        (inv.written index other waiting rest later run (others different running) kept wrote)
  · intro index other waiting rest process seconds progress running found
    have clock := perform_clock op oracle config.state
    rcases observe_phase named found with ⟨rfl, same⟩ | ⟨different, kept⟩
    · cases phase with
      | manager own job before =>
          cases same
          obtain ⟨known, covers⟩ := inv.renewing index tag op next process seconds before present
            named
          refine ⟨?_, ?_⟩
          · rw [clock.2]
            exact known
          · rw [clock.1]
            exact renewing_after permitted known (inv.row process) covers
      | _ => cases same
    · have before := others different running
      obtain ⟨known, covers⟩ := inv.renewing index other waiting rest process seconds progress
        before kept
      refine ⟨?_, ?_⟩
      · rw [clock.2]
        exact known
      · intro now read
        rw [clock.1]
        refine ⟨(covers now read).1, fun held => ?_⟩
        rcases inv.changed_by present named permitted own belongs held with same | unchanged
        · -- The event loop of the process waits for the renewal.
          obtain ⟨member, follows⟩ := tracked.follows index _ _ before kept
          have loop : other.process = tag.process := by
            rw [Phase.belongs_process belongs, ← same]
            have role : (Phase.manager process (.renewal seconds) progress).belongs other :=
              member
            exact Phase.belongs_manager role
          have parked := System.idleExcept_parked idle before (by simpa using different) loop
          have awake := renewal_awake follows.1
          rw [show waiting.awaits = true from parked] at awake
          cases awake
        · rw [unchanged] at held ⊢
          exact (covers now read).2 held

theorem launch_times {admitted : Entry → Bool} {entry : Entry} {state : State}
    {spawned : Option Activity}
    (launched : (platformSystem deployment admitted).launch entry config = some (state, spawned)) :
    (∃ process seconds, entry = .dispatchReady process seconds ∧
      state = config.state.claimReady process seconds) ∨
    (state.run = config.state.run ∧ state.leaseSeconds = config.state.leaseSeconds ∧
      config.state.clock ≤ state.clock) := by
  have effect := launch_effect launched
  cases entry with
  | dispatchReady process seconds => exact Or.inl ⟨process, seconds, rfl, effect⟩
  | tick elapsed =>
      right
      rw [effect]
      exact ⟨rfl, rfl, Nat.le_add_right _ _⟩
  | shutdown process =>
      right
      rw [effect]
      simp only [Entry.effect, State.shutdown]
      split <;> exact ⟨rfl, rfl, Nat.le_refl _⟩
  | _ =>
      right
      rw [effect]
      exact ⟨rfl, rfl, Nat.le_refl _⟩

theorem within_later {earlier later : State} {process : Process} {run : AgentRun}
    (clock : earlier.clock ≤ later.clock)
    (lengths : later.leaseSeconds process = earlier.leaseSeconds process)
    (within : Within earlier process run) : Within later process run := by
  intro seconds lease known stored
  rw [lengths] at known
  exact Nat.le_trans (within seconds lease known stored) (Nat.add_le_add_right clock seconds)

/-- A process that claims the run has no execution of it, and no thread of it is in
the middle of a step. -/
theorem claim_quiet {state : State} {spawned : Option Activity} {process : Process}
    {seconds : Nat} (tracked : (discipline deployment queued).Tracked config phases)
    (inv : Inv first past config phases)
    (launched : (platformSystem deployment queued).launch (.dispatchReady process seconds) config =
      some (state, spawned))
    (running : config.threads[thread]? = some ⟨tag, .act op next⟩)
    (named : phases[thread]? = some phase) (own : phase.process = process) :
    op.awaits = true ∧ phase.written = none := by
  obtain ⟨belongs, _⟩ := tracked.follows thread _ phase running named
  have loop : tag.process = process := (Phase.belongs_process belongs).trans own
  obtain ⟨inactive, _, idle⟩ := launch_claim launched
  constructor
  · have free := List.all_eq_true.mp idle _ (List.mem_of_getElem? running)
    simpa [loop] using free
  · cases phase with
    | execution other worker progress =>
        have leased : worker = some other := inv.fencing.leased thread _ named
        obtain ⟨_, executes⟩ := belongs
        subst leased
        have role : tag.role = .background (some other) := by
          unfold Role.executes at executes
          split at executes
          · next same => rw [same, executes]
          · cases executes
          · exact executes.elim
        have busy : active config process = true := by
          apply List.any_eq_true.mpr
          refine ⟨_, List.mem_of_getElem? running, ?_⟩
          simp [loop, role, Role.isBackground, Program.finished]
        rw [inactive] at busy
        cases busy
    | _ => rfl

theorem inv_launches {entry : Entry} {state : State} {spawned : Option Activity}
    (tracked : (discipline deployment queued).Tracked config phases)
    (inv : Inv first past config phases)
    (launched : (platformSystem deployment queued).launch entry config = some (state, spawned)) :
    Inv first
      (past ++ [.launched entry (System.spawnedThread config spawned) config.state state])
      { state := state, threads := config.threads ++ spawned.toList }
      ((discipline deployment queued).observe phases
        (.launched entry (System.spawnedThread config spawned) config.state state)) := by
  have older : ∀ {index : Nat} {phase : Phase} {other}, phases[index]? = some phase →
      (config.threads ++ spawned.toList)[index]? = some other →
      config.threads[index]? = some other := by
    intro index phase other old running
    have inside : index < config.threads.length := by
      rw [← tracked.length]
      exact (List.getElem?_eq_some_iff.mp old).1
    rwa [List.getElem?_append_left inside] at running
  -- What a thread holds stays within the lease length of its process.
  have kept : ∀ {index : Nat} {tag op next phase run},
      config.threads[index]? = some ⟨tag, .act op next⟩ → phases[index]? = some phase →
      ¬ (op.awaits = true ∧ phase.written = none) →
      Within config.state phase.process run → Within state phase.process run := by
    intro index tag op next phase run running named busy within
    rcases launch_times launched with ⟨process, seconds, rfl, rfl⟩ | ⟨_, lengths, clock⟩
    · by_cases own : phase.process = process
      · exact absurd (claim_quiet tracked inv launched running named own) busy
      · have lengths : (config.state.claimReady process seconds).leaseSeconds phase.process =
            config.state.leaseSeconds phase.process := by
          simp [State.claimReady, setAt, own]
        have clock : config.state.clock ≤ (config.state.claimReady process seconds).clock :=
          Nat.le_refl _
        exact within_later clock lengths within
    · exact within_later clock (congrFun lengths _) within
  refine ⟨Fencing.inv_launches tracked inv.fencing launched, ?_, ?_, ?_, ?_⟩
  · intro process held
    rcases launch_times launched with ⟨claimer, seconds, rfl, rfl⟩ | ⟨same, lengths, clock⟩
    · intro length lease known stored
      cases held
      simp only [State.claimReady, setAt, if_true, Option.some.injEq] at known
      cases stored
      rw [known]
      exact Nat.le_refl _
    · rw [same] at held ⊢
      exact within_later clock (congrFun lengths _) (inv.row process held)
  · intro index tag op next phase run running found awake seen held
    rcases launch_phase launched found with old | ⟨_, start⟩
    · have before := older old running
      apply kept before old _ (inv.read index tag op next phase run before old awake seen held)
      rintro ⟨awaits, _⟩
      rw [awake] at awaits
      cases awaits
    · rw [Phase.opening_seen (Entry.phase_opening start)] at seen
      cases seen
  · intro index tag op next phase run running found wrote
    rcases launch_phase launched found with old | ⟨_, start⟩
    · have before := older old running
      apply kept before old _ (inv.written index tag op next phase run before old wrote)
      rintro ⟨_, none⟩
      rw [none] at wrote
      cases wrote
    · rw [Phase.opening_written (Entry.phase_opening start)] at wrote
      cases wrote
  · intro index tag op next process seconds progress running found
    rcases launch_phase launched found with old | ⟨_, start⟩
    · have before := older old running
      obtain ⟨known, covers⟩ := inv.renewing index tag op next process seconds progress before old
      rcases launch_times launched with ⟨claimer, length, rfl, rfl⟩ | ⟨same, lengths, clock⟩
      · by_cases own : process = claimer
        · have awake := renewal_awake (tracked.follows index _ _ before old).2.1
          rw [(claim_quiet tracked inv launched before old own).1] at awake
          cases awake
        · refine ⟨by simpa [State.claimReady, setAt, own] using known, fun now read => ?_⟩
          refine ⟨(covers now read).1, fun held => ?_⟩
          cases held
          exact absurd rfl own
      · refine ⟨by rw [lengths]; exact known, fun now read => ?_⟩
        refine ⟨Nat.le_trans (covers now read).1 clock, fun held => ?_⟩
        rw [same] at held ⊢
        exact (covers now read).2 held
    · cases entry with
      | renewal owner =>
          obtain ⟨length, known, same⟩ := Option.map_eq_some_iff.mp start
          cases same
          rcases launch_times launched with ⟨_, _, other, _⟩ | ⟨_, lengths, _⟩
          · cases other
          · exact ⟨by rw [lengths]; exact known, fun now read => by cases read⟩
      | dispatchDelivery position =>
          obtain ⟨_, _, same⟩ := Option.map_eq_some_iff.mp start
          cases same
      | toolCall position toolName input idempotencyKey =>
          obtain ⟨_, _, same⟩ := Option.map_eq_some_iff.mp start
          cases same
      | runStage position stageKey stageInput definitionVersion maxAttempts idempotencyKey =>
          obtain ⟨_, _, same⟩ := Option.map_eq_some_iff.mp start
          cases same
      | saveCheckpoint position stageKey executionId checkpoint =>
          obtain ⟨_, _, same⟩ := Option.map_eq_some_iff.mp start
          cases same
      | _ => cases start

theorem inv_invariant : (discipline deployment queued).Invariant renewsOwn (Inv first) where
  acts _ _ _ _ _ _ _ _ _ tracked inv present idle named belongs permitted own :=
    inv_acts inv tracked present idle named permitted belongs own
  launches _ _ _ _ _ _ tracked inv launched _ := inv_launches tracked inv launched

theorem inv_initial {run : AgentRun} {clock : Nat} {conversation : Option String} :
    Inv run.worker [] (atRest (State.initial run clock conversation)) [] := by
  refine ⟨Fencing.inv_initial, ?_, ?_, ?_, ?_⟩
  · intro process _ seconds lease known
    cases known
  · intro thread tag op next phase run running
    cases running
  · intro thread tag op next phase run running
    cases running
  · intro thread tag op next process seconds progress running
    cases running

end Runs

theorem covered_unclaimable {run : AgentRun} {old : Option Nat} {now stored : Nat}
    (unqueued : run.status ≠ .queued) (covers : Covers old run.leaseExpireTime)
    (held : old = some stored) (early : now < stored) : claimable run now = false := by
  obtain ⟨lease, known, later⟩ := covers stored held
  simp only [claimable, known, Option.any_some, unqueued, decide_false, Bool.false_and,
    Bool.false_or, Bool.and_eq_false_iff, decide_eq_false_iff_not]
  right
  omega

section Writes

variable {deployment : Deployment} {run : AgentRun} {clock : Nat} {conversation : Option String}
  {past later : List PlatformEvent} {write : PlatformEvent} {final : PlatformConfig}
  {thread : Nat} {site : Site}

theorem basis_row {left right : List PlatformEvent} {item : PlatformEvent} {object : AgentRun}
    {start : State}
    (ran : (platformSystem deployment queued).Run (atRest start) (left ++ item :: right) final)
    (picked : basis thread site past item = some object) : item.after.run = object :=
  Hands.taken_row ran (show Hands.takes thread .direct site past item = some object from picked)

structure Acts (deployment : Deployment) (first : Option Process) (past : List PlatformEvent)
    (thread : Nat) (tag : Tag) (op : Op) (before after : State) (config : PlatformConfig)
    (phase : Phase) (next : op.Answer → Program platform (Except Exc Json)) (oracle : op.Answer) :
    Prop where
  inv : Inv first past config ((discipline deployment queued).phases past)
  present : config.threads[thread]? = some ⟨tag, .act op next⟩
  named : ((discipline deployment queued).phases past)[thread]? = some phase
  belongs : phase.belongs tag
  permitted : phase.permits deployment.digest op
  before : config.state = before
  after : after = (Op.perform op oracle config.state).2

section Acted

variable {tag : Tag} {op : Op} {answer : op.Answer} {before after : State}

theorem acted_phase
    (ran : (platformSystem deployment queued).Run (atRest (State.initial run clock conversation))
      (past ++ .acted thread tag op answer before after :: later) final)
    (renewals : ∀ left event right, past = left ++ event :: right → renewsOwn left event) :
    ∃ config phase next oracle,
      Acts deployment run.worker past thread tag op before after config phase next oracle := by
  obtain ⟨config, _, move, taken, tracked, inv⟩ :=
    inv_invariant.before_event ran rfl renewals inv_initial
  cases move with
  | launch entry =>
      obtain ⟨_, _, _, same, _⟩ := System.step_launch taken
      cases same
  | act index oracle =>
      obtain ⟨_, _, next, present, _, same, _⟩ := System.step_act taken
      cases same
      obtain ⟨phase, named, belongs, follows⟩ := tracked.phase present
      exact ⟨config, phase, next, oracle op, inv, present, named, belongs, follows.1, rfl, rfl⟩

inductive Effect (op : Op) (before after : AgentRun) : Prop
  | silent (same : after = before)
  | stored (site : Site) (expected : Expected) (stores : op.stores site expected after)
      (admitted : expected.admits before = true) (keeps : clears site = false)
  | renewed (lease : Nat) (same : after = { before with leaseExpireTime := some lease })
      (covers : Covers before.leaseExpireTime (some lease))

theorem own_effect
    (ran : (platformSystem deployment queued).Run (atRest (State.initial run clock conversation))
      (past ++ .acted thread tag op answer before after :: later) final)
    (renewals : ∀ left event right, past = left ++ event :: right → renewsOwn left event)
    (held : after.run.worker = some tag.process) : Effect op before.run after.run := by
  obtain ⟨config, phase, next, oracle, acts⟩ := acted_phase ran renewals
  have permitted := acts.permitted
  rw [acts.after] at held ⊢
  rw [← acts.before]
  rcases perform_run op oracle config.state with
    same | ⟨site, expected, row, stores, hit, same⟩ | ⟨row, rfl, same⟩ | ⟨loaded, lease, rfl, same⟩
  · exact .silent same
  · obtain ⟨_, keeps, _⟩ := acts.inv.stored_within acts.present acts.named permitted stores hit
      (same ▸ held)
    rw [same]
    exact .stored site expected stores hit keeps
  · rw [same, retry_frees permitted] at held
    cases held
  · refine .renewed lease same ?_
    cases phase with
    | manager process job progress =>
        cases permitted with
        | @renewUpdate seconds now loaded renewal owned told =>
            subst renewal
            obtain ⟨_, covers⟩ := acts.inv.renewing thread tag
              (.run (.renewUpdate loaded (now + seconds))) next process seconds progress acts.present
              acts.named
            have own : tag.process = process :=
              Phase.belongs_manager acts.belongs
            rw [← own] at covers
            exact (covers now told).2 held
    | _ => cases permitted

/-- A thread that holds the run under its worker id dispatches no callbacks. -/
theorem leased_undispatched {phase : Phase} (leased : phase.Leased) (belongs : phase.belongs tag) :
    Hands.dispatching tag.role = false := by
  cases phase with
  | execution process worker progress => exact Hands.executes_undispatched belongs.2
  | tool context progress =>
      obtain ⟨_, rfl⟩ := belongs
      rfl
  | stage index context stageKey progress =>
      cases belongs
      rfl
  | checkpoint index context stageKey progress =>
      cases belongs
      rfl
  | manager process job progress =>
      cases belongs
      have silent : ¬ job.notifies := leased
      cases job <;> first | rfl | exact absurd trivial silent

theorem restores_object
    (ran : (platformSystem deployment queued).Run (atRest (State.initial run clock conversation))
      (past ++ .acted thread tag op answer before after :: later) final)
    (renewals : ∀ left event right, past = left ++ event :: right → renewsOwn left event)
    (restores : Restores thread site (.acted thread tag op answer before after)) :
    ∃ object, latest (basis thread site past) past = some object ∧
      after.run.leaseExpireTime = object.leaseExpireTime := by
  obtain ⟨config, phase, next, oracle, acts⟩ := acted_phase ran renewals
  obtain ⟨_, ⟨expected, row, stores, admitted⟩, held⟩ := restores
  obtain ⟨object, known, derived⟩ := Hands.stored_object ran stores
  rw [← acts.before] at admitted
  have same : (Op.perform op oracle config.state).2.run = row := stores_run stores admitted
  rw [acts.after, same] at held ⊢
  obtain ⟨_, keeps, _⟩ := acts.inv.stored_within acts.present acts.named acts.permitted stores
    admitted held
  have informed := acts.inv.fencing.informed acts.present acts.named (stores_awake stores)
  have undispatched := leased_undispatched informed.leased acts.belongs
  refine ⟨object, ?_, (derived.owner keeps).2⟩
  unfold Hands.inHand Hands.takes at known
  rwa [undispatched] at known

end Acted

theorem covers_iff {object : AgentRun}
    (ran : (platformSystem deployment queued).Run (atRest (State.initial run clock conversation))
      (past ++ write :: later) final)
    (known : latest (basis thread site past) past = some object)
    (lease : write.after.run.leaseExpireTime = object.leaseExpireTime) :
    Covers write.before.run.leaseExpireTime write.after.run.leaseExpireTime ↔
      ¬ Outdated thread site past := by
  have since : Outdated thread site past ↔
      ¬ Covers write.before.run.leaseExpireTime object.leaseExpireTime := by
    apply ran.since_iff known
    intro left item right split picked lost
    rw [split, List.append_assoc] at ran
    rw [basis_row ran picked] at lost
    exact lost (covers_self _)
  rw [since, not_not, lease]

theorem effect_keeps {tag : Tag} {op : Op} {answer : op.Answer} {before after : State}
    (ran : (platformSystem deployment queued).Run (atRest (State.initial run clock conversation))
      (past ++ .acted thread tag op answer before after :: later) final)
    (renewals : ∀ left event right, past = left ++ event :: right → renewsOwn left event)
    (held : after.run.worker = some tag.process)
    (current : ∀ site, Restores thread site (.acted thread tag op answer before after) →
      ¬ Outdated thread site past) : Keeps (.acted thread tag op answer before after) := by
  have running : ∀ {status : RunStatus}, status.executing = true → status ≠ .queued := by
    rintro status executing rfl
    exact absurd executing (by decide)
  cases own_effect ran renewals held with
  | silent same =>
      constructor
      · rw [show Event.after _ = after from rfl, same]
        exact covers_self _
      · intro now stored executing lease early
        rw [show Event.after _ = after from rfl, same]
        exact covered_unclaimable (running executing) (covers_self _) lease early
  | stored site expected stores admitted keeps =>
      have restores : Restores thread site (.acted thread tag op answer before after) :=
        ⟨rfl, ⟨expected, _, stores, admitted⟩, held⟩
      obtain ⟨object, known, lease⟩ := restores_object ran renewals restores
      have covers : Covers before.run.leaseExpireTime after.run.leaseExpireTime :=
        (covers_iff ran known lease).mpr (current site restores)
      refine ⟨covers, ?_⟩
      intro now stored executing leased early
      obtain ⟨phase, _, _, _, permitted, _⟩ :=
        Discipline.run_permits (D := discipline deployment queued) ran rfl
      have moves := stores_moves permitted stores admitted
      exact covered_unclaimable (moves_queued moves executing keeps) covers leased early
  | renewed lease same covers =>
      have covers : Covers before.run.leaseExpireTime after.run.leaseExpireTime := by
        rw [same]
        exact covers
      refine ⟨covers, ?_⟩
      intro now stored executing leased early
      have status : after.run.status = before.run.status := by rw [same]
      apply covered_unclaimable _ covers leased early
      rw [status]
      exact running executing

end Writes

/-- While renewals are fenced, an owner's own writes keep its lease exactly in the
runs in which none of its conditional updates restores an outdated object. -/
theorem own_writes_keep_lease_iff {deployment : Deployment} {run : AgentRun} {clock : Nat}
    {conversation : Option String} {events : List PlatformEvent} {final : PlatformConfig}
    (ran : (platformSystem deployment queued).Run (atRest (State.initial run clock conversation))
      events final)
    (renewals : ∀ past update later thread process, events = past ++ update :: later →
      Renewal.Renews thread process update → ¬ Renewal.Interrupted process thread past) :
    (∀ write ∈ events, ∀ process, OwnWrite process write → Keeps write) ↔
      ∀ past write later thread site, events = past ++ write :: later →
        Restores thread site write → ¬ Outdated thread site past := by
  have fenced : ∀ {past event later}, events = past ++ event :: later → renewsOwn past event := by
    rintro past event later rfl thread process renews
    exact (Renewal.fenced_iff ran renews).mpr (renewals past event later thread process rfl renews)
  have before : ∀ {past event later}, events = past ++ event :: later →
      ∀ left other right, past = left ++ other :: right → renewsOwn left other := by
    intro past event later split left other right inner
    have whole : events = left ++ other :: (right ++ event :: later) := by
      rw [split, inner]
      simp
    exact fenced whole
  constructor
  · intro keeps past write later thread site split restores
    cases write with
    | launched entry spawned before after => exact restores.elim
    | acted own tag op answer state after =>
        have member : .acted own tag op answer state after ∈ events := by
          rw [split]
          simp
        have kept := (keeps _ member tag.process ⟨rfl, restores.2.2⟩).lease
        have earlier := before split
        subst split
        obtain ⟨rfl, effective⟩ := restores
        obtain ⟨object, known, lease⟩ := restores_object ran earlier ⟨rfl, effective⟩
        exact (covers_iff ran known lease).mp kept
  · intro current write member process owns
    obtain ⟨past, later, split⟩ := List.append_of_mem member
    cases write with
    | launched entry spawned before after => exact owns.elim
    | acted own tag op answer state after =>
        obtain ⟨rfl, held⟩ := owns
        have earlier := before split
        have fresh := fun site => current past _ later own site split
        subst split
        exact effect_keeps ran earlier held fresh

def stumbling : (op : External) → Except Exc op.Result
  | .agentRun _ _ => .error (.runtime "no answer")
  | op => persistent op

def renewedMeanwhile : List (Move platform Entry) :=
  [.launch (.dispatchReady "worker-a" 30)] ++ steps 13 0 stumbling ++
    [.launch (.tick 20), .launch (.renewal "worker-a")] ++ steps 3 1 calm ++ steps 3 0 stumbling

def shortens : PlatformEvent → Bool
  | .acted _ tag (.run (.updateIfCurrent (.attemptFailed _ _ _) expected _)) _ before after =>
      tag.process = "worker-a" && expected.admits before.run && after.run.worker = some "worker-a" &&
        before.run.leaseExpireTime = some 50 && after.run.leaseExpireTime = some 30
  | _ => false

theorem renewedMeanwhile_replays : ((platformSystem sampleDeployment queued).replay
    (atRest (State.initial sampleRun 0 none)) renewedMeanwhile).any
      (fun outcome => outcome.1.any shortens && outcome.1.all fun event =>
        match event with
        | .acted _ tag (.run (.renewUpdate _ _)) _ before _ => leasedBy before.run tag.process
        | _ => true) = true := rfl

theorem shortens_spec {event : PlatformEvent} (short : shortens event = true) :
    OwnWrite "worker-a" event ∧ ¬ Keeps event := by
  unfold shortens at short
  split at short
  · simp only [Bool.and_eq_true, decide_eq_true_eq] at short
    obtain ⟨⟨⟨⟨own, _⟩, held⟩, stored⟩, lowered⟩ := short
    refine ⟨⟨own, held⟩, ?_⟩
    intro keeps
    obtain ⟨lease, same, later⟩ := keeps.lease 50 stored
    have known : some 30 = some lease := lowered.symm.trans same
    cases known
    omega
  · cases short

theorem fenced_renewals {events : List PlatformEvent} {final : PlatformConfig}
    (ran : (platformSystem sampleDeployment queued).Run (atRest (State.initial sampleRun 0 none))
      events final)
    (checked : ∀ event ∈ events, (match event with
      | .acted _ tag (.run (.renewUpdate _ _)) _ before _ => leasedBy before.run tag.process
      | _ => true) = true) :
    ∀ past update later thread process, events = past ++ update :: later →
      Renewal.Renews thread process update → ¬ Renewal.Interrupted process thread past := by
  rintro past update later thread process rfl renews
  apply (Renewal.fenced_iff ran renews).mp
  have held := checked update (by simp)
  unfold Renewal.Renews at renews
  split at renews
  · rw [← renews.2]
    exact held
  · exact renews.elim

theorem failed_attempt_shortens_lease : ∃ events final,
    (platformSystem sampleDeployment queued).Run (atRest (State.initial sampleRun 0 none))
      events final ∧
    ∃ write ∈ events, OwnWrite "worker-a" write ∧ ¬ Keeps write := by
  obtain ⟨events, final, ran, checked⟩ := System.replay_checked renewedMeanwhile_replays
  simp only [Bool.and_eq_true, List.any_eq_true] at checked
  obtain ⟨⟨write, member, short⟩, _⟩ := checked
  exact ⟨events, final, ran, write, member, shortens_spec short⟩

/-- In the schedule above the object of the failed attempt is outdated. -/
theorem own_writes_keep_lease_iff_renewed : ∃ events final,
    (platformSystem sampleDeployment queued).Run (atRest (State.initial sampleRun 0 none))
      events final ∧
    ∃ past write later thread site, events = past ++ write :: later ∧
      Restores thread site write ∧ Outdated thread site past := by
  obtain ⟨events, final, ran, checked⟩ := System.replay_checked renewedMeanwhile_replays
  simp only [Bool.and_eq_true, List.any_eq_true, List.all_eq_true] at checked
  obtain ⟨⟨write, member, short⟩, renewals⟩ := checked
  obtain ⟨own, shortened⟩ := shortens_spec short
  refine ⟨events, final, ran, ?_⟩
  by_contra current
  push Not at current
  exact shortened ((own_writes_keep_lease_iff ran (fenced_renewals ran renewals)).mpr current write
    member "worker-a" own)

end AgentTaskPlatform.Leases
