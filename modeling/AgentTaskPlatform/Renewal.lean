import AgentTaskPlatform.Readings

/-!
`renew_lease` between its `SELECT` and its `UPDATE`. The `SELECT` tests that the
worker holds the run and takes no lock; the `UPDATE` names the row by its key
alone, so it prolongs whatever lease it finds.
-/

namespace AgentTaskPlatform.Renewal

open Interleaving Interleaving.System ManagerProtocol

def selectedBy (thread : Nat) : PlatformEvent → Option (Process × Bool)
  | .acted own _ (.run (.renewSelect worker)) answer _ _ =>
      if own = thread then some (worker, answer.isSome) else none
  | _ => none

/-- The `UPDATE` of a renewal, after which the call returns True. -/
def Renews (thread : Nat) (process : Process) : PlatformEvent → Prop
  | .acted own tag (.run (.renewUpdate _ _)) _ _ _ => own = thread ∧ tag.process = process
  | _ => False

/-- The renewal commits on a row that its worker still holds. -/
def Fenced (process : Process) (update : PlatformEvent) : Prop :=
  leasedBy update.before.run process = true

/-- Since the `SELECT` of the thread, other commits have taken the run from the
worker or out of its executing statuses. -/
def Interrupted (process : Process) (thread : Nat) (past : List PlatformEvent) : Prop :=
  Since (selectedBy thread) (fun state _ => leasedBy state.run process = false) past

structure Inv (past : List PlatformEvent) (phases : List Phase) : Prop where
  told : ∀ (thread : Nat) process leaseSeconds progress,
    phases[thread]? = some (.manager process (.renewal leaseSeconds) progress) →
    progress.owned = true → latest (selectedBy thread) past = some (process, true)
  wrote : ∀ (thread : Nat) process leaseSeconds progress,
    phases[thread]? = some (.manager process (.renewal leaseSeconds) progress) →
    progress.stored = true → ∃ update ∈ past, Renews thread process update

section Steps

variable {digest : Digest} {process : Process} {leaseSeconds : Nat} {progress : Progress} {op : Op}
  {oracle : op.Answer} {state : State}

theorem owned_after (permitted : Permitted process (.renewal leaseSeconds) progress op)
    (owned : (progress.after op (Op.perform op oracle state).1).owned = true) :
    (op = .run (.renewSelect process) ∧ leasedBy state.run process = true) ∨
      ((∀ worker, op ≠ .run (.renewSelect worker)) ∧ progress.owned = true) := by
  cases permitted with
  | renewSelect job =>
      refine Or.inl ⟨rfl, ?_⟩
      by_contra other
      simp [Progress.after, Op.perform, RunOp.perform, other] at owned
  | delivered now attempt dispatches _ _ _ => exact dispatches.elim
  | _ =>
      refine Or.inr ⟨?_, owned⟩
      intro worker same
      cases same

theorem stored_after (permitted : Permitted process (.renewal leaseSeconds) progress op)
    (stored : (progress.after op (Op.perform op oracle state).1).stored = true) :
    (∃ loaded lease, op = .run (.renewUpdate loaded lease)) ∨ progress.stored = true := by
  cases permitted with
  | renewUpdate loaded job owned now => exact Or.inl ⟨_, _, rfl⟩
  | cancel now job _ _ => cases job
  | recover agent now job _ _ _ _ => cases job
  | reclaim now job _ _ _ _ => cases job
  | skipCallback notifies _ _ => exact notifies.elim
  | prepareCallback url body now notifies _ _ _ _ _ => exact notifies.elim
  | delivered now attempt dispatches _ _ _ => exact dispatches.elim
  | exhausted dispatches _ _ => exact dispatches.elim
  | _ => exact Or.inr stored

end Steps

section Runs

variable {deployment : Deployment} {admitted : Entry → Bool} {past later : List PlatformEvent}
  {state : State} {update : PlatformEvent} {final : PlatformConfig} {thread : Nat} {tag : Tag}
  {process : Process}

theorem selectedBy_select {oracle : Option (Option Nat)} : selectedBy thread
    ((platformSystem deployment admitted).performed thread tag (.run (.renewSelect process)) oracle
      state) = some (process, leasedBy state.run process) := by
  by_cases held : leasedBy state.run process = true <;>
    simp [selectedBy, System.performed, platformSystem, Op.perform, RunOp.perform, held]

theorem selectedBy_other {index : Nat} {op : Op} {oracle : op.Answer}
    (other : index ≠ thread ∨ ∀ worker, op ≠ .run (.renewSelect worker)) :
    selectedBy index ((platformSystem deployment admitted).performed thread tag op oracle state) =
      none := by
  unfold selectedBy System.performed
  split
  · next same =>
      cases same
      rcases other with different | another
      · simp [Ne.symm different]
      · exact absurd rfl (another _)
  · rfl

theorem inv_inductive : (discipline deployment admitted).Inductive (fun _ _ => True)
    fun past _ phases => Inv past phases where
  acts past state phases thread tag op oracle phase inv present belongs permitted _ := by
    constructor
    · intro index process leaseSeconds progress found owned
      rw [latest_snoc]
      rcases observe_phase present found with ⟨rfl, same⟩ | ⟨different, kept⟩
      · cases phase with
        | manager own job before =>
            cases same
            rcases owned_after permitted owned with ⟨rfl, held⟩ | ⟨other, known⟩
            · rw [selectedBy_select, held]
              rfl
            · rw [selectedBy_other (Or.inr other)]
              exact inv.told index process leaseSeconds before present known
        | _ => cases same
      · rw [selectedBy_other (Or.inl different)]
        exact inv.told index process leaseSeconds progress kept owned
    · intro index process leaseSeconds progress found stored
      have earlier : (∃ update ∈ past, Renews index process update) →
          ∃ update ∈ past ++ [(platformSystem deployment admitted).performed thread tag op oracle
            state], Renews index process update := by
        rintro ⟨update, member, renews⟩
        exact ⟨update, List.mem_append_left _ member, renews⟩
      rcases observe_phase present found with ⟨rfl, same⟩ | ⟨_, kept⟩
      · cases phase with
        | manager own job before =>
            cases same
            rcases stored_after permitted stored with ⟨loaded, lease, rfl⟩ | known
            · refine ⟨_, List.mem_append_right _ (List.mem_singleton_self _), rfl, ?_⟩
              have named : (Phase.manager process (.renewal leaseSeconds) before).belongs tag :=
                belongs
              exact Phase.belongs_manager named
            · exact earlier (inv.wrote index process leaseSeconds before present known)
        | _ => cases same
      · exact earlier (inv.wrote index process leaseSeconds progress kept stored)
  launches past config phases entry state spawned _ inv launched _ := by
    have fresh : ∀ {index : Nat} {process leaseSeconds progress},
        ((discipline deployment admitted).observe phases
          (.launched entry (System.spawnedThread config spawned) config.state state))[index]? =
            some (.manager process (.renewal leaseSeconds) progress) →
        phases[index]? = some (.manager process (.renewal leaseSeconds) progress) ∨
          (progress.owned = false ∧ progress.stored = false) := by
      intro index process leaseSeconds progress found
      rcases launch_phase launched found with old | ⟨_, start⟩
      · exact Or.inl old
      · have opening : progress = { hand := progress.hand } := Entry.phase_opening start
        rw [opening]
        exact Or.inr ⟨rfl, rfl⟩
    constructor
    · intro index process leaseSeconds progress found owned
      rw [latest_snoc]
      rcases fresh found with old | ⟨unowned, _⟩
      · exact inv.told index process leaseSeconds progress old owned
      · rw [unowned] at owned
        cases owned
    · intro index process leaseSeconds progress found stored
      rcases fresh found with old | ⟨_, unstored⟩
      · obtain ⟨update, member, renews⟩ := inv.wrote index process leaseSeconds progress old stored
        exact ⟨update, List.mem_append_left _ member, renews⟩
      · rw [unstored] at stored
        cases stored

theorem inv_initial : Inv [] [] := by
  constructor <;> intro thread process leaseSeconds progress found <;> cases found

theorem select_row {left right : List PlatformEvent} {select : PlatformEvent}
    (run : (platformSystem deployment admitted).Run (atRest state) (left ++ select :: right) final)
    (found : selectedBy thread select = some (process, true)) :
    leasedBy select.after.run process = true := by
  unfold selectedBy at found
  split at found
  · next own tag worker answer before after =>
      obtain ⟨phase, oracle, _, _, _, same⟩ :=
        Discipline.run_permits (D := discipline deployment admitted) run rfl
      cases same
      simp only at found
      split at found
      · simp only [Option.some.injEq, Prod.mk.injEq] at found
        obtain ⟨rfl, held⟩ := found
        show leasedBy before.run worker = true
        simpa [platformSystem, Op.perform, RunOp.perform] using held
      · cases found
  · cases found

theorem renews_told (run : (platformSystem deployment admitted).Run (atRest state)
    (past ++ update :: later) final) (renews : Renews thread process update) :
    latest (selectedBy thread) past = some (process, true) := by
  have inv := inv_inductive.before_event run rfl (fun _ _ _ _ => trivial) inv_initial
  unfold Renews at renews
  split at renews
  · next own tag loaded lease answer before after =>
      obtain ⟨phase, oracle, present, belongs, permitted, _⟩ :=
        Discipline.run_permits (D := discipline deployment admitted) run rfl
      obtain ⟨rfl, rfl⟩ := renews
      cases phase with
      | manager process job progress =>
          cases permitted with
          | renewUpdate _ renewal owned now =>
              subst renewal
              rw [show tag = _ from belongs]
              exact inv.told own process _ progress present owned
      | _ => cases permitted
  · exact renews.elim

theorem fenced_iff (run : (platformSystem deployment admitted).Run (atRest state)
    (past ++ update :: later) final) (renews : Renews thread process update) :
    Fenced process update ↔ ¬ Interrupted process thread past := by
  have since : Interrupted process thread past ↔
      leasedBy update.before.run process = false := by
    apply run.since_iff (renews_told run renews)
    intro left select right split selects lost
    rw [split, List.append_assoc] at run
    rw [select_row run selects] at lost
    cases lost
  rw [since, Bool.not_eq_false, Fenced]

theorem returned_renews {events : List PlatformEvent}
    (run : (platformSystem deployment admitted).Run (atRest state) events final)
    (returned : final.threads[thread]? = some ⟨⟨process, .renewal⟩, .ret (.ok (.bool true))⟩) :
    ∃ update ∈ events, Renews thread process update := by
  have tracked := Discipline.run_tracked run
    (Discipline.tracked_empty (D := discipline deployment admitted) rfl)
  have inv := inv_inductive.run run rfl (fun _ _ _ _ => trivial) inv_initial
  obtain ⟨phase, named, belongs, concludes⟩ := tracked.phase returned
  cases phase with
  | manager own job progress =>
      cases job with
      | renewal leaseSeconds =>
          cases belongs
          exact inv.wrote thread process leaseSeconds progress named (concludes rfl)
      | _ => cases belongs
  | execution own worker progress => exact belongs.2.elim
  | tool context progress =>
      obtain ⟨_, same⟩ := belongs
      cases same
  | stage index context stageKey progress => cases belongs
  | checkpoint index context stageKey progress => cases belongs

end Runs

/-- A renewal returns True only after its `UPDATE`, and the renewals of a run are
fenced exactly if none is interrupted between its two statements. -/
theorem renew_fenced_iff {deployment : Deployment} {admitted : Entry → Bool} {state : State}
    {events : List PlatformEvent} {final : PlatformConfig}
    (run : (platformSystem deployment admitted).Run (atRest state) events final) :
    (∀ thread process,
      final.threads[thread]? = some ⟨⟨process, .renewal⟩, .ret (.ok (.bool true))⟩ →
      ∃ update ∈ events, Renews thread process update) ∧
    ((∀ update ∈ events, ∀ thread process, Renews thread process update →
      Fenced process update) ↔
      ∀ past update later thread process, events = past ++ update :: later →
        Renews thread process update → ¬ Interrupted process thread past) := by
  constructor
  · intro thread process returned
    exact returned_renews run returned
  · constructor
    · intro fenced past update later thread process split renews
      subst split
      exact (fenced_iff run renews).mp (fenced update (by simp) thread process renews)
    · intro steady update member thread process renews
      obtain ⟨past, later, rfl⟩ := List.append_of_mem member
      exact (fenced_iff run renews).mpr (steady past update later thread process rfl renews)

/-- The lease of a worker expires between the two statements of its renewal, and
another worker claims the run. -/
def expiredBetween : List (Move platform Entry) :=
  [.launch (.dispatchReady "worker-a" 30)] ++ steps 13 0 calm ++
    [.launch (.tick 5), .launch (.renewal "worker-a")] ++ steps 2 1 calm ++
    [.launch (.tick 26), .launch (.dispatchReady "worker-b" 30)] ++ steps 1 1 calm

def renewsForeign : PlatformEvent → Bool
  | .acted _ tag (.run (.renewUpdate _ _)) _ before after =>
      tag.process = "worker-a" && before.run.worker = some "worker-b" &&
        before.run.leaseExpireTime != after.run.leaseExpireTime
  | _ => false

theorem expiredBetween_replays : ((platformSystem sampleDeployment fun _ => true).replay
    (atRest (State.initial sampleRun 0 none)) expiredBetween).any
      (fun outcome => outcome.1.any renewsForeign) = true := rfl

theorem renewsForeign_spec {event : PlatformEvent} (foreign : renewsForeign event = true) :
    (∃ thread, Renews thread "worker-a" event) ∧ event.before.run.worker = some "worker-b" ∧
      event.before.run.leaseExpireTime ≠ event.after.run.leaseExpireTime := by
  unfold renewsForeign at foreign
  split at foreign
  · next thread tag loaded lease answer before after =>
      simp only [Bool.and_eq_true, decide_eq_true_eq, bne_iff_ne] at foreign
      exact ⟨⟨thread, rfl, foreign.1.1⟩, foreign.1.2, foreign.2⟩
  · cases foreign

theorem foreign_unfenced {update : PlatformEvent}
    (foreign : update.before.run.worker = some "worker-b") : ¬ Fenced "worker-a" update := by
  intro fenced
  simp [Fenced, leasedBy, foreign] at fenced

/-- The renewal of worker-a prolongs the lease of worker-b. -/
theorem renewal_changes_foreign_lease : ∃ events final,
    (platformSystem sampleDeployment fun _ => true).Run (atRest (State.initial sampleRun 0 none))
      events final ∧
    ∃ update ∈ events, (∃ thread, Renews thread "worker-a" update) ∧
      update.before.run.worker = some "worker-b" ∧
      update.before.run.leaseExpireTime ≠ update.after.run.leaseExpireTime ∧
      ¬ Fenced "worker-a" update := by
  obtain ⟨events, final, run, checked⟩ := System.replay_checked expiredBetween_replays
  obtain ⟨update, member, foreign⟩ := List.any_eq_true.mp checked
  obtain ⟨renews, taken, changed⟩ := renewsForeign_spec foreign
  exact ⟨events, final, run, update, member, renews, taken, changed, foreign_unfenced taken⟩

/-- In the schedule above a renewal is interrupted. -/
theorem renew_fenced_iff_expired : ∃ events final,
    (platformSystem sampleDeployment fun _ => true).Run (atRest (State.initial sampleRun 0 none))
      events final ∧
    ∃ past update later thread process, events = past ++ update :: later ∧
      Renews thread process update ∧ Interrupted process thread past := by
  obtain ⟨events, final, run, checked⟩ := System.replay_checked expiredBetween_replays
  obtain ⟨update, member, foreign⟩ := List.any_eq_true.mp checked
  obtain ⟨⟨thread, renews⟩, taken, _⟩ := renewsForeign_spec foreign
  refine ⟨events, final, run, ?_⟩
  by_contra steady
  push Not at steady
  exact foreign_unfenced taken
    ((renew_fenced_iff run).2.mpr steady update member thread "worker-a" renews)

end AgentTaskPlatform.Renewal
