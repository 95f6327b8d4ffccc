import AgentTaskPlatform.DispatchFrame

/-!
The object behind a write. A thread writes back a row object that it has read or stored
itself, so every column that it does not set is put back as the thread had it in hand.
-/

namespace AgentTaskPlatform

open Interleaving

namespace Fencing

def clears : Site → Bool
  | .release => true
  | .deadLetter => true
  | .cancel => true
  | .recover => true
  | .reclaim => true
  | _ => false

end Fencing

namespace Leases

/-- The site writes the object that its execution stored last. -/
def rewrites : Site → Bool
  | .attemptFailed _ _ _ => true
  | .recovered => true
  | .skipCallback => true
  | .prepareCallback => true
  | _ => false

def basis (thread : Nat) (site : Site) (past : List PlatformEvent) :
    PlatformEvent → Option AgentRun :=
  if rewrites site = true ∨ (site = .finish ∧ (lastStored thread past).isSome = true) then
    storedBy thread
  else readBy thread

end Leases

namespace Hands

open Fencing Leases

def dispatching : Role → Bool
  | .resend => true
  | .delivery => true
  | .prepare => true
  | _ => false

def starts : Site → Bool
  | .attemptStart _ => true
  | _ => false

def takes (thread : Nat) (role : Role) (site : Site) (past : List PlatformEvent) :
    PlatformEvent → Option AgentRun :=
  if dispatching role then readBy thread else basis thread site past

def inHand (thread : Nat) (role : Role) (site : Site) (past : List PlatformEvent) :
    Option AgentRun := latest (takes thread role site past) past

def Carries (site : Site) (expected : Expected) (counter : Nat) (row : AgentRun) : Prop :=
  match site with
  | .attemptStart _ => row.attempts = counter + 1
  | .recover => row.attempts = counter ∨
      (row.attempts = counter - 1 ∧ ∀ status ∈ expected.statuses, status.executing = true)
  | .reclaim => row.attempts = counter - 1 ∧ ∀ status ∈ expected.statuses, status.executing = true
  | _ => row.attempts = counter

structure Derived (site : Site) (expected : Expected) (object row : AgentRun) : Prop where
  owner : clears site = false →
    row.worker = object.worker ∧ row.leaseExpireTime = object.leaseExpireTime
  free : clears site = true → row.worker = none ∧ row.leaseExpireTime = none
  counter : starts site = false → Carries site expected object.attempts row

theorem Derived.keeping {site : Site} {expected : Expected} {object row : AgentRun}
    (keeps : clears site = false) (worker : row.worker = object.worker)
    (lease : row.leaseExpireTime = object.leaseExpireTime)
    (counter : starts site = false → Carries site expected object.attempts row) :
    Derived site expected object row := by
  refine ⟨fun _ => ⟨worker, lease⟩, fun cleared => ?_, counter⟩
  rw [keeps] at cleared
  cases cleared

theorem Derived.clearing {site : Site} {expected : Expected} {object row : AgentRun}
    (cleared : clears site = true) (worker : row.worker = none)
    (lease : row.leaseExpireTime = none) (counter : Carries site expected object.attempts row) :
    Derived site expected object row := by
  refine ⟨fun keeps => ?_, fun _ => ⟨worker, lease⟩, fun _ => counter⟩
  rw [cleared] at keeps
  cases keeps

theorem Derived.of_frame {site : Site} {expected : Expected} {object other row : AgentRun}
    (derived : Derived site expected object row)
    (framed : DispatchFrame.frame object = DispatchFrame.frame other) :
    Derived site expected other row := by
  have same {α : Type} (column : AgentRun → α) :
      column (DispatchFrame.frame object) = column (DispatchFrame.frame other) :=
    congrArg column framed
  have worker : object.worker = other.worker := same AgentRun.worker
  have lease : object.leaseExpireTime = other.leaseExpireTime := same AgentRun.leaseExpireTime
  have attempts : object.attempts = other.attempts := same AgentRun.attempts
  constructor
  · rw [← worker, ← lease]
    exact derived.owner
  · exact derived.free
  · rw [← attempts]
    exact derived.counter

section Sources

variable {digest : Digest} {phase : Phase} {op : Op} {oracle : op.Answer} {state : State}
  {site : Site} {expected : Expected} {row : AgentRun}

inductive Source (phase : Phase) (site : Site) (expected : Expected) (row : AgentRun) : Prop
  | stored (run : AgentRun) (wrote : phase.written = some run)
      (rewriting : rewrites site = true ∨ site = .finish)
      (derived : Derived site expected run row)
  | read (run : AgentRun) (seen : phase.seen = some run) (fresh : rewrites site = false)
      (opening : site = .finish → ∃ process worker progress,
        phase = .execution process worker progress ∧ progress.step = .opening)
      (derived : Derived site expected run row)
  | handed (process : Process) (job : ManagerProtocol.Job) (progress : ManagerProtocol.Progress)
      (run : AgentRun) (managed : phase = .manager process job progress)
      (seen : progress.seen = some run) (hands : clears site = true ∨ job.notifies)
      (derived : Derived site expected run row)

theorem prepares_written {process : Process} {worker : Option Process}
    {progress : ExecutionProtocol.Progress} {run : AgentRun}
    (prepares : progress.step.prepares run) :
    (Phase.execution process worker progress).written = some run := by
  unfold ExecutionProtocol.Step.prepares at prepares
  unfold Phase.written
  split at prepares
  · next step => simp only [step, prepares]
  · next step => simp only [step, prepares.1]
  · next step => simp only [step, prepares.1]
  · exact prepares.elim

theorem execution_source {process : Process} {worker : Option Process}
    {progress : ExecutionProtocol.Progress}
    (permitted : ExecutionProtocol.Permitted process worker progress op)
    (stores : op.stores site expected row) :
    Source (.execution process worker progress) site expected row := by
  cases permitted with
  | @attemptStart run attempt now seen _ _ _ =>
      obtain ⟨rfl, rfl, rfl⟩ := stores
      exact .read run seen rfl (fun closing => by cases closing)
        (.keeping rfl rfl rfl fun other => by cases other)
  | @agentSucceeded _ _ run output now _ seen =>
      obtain ⟨rfl, rfl, rfl⟩ := stores
      exact .read run seen rfl (fun closing => by cases closing) (.keeping rfl rfl rfl fun _ => rfl)
  | @attemptFailed _ run attempts timeout error step _ =>
      obtain ⟨rfl, rfl, rfl⟩ := stores
      exact .stored run (by simp only [Phase.written, step]) (Or.inl rfl)
        (.keeping rfl rfl rfl fun _ => rfl)
  | @recovered _ run attempts timeout error result now step =>
      obtain ⟨rfl, rfl, rfl⟩ := stores
      exact .stored run (by simp only [Phase.written, step]) (Or.inl rfl)
        (.keeping rfl rfl rfl fun _ => rfl)
  | @finish run now finishes =>
      obtain ⟨rfl, rfl, rfl⟩ := stores
      unfold ExecutionProtocol.Progress.finishes at finishes
      split at finishes
      · next step =>
          exact .read run finishes rfl (fun _ => ⟨process, worker, progress, rfl, step⟩)
            (.keeping rfl rfl rfl fun _ => rfl)
      · next step =>
          obtain ⟨_, rfl⟩ := finishes
          exact .stored run (by simp only [Phase.written, step]) (Or.inr rfl)
            (.keeping rfl rfl rfl fun _ => rfl)
      · exact finishes.elim
  | @skipCallback run prepares _ =>
      obtain ⟨rfl, rfl, rfl⟩ := stores
      exact .stored run (prepares_written prepares) (Or.inl rfl) (.keeping rfl rfl rfl fun _ => rfl)
  | @prepareCallback run eventId existing url body now prepares _ _ _ _ _ =>
      obtain ⟨rfl, rfl, rfl⟩ := stores
      exact .stored run (prepares_written prepares) (Or.inl rfl) (.keeping rfl rfl rfl fun _ => rfl)
  | @release run seen _ =>
      obtain ⟨rfl, rfl, rfl⟩ := stores
      exact .read run seen rfl (fun closing => by cases closing)
        (.clearing rfl rfl rfl rfl)
  | @deadLetter run reason seen _ =>
      obtain ⟨rfl, rfl, rfl⟩ := stores
      exact .read run seen rfl (fun closing => by cases closing)
        (.clearing rfl rfl rfl rfl)
  | @backgroundFailure run error seen _ _ =>
      obtain ⟨rfl, rfl, rfl⟩ := stores
      exact .read run seen rfl (fun closing => by cases closing) (.keeping rfl rfl rfl fun _ => rfl)
  | _ => exact stores.elim

theorem manager_source {process : Process} {job : ManagerProtocol.Job}
    {progress : ManagerProtocol.Progress}
    (permitted : ManagerProtocol.Permitted process job progress op)
    (stores : op.stores site expected row) :
    Source (.manager process job progress) site expected row := by
  cases permitted with
  | @cancel run now own seen _ =>
      obtain ⟨rfl, rfl, rfl⟩ := stores
      exact .handed process job progress run rfl seen (Or.inl rfl)
        (.clearing rfl rfl rfl rfl)
  | @recover run agent now own seen _ _ _ =>
      obtain ⟨rfl, rfl, rfl⟩ := stores
      refine .handed process job progress run rfl seen (Or.inl rfl)
        (.clearing rfl rfl rfl ?_)
      unfold Carries RunManager.requeuedRun
      simp only
      split
      · next executing => exact Or.inr ⟨rfl, by simpa [RunManager.unchanged] using executing⟩
      · exact Or.inl rfl
  | @reclaim run now own seen _ executing _ =>
      obtain ⟨rfl, rfl, rfl⟩ := stores
      exact .handed process job progress run rfl seen (Or.inl rfl)
        (.clearing rfl rfl rfl ⟨rfl, by simpa [RunManager.unchanged] using executing⟩)
  | @skipCallback run notifies seen _ =>
      obtain ⟨rfl, rfl, rfl⟩ := stores
      exact .handed process job progress run rfl seen (Or.inr notifies)
        (.keeping rfl rfl rfl fun _ => rfl)
  | @prepareCallback run eventId existing url body now notifies seen _ _ _ _ =>
      obtain ⟨rfl, rfl, rfl⟩ := stores
      exact .handed process job progress run rfl seen (Or.inr notifies)
        (.keeping rfl rfl rfl fun _ => rfl)
  | @delivered run delivery now attempt dispatches seen _ _ =>
      obtain ⟨rfl, rfl, rfl⟩ := stores
      exact .handed process job progress run rfl seen
        (Or.inr (ManagerProtocol.Job.dispatches_notifies dispatches))
        (.keeping rfl rfl rfl fun _ => rfl)
  | @exhausted run dispatches seen _ =>
      obtain ⟨rfl, rfl, rfl⟩ := stores
      exact .handed process job progress run rfl seen
        (Or.inr (ManagerProtocol.Job.dispatches_notifies dispatches))
        (.keeping rfl rfl rfl fun _ => rfl)
  | _ => exact stores.elim

/-- Every update stores an object that its thread has read or stored. -/
theorem stores_source (permitted : phase.permits digest op) (stores : op.stores site expected row) :
    Source phase site expected row := by
  cases phase with
  | execution process worker progress => exact execution_source permitted stores
  | tool context progress =>
      cases permitted with
      | @markWaiting run tool seen =>
          obtain ⟨rfl, rfl, rfl⟩ := stores
          exact .read run seen rfl (fun closing => by cases closing)
            (.keeping rfl rfl rfl fun _ => rfl)
      | _ => exact stores.elim
  | stage index context stageKey progress =>
      cases permitted with
      | @currentStep run seen _ =>
          obtain ⟨rfl, rfl, rfl⟩ := stores
          exact .read run seen rfl (fun closing => by cases closing)
            (.keeping rfl rfl rfl fun _ => rfl)
      | _ => exact stores.elim
  | checkpoint index context stageKey progress =>
      cases permitted with
      | @currentStep run seen _ =>
          obtain ⟨rfl, rfl, rfl⟩ := stores
          exact .read run seen rfl (fun closing => by cases closing)
            (.keeping rfl rfl rfl fun _ => rfl)
      | _ => exact stores.elim
  | manager process job progress => exact manager_source permitted stores

def writes : Phase → Site → Bool
  | .execution _ _ _, site =>
      site ∉ [.cancel, .recover, .reclaim, .toolCall, .currentStep, .delivered, .exhausted]
  | .tool _ _, site => site = .toolCall
  | .stage _ _ _ _, site => site = .currentStep
  | .checkpoint _ _ _ _, site => site = .currentStep
  | .manager _ _ _, site => site ∈
      [.cancel, .recover, .reclaim, .skipCallback, .prepareCallback, .delivered, .exhausted]

theorem stores_writes (permitted : phase.permits digest op)
    (stores : op.stores site expected row) : writes phase site = true := by
  cases phase <;> cases permitted <;>
    first
    | exact stores.elim
    | (obtain ⟨rfl, _⟩ := stores
       simp [writes])

/-- The updates that take the run from its owner leave nobody in its place. -/
theorem clears_owner (permitted : phase.permits digest op) (stores : op.stores site expected row)
    (cleared : clears site = true) : row.worker = none ∧ row.leaseExpireTime = none := by
  cases stores_source permitted stores with
  | stored _ _ _ derived => exact derived.free cleared
  | read _ _ _ _ derived => exact derived.free cleared
  | handed _ _ _ _ _ _ _ derived => exact derived.free cleared

end Sources

section Runs

variable {deployment : Deployment} {admitted : Entry → Bool} {past : List PlatformEvent}
  {phases : List Phase} {thread : Nat} {tag : Tag} {role : Role} {op : Op} {oracle : op.Answer}
  {state : State} {phase : Phase} {site : Site} {expected : Expected} {row run : AgentRun}

theorem inHand_read (fresh : rewrites site = false)
    (opening : site = .finish → lastStored thread past = none)
    (read : lastRead thread past = some run) : inHand thread role site past = some run := by
  have chosen : basis thread site past = readBy thread := by
    unfold basis
    rw [if_neg]
    rintro (rewriting | ⟨finishes, stored⟩)
    · rw [fresh] at rewriting
      cases rewriting
    · rw [opening finishes] at stored
      cases stored
  unfold inHand takes
  rw [chosen, ite_self]
  exact read

theorem inHand_stored (stored : lastStored thread past = some run)
    (executes : dispatching role = false) (rewriting : rewrites site = true ∨ site = .finish) :
    inHand thread role site past = some run := by
  have chosen : basis thread site past = storedBy thread := by
    unfold basis
    rw [if_pos]
    exact rewriting.imp_right fun finishes => ⟨finishes, by rw [stored]; rfl⟩
  unfold inHand takes
  rw [chosen, executes]
  exact stored

theorem notifies_dispatching {job : ManagerProtocol.Job} (notifies : job.notifies) :
    dispatching job.role = true := by
  cases job <;> first | rfl | exact notifies.elim

theorem inHand_handed {job : ManagerProtocol.Job}
    (hands : clears site = true ∨ job.notifies) (read : lastRead thread past = some run) :
    inHand thread job.role site past = some run := by
  rcases hands with clearing | notifies
  · apply inHand_read _ _ read
    · cases site <;> first | rfl | cases clearing
    · rintro rfl
      cases clearing
  · unfold inHand takes
    rw [notifies_dispatching notifies]
    exact read

theorem executes_undispatched {worker : Option Process} (executes : role.executes worker) :
    dispatching role = false := by
  cases role <;> first | rfl | exact executes.elim

theorem written_undispatched {run : AgentRun} (belongs : phase.belongs tag)
    (wrote : phase.written = some run) : dispatching tag.role = false := by
  cases phase with
  | execution process worker progress => exact executes_undispatched belongs.2
  | _ => cases wrote

/-- Every update writes back the object that its thread has in hand. -/
theorem stored_object {start : State} {left right : List PlatformEvent} {final : PlatformConfig}
    {answer : op.Answer} {before after : State}
    (ran : (platformSystem deployment admitted).Run (atRest start)
      (left ++ .acted thread tag op answer before after :: right) final)
    (stores : op.stores site expected row) : ∃ object,
      inHand thread tag.role site left = some object ∧ Derived site expected object row := by
  obtain ⟨phase, _, present, belongs, permitted, _⟩ :=
    Discipline.run_permits (D := discipline deployment admitted) ran rfl
  have fresh := fresh_inductive.before_event ran rfl (fun _ _ _ _ => trivial) fresh_initial
  have remembers := remembers_inductive.before_event ran rfl (fun _ _ _ _ => trivial)
    remembers_initial
  have held := DispatchFrame.held_inductive.before_event ran rfl (fun _ _ _ _ => trivial)
    DispatchFrame.held_initial
  cases stores_source permitted stores with
  | stored run wrote rewriting derived =>
      have known := remembers.written thread phase run present wrote
      exact ⟨run, inHand_stored known (written_undispatched belongs wrote) rewriting, derived⟩
  | read run seen rereads opening derived =>
      have read : phase.read = some run := by
        cases phase with
        | manager process job progress => cases seen
        | _ => exact seen
      refine ⟨run, inHand_read rereads ?_ (fresh thread phase run present read), derived⟩
      intro finishes
      obtain ⟨process, worker, progress, rfl, step⟩ := opening finishes
      exact remembers.opening thread process worker progress present step
  | handed process job progress run managed seen hands derived =>
      subst managed
      cases belongs
      obtain ⟨read, known, framed⟩ := held thread process job progress run present seen
      exact ⟨read, inHand_handed hands known, derived.of_frame framed⟩

/-- The object was the row when the thread took it. -/
theorem taken_row {start : State} {left right : List PlatformEvent} {item : PlatformEvent}
    {object : AgentRun} {final : PlatformConfig}
    (ran : (platformSystem deployment admitted).Run (atRest start) (left ++ item :: right) final)
    (picked : takes thread role site past item = some object) : item.after.run = object := by
  unfold takes basis at picked
  split at picked
  · exact read_row ran picked
  · split at picked
    · exact stored_row ran picked
    · exact read_row ran picked

end Runs

end Hands

end AgentTaskPlatform
