import AgentTaskPlatform.ManagerProtocol
import AgentTaskPlatform.StageProtocol
import AgentTaskPlatform.ToolProtocol
import AgentTaskPlatform.Tracking

/-!
Every thread of the platform follows one of the protocols. The phase of a
thread carries what it was started with, so that one protocol covers them all.
-/

namespace AgentTaskPlatform

open Interleaving

namespace ManagerProtocol

def Job.role : Job → Role
  | .renewal _ => .renewal
  | .cancel => .cancel
  | .retry => .retry
  | .recover => .recover
  | .reclaim => .reclaim
  | .resend => .resend
  | .delivery => .delivery
  | .prepare => .prepare

end ManagerProtocol

inductive Phase where
  | execution (process : Process) (worker : Option Process)
      (progress : ExecutionProtocol.Progress)
  | tool (context : AgentContext) (progress : ToolProtocol.Progress)
  | stage (index : Nat) (context : AgentContext) (stageKey : String)
      (progress : StageProtocol.Progress)
  | checkpoint (index : Nat) (context : AgentContext) (stageKey : String)
      (progress : StageProtocol.Progress)
  | manager (process : Process) (job : ManagerProtocol.Job) (progress : ManagerProtocol.Progress)

namespace Phase

def permits (digest : Digest) : Phase → Op → Prop
  | .execution process worker progress => ExecutionProtocol.Permitted process worker progress
  | .tool context progress => ToolProtocol.Permitted digest context progress
  | .stage index context stageKey progress =>
      StageProtocol.Permitted index context stageKey progress
  | .checkpoint index context stageKey progress =>
      StageProtocol.Permitted index context stageKey progress
  | .manager process job progress => ManagerProtocol.Permitted process job progress

def after : Phase → (op : Op) → op.Answer → Phase
  | .execution process worker progress, op, answer =>
      .execution process worker (progress.after op answer)
  | .tool context progress, op, answer => .tool context (progress.after op answer)
  | .stage index context stageKey progress, op, answer =>
      .stage index context stageKey (progress.after op answer)
  | .checkpoint index context stageKey progress, op, answer =>
      .checkpoint index context stageKey (progress.after op answer)
  | .manager process job progress, op, answer => .manager process job (progress.after op answer)

def belongs (tag : Tag) : Phase → Prop
  | .execution process worker _ => tag.process = process ∧ tag.role.executes worker
  | .tool context _ => ∃ index, tag = ⟨context.process, .toolCall index⟩
  | .stage index context stageKey _ => tag = ⟨context.process, .stage index stageKey⟩
  | .checkpoint index context _ _ => tag = ⟨context.process, .checkpoint index⟩
  | .manager process job _ => tag = ⟨process, job.role⟩

def Opening : Phase → Prop
  | .execution _ _ progress => progress = { step := .opening }
  | .tool _ progress => progress = {}
  | .stage _ _ _ progress => progress = {}
  | .checkpoint _ _ _ progress => progress = {}
  | .manager _ _ progress => progress = { hand := progress.hand }

def concludes (outcome : Except Exc Json) : Phase → Prop
  | .execution _ _ progress => ExecutionProtocol.Ends outcome progress
  | .stage _ _ _ progress => StageProtocol.Returned outcome progress
  | .manager _ (.renewal _) progress => outcome = .ok (.bool true) → progress.stored = true
  | _ => True

theorem belongs_after {tag : Tag} {phase : Phase} (op : Op) (answer : op.Answer)
    (belongs : phase.belongs tag) : (phase.after op answer).belongs tag := by
  cases phase <;> exact belongs

def stageProgress : Phase → Option StageProtocol.Progress
  | .stage _ _ _ progress => some progress
  | .checkpoint _ _ _ progress => some progress
  | _ => none

theorem stageProgress_after {phase : Phase} (op : Op) (answer : op.Answer) :
    (phase.after op answer).stageProgress =
      phase.stageProgress.map fun progress => progress.after op answer := by
  cases phase <;> rfl

theorem opening_stageProgress {phase : Phase} {progress : StageProtocol.Progress}
    (opening : phase.Opening) (stage : phase.stageProgress = some progress) : progress = {} := by
  cases phase <;> cases stage <;> exact opening

theorem stageProgress_permits {digest : Digest} {phase : Phase}
    {progress : StageProtocol.Progress} {op : Op}
    (stage : phase.stageProgress = some progress) (permitted : phase.permits digest op) :
    ∃ index context stageKey, StageProtocol.Permitted index context stageKey progress op := by
  cases phase with
  | stage index context stageKey own =>
      cases stage
      exact ⟨index, context, stageKey, permitted⟩
  | checkpoint index context stageKey own =>
      cases stage
      exact ⟨index, context, stageKey, permitted⟩
  | _ => cases stage

theorem inserted_new {digest : Digest} {phase : Phase} {stage : AgentStage}
    (permitted : phase.permits digest (.stage (.getOrCreate stage))) :
    stage.status = .pending ∧ stage.executionId = none := by
  cases phase with
  | execution process worker progress =>
      cases permitted
  | tool context progress =>
      cases permitted with
      | getOrCreate tool identity inputHash _ => exact ⟨rfl, rfl⟩
  | stage index context stageKey progress =>
      cases permitted with
      | getOrCreate stageIndex definitionVersion maxAttempts idempotencyKey inputHash _ =>
          exact ⟨rfl, rfl⟩
  | checkpoint index context stageKey progress =>
      cases permitted with
      | getOrCreate stageIndex definitionVersion maxAttempts idempotencyKey inputHash _ =>
          exact ⟨rfl, rfl⟩
  | manager process job progress => cases permitted

end Phase

def activities (digest : Digest) : Protocol platform Phase where
  permits := Phase.permits digest
  after := Phase.after

section Embedding

variable {digest : Digest} {α : Type} {program : Coroutine α}

theorem execution_follows {process : Process} {worker : Option Process}
    {progress : ExecutionProtocol.Progress}
    {post : Except Exc α → ExecutionProtocol.Progress → Prop}
    {weaker : Except Exc α → Phase → Prop}
    (implies : ∀ outcome progress, post outcome progress →
      weaker outcome (.execution process worker progress))
    (follows : (ExecutionProtocol.protocol process worker).Follows progress program post) :
    (activities digest).Follows (.execution process worker progress) program weaker :=
  follows.embed (Phase.execution process worker) (fun _ _ permitted => permitted)
    (fun _ _ _ => rfl) implies

theorem tool_follows {context : AgentContext} {progress : ToolProtocol.Progress}
    {post : Except Exc α → ToolProtocol.Progress → Prop} {weaker : Except Exc α → Phase → Prop}
    (implies : ∀ outcome progress, post outcome progress →
      weaker outcome (.tool context progress))
    (follows : (ToolProtocol.protocol digest context).Follows progress program post) :
    (activities digest).Follows (.tool context progress) program weaker :=
  follows.embed (Phase.tool context) (fun _ _ permitted => permitted) (fun _ _ _ => rfl) implies

theorem stage_follows {index : Nat} {context : AgentContext} {stageKey : String}
    {progress : StageProtocol.Progress} {post : Except Exc α → StageProtocol.Progress → Prop}
    {weaker : Except Exc α → Phase → Prop}
    (implies : ∀ outcome progress, post outcome progress →
      weaker outcome (.stage index context stageKey progress))
    (follows : (StageProtocol.protocol index context stageKey).Follows progress program post) :
    (activities digest).Follows (.stage index context stageKey progress) program weaker :=
  follows.embed (Phase.stage index context stageKey) (fun _ _ permitted => permitted)
    (fun _ _ _ => rfl) implies

theorem checkpoint_follows {index : Nat} {context : AgentContext} {stageKey : String}
    {progress : StageProtocol.Progress} {post : Except Exc α → StageProtocol.Progress → Prop}
    {weaker : Except Exc α → Phase → Prop}
    (implies : ∀ outcome progress, post outcome progress →
      weaker outcome (.checkpoint index context stageKey progress))
    (follows : (StageProtocol.protocol index context stageKey).Follows progress program post) :
    (activities digest).Follows (.checkpoint index context stageKey progress) program weaker :=
  follows.embed (Phase.checkpoint index context stageKey) (fun _ _ permitted => permitted)
    (fun _ _ _ => rfl) implies

theorem manager_follows {process : Process} {job : ManagerProtocol.Job}
    {progress : ManagerProtocol.Progress}
    {post : Except Exc α → ManagerProtocol.Progress → Prop}
    {weaker : Except Exc α → Phase → Prop}
    (implies : ∀ outcome progress, post outcome progress →
      weaker outcome (.manager process job progress))
    (follows : (ManagerProtocol.protocol process job).Follows progress program post) :
    (activities digest).Follows (.manager process job progress) program weaker :=
  follows.embed (Phase.manager process job) (fun _ _ permitted => permitted)
    (fun _ _ _ => rfl) implies

end Embedding

namespace Entry

def phase (state : State) : Entry → Option Phase
  | .tick _ => none
  | .dispatchReady process _ => some (.execution process (some process) { step := .opening })
  | .runBackground process => some (.execution process none { step := .opening })
  | .runNow process => some (.execution process none { step := .opening })
  | .renewal process =>
      (state.leaseSeconds process).map fun leaseSeconds =>
        .manager process (.renewal leaseSeconds) {}
  | .shutdown _ => none
  | .cancel process => some (.manager process .cancel {})
  | .retry process => some (.manager process .retry {})
  | .recoverIncomplete process => some (.manager process .recover {})
  | .reclaimExpiredLeases process => some (.manager process .reclaim {})
  | .resendCallback process => some (.manager process .resend {})
  | .dispatchPending _ _ _ => none
  | .dispatchDelivery index =>
      (state.claimed[index]?).map fun claim =>
        .manager claim.1 .delivery { hand := some claim.2 }
  | .prepareForRun process => some (.manager process .prepare {})
  | .prune _ => none
  | .toolCall index _ _ _ => (state.contexts[index]?).map fun context => .tool context {}
  | .runStage index stageKey _ _ _ _ =>
      (state.contexts[index]?).map fun context => .stage index context stageKey {}
  | .saveCheckpoint index stageKey _ _ =>
      (state.contexts[index]?).map fun context => .checkpoint index context stageKey {}

theorem phase_opening {state : State} {entry : Entry} {started : Phase}
    (start : entry.phase state = some started) : started.Opening := by
  cases entry with
  | tick elapsed => cases start
  | shutdown process => cases start
  | dispatchPending process workerId leaseSeconds => cases start
  | prune eventIds => cases start
  | renewal process =>
      obtain ⟨_, _, rfl⟩ := Option.map_eq_some_iff.mp start
      rfl
  | dispatchDelivery index =>
      obtain ⟨_, _, rfl⟩ := Option.map_eq_some_iff.mp start
      rfl
  | toolCall index toolName input idempotencyKey =>
      obtain ⟨_, _, rfl⟩ := Option.map_eq_some_iff.mp start
      rfl
  | runStage index stageKey stageInput definitionVersion maxAttempts idempotencyKey =>
      obtain ⟨_, _, rfl⟩ := Option.map_eq_some_iff.mp start
      rfl
  | saveCheckpoint index stageKey executionId checkpoint =>
      obtain ⟨_, _, rfl⟩ := Option.map_eq_some_iff.mp start
      rfl
  | _ =>
      cases start
      rfl

def effect (deployment : Deployment) (state : State) : Entry → State
  | .tick elapsed => { state with clock := state.clock + elapsed }
  | .dispatchReady process leaseSeconds => state.claimReady process leaseSeconds
  | .shutdown process => state.shutdown process
  | .dispatchPending process workerId leaseSeconds =>
      state.claimPending process workerId leaseSeconds deployment.callbacks.maxAttempts
  | .dispatchDelivery index => { state with claimed := state.claimed.eraseIdx index }
  | .prune eventIds => state.prune eventIds
  | _ => state

variable {deployment : Deployment} {config : PlatformConfig} {state : State}

theorem start_effect {entry : Entry} {spawned : Option Activity}
    (started : entry.start deployment config = some (state, spawned)) :
    state = entry.effect deployment config.state := by
  unfold start at started
  unfold effect
  grind

theorem start_phase {entry : Entry} {spawned : Option Activity}
    (started : entry.start deployment config = some (state, spawned)) :
    match spawned with
    | none => entry.phase config.state = none
    | some thread => ∃ phase, entry.phase config.state = some phase ∧
        phase.belongs thread.tag ∧
        (activities deployment.digest).Follows phase thread.program
          Phase.concludes := by
  cases entry with
  | tick elapsed => cases started; rfl
  | dispatchReady process leaseSeconds =>
      simp only [start] at started
      split at started
      · cases started
      · cases started
        exact ⟨_, rfl, ⟨rfl, rfl⟩, execution_follows (fun _ _ ends => ends)
          (ExecutionProtocol.runBackground_follows rfl)⟩
  | runBackground process =>
      simp only [start] at started
      split at started
      · cases started
      · cases started
        exact ⟨_, rfl, ⟨rfl, rfl⟩, execution_follows (fun _ _ ends => ends)
          (ExecutionProtocol.runBackground_follows rfl)⟩
  | runNow process =>
      cases started
      exact ⟨_, rfl, ⟨rfl, rfl⟩, execution_follows (fun _ _ ends => ends)
        (ExecutionProtocol.directRun_follows rfl)⟩
  | renewal process =>
      simp only [start] at started
      split at started
      · cases started
      · next leaseSeconds known =>
          split at started
          · cases started
          · cases started
            refine ⟨.manager process (.renewal leaseSeconds) {}, ?_, rfl,
              manager_follows (fun _ _ returned => returned)
                (ManagerProtocol.renewLease_follows leaseSeconds)⟩
            simp [phase, known]
  | shutdown process => cases started; rfl
  | cancel process =>
      cases started
      exact ⟨_, rfl, rfl, manager_follows (fun _ _ _ => trivial)
        (ManagerProtocol.cancelFrom_follows 10)⟩
  | retry process =>
      cases started
      exact ⟨_, rfl, rfl, manager_follows (fun _ _ _ => trivial) ManagerProtocol.retry_follows⟩
  | recoverIncomplete process =>
      cases started
      exact ⟨_, rfl, rfl, manager_follows (fun _ _ _ => trivial)
        ManagerProtocol.recoverIncomplete_follows⟩
  | reclaimExpiredLeases process =>
      cases started
      exact ⟨_, rfl, rfl, manager_follows (fun _ _ _ => trivial)
        ManagerProtocol.reclaimExpiredLeases_follows⟩
  | resendCallback process =>
      cases started
      exact ⟨_, rfl, rfl, manager_follows (fun _ _ _ => trivial)
        (ManagerProtocol.resendCallback_follows deployment.callbacks rfl)⟩
  | dispatchPending process workerId leaseSeconds => cases started; rfl
  | dispatchDelivery index =>
      simp only [start] at started
      split at started
      · cases started
      · next process delivery found =>
          cases started
          refine ⟨.manager process .delivery { hand := some delivery }, ?_, rfl,
            manager_follows (fun _ _ _ => trivial)
              (ManagerProtocol.delivery_follows deployment.callbacks rfl rfl)⟩
          simp [phase, found]
  | prepareForRun process =>
      cases started
      exact ⟨_, rfl, rfl, manager_follows (fun _ _ _ => trivial)
        ManagerProtocol.preparation_follows⟩
  | prune eventIds => cases started; rfl
  | toolCall index toolName input idempotencyKey =>
      simp only [start] at started
      split at started
      · cases started
      · next context found =>
          cases started
          refine ⟨.tool context {}, ?_, ⟨index, rfl⟩, tool_follows (fun _ _ _ => trivial)
            (ToolProtocol.call_follows toolName input idempotencyKey rfl)⟩
          simp [phase, found]
  | runStage index stageKey stageInput definitionVersion maxAttempts idempotencyKey =>
      simp only [start] at started
      split at started
      · cases started
      · next context found =>
          cases started
          refine ⟨.stage index context stageKey {}, ?_, rfl,
            stage_follows (fun _ _ returned => returned)
              (StageProtocol.runStage_follows deployment.digest stageInput definitionVersion
                maxAttempts idempotencyKey rfl)⟩
          simp [phase, found]
  | saveCheckpoint index stageKey executionId checkpoint =>
      simp only [start] at started
      split at started
      · cases started
      · next context found =>
          cases started
          refine ⟨.checkpoint index context stageKey {}, ?_, rfl,
            checkpoint_follows (fun _ _ _ => trivial)
              (StageProtocol.saveCheckpoint_follows executionId checkpoint)⟩
          simp [phase, found]

end Entry

section Platform

variable {deployment : Deployment} {admitted : Entry → Bool} {config : PlatformConfig}
  {state : State} {entry : Entry} {spawned : Option Activity}

/-- A launch is an admitted entry taken while the event loop of its process is free. -/
theorem launch_start
    (launched : (platformSystem deployment admitted).launch entry config = some (state, spawned)) :
    admitted entry = true ∧ (entry.process config).all (idle config) = true ∧
      entry.start deployment config = some (state, spawned) := by
  simp only [platformSystem] at launched
  split at launched
  · next allowed =>
      unfold Entry.launch at launched
      split at launched
      · next free => exact ⟨allowed, free, launched⟩
      · cases launched
  · cases launched

theorem launch_effect
    (launched : (platformSystem deployment admitted).launch entry config = some (state, spawned)) :
    state = entry.effect deployment config.state :=
  Entry.start_effect (launch_start launched).2.2

theorem launch_stages
    (launched : (platformSystem deployment admitted).launch entry config = some (state, spawned)) :
    state.stages = config.state.stages := by
  rw [launch_effect launched]
  cases entry with
  | shutdown process =>
      simp only [Entry.effect, State.shutdown]
      split <;> rfl
  | _ => rfl

/-- Only an unclaimed run without an active local execution is claimed. -/
theorem launch_claim {process : Process} {leaseSeconds : Nat}
    (launched : (platformSystem deployment admitted).launch (.dispatchReady process leaseSeconds)
      config = some (state, spawned)) :
    active config process = false ∧ claimable config.state.run config.state.clock = true ∧
      idle config process = true := by
  obtain ⟨_, free, started⟩ := launch_start launched
  simp only [Entry.start] at started
  split at started
  · cases started
  · next ready =>
      simp only [Bool.or_eq_true, Bool.not_eq_true', not_or, Bool.not_eq_true,
        Bool.not_eq_false] at ready
      exact ⟨ready.1, ready.2, free⟩

variable (deployment admitted) in
def discipline : Discipline (platformSystem deployment admitted) Phase where
  protocol := activities deployment.digest
  start entry state := entry.phase state
  concludes := Phase.concludes
  belongs := Phase.belongs
  belongs_after _ _ op answer belongs := Phase.belongs_after op answer belongs
  launched _ _ _ _ launched := Entry.start_phase (launch_start launched).2.2

theorem observe_launch (phases : List Phase)
    (launched : (platformSystem deployment admitted).launch entry config = some (state, spawned)) :
    (discipline deployment admitted).observe phases
      (.launched entry (System.spawnedThread config spawned) config.state state) =
      phases ++ (entry.phase config.state).toList := by
  have started := Entry.start_phase (launch_start launched).2.2
  cases spawned with
  | none =>
      simp only at started
      simp [System.spawnedThread, Discipline.observe, started]
  | some thread => rfl

theorem launch_spawned {phases : List Phase} {thread : Nat} {tag : Tag}
    (tracked : (discipline deployment admitted).Tracked config phases)
    (launched : (platformSystem deployment admitted).launch entry config = some (state, spawned))
    (named : some (thread, tag) = System.spawnedThread config spawned) :
    ∃ phase, entry.phase config.state = some phase ∧
      ((discipline deployment admitted).observe phases
        (.launched entry (some (thread, tag)) config.state state))[thread]? = some phase := by
  have observed := observe_launch phases launched
  rw [← named] at observed
  have started := Entry.start_phase (launch_start launched).2.2
  cases spawned with
  | none => cases named
  | some activity =>
      cases named
      obtain ⟨phase, start, _⟩ := started
      refine ⟨phase, start, ?_⟩
      rw [observed, start, ← tracked.length]
      simp

theorem launch_phase {phases : List Phase} {index : Nat} {phase : Phase}
    (_ : (platformSystem deployment admitted).launch entry config = some (state, spawned))
    (found : ((discipline deployment admitted).observe phases
      (.launched entry (System.spawnedThread config spawned) config.state state))[index]? =
        some phase) :
    phases[index]? = some phase ∨
      (index = phases.length ∧ entry.phase config.state = some phase) := by
  rcases Discipline.launched_phase found with old | ⟨position, _, start⟩
  · exact Or.inl old
  · exact Or.inr ⟨position, start⟩

theorem observe_phase {phases : List Phase} {phase : Phase} {thread : Nat} {tag : Tag} {op : Op}
    {oracle : op.Answer} {index : Nat} {later : Phase} (present : phases[thread]? = some phase)
    (found : ((discipline deployment admitted).observe phases
      ((platformSystem deployment admitted).performed thread tag op oracle state))[index]? =
        some later) :
    (index = thread ∧ later = phase.after op (Op.perform op oracle state).1) ∨
      (index ≠ thread ∧ phases[index]? = some later) :=
  Discipline.performed_phase present found

end Platform

end AgentTaskPlatform
