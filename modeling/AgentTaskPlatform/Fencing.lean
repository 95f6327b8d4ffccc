import AgentTaskPlatform.Hands

/-!
Fencing of queue workers. The worker column names the process that claimed the
run last, or nobody: every writer stores the column it read while its event
loop was not interrupted, and a claim waits until the loop of its process is
idle. An execution whose lease went to another worker therefore misses with
every conditional update until its own process claims the run again.
-/

namespace AgentTaskPlatform

open Interleaving

namespace Phase

/-- The thread writes under the worker id of its process, or is a call of the
manager that hands the row to nobody. -/
def Leased : Phase → Prop
  | .execution process worker _ => worker = some process
  | .tool context _ => context.run.worker = some context.process
  | .stage _ context _ _ => context.run.worker = some context.process
  | .checkpoint _ context _ _ => context.run.worker = some context.process
  | .manager _ job _ => ¬ job.notifies

theorem leased_after {phase : Phase} (op : Op) (answer : op.Answer) (leased : phase.Leased) :
    (phase.after op answer).Leased := by
  cases phase <;> exact leased

end Phase

namespace Fencing

/-- Queue workers and the calls of the manager. Local executions have no worker
id, and the delivery of callbacks writes without one. -/
def queued : Entry → Bool
  | .runBackground _ => false
  | .runNow _ => false
  | .resendCallback _ => false
  | .dispatchPending _ _ _ => false
  | .dispatchDelivery _ => false
  | .prepareForRun _ => false
  | _ => true

section Updates

variable {digest : Digest} {phase : Phase} {op : Op} {oracle : op.Answer} {state : State}
  {site : Site} {expected : Expected} {row : AgentRun}

theorem admits_worker {run : AgentRun} {worker : Option Process}
    (admitted : expected.admits run = true) (guard : expected.worker = some worker) :
    run.worker = worker := by
  simp only [Expected.admits, Bool.and_eq_true, guard, Expected.matchesColumn,
    decide_eq_true_eq] at admitted
  exact admitted.1.2.symm

/-- What a thread knows of the worker column: what it wrote carries its own id,
and so does what it has just read if the row does. -/
structure Informed (phase : Phase) (state : State) : Prop where
  leased : phase.Leased
  written : ∀ run, phase.written = some run → run.worker = some phase.process
  read : ∀ run, phase.seen = some run → state.run.worker = some phase.process →
    run.worker = some phase.process

theorem prepared_worker {process : Process} {worker : Option Process}
    {progress : ExecutionProtocol.Progress} {run : AgentRun}
    (informed : Informed (.execution process worker progress) state)
    (prepares : progress.step.prepares run) : run.worker = some process :=
  informed.written run (Hands.prepares_written prepares)

theorem execution_stores {process : Process} {progress : ExecutionProtocol.Progress}
    (informed : Informed (.execution process (some process) progress) state)
    (permitted : ExecutionProtocol.Permitted process (some process) progress op)
    (stores : op.stores site expected row) (admitted : expected.admits state.run = true) :
    state.run.worker = some process ∧
      row.worker = if clears site = true then none else some process := by
  have written : ∀ run, (Phase.execution process (some process) progress).written = some run →
      run.worker = some process := informed.written
  cases permitted with
  | @attemptStart run attempt now seen _ _ _ =>
      obtain ⟨rfl, rfl, rfl⟩ := stores
      have held := admits_worker admitted rfl
      exact ⟨held, informed.read run seen held⟩
  | @agentSucceeded _ _ fresh output now _ seen =>
      obtain ⟨rfl, rfl, rfl⟩ := stores
      have held := admits_worker admitted rfl
      exact ⟨held, informed.read fresh seen held⟩
  | @attemptFailed _ run attempts timeout error step _ =>
      obtain ⟨rfl, rfl, rfl⟩ := stores
      exact ⟨admits_worker admitted rfl, written run (by simp only [Phase.written, step])⟩
  | @recovered _ run attempts timeout error result now step =>
      obtain ⟨rfl, rfl, rfl⟩ := stores
      exact ⟨admits_worker admitted rfl, written run (by simp only [Phase.written, step])⟩
  | @finish run now finishes =>
      obtain ⟨rfl, rfl, rfl⟩ := stores
      have held := admits_worker admitted rfl
      refine ⟨held, ?_⟩
      show run.worker = some process
      unfold ExecutionProtocol.Progress.finishes at finishes
      split at finishes
      · exact informed.read run finishes held
      · next step =>
          obtain ⟨_, rfl⟩ := finishes
          exact written run (by simp only [Phase.written, step])
      · exact finishes.elim
  | @skipCallback run prepares _ =>
      obtain ⟨rfl, rfl, rfl⟩ := stores
      have own : run.worker = some process := prepared_worker informed prepares
      exact ⟨(admits_worker admitted rfl).trans own, own⟩
  | @prepareCallback run eventId existing url body now prepares _ _ _ _ _ =>
      obtain ⟨rfl, rfl, rfl⟩ := stores
      have own : run.worker = some process := prepared_worker informed prepares
      exact ⟨(admits_worker admitted rfl).trans own, own⟩
  | release seen _ =>
      obtain ⟨rfl, rfl, rfl⟩ := stores
      exact ⟨admits_worker admitted rfl, rfl⟩
  | deadLetter reason seen _ =>
      obtain ⟨rfl, rfl, rfl⟩ := stores
      exact ⟨admits_worker admitted rfl, rfl⟩
  | @backgroundFailure run error seen _ _ =>
      obtain ⟨rfl, rfl, rfl⟩ := stores
      have held := admits_worker admitted rfl
      exact ⟨held, informed.read run seen held⟩
  | _ => exact stores.elim

/-- Tool calls and stages guard their updates by the worker of their attempt. -/
theorem tool_stores {context : AgentContext} {progress : ToolProtocol.Progress}
    (informed : Informed (.tool context progress) state)
    (permitted : ToolProtocol.Permitted digest context progress op)
    (stores : op.stores site expected row) (admitted : expected.admits state.run = true) :
    state.run.worker = some context.process ∧
      row.worker = if clears site = true then none else some context.process := by
  cases permitted with
  | @markWaiting run tool seen =>
      obtain ⟨rfl, rfl, rfl⟩ := stores
      have held := (admits_worker admitted rfl).trans informed.leased
      exact ⟨held, informed.read run seen held⟩
  | _ => exact stores.elim

theorem stage_stores {index : Nat} {context : AgentContext} {stageKey : String}
    {progress : StageProtocol.Progress} (leased : context.run.worker = some context.process)
    (read : ∀ run, progress.seen = some run → state.run.worker = some context.process →
      run.worker = some context.process)
    (permitted : StageProtocol.Permitted index context stageKey progress op)
    (stores : op.stores site expected row) (admitted : expected.admits state.run = true) :
    state.run.worker = some context.process ∧
      row.worker = if clears site = true then none else some context.process := by
  cases permitted with
  | @currentStep run seen _ =>
      obtain ⟨rfl, rfl, rfl⟩ := stores
      have held := (admits_worker admitted rfl).trans leased
      exact ⟨held, read run seen held⟩
  | _ => exact stores.elim

/-- An update that takes effect keeps the worker column or clears it, and one of
an execution finds its own id there. -/
theorem stores_worker (informed : Informed phase state) (permitted : phase.permits digest op)
    (stores : op.stores site expected row) (admitted : expected.admits state.run = true) :
    (state.run.worker = some phase.process ∧
      row.worker = if clears site = true then none else some phase.process) ∨
    (clears site = true ∧ row.worker = none ∧
      ∃ process job progress, phase = .manager process job progress) := by
  cases phase with
  | execution process worker progress =>
      cases informed.leased
      exact Or.inl (execution_stores informed permitted stores admitted)
  | tool context progress => exact Or.inl (tool_stores informed permitted stores admitted)
  | stage index context stageKey progress =>
      exact Or.inl (stage_stores informed.leased informed.read permitted stores admitted)
  | checkpoint index context stageKey progress =>
      exact Or.inl (stage_stores informed.leased informed.read permitted stores admitted)
  | manager process job progress =>
      right
      have silent : ¬ job.notifies := informed.leased
      cases permitted with
      | cancel now _ _ _ =>
          obtain ⟨rfl, rfl, rfl⟩ := stores
          exact ⟨rfl, rfl, process, job, progress, rfl⟩
      | recover agent now _ _ _ _ _ =>
          obtain ⟨rfl, rfl, rfl⟩ := stores
          exact ⟨rfl, rfl, process, job, progress, rfl⟩
      | reclaim now _ _ _ _ _ =>
          obtain ⟨rfl, rfl, rfl⟩ := stores
          exact ⟨rfl, rfl, process, job, progress, rfl⟩
      | skipCallback notifies _ _ => exact absurd notifies silent
      | prepareCallback url body now notifies _ _ _ _ _ => exact absurd notifies silent
      | delivered now attempt dispatches _ _ _ =>
          exact absurd (ManagerProtocol.Job.dispatches_notifies dispatches) silent
      | exhausted dispatches _ _ =>
          exact absurd (ManagerProtocol.Job.dispatches_notifies dispatches) silent
      | _ => exact stores.elim

theorem performed_worker (informed : Informed phase state) (permitted : phase.permits digest op)
    {worker : Process} (held : (Op.perform op oracle state).2.run.worker = some worker) :
    state.run.worker = some worker := by
  rcases perform_run op oracle state with
    same | ⟨site, expected, row, stores, admitted, same⟩ | ⟨row, rfl, same⟩ | ⟨_, lease, rfl, same⟩
  · rwa [same] at held
  · rw [same] at held
    rcases stores_worker informed permitted stores admitted with ⟨own, column⟩ | ⟨_, none, _⟩
    · rw [column] at held
      split at held
      · cases held
      · exact own.trans held
    · rw [none] at held
      cases held
  · rw [same, retry_frees permitted] at held
    cases held
  · rw [same] at held
    exact held

end Updates

section Knowledge

variable {digest : Digest} {phase : Phase} {op : Op} {oracle : op.Answer} {state : State}

theorem written_after {run : AgentRun} (permitted : phase.permits digest op)
    (wrote : (phase.after op (Op.perform op oracle state).1).written = some run) :
    phase.written = some run ∨ ∃ site expected, op.stores site expected run ∧
      expected.admits state.run = true ∧ clears site = false := by
  cases phase with
  | execution process worker progress =>
      cases op with
      | run op =>
          cases op with
          | updateIfCurrent site expected row =>
              right
              by_cases hit : expected.admits state.run = true
              · simp only [Phase.after, ExecutionProtocol.Progress.after, Op.perform,
                  RunOp.perform, State.updateIfCurrent, hit, if_true] at wrote
                cases site <;> cases wrote <;> exact ⟨_, _, ⟨rfl, rfl, rfl⟩, hit, rfl⟩
              · simp only [Phase.after, ExecutionProtocol.Progress.after, Op.perform,
                  RunOp.perform, State.updateIfCurrent, hit] at wrote
                cases site <;> cases wrote
          | updateRunWithCallback site expected row delivery =>
              cases permitted with
              | prepareCallback url body now _ _ _ _ _ _ => cases wrote
          | _ => exact Or.inl wrote
      | stage op => cases permitted
      | callback op => cases op <;> exact Or.inl wrote
      | process op => cases op <;> exact Or.inl wrote
      | external op => exact Or.inl wrote
  | _ => cases wrote

theorem perform_contexts {context : AgentContext}
    (member : context ∈ (Op.perform op oracle state).2.contexts) :
    (∃ old ∈ state.contexts, old.process = context.process ∧ old.run = context.run) ∨
      op = .process (.createContext context) := by
  cases op with
  | run op =>
      obtain ⟨_, _, _, same⟩ := op.perform_frame state
      simp only [Op.perform, same] at member
      exact Or.inl ⟨context, member, rfl, rfl⟩
  | stage op =>
      obtain ⟨_, same⟩ := op.perform_frame state
      simp only [Op.perform, same] at member
      exact Or.inl ⟨context, member, rfl, rfl⟩
  | callback op =>
      obtain ⟨_, same⟩ := op.perform_frame state
      simp only [Op.perform, same] at member
      exact Or.inl ⟨context, member, rfl, rfl⟩
  | external op => exact Or.inl ⟨context, member, rfl, rfl⟩
  | process op =>
      cases op with
      | createContext created =>
          simp only [Op.perform, LocalOp.perform, List.mem_append, List.mem_singleton] at member
          rcases member with old | rfl
          · exact Or.inl ⟨context, old, rfl, rfl⟩
          · exact Or.inr rfl
      | enterStage index stageKey =>
          left
          simp only [Op.perform, LocalOp.perform] at member
          split at member
          · exact ⟨context, member, rfl, rfl⟩
          · next entered found =>
              split at member
              · exact ⟨context, member, rfl, rfl⟩
              · rcases List.mem_or_eq_of_mem_set member with old | rfl
                · exact ⟨context, old, rfl, rfl⟩
                · exact ⟨entered, List.mem_of_getElem? found, rfl, rfl⟩
      | dropEvent process event =>
          left
          simp only [Op.perform, LocalOp.perform] at member
          split at member <;> exact ⟨context, member, rfl, rfl⟩
      | setEvent process =>
          left
          simp only [Op.perform, LocalOp.perform] at member
          split at member <;> exact ⟨context, member, rfl, rfl⟩
      | _ => exact Or.inl ⟨context, member, rfl, rfl⟩

end Knowledge

def claimant (first : Option Process) (past : List PlatformEvent) : Option Process :=
  past.foldl (fun claimed event =>
    match event with
    | .launched (.dispatchReady process _) _ _ _ => some process
    | _ => claimed) first

def claims (process : Process) : PlatformEvent → Bool
  | .launched (.dispatchReady own _) _ _ _ => own = process
  | _ => false

theorem claimant_snoc (first : Option Process) (past : List PlatformEvent)
    (event : PlatformEvent) : claimant first (past ++ [event]) =
      match event with
      | .launched (.dispatchReady process _) _ _ _ => some process
      | _ => claimant first past := by
  simp only [claimant, List.foldl_append, List.foldl_cons, List.foldl_nil]

theorem claimant_append (first : Option Process) (left right : List PlatformEvent) :
    claimant first (left ++ right) = claimant (claimant first left) right := by
  simp only [claimant, List.foldl_append]

theorem claimant_claims {process : Process} {first : Option Process} {past : List PlatformEvent}
    {event : PlatformEvent} (claimed : claims process event = true) :
    claimant first (past ++ [event]) = some process := by
  rw [claimant_snoc]
  cases event with
  | acted thread tag op answer before after => cases claimed
  | launched entry spawned before after =>
      cases entry with
      | dispatchReady own leaseSeconds =>
          simp only [claims, decide_eq_true_eq] at claimed
          rw [claimed]
      | _ => cases claimed

/-- A process that has lost the run is the last claimant again only after a claim. -/
theorem claimant_superseded {process : Process} {first : Option Process}
    {events : List PlatformEvent} (other : first ≠ some process)
    (unclaimed : ∀ event ∈ events, claims process event = false) :
    claimant first events ≠ some process := by
  induction events generalizing first with
  | nil => exact other
  | cons event rest ih =>
      refine ih ?_ fun event member => unclaimed event (List.mem_cons_of_mem _ member)
      have here := unclaimed event List.mem_cons_self
      cases event with
      | acted thread tag op answer before after => exact other
      | launched entry spawned before after =>
          cases entry with
          | dispatchReady own leaseSeconds =>
              intro same
              cases same
              simp [claims] at here
          | _ => exact other

/-- The row belongs to the last claimant or to nobody, and no thread that its
event loop may run next would write another worker into it. -/
structure Inv (first : Option Process) (past : List PlatformEvent) (config : PlatformConfig)
    (phases : List Phase) : Prop where
  owner : ∀ worker, config.state.run.worker = some worker → claimant first past = some worker
  contexts : ∀ context ∈ config.state.contexts, context.run.worker = some context.process
  leased : ∀ (thread : Nat) phase, phases[thread]? = some phase → phase.Leased
  written : ∀ (thread : Nat) phase run, phases[thread]? = some phase →
    phase.written = some run → run.worker = some phase.process
  reads : ∀ (thread : Nat) tag op next phase run,
    config.threads[thread]? = some ⟨tag, .act op next⟩ → phases[thread]? = some phase →
    op.awaits = false → phase.seen = some run →
    config.state.run.worker = some phase.process → run.worker = some phase.process

section Runs

variable {deployment : Deployment} {first : Option Process} {past : List PlatformEvent}
  {config : PlatformConfig} {phases : List Phase} {thread : Nat} {tag : Tag} {op : Op}
  {next : op.Answer → Program platform (Except Exc Json)} {oracle : op.Answer} {phase : Phase}

theorem Inv.informed (inv : Inv first past config phases)
    (present : config.threads[thread]? = some ⟨tag, .act op next⟩)
    (named : phases[thread]? = some phase) (awake : op.awaits = false) :
    Informed phase config.state where
  leased := inv.leased thread phase named
  written run wrote := inv.written thread phase run named wrote
  read run seen held := inv.reads thread tag op next phase run present named awake seen held

theorem Inv.keeps_worker (inv : Inv first past config phases)
    (present : config.threads[thread]? = some ⟨tag, .act op next⟩)
    (named : phases[thread]? = some phase) (permitted : phase.permits deployment.digest op)
    {worker : Process} (held : (Op.perform op oracle config.state).2.run.worker = some worker) :
    config.state.run.worker = some worker := by
  cases awake : op.awaits with
  | false => exact performed_worker (inv.informed present named awake) permitted held
  | true =>
      cases op with
      | external op => exact held
      | _ => cases awake

theorem inv_acts (inv : Inv first past config phases)
    (present : config.threads[thread]? = some ⟨tag, .act op next⟩)
    (named : phases[thread]? = some phase) (permitted : phase.permits deployment.digest op) :
    Inv first (past ++ [(platformSystem deployment queued).performed thread tag op oracle
        config.state])
      { state := (Op.perform op oracle config.state).2
        threads := config.threads.set thread ⟨tag, next (Op.perform op oracle config.state).1⟩ }
      ((discipline deployment queued).observe phases
        ((platformSystem deployment queued).performed thread tag op oracle config.state)) := by
  have keeps : ∀ {worker}, (Op.perform op oracle config.state).2.run.worker = some worker →
      config.state.run.worker = some worker := inv.keeps_worker present named permitted
  refine ⟨?_, ?_, ?_, ?_, ?_⟩
  · intro worker held
    rw [claimant_snoc]
    exact inv.owner worker (keeps held)
  · intro context member
    rcases perform_contexts member with ⟨old, known, process, run⟩ | rfl
    · rw [← process, ← run]
      exact inv.contexts old known
    · cases phase with
      | execution process worker progress =>
          cases permitted with
          | @createContext _ run agent signal step =>
              exact inv.written thread _ run named (by simp only [Phase.written, step])
      | _ => cases permitted
  · intro index later found
    rcases observe_phase named found with ⟨rfl, rfl⟩ | ⟨_, kept⟩
    · exact Phase.leased_after op _ (inv.leased index phase named)
    · exact inv.leased index later kept
  · intro index later run found wrote
    rcases observe_phase named found with ⟨rfl, rfl⟩ | ⟨_, kept⟩
    · rw [Phase.process_after]
      rcases written_after permitted wrote with before | ⟨site, expected, stores, hit, keeping⟩
      · exact inv.written index phase run named before
      · have awake : op.awaits = false := by
          cases op with
          | external op => exact stores.elim
          | _ => rfl
        rcases stores_worker (inv.informed present named awake) permitted stores hit with
          ⟨_, column⟩ | ⟨clearing, _⟩
        · rw [column, keeping]
          rfl
        · rw [keeping] at clearing
          cases clearing
    · exact inv.written index later run kept wrote
  · intro index other waiting rest later run running found awake seen held
    have before := keeps held
    rcases observe_phase named found with ⟨rfl, rfl⟩ | ⟨different, kept⟩
    · rw [Phase.process_after] at before held ⊢
      rcases seen_after permitted seen with ⟨rfl, rfl⟩ | ⟨steady, known⟩
      · exact before
      · exact inv.reads index tag op next phase run present named steady known before
    · simp only at running
      rw [List.getElem?_set_ne (Ne.symm different)] at running
      exact inv.reads index other waiting rest later run running kept awake seen before

theorem launch_contexts {entry : Entry} {state : State} {spawned : Option Activity}
    (launched : (platformSystem deployment queued).launch entry config = some (state, spawned)) :
    state.contexts = config.state.contexts := by
  rw [launch_effect launched]
  cases entry with
  | shutdown process =>
      simp only [Entry.effect, State.shutdown]
      split <;> rfl
  | _ => rfl

theorem phase_leased {entry : Entry} {state : State} {started : Phase}
    (contexts : ∀ context ∈ state.contexts, context.run.worker = some context.process)
    (admitted : queued entry = true) (start : entry.phase state = some started) :
    started.Leased := by
  have context_leased : ∀ {index : Nat} {context}, state.contexts[index]? = some context →
      context.run.worker = some context.process :=
    fun found => contexts _ (List.mem_of_getElem? found)
  cases entry with
  | dispatchReady process leaseSeconds =>
      cases start
      rfl
  | renewal process =>
      obtain ⟨_, _, rfl⟩ := Option.map_eq_some_iff.mp start
      exact id
  | toolCall index toolName input idempotencyKey =>
      obtain ⟨_, found, rfl⟩ := Option.map_eq_some_iff.mp start
      exact context_leased found
  | runStage index stageKey stageInput definitionVersion maxAttempts idempotencyKey =>
      obtain ⟨_, found, rfl⟩ := Option.map_eq_some_iff.mp start
      exact context_leased found
  | saveCheckpoint index stageKey executionId checkpoint =>
      obtain ⟨_, found, rfl⟩ := Option.map_eq_some_iff.mp start
      exact context_leased found
  | cancel process =>
      cases start
      exact id
  | retry process =>
      cases start
      exact id
  | recoverIncomplete process =>
      cases start
      exact id
  | reclaimExpiredLeases process =>
      cases start
      exact id
  | tick elapsed => cases start
  | shutdown process => cases start
  | prune eventIds => cases start
  | _ => cases admitted

theorem inv_launches {entry : Entry} {state : State} {spawned : Option Activity}
    (tracked : (discipline deployment queued).Tracked config phases)
    (inv : Inv first past config phases)
    (launched : (platformSystem deployment queued).launch entry config = some (state, spawned)) :
    Inv first
      (past ++ [.launched entry (System.spawnedThread config spawned) config.state state])
      { state := state, threads := config.threads ++ spawned.toList }
      ((discipline deployment queued).observe phases
        (.launched entry (System.spawnedThread config spawned) config.state state)) := by
  have admitted := (launch_start launched).1
  have started : ∀ {index : Nat} {phase}, ((discipline deployment queued).observe phases
      (.launched entry (System.spawnedThread config spawned) config.state state))[index]? =
        some phase → phases[index]? = some phase ∨ (phase.Opening ∧ phase.Leased) := by
    intro index phase found
    rcases launch_phase launched found with old | ⟨_, start⟩
    · exact Or.inl old
    · exact Or.inr ⟨Entry.phase_opening start, phase_leased inv.contexts admitted start⟩
  refine ⟨?_, ?_, ?_, ?_, ?_⟩
  · intro worker held
    rw [claimant_snoc]
    rcases launch_moves launched with same | ⟨process, leaseSeconds, rfl, _, same⟩
    · have before := inv.owner worker (same ▸ held)
      cases entry with
      | dispatchReady process leaseSeconds =>
          rw [launch_effect launched] at held
          exact held
      | _ => exact before
    · rw [show state.run = _ from same] at held
      exact held
  · rw [launch_contexts launched]
    exact inv.contexts
  · intro index phase found
    rcases started found with old | ⟨_, leased⟩
    · exact inv.leased index phase old
    · exact leased
  · intro index phase run found wrote
    rcases started found with old | ⟨opening, _⟩
    · exact inv.written index phase run old wrote
    · rw [Phase.opening_written opening] at wrote
      cases wrote
  · intro index tag op next phase run running found awake seen held
    rcases started found with old | ⟨opening, _⟩
    · have inside : index < config.threads.length := by
        rw [← tracked.length]
        exact (List.getElem?_eq_some_iff.mp old).1
      rw [List.getElem?_append_left inside] at running
      rcases launch_moves launched with same | ⟨process, leaseSeconds, rfl, _, same⟩
      · exact inv.reads index tag op next phase run running old awake seen (same ▸ held)
      · -- The event loop of the claiming process is idle, so the thread is suspended.
        rw [show state.run = _ from same] at held
        obtain ⟨belongs, _⟩ := tracked.follows index _ phase running old
        have own : tag.process = process := by
          rw [Phase.belongs_process belongs]
          exact (Option.some.inj held).symm
        have free := List.all_eq_true.mp (launch_claim launched).2.2 _
          (List.mem_of_getElem? running)
        simp [own, awake] at free
    · rw [Phase.opening_seen opening] at seen
      cases seen

theorem inv_invariant : (discipline deployment queued).Invariant (fun _ _ => True)
    (Inv first) where
  acts _ _ _ _ _ _ _ _ _ _ inv present _ named _ permitted _ :=
    inv_acts inv present named permitted
  launches _ _ _ _ _ _ tracked inv launched _ := inv_launches tracked inv launched

theorem inv_initial {run : AgentRun} {clock : Nat} {conversation : Option String} :
    Inv run.worker [] (atRest (State.initial run clock conversation)) [] := by
  refine ⟨fun worker held => held, ?_, ?_, ?_, ?_⟩
  · intro context member
    cases member
  · intro thread phase found
    cases found
  · intro thread phase run found
    cases found
  · intro thread tag op next phase run running
    cases running

end Runs

/-- The roles whose updates are those of an execution: the executor, its tool
calls and its stages. -/
def works : Role → Bool
  | .background _ => true
  | .direct => true
  | .toolCall _ => true
  | .stage _ _ => true
  | .checkpoint _ => true
  | _ => false

/-- After another worker has claimed the run, no conditional update of a stale
worker's execution changes the row until the stale worker claims it again. -/
theorem stale_worker_fenced {deployment : Deployment} {run : AgentRun} {clock : Nat}
    {conversation : Option String} {past between later : List PlatformEvent}
    {claim write : PlatformEvent} {final : PlatformConfig}
    (ran : (platformSystem deployment queued).Run (atRest (State.initial run clock conversation))
      (past ++ claim :: (between ++ write :: later)) final)
    {stale other : Process} (distinct : other ≠ stale) (claimed : claims other claim = true)
    (unclaimed : ∀ event ∈ between, claims stale event = false)
    {thread : Nat} {tag : Tag} {op : Op} {answer : op.Answer} {before after : State}
    (writes : write = .acted thread tag op answer before after) (own : tag.process = stale)
    (working : works tag.role = true) {site : Site} {expected : Expected} {row : AgentRun}
    (updates : op.stores site expected row) : after.run = before.run := by
  subst writes
  have regrouped : past ++ claim :: between = (past ++ [claim]) ++ between := by simp
  rw [← List.cons_append, ← List.append_assoc] at ran
  obtain ⟨config, _, move, taken, tracked, inv⟩ :=
    inv_invariant.before_event ran rfl (fun _ _ _ _ => trivial) inv_initial
  cases move with
  | launch entry =>
      obtain ⟨_, _, _, same, _⟩ := System.step_launch taken
      cases same
  | act index oracle =>
      obtain ⟨_, _, next, present, _, same, _⟩ := System.step_act taken
      cases same
      obtain ⟨phase, named, belongs, follows⟩ := tracked.phase present
      have permitted : phase.permits deployment.digest op := follows.1
      rcases perform_run op (oracle op) config.state with
        same | ⟨_, _, _, stores, hit, _⟩ | ⟨row, rfl, _⟩ | ⟨_, lease, rfl, _⟩
      · exact same
      · have awake : op.awaits = false := by
          cases op with
          | external op => exact stores.elim
          | _ => rfl
        rcases stores_worker (inv.informed present named awake) permitted stores hit with
          ⟨held, _⟩ | ⟨_, _, process, job, progress, rfl⟩
        · have last := inv.owner _ held
          have lost : claimant run.worker (past ++ claim :: between) ≠ some stale := by
            rw [regrouped, claimant_append, claimant_claims claimed]
            exact claimant_superseded (by simpa using distinct) unclaimed
          rw [← Phase.belongs_process belongs, own] at last
          exact absurd last lost
        · rw [show tag = _ from belongs] at working
          cases job <;> cases working
      · exact updates.elim
      · exact updates.elim

/-- An attempt outlives its lease: another worker claims the run before the agent
of the first one returns. -/
def takenOver : List (Move platform Entry) :=
  [.launch (.dispatchReady "worker-a" 30)] ++ steps 13 0 calm ++
    [.launch (.tick 31), .launch (.dispatchReady "worker-b" 30)] ++ steps 5 0 calm

def updatesFor (process : Process) : PlatformEvent → Bool
  | .acted _ tag (.run (.updateIfCurrent _ _ _)) _ _ _ =>
      tag.process = process && works tag.role
  | _ => false

theorem updatesFor_spec {process : Process} {event : PlatformEvent}
    (updates : updatesFor process event = true) :
    ∃ thread tag site expected row answer before after,
      event = .acted thread tag (.run (.updateIfCurrent site expected row)) answer before after ∧
      tag.process = process ∧ works tag.role = true := by
  unfold updatesFor at updates
  split at updates
  · simp only [Bool.and_eq_true, decide_eq_true_eq] at updates
    exact ⟨_, _, _, _, _, _, _, _, rfl, updates.1, updates.2⟩
  · cases updates

theorem stale_worker_fenced_taken_over : ∃ past claim between thread tag site expected row answer
    before after later final,
    (platformSystem sampleDeployment queued).Run (atRest (State.initial sampleRun 0 none))
      (past ++ claim :: (between ++ .acted thread tag (.run (.updateIfCurrent site expected row))
        answer before after :: later)) final ∧
    claims "worker-b" claim = true ∧ tag.process = "worker-a" ∧ after.run = before.run := by
  have passed : ((platformSystem sampleDeployment queued).replay
      (atRest (State.initial sampleRun 0 none)) takenOver).any (fun outcome =>
        (outcome.1[15]?.any (claims "worker-b") &&
          (outcome.1.drop 16)[4]?.any (updatesFor "worker-a")) &&
        ((outcome.1.drop 16).take 4).all fun event => claims "worker-a" event == false) =
      true := rfl
  obtain ⟨events, final, run, checked⟩ := System.replay_checked passed
  simp only [Bool.and_eq_true, Option.any_eq_true, List.all_eq_true, beq_iff_eq] at checked
  obtain ⟨⟨⟨claim, early, claimed⟩, write, late, updates⟩, unclaimed⟩ := checked
  obtain ⟨thread, tag, site, expected, row, answer, before, after, rfl, own, working⟩ :=
    updatesFor_spec updates
  have split := split_at early
  rw [split_at late] at split
  rw [split] at run
  exact ⟨_, claim, _, thread, tag, site, expected, row, answer, before, after, _, final, run,
    claimed, own, stale_worker_fenced run (by decide) claimed unclaimed rfl own working
      ⟨rfl, rfl, rfl⟩⟩

end Fencing

end AgentTaskPlatform
