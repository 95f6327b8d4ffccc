import AgentTaskPlatform.StartupRecovery
import AgentTaskPlatform.StatefulCalls
import AgentTaskPlatform.Transitions
import AgentTaskPlatform.Platform
import Mathlib.Data.List.Sort

/-!
The polls of a worker over all runs of the database. A poll excludes the runs with an active
local execution, claims the others in one transaction and starts an execution for each row
that it was given; the log write after a start may raise and ends the poll.
-/

namespace AgentTaskPlatform.ReadyRuns

open KeyedTable StatefulCalls RunManager
open Registry (AgentRegistry)
open StartupRecovery (RunRows listByStatus incompleteStatuses)

structure Execution where
  runId : String
  workerId : Option Process := none
  leaseSeconds : Option Nat := none
  done : Bool := false
  deriving DecidableEq

/-- The background tasks of a process, in the order of their creation, and
`_background_by_run_id`. A task that runs is the one its run is registered with. -/
structure Background where
  executions : List Execution
  byRunId : String → Option Nat
  named : ∀ {runId task}, byRunId runId = some task →
    ∃ execution, executions[task]? = some execution ∧ execution.runId = runId
  registered : ∀ {task : Nat} {execution}, executions[task]? = some execution →
    execution.done = false → byRunId execution.runId = some task

namespace Background

def empty : Background where
  executions := []
  byRunId _ := none
  named := nofun
  registered := nofun

def isRunning (background : Background) (runId : String) : Bool :=
  (background.byRunId runId).any fun task =>
    (background.executions[task]?).any fun execution => !execution.done

theorem live_isRunning (background : Background) {task : Nat} {execution : Execution}
    (found : background.executions[task]? = some execution) (live : execution.done = false) :
    background.isRunning execution.runId = true := by
  simp [isRunning, background.registered found live, found, live]

def create (background : Background) (execution : Execution)
    (free : background.isRunning execution.runId = false) : Background where
  executions := background.executions ++ [execution]
  byRunId := setAt background.byRunId execution.runId (some background.executions.length)
  named := by
    intro runId task registered
    by_cases own : runId = execution.runId
    · subst own
      simp only [setAt, if_true, Option.some.injEq] at registered
      subst registered
      exact ⟨execution, by simp, rfl⟩
    · simp only [setAt, own, if_false] at registered
      obtain ⟨older, found, same⟩ := background.named registered
      have inside := (List.getElem?_eq_some_iff.mp found).1
      exact ⟨older, by rw [List.getElem?_append_left inside]; exact found, same⟩
  registered := by
    intro task other found live
    by_cases old : task < background.executions.length
    · rw [List.getElem?_append_left old] at found
      have running := background.live_isRunning found live
      have foreign : other.runId ≠ execution.runId := by
        intro same
        rw [same, free] at running
        cases running
      simp only [setAt, foreign, if_false]
      exact background.registered found live
    · rw [List.getElem?_append_right (Nat.le_of_not_lt old)] at found
      obtain ⟨inside, same⟩ := List.getElem?_eq_some_iff.mp found
      have first : task = background.executions.length := by
        simp only [List.length_singleton] at inside
        omega
      subst first
      simp only [Nat.sub_self, List.getElem_cons_zero] at same
      subst same
      simp [setAt]

def finish (background : Background) (task : Nat) : Background where
  executions := background.executions.modify task fun execution => { execution with done := true }
  byRunId := background.byRunId
  named := by
    intro runId own registered
    obtain ⟨execution, found, same⟩ := background.named registered
    simp only [List.getElem?_modify, found]
    by_cases ended : task = own
    · exact ⟨{ execution with done := true }, by simp [ended], same⟩
    · exact ⟨execution, by simp [ended], same⟩
  registered := by
    intro own execution found live
    simp only [List.getElem?_modify] at found
    by_cases ended : task = own
    · obtain ⟨older, _, rfl⟩ := Option.map_eq_some_iff.mp found
      simp [ended] at live
    · have kept : background.executions[own]? = some execution := by simpa [ended] using found
      exact background.registered kept live

def discard (background : Background) (task : Nat) {execution : Execution}
    (found : background.executions[task]? = some execution) (ended : execution.done = true) :
    Background where
  executions := background.executions
  -- A newer task of the same run keeps its registration.
  byRunId := if background.byRunId execution.runId = some task then
    setAt background.byRunId execution.runId none else background.byRunId
  named := by
    intro runId own registered
    split at registered
    · by_cases same : runId = execution.runId
      · simp [setAt, same] at registered
      · simp only [setAt, same, if_false] at registered
        exact background.named registered
    · exact background.named registered
  registered := by
    intro own other present live
    have known := background.registered present live
    split
    · next current =>
        by_cases same : other.runId = execution.runId
        · -- The registered task is the one that has ended.
          rw [same, current, Option.some.injEq] at known
          subst known
          rw [found, Option.some.injEq] at present
          rw [← present, ended] at live
          cases live
        · simp only [setAt, same, if_false]
          exact known
    · exact known

theorem isRunning_create {background : Background} {execution : Execution}
    (free : background.isRunning execution.runId = false) {runId : String}
    (other : runId ≠ execution.runId) :
    (background.create execution free).isRunning runId = background.isRunning runId := by
  simp only [isRunning, create, setAt, other, if_false]
  cases known : background.byRunId runId with
  | none => rfl
  | some task =>
      obtain ⟨older, found, _⟩ := background.named known
      have inside := (List.getElem?_eq_some_iff.mp found).1
      simp only [Option.any_some]
      rw [List.getElem?_append_left inside]

theorem single (background : Background) {first second : Nat} {one other : Execution}
    (found : background.executions[first]? = some one)
    (present : background.executions[second]? = some other) (running : one.done = false)
    (active : other.done = false) (same : one.runId = other.runId) : first = second := by
  have left := background.registered found running
  have right := background.registered present active
  rw [same, right] at left
  exact (Option.some.inj left).symm

end Background

structure State where
  now : Nat
  runs : RunRows
  background : Background

/-- The columns of a row that only the order of `claim_ready` reads, and where its database
puts the rows without a `run_after`. -/
structure Columns where
  priority : AgentRun → Int
  createTime : AgentRun → Nat
  nullsFirst : Bool

def Columns.runAfterKey (columns : Columns) (run : AgentRun) : Nat × Nat :=
  match run.runAfter with
  | none => (if columns.nullsFirst then 0 else 2, 0)
  | some time => (1, time)

def Columns.orderedBefore (columns : Columns) (left right : AgentRun) : Bool :=
  let one := columns.runAfterKey left
  let other := columns.runAfterKey right
  decide (columns.priority right < columns.priority left) ||
    (columns.priority left = columns.priority right &&
      (decide (one.1 < other.1) || (one.1 = other.1 &&
        (decide (one.2 < other.2) || (one.2 = other.2 &&
          decide (columns.createTime left ≤ columns.createTime right))))))

/-- The arguments of a poll, the rows that other transactions have locked meanwhile, and what
the log write after the start of a run raises. -/
structure Poll where
  workerId : Process
  leaseSeconds : Nat
  limit : Nat
  locked : String → Bool := fun _ => false
  logFault : String → Option Exc := fun _ => none

section Manager

variable (columns : Columns)

def selected (poll : Poll) (state : State) : List AgentRun :=
  (((state.runs.rows.filter fun run => claimable run state.now &&
    !state.background.isRunning run.runId).insertionSort (columns.orderedBefore · ·)).filter
      fun run => !poll.locked run.runId).take poll.limit

def claim (poll : Poll) (now : Nat) : Table.Change AgentRun.runId where
  apply run := claimedRun run poll.workerId now poll.leaseSeconds
  keeps _ := rfl

def claimReady (poll : Poll) (state : State) : List AgentRun × RunRows :=
  let rows := selected columns poll state
  (rows.map (claim poll state.now).apply,
    state.runs.updateWhere (fun run => (rows.map AgentRun.runId).contains run.runId)
      (claim poll state.now))

abbrev Step (α : Type) := Method Exc State α

def startBackground (execution : Execution) (logFault : Option Exc) : Step Bool := do
  let state ← get
  if free : state.background.isRunning execution.runId = false then do
    set { state with background := state.background.create execution free }
    return true
  else do
    -- `background_start_skipped` is logged before the refusal.
    point logFault
    return false

def execution (poll : Poll) (run : AgentRun) : Execution where
  runId := run.runId
  workerId := some poll.workerId
  leaseSeconds := some poll.leaseSeconds

def dispatchClaimed (poll : Poll) : List AgentRun → Nat → Step Nat
  | [], dispatched => return dispatched
  | run :: rest, dispatched => do
      let started ← startBackground (execution poll run) (poll.logFault run.runId)
      if started then do
        -- The claims of the rows behind this one are not given back.
        point (poll.logFault run.runId)
        dispatchClaimed poll rest (dispatched + 1)
      else dispatchClaimed poll rest dispatched

def dispatchReady (poll : Poll) : Step Nat := do
  let state ← get
  let (claimed, runs) := claimReady columns poll state
  set { state with runs }
  dispatchClaimed poll claimed 0

def submit (run : AgentRun) (start : Bool) (logFault : Option Exc) : Step Unit := do
  let state ← get
  let isNew := (state.runs.find run.runId).isNone
  set { state with runs := state.runs.insertNew run }
  if start && isNew && run.status = .queued then do
    let _ ← startBackground { runId := run.runId } logFault
    return ()
  else return ()

def unknownRun (runId : String) : Exc :=
  ⟨.exception, "KeyError", "Unknown run_id '" ++ runId ++ "'"⟩

variable (registry : AgentRegistry)

def retry (runId : String) (logFault : Option Exc) : Step Unit := do
  let state ← get
  match state.runs.find runId with
  | none => throw (unknownRun runId)
  | some run =>
      if retryable run then do
        let agent ← ExceptT.mk (pure
          (Registry.resolve registry run.routeTag (run.agent.map AgentRef.version)))
        set { state with runs := state.runs.upsert (retriedRun run agent state.now) }
        let _ ← startBackground { runId } logFault
        return ()
      else return ()

def recoverRecord (logFault : String → Option Exc) (run : AgentRun) : Step Unit := do
  let state ← get
  if leased run state.now then return ()
  else match Registry.resolve registry run.routeTag (run.agent.map AgentRef.version) with
    -- The agent of the run is gone; the record is left alone.
    | .error _ => return ()
    | .ok agent => do
        let (stored, runs) := StartupRecovery.updateIfCurrent state.runs (unchanged run)
          (requeuedRun run agent state.now)
        set { state with runs }
        if stored then do
          let _ ← startBackground { runId := run.runId } (logFault run.runId)
          return ()
        else return ()

def recoverRecords (logFault : String → Option Exc) : List AgentRun → Step Unit
  | [] => return ()
  | run :: rest => do
      recoverRecord registry logFault run
      recoverRecords logFault rest

def recoverIncomplete (limit : Nat) (logFault : String → Option Exc) : Step Unit := do
  let state ← get
  recoverRecords registry logFault (listByStatus state.runs incompleteStatuses limit)

end Manager

/-- What happens in the event loop of the process, one entry at a time, and around it. -/
inductive Action where
  | poll (poll : Poll)
  | submit (run : AgentRun) (start : Bool) (logFault : Option Exc)
  | retry (registry : AgentRegistry) (runId : String) (logFault : Option Exc)
  | recover (registry : AgentRegistry) (limit : Nat) (logFault : String → Option Exc)
  /-- The coroutine of a background task returns, raises or is cancelled. -/
  | finish (task : Nat)
  /-- The done-callback of a task that has ended. -/
  | discard (task : Nat)
  /-- What executions, operators and other processes write. -/
  | write (runs : RunRows)
  | tick (elapsed : Nat)

def step (columns : Columns) (state : State) : Action → Option State
  | .poll poll => some (dispatchReady columns poll state).2
  | .submit run start logFault => some (submit run start logFault state).2
  | .retry registry runId logFault => some (retry registry runId logFault state).2
  | .recover registry limit logFault => some (recoverIncomplete registry limit logFault state).2
  | .finish task =>
      if (state.background.executions[task]?).any fun execution => !execution.done then
        some { state with background := state.background.finish task }
      else none
  | .discard task =>
      match found : state.background.executions[task]? with
      | none => none
      | some execution =>
          if ended : execution.done = true then
            some { state with background := state.background.discard task found ended }
          else none
  | .write runs => some { state with runs }
  | .tick elapsed => some { state with now := state.now + elapsed }

section Starts

variable {poll : Poll} {before after : Background} {state : State}

def Started (poll : Poll) (before after : Background) (runId : String) : Prop :=
  ∃ task, before.executions.length ≤ task ∧
    after.executions[task]? = some ⟨runId, some poll.workerId, some poll.leaseSeconds, false⟩ ∧
    ∀ (other : Nat) execution, before.executions.length ≤ other →
      after.executions[other]? = some execution → execution.runId = runId → other = task

def Executed (background : Background) (row : AgentRun) : Prop :=
  ∃ (task : Nat) (execution : Execution), background.executions[task]? = some execution ∧
    execution.done = false ∧ execution.runId = row.runId ∧ execution.workerId = row.worker

/-- The rows of a poll that are started: all up to the first whose log write raises. -/
def begun (poll : Poll) : List AgentRun → List AgentRun
  | [] => []
  | run :: rest =>
      if (poll.logFault run.runId).isSome then [run] else run :: begun poll rest

theorem startBackground_run {own : Execution} (logFault : Option Exc)
    (free : state.background.isRunning own.runId = false) :
    startBackground own logFault state =
      (.ok true, { state with background := state.background.create own free }) := by
  unfold startBackground
  rw [bind_run, get_run]
  simp only [free, dite_true]
  rfl

/-- Runs that are not active are not refused, and the loop ends where a log write raises. -/
theorem dispatchClaimed_starts (claimed : List AgentRun) (dispatched : Nat) (state : State)
    (once : (claimed.map AgentRun.runId).Nodup)
    (idle : ∀ run ∈ claimed, state.background.isRunning run.runId = false) :
    (dispatchClaimed poll claimed dispatched state).2.runs = state.runs ∧
      (dispatchClaimed poll claimed dispatched state).2.background.executions =
        state.background.executions ++ (begun poll claimed).map (execution poll) := by
  -- A start does not make the later runs active, since their ids differ.
  induction claimed generalizing state dispatched with
  | nil => simp [dispatchClaimed, begun]
  | cons run rest ih =>
      have free : state.background.isRunning (execution poll run).runId = false :=
        idle run List.mem_cons_self
      rw [dispatchClaimed, bind_ok (startBackground_run _ free)]
      simp only [if_true]
      cases fault : poll.logFault run.runId with
      | some error =>
          -- The task is there, the rows behind it are claimed and never reached.
          rw [bind_error (point_some error _)]
          simp [begun, fault, Background.create]
      | none =>
          rw [bind_ok (point_none _)]
          rw [List.map_cons, List.nodup_cons] at once
          have later : ∀ other ∈ rest,
              (state.background.create (execution poll run) free).isRunning other.runId =
                false := by
            intro other member
            have apart : other.runId ≠ run.runId := by
              intro same
              exact once.1 (same ▸ List.mem_map_of_mem member)
            rw [Background.isRunning_create free apart]
            exact idle other (List.mem_cons_of_mem _ member)
          have last := ih (dispatched + 1)
            { state with background := state.background.create (execution poll run) free }
            once.2 later
          simpa [begun, fault, Background.create] using last

/-- Every row is reached exactly if no log write before the last start raises. -/
theorem begun_all (claimed : List AgentRun) (once : (claimed.map AgentRun.runId).Nodup) :
    (∀ run ∈ claimed, run ∈ begun poll claimed) ↔
      ∀ run ∈ claimed.dropLast, poll.logFault run.runId = none := by
  induction claimed with
  | nil => simp [begun]
  | cons run rest ih =>
      rw [List.map_cons, List.nodup_cons] at once
      have apart : ∀ other ∈ rest, other ≠ run := by
        intro other member same
        exact once.1 (same ▸ List.mem_map_of_mem member)
      cases rest with
      | nil =>
          cases fault : poll.logFault run.runId <;> simp [begun, fault]
      | cons next others =>
          rw [List.dropLast_cons_cons]
          cases fault : poll.logFault run.runId with
          | some error =>
              constructor
              · intro all
                have reached := all next (by simp)
                simp only [begun, fault, Option.isSome_some, if_true, List.mem_singleton] at reached
                exact absurd reached (apart next List.mem_cons_self)
              · intro written
                have silent := written run List.mem_cons_self
                rw [fault] at silent
                cases silent
          | none =>
              have shorter : begun poll (run :: next :: others) =
                  run :: begun poll (next :: others) := by
                simp [begun, fault]
              rw [shorter]
              constructor
              · intro all other member
                rcases List.mem_cons.mp member with rfl | later
                · exact fault
                · apply (ih once.2).mp _ other later
                  intro reached inside
                  rcases List.mem_cons.mp (all reached (List.mem_cons_of_mem _ inside)) with
                    same | deeper
                  · exact absurd same (apart reached inside)
                  · exact deeper
              · intro written other member
                rcases List.mem_cons.mp member with rfl | later
                · exact List.mem_cons_self
                · refine List.mem_cons_of_mem _ ((ih once.2).mpr ?_ other later)
                  intro earlier inside
                  exact written earlier (List.mem_cons_of_mem _ inside)

theorem begun_sublist (poll : Poll) (claimed : List AgentRun) :
    (begun poll claimed).Sublist claimed := by
  induction claimed with
  | nil => exact List.Sublist.refl []
  | cons run rest ih =>
      unfold begun
      split
      · exact (List.nil_sublist rest).cons_cons run
      · exact ih.cons_cons run

theorem started_iff {reached : List AgentRun} (once : (reached.map AgentRun.runId).Nodup)
    (created : after.executions = before.executions ++ reached.map (execution poll))
    (runId : String) : Started poll before after runId ↔ runId ∈ reached.map AgentRun.runId := by
  constructor
  · rintro ⟨task, new, found, _⟩
    rw [created, List.getElem?_append_right new] at found
    obtain ⟨run, member, same⟩ := List.mem_map.mp (List.mem_of_getElem? found)
    rw [List.mem_map]
    exact ⟨run, member, congrArg Execution.runId same⟩
  · intro member
    obtain ⟨index, inside, named⟩ := List.getElem_of_mem member
    rw [List.length_map] at inside
    rw [List.getElem_map] at named
    refine ⟨before.executions.length + index, Nat.le_add_right _ _, ?_, ?_⟩
    · rw [created, List.getElem?_append_right (Nat.le_add_right _ _), Nat.add_sub_cancel_left,
        List.getElem?_map, List.getElem?_eq_getElem inside, Option.map_some, execution, named]
    · intro other own new found same
      rw [created, List.getElem?_append_right new] at found
      rw [List.getElem?_map] at found
      obtain ⟨run, present, rfl⟩ := Option.map_eq_some_iff.mp found
      have first :
          (reached.map AgentRun.runId)[other - before.executions.length]? = some runId := by
        rw [List.getElem?_map, present, Option.map_some]
        exact congrArg some same
      have second : (reached.map AgentRun.runId)[index]? = some runId := by
        rw [List.getElem?_map, List.getElem?_eq_getElem inside, Option.map_some, named]
      have bound := (List.getElem?_eq_some_iff.mp first).1
      have position := (List.getElem?_inj bound once).mp (first.trans second.symm)
      omega

end Starts

section Polls

variable {columns : Columns} {poll : Poll} {state : State}

structure Served (columns : Columns) (poll : Poll) (before after : State) : Prop where
  once : ∀ run ∈ (claimReady columns poll before).1,
    Started poll before.background after.background run.runId
  executed : ∀ row ∈ after.runs.rows, row ∉ before.runs.rows → Executed after.background row

def Single (state : State) : Prop :=
  ∀ (first second : Nat) one other, state.background.executions[first]? = some one →
    state.background.executions[second]? = some other → one.done = false →
    other.done = false → one.runId = other.runId → first = second

theorem selected_inside {run : AgentRun} (member : run ∈ selected columns poll state) :
    run ∈ state.runs.rows ∧ state.background.isRunning run.runId = false := by
  have sorted := (List.mem_insertionSort _).mp (List.mem_filter.mp (List.mem_of_mem_take member)).1
  obtain ⟨stored, chosen⟩ := List.mem_filter.mp sorted
  simp only [Bool.and_eq_true, Bool.not_eq_true'] at chosen
  exact ⟨stored, chosen.2⟩

theorem selected_once (columns : Columns) (poll : Poll) (state : State) :
    ((selected columns poll state).map AgentRun.runId).Nodup := by
  have stored : ((state.runs.rows.filter fun run => claimable run state.now &&
      !state.background.isRunning run.runId).map AgentRun.runId).Nodup :=
    state.runs.unique.sublist (List.Sublist.map _ List.filter_sublist)
  have sorted := ((List.perm_insertionSort (columns.orderedBefore · ·) _).map
    AgentRun.runId).nodup_iff.mpr stored
  refine sorted.sublist (List.Sublist.map _ ?_)
  exact (List.take_sublist _ _).trans List.filter_sublist

theorem claimed_ids (columns : Columns) (poll : Poll) (state : State) :
    (claimReady columns poll state).1.map AgentRun.runId =
      (selected columns poll state).map AgentRun.runId := by
  simp only [claimReady, List.map_map]
  apply List.map_congr_left
  intro run _
  exact (claim poll state.now).keeps run

theorem claimed_once (columns : Columns) (poll : Poll) (state : State) :
    ((claimReady columns poll state).1.map AgentRun.runId).Nodup := by
  rw [claimed_ids]
  exact selected_once columns poll state

/-- The exclusion list keeps runs with an active execution out of the claim. -/
theorem claimed_idle (columns : Columns) (poll : Poll) (state : State) :
    ∀ run ∈ (claimReady columns poll state).1, state.background.isRunning run.runId = false := by
  intro run member
  obtain ⟨older, chosen, rfl⟩ := List.mem_map.mp member
  exact (selected_inside chosen).2

theorem claimed_written {row : AgentRun} (stored : row ∈ (claimReady columns poll state).2.rows)
    (new : row ∉ state.runs.rows) : row ∈ (claimReady columns poll state).1 := by
  obtain ⟨older, member, same⟩ := List.mem_map.mp stored
  split at same
  · next chosen =>
      rw [List.contains_iff_mem, List.mem_map] at chosen
      obtain ⟨run, picked, named⟩ := chosen
      have equal : run = older := by
        have first := Table.mem_find (selected_inside picked).1
        rw [named, Table.mem_find member] at first
        exact (Option.some.inj first).symm
      rw [← same, ← equal]
      exact List.mem_map_of_mem picked
  · exact absurd (same ▸ member) new

theorem dispatchReady_starts (columns : Columns) (poll : Poll) (state : State) :
    (dispatchReady columns poll state).2.runs = (claimReady columns poll state).2 ∧
      (dispatchReady columns poll state).2.background.executions =
        state.background.executions ++
          (begun poll (claimReady columns poll state).1).map (execution poll) :=
  dispatchClaimed_starts (claimReady columns poll state).1 0
    { state with runs := (claimReady columns poll state).2 } (claimed_once columns poll state)
    (claimed_idle columns poll state)

theorem started_executed {row : AgentRun} {before after : Background}
    (claimed : row.worker = some poll.workerId)
    (started : Started poll before after row.runId) : Executed after row := by
  obtain ⟨task, _, found, _⟩ := started
  exact ⟨task, _, found, rfl, rfl, claimed.symm⟩

/-- One poll serves its rows exactly if its log writes succeed up to the last start. -/
theorem served_iff : Served columns poll state (dispatchReady columns poll state).2 ↔
    ∀ run ∈ (claimReady columns poll state).1.dropLast, poll.logFault run.runId = none := by
  obtain ⟨rows, created⟩ := dispatchReady_starts columns poll state
  have reached := (claimed_once columns poll state).sublist
    ((begun_sublist poll (claimReady columns poll state).1).map AgentRun.runId)
  have members : (∀ run ∈ (claimReady columns poll state).1, Started poll state.background
      (dispatchReady columns poll state).2.background run.runId) ↔
      ∀ run ∈ (claimReady columns poll state).1,
        run ∈ begun poll (claimReady columns poll state).1 := by
    apply forall₂_congr
    intro run member
    rw [started_iff reached created, List.mem_map]
    constructor
    · rintro ⟨other, inside, same⟩
      have equal := List.inj_on_of_nodup_map (claimed_once columns poll state)
        ((begun_sublist _ _).subset inside) member same
      exact equal ▸ inside
    · intro inside
      exact ⟨run, inside, rfl⟩
  rw [← begun_all _ (claimed_once columns poll state), ← members]
  constructor
  · intro served
    exact served.once
  · intro once
    refine ⟨once, ?_⟩
    intro row stored new
    rw [rows] at stored
    have claimed := claimed_written stored new
    apply started_executed _ (once row claimed)
    obtain ⟨older, _, rfl⟩ := List.mem_map.mp claimed
    rfl

end Polls

section Runs

variable {columns : Columns} {state middle final : State} {events : List (State × Action)}

def Executes (poll : Poll) (runId : String) (background : Background) (task : Nat) : Prop :=
  background.executions[task]? = some ⟨runId, some poll.workerId, some poll.leaseSeconds, false⟩

structure ClaimsStarted (columns : Columns) (events : List (State × Action)) (final : State) :
    Prop where
  served : ∀ state poll, (state, .poll poll) ∈ events →
    Served columns poll state (dispatchReady columns poll state).2
  lasting : ∀ past state poll later, events = past ++ (state, .poll poll) :: later →
    ∀ run ∈ (claimReady columns poll state).1, ∃ task,
      Executes poll run.runId (dispatchReady columns poll state).2.background task ∧
      (Executes poll run.runId final.background task ∨ ∃ met, (met, .finish task) ∈ later)
  single : (∀ event ∈ events, Single event.1) ∧ Single final

theorem single (state : State) : Single state := by
  intro first second one other found present running active same
  exact state.background.single found present running active same

def Extends (before after : State) : Prop :=
  ∃ more, after.background.executions = before.background.executions ++ more

theorem Extends.refl (state : State) : Extends state state := ⟨[], by simp⟩

theorem Extends.trans (first : Extends state middle) (second : Extends middle final) :
    Extends state final := by
  obtain ⟨more, same⟩ := first
  obtain ⟨others, equal⟩ := second
  exact ⟨more ++ others, by rw [equal, same, List.append_assoc]⟩

theorem Extends.kept (extended : Extends state final) {task : Nat} {own : Execution}
    (found : state.background.executions[task]? = some own) :
    final.background.executions[task]? = some own := by
  obtain ⟨more, same⟩ := extended
  rw [same, List.getElem?_append_left (List.getElem?_eq_some_iff.mp found).1]
  exact found

theorem startBackground_extends (own : Execution) (logFault : Option Exc) (state : State) :
    Extends state (startBackground own logFault state).2 := by
  by_cases free : state.background.isRunning own.runId = false
  · rw [startBackground_run logFault free]
    exact ⟨[own], rfl⟩
  · unfold startBackground
    rw [bind_run, get_run]
    simp only [free]
    cases logFault with
    | none => exact Extends.refl state
    | some error => exact Extends.refl state

theorem bind_extends {α β : Type} {first : Step α} {next : α → Step β}
    (one : Extends state (first state).2)
    (two : ∀ value, Extends (first state).2 (next value (first state).2).2) :
    Extends state ((first >>= next) state).2 := by
  rw [bind_run]
  cases called : first state with
  | mk outcome after =>
      rw [called] at one two
      cases outcome with
      | ok value => exact one.trans (two value)
      | error error => exact one

/-- A start whose answer is not used, after a write of rows. -/
theorem start_extends (own : Execution) (logFault : Option Exc) (state : State) (runs : RunRows) :
    Extends state ((startBackground own logFault >>= fun _ => (pure () : Step Unit))
      { state with runs }).2 := by
  have written : Extends state { state with runs } := Extends.refl state
  apply written.trans
  apply bind_extends (startBackground_extends own logFault _)
  intro started
  exact Extends.refl _

theorem submit_extends (run : AgentRun) (start : Bool) (logFault : Option Exc) (state : State) :
    Extends state (submit run start logFault state).2 := by
  unfold submit
  rw [bind_run, get_run]
  simp only
  rw [bind_run]
  by_cases starts : (start && (state.runs.find run.runId).isNone && run.status = .queued) = true
  · simp only [starts, if_true]
    exact start_extends _ logFault state _
  · simp only [starts]
    exact Extends.refl state

theorem retry_extends (registry : AgentRegistry) (runId : String) (logFault : Option Exc)
    (state : State) : Extends state (retry registry runId logFault state).2 := by
  unfold retry
  rw [bind_run, get_run]
  simp only
  cases state.runs.find runId with
  | none => exact Extends.refl state
  | some run =>
      simp only
      by_cases allowed : retryable run = true
      · simp only [allowed, if_true]
        rw [bind_run, lift_run]
        cases Registry.resolve registry run.routeTag (run.agent.map AgentRef.version) with
        | error error => exact Extends.refl state
        | ok agent => exact start_extends _ logFault state _
      · simp only [allowed]
        exact Extends.refl state

theorem recoverRecord_extends (registry : AgentRegistry) (logFault : String → Option Exc)
    (run : AgentRun) (state : State) :
    Extends state (recoverRecord registry logFault run state).2 := by
  unfold recoverRecord
  rw [bind_run, get_run]
  simp only
  by_cases held : leased run state.now = true
  · simp only [held, if_true]
    exact Extends.refl state
  · simp only [held]
    cases Registry.resolve registry run.routeTag (run.agent.map AgentRef.version) with
    | error error => exact Extends.refl state
    | ok agent =>
        simp only [Bool.false_eq_true, if_false]
        rw [bind_run]
        by_cases stored : (StartupRecovery.updateIfCurrent state.runs (unchanged run)
            (requeuedRun run agent state.now)).1 = true
        · simp only [stored, if_true]
          exact start_extends _ (logFault run.runId) state _
        · simp only [stored]
          exact Extends.refl state

theorem recoverRecords_extends (registry : AgentRegistry) (logFault : String → Option Exc)
    (records : List AgentRun) (state : State) :
    Extends state (recoverRecords registry logFault records state).2 := by
  induction records generalizing state with
  | nil => exact Extends.refl state
  | cons run rest ih =>
      unfold recoverRecords
      apply bind_extends (recoverRecord_extends registry logFault run state)
      intro _
      exact ih _

/-- A step keeps every task as it is, unless the coroutine of the task ends. -/
theorem step_kept {action : Action} (moved : step columns state action = some middle) {task : Nat}
    {own : Execution} (found : state.background.executions[task]? = some own) :
    middle.background.executions[task]? = some own ∨ action = .finish task := by
  cases action with
  | poll poll =>
      cases moved
      exact Or.inl (Extends.kept ⟨_, (dispatchReady_starts columns poll state).2⟩ found)
  | submit run start logFault =>
      cases moved
      exact Or.inl ((submit_extends run start logFault state).kept found)
  | retry registry runId logFault =>
      cases moved
      exact Or.inl ((retry_extends registry runId logFault state).kept found)
  | recover registry limit logFault =>
      cases moved
      exact Or.inl ((recoverRecords_extends registry logFault _ state).kept found)
  | finish ended =>
      simp only [step] at moved
      split at moved
      · cases moved
        by_cases same : ended = task
        · rw [same]
          exact Or.inr rfl
        · left
          simpa [Background.finish, List.getElem?_modify, same] using found
      · cases moved
  | discard ended =>
      simp only [step] at moved
      split at moved
      · cases moved
      · split at moved
        · cases moved
          exact Or.inl found
        · cases moved
  | write runs =>
      cases moved
      exact Or.inl found
  | tick elapsed =>
      cases moved
      exact Or.inl found

theorem run_kept (run : Transitions.Run (step columns) state events final) {task : Nat}
    {own : Execution} (found : state.background.executions[task]? = some own) :
    final.background.executions[task]? = some own ∨ ∃ met, (met, .finish task) ∈ events := by
  induction run with
  | done state => exact Or.inl found
  | @next state middle final action events moved rest ih =>
      rcases step_kept moved found with kept | rfl
      · rcases ih kept with still | ⟨met, member⟩
        · exact Or.inl still
        · exact Or.inr ⟨met, List.mem_cons_of_mem _ member⟩
      · exact Or.inr ⟨state, List.mem_cons_self⟩

end Runs

/-- In every interleaving of the polls with starts, completions, done-callbacks and foreign
writes, the claimed runs are started and executed as they should, exactly if no log write of a
poll raises before its last claimed run is started. -/
theorem claimed_runs_started_iff {columns : Columns} {start final : State}
    {events : List (State × Action)} (run : Transitions.Run (step columns) start events final) :
    ClaimsStarted columns events final ↔
      ∀ state poll, (state, .poll poll) ∈ events →
        ∀ claimed ∈ (claimReady columns poll state).1.dropLast,
          poll.logFault claimed.runId = none := by
  constructor
  · intro started state poll member
    exact served_iff.mp (started.served state poll member)
  · intro logged
    have served : ∀ state poll, (state, .poll poll) ∈ events →
        Served columns poll state (dispatchReady columns poll state).2 :=
      fun state poll member => served_iff.mpr (logged state poll member)
    refine ⟨served, ?_, fun event _ => single event.1, single final⟩
    intro past state poll later split claimed member
    have polled := served state poll (by rw [split]; simp)
    obtain ⟨task, _, found, _⟩ := polled.once claimed member
    rw [split] at run
    obtain ⟨middle, _, rest⟩ := run.split
    cases rest with
    | next moved tail =>
        cases moved
        exact ⟨task, found, run_kept tail found⟩

def sampleColumns : Columns where
  priority _ := 5
  createTime _ := 0
  nullsFirst := false

def queuedRun (runId : String) : AgentRun :=
  { runId, routeTag := "echo", requestId := runId, status := .queued }

def twoReady : State where
  now := 0
  runs := ⟨[queuedRun "RUN-1", queuedRun "RUN-2"], by decide⟩
  background := .empty

def samplePoll : Poll where
  workerId := "worker-a"
  leaseSeconds := 60
  limit := 20

def lastUnlogged : Poll :=
  { samplePoll with
    logFault := fun runId =>
      if runId = "RUN-2" then some (.runtime "database is locked") else none }

theorem claimed_runs_started_two : ∃ final,
    Transitions.Run (step sampleColumns) twoReady [(twoReady, .poll lastUnlogged)] final ∧
      ClaimsStarted sampleColumns [(twoReady, .poll lastUnlogged)] final := by
  have run : Transitions.Run (step sampleColumns) twoReady [(twoReady, .poll lastUnlogged)] _ :=
    .next rfl (.done _)
  refine ⟨_, run, (claimed_runs_started_iff run).mpr ?_⟩
  intro state poll member
  cases List.mem_singleton.mp member
  decide +kernel

def firstUnlogged : Poll :=
  { samplePoll with
    logFault := fun runId =>
      if runId = "RUN-1" then some (.runtime "database is locked") else none }

/-- The second run is claimed by the worker and not executed. -/
theorem unlogged_start_strands_next : ∃ final,
    Transitions.Run (step sampleColumns) twoReady [(twoReady, .poll firstUnlogged)] final ∧
      (∃ row ∈ final.runs.rows, row.runId = "RUN-2" ∧ row.status = .running ∧
        row.worker = some "worker-a") ∧
      final.background.isRunning "RUN-2" = false ∧
      ¬ ClaimsStarted sampleColumns [(twoReady, .poll firstUnlogged)] final := by
  have run : Transitions.Run (step sampleColumns) twoReady [(twoReady, .poll firstUnlogged)] _ :=
    .next rfl (.done _)
  refine ⟨_, run, ?_, ?_, ?_⟩
  · decide +kernel
  · decide +kernel
  · intro started
    have logged := served_iff.mp (started.served twoReady firstUnlogged List.mem_cons_self)
    revert logged
    decide +kernel

end AgentTaskPlatform.ReadyRuns
