import AgentTaskPlatform.Registry
import AgentTaskPlatform.RunManager

/-!
Start-up recovery over all runs of the database. The scan takes the oldest incomplete rows up
to a limit before it looks at leases and routes, so a row that is skipped still uses up a place.
-/

namespace AgentTaskPlatform.StartupRecovery

open KeyedTable RunManager
open Registry (AgentRegistry)

abbrev RunRows := Table AgentRun String AgentRun.runId

structure Manager where
  runs : RunRows
  background : List String

def incompleteStatuses : List RunStatus := [.created, .queued, .running, .waitingTool, .retrying]

def listByStatus (runs : RunRows) (statuses : List RunStatus) (limit : Nat) : List AgentRun :=
  (runs.rows.filter fun run => statuses.contains run.status).take limit

def updateIfCurrent (runs : RunRows) (expected : Expected) (run : AgentRun) : Bool × RunRows :=
  if (runs.find run.runId).any expected.admits then (true, runs.upsert run) else (false, runs)

def startBackground (background : List String) (runId : String) : Bool × List String :=
  if runId ∈ background then (false, background) else (true, background ++ [runId])

section Recovery

variable (registry : AgentRegistry)

def recoverRecord (now : Nat) (run : AgentRun) (recovered : Nat) (manager : Manager) :
    Nat × Manager :=
  if leased run now then (recovered, manager)
  else match Registry.resolve registry run.routeTag (run.agent.map AgentRef.version) with
    | .error _ => (recovered, manager)
    | .ok agent =>
        -- The write may miss, and then the run counts for nothing.
        match updateIfCurrent manager.runs (unchanged run) (requeuedRun run agent now) with
        | (false, runs) => (recovered, { manager with runs })
        | (true, runs) =>
            (recovered + 1,
              { runs, background := (startBackground manager.background run.runId).2 })

def recoverRecords (clock : Nat → Nat) : Nat → List AgentRun → Nat → Manager → Nat × Manager
  | _, [], recovered, manager => (recovered, manager)
  | index, run :: rest, recovered, manager =>
      let next := recoverRecord registry (clock index) run recovered manager
      recoverRecords clock (index + 1) rest next.1 next.2

def recoverIncomplete (clock : Nat → Nat) (limit : Nat) (manager : Manager) : Nat × Manager :=
  recoverRecords registry clock 0 (listByStatus manager.runs incompleteStatuses limit) 0 manager

end Recovery

section Completeness

variable (registry : AgentRegistry)

structure Eligible (start : Nat) (run : AgentRun) : Prop where
  incomplete : run.status ∈ incompleteStatuses
  free : leased run start = false
  resolvable : ∃ agent,
    Registry.resolve registry run.routeTag (run.agent.map AgentRef.version) = .ok agent

def Recovered (manager : Manager) (run : AgentRun) : Prop :=
  (∃ row, manager.runs.find run.runId = some row ∧ row.status = .queued) ∧
    run.runId ∈ manager.background

def fresh (runs : RunRows) : Manager := { runs, background := [] }

def olderIncomplete (runs : RunRows) (run : AgentRun) : List AgentRun :=
  (runs.rows.takeWhile fun row => row.runId ≠ run.runId).filter fun row =>
    incompleteStatuses.contains row.status

variable {registry}

theorem requeuedRun_runId (run : AgentRun) (agent : AgentSpec) (now : Nat) :
    (requeuedRun run agent now).runId = run.runId := rfl

theorem recoverRecord_recovers {now : Nat} {run : AgentRun} {manager : Manager}
    (recovered : Nat) (found : manager.runs.find run.runId = some run)
    (free : leased run now = false) {agent : AgentSpec}
    (resolved : Registry.resolve registry run.routeTag (run.agent.map AgentRef.version) =
      .ok agent) :
    Recovered (recoverRecord registry now run recovered manager).2 run := by
  -- Nobody else writes, so the row is still the one that was listed.
  have admitted : (manager.runs.find (requeuedRun run agent now).runId).any
      (unchanged run).admits = true := by
    rw [requeuedRun_runId, found]
    simp [unchanged, Expected.admits, Expected.matchesColumn]
  simp only [recoverRecord, free, Bool.false_eq_true, if_false, resolved, updateIfCurrent,
    admitted, if_true]
  refine ⟨⟨requeuedRun run agent now, ?_, rfl⟩, ?_⟩
  · exact Table.find_upsert_self manager.runs (requeuedRun run agent now)
  · simp only [startBackground]
    by_cases running : run.runId ∈ manager.background
    · simp [running]
    · simp [running]

theorem recoverRecord_other (registry : AgentRegistry) (now : Nat) {run : AgentRun}
    (manager : Manager) (recovered : Nat) {runId : String} (other : runId ≠ run.runId) :
    (recoverRecord registry now run recovered manager).2.runs.find runId =
        manager.runs.find runId ∧
      (runId ∈ (recoverRecord registry now run recovered manager).2.background ↔
        runId ∈ manager.background) := by
  simp only [recoverRecord]
  by_cases held : leased run now = true
  · simp [held]
  · simp only [held]
    cases Registry.resolve registry run.routeTag (run.agent.map AgentRef.version) with
    | error _ => simp
    | ok agent =>
        simp only [updateIfCurrent]
        by_cases admitted : (manager.runs.find (requeuedRun run agent now).runId).any
            (unchanged run).admits = true
        · simp only [admitted, if_true]
          refine ⟨Table.find_upsert_other manager.runs other, ?_⟩
          simp only [startBackground]
          by_cases running : run.runId ∈ manager.background
          · simp [running]
          · simp [running, other]
        · simp [admitted]

/-- The loop leaves runs alone that it was not given. -/
theorem recoverRecords_other (registry : AgentRegistry) (clock : Nat → Nat) {runId : String}
    (records : List AgentRun) (index recovered : Nat) (manager : Manager)
    (absent : runId ∉ records.map AgentRun.runId) :
    (recoverRecords registry clock index records recovered manager).2.runs.find runId =
        manager.runs.find runId ∧
      (runId ∈ (recoverRecords registry clock index records recovered manager).2.background ↔
        runId ∈ manager.background) := by
  induction records generalizing index recovered manager with
  | nil => simp [recoverRecords]
  | cons run rest ih =>
      rw [List.map_cons, List.mem_cons, not_or] at absent
      obtain ⟨rows, started⟩ := recoverRecord_other registry (clock index) manager recovered absent.1
      obtain ⟨later, running⟩ := ih (index + 1)
        (recoverRecord registry (clock index) run recovered manager).1
        (recoverRecord registry (clock index) run recovered manager).2 absent.2
      exact ⟨later.trans rows, running.trans started⟩

theorem leased_later {start now : Nat} (later : start ≤ now) {run : AgentRun}
    (free : leased run start = false) : leased run now = false := by
  simp only [leased, Bool.and_eq_false_iff] at free ⊢
  refine free.imp_right fun expired => ?_
  cases lease : run.leaseExpireTime with
  | none => rfl
  | some expiry =>
      simp only [lease, Option.any_some, decide_eq_false_iff_not, Nat.not_lt] at expired ⊢
      exact expired.trans later

theorem recoverRecords_recovers {clock : Nat → Nat} {start : Nat}
    (later : ∀ index, start ≤ clock index) (records : List AgentRun) (index recovered : Nat)
    (manager : Manager) (once : (records.map AgentRun.runId).Nodup)
    (stored : ∀ run ∈ records, manager.runs.find run.runId = some run) {run : AgentRun}
    (member : run ∈ records) (eligible : Eligible registry start run) :
    Recovered (recoverRecords registry clock index records recovered manager).2 run := by
  induction records generalizing index recovered manager with
  | nil => cases member
  | cons first rest ih =>
      rw [List.map_cons, List.nodup_cons] at once
      simp only [recoverRecords]
      rcases List.mem_cons.mp member with rfl | deeper
      · obtain ⟨agent, resolved⟩ := eligible.resolvable
        have done := recoverRecord_recovers recovered (stored run List.mem_cons_self)
          (leased_later (later index) eligible.free) resolved
        -- the records that follow are other runs
        obtain ⟨rows, running⟩ := recoverRecords_other registry clock rest (index + 1)
          (recoverRecord registry (clock index) run recovered manager).1
          (recoverRecord registry (clock index) run recovered manager).2 once.1
        exact ⟨by rw [rows]; exact done.1, running.mpr done.2⟩
      · refine ih (index + 1) _ _ once.2 (fun other inside => ?_) deeper
        have apart : other.runId ≠ first.runId := by
          intro same
          exact once.1 (same ▸ List.mem_map_of_mem inside)
        rw [(recoverRecord_other registry (clock index) manager recovered apart).1]
        exact stored other (List.mem_cons_of_mem _ inside)

end Completeness

section Scan

variable {registry : AgentRegistry}

/-- A row is among the first rows of a filtered table where few enough selected rows precede. -/
theorem mem_take_filter {Row Key : Type} [DecidableEq Key] (key : Row → Key)
    (selected : Row → Bool) (rows : List Row) (limit : Nat) {row : Row}
    (once : (rows.map key).Nodup) (member : row ∈ rows) (chosen : selected row = true) :
    row ∈ (rows.filter selected).take limit ↔
      ((rows.takeWhile fun other => key other ≠ key row).filter selected).length < limit := by
  induction rows generalizing limit with
  | nil => cases member
  | cons first rest ih =>
      rw [List.map_cons, List.nodup_cons] at once
      by_cases same : key first = key row
      · have equal : first = row := by
          rcases List.mem_cons.mp member with rfl | deeper
          · rfl
          · exact absurd (same ▸ List.mem_map_of_mem deeper) once.1
        subst equal
        cases limit with
        | zero => simp
        | succ limit => simp [chosen]
      · have deeper : row ∈ rest := by
          rcases List.mem_cons.mp member with rfl | deeper
          · exact absurd rfl same
          · exact deeper
        have apart : row ≠ first := fun equal => same (congrArg key equal.symm)
        -- An older row uses a place of the limit only where it is selected.
        by_cases taken : selected first = true
        · cases limit with
          | zero => simp
          | succ limit => simp [same, taken, apart, ih limit once.2 deeper]
        · simp [same, taken, ih limit once.2 deeper]

theorem mem_scan {runs : RunRows} {run : AgentRun} (member : run ∈ runs.rows)
    (incomplete : run.status ∈ incompleteStatuses) (limit : Nat) :
    run ∈ listByStatus runs incompleteStatuses limit ↔
      (olderIncomplete runs run).length < limit :=
  mem_take_filter AgentRun.runId _ runs.rows limit runs.unique member (by simpa using incomplete)

theorem scan_inside {runs : RunRows} {limit : Nat} {run : AgentRun}
    (member : run ∈ listByStatus runs incompleteStatuses limit) : run ∈ runs.rows :=
  (List.mem_filter.mp (List.mem_of_mem_take member)).1

theorem scan_once (runs : RunRows) (limit : Nat) :
    ((listByStatus runs incompleteStatuses limit).map AgentRun.runId).Nodup := by
  refine runs.unique.sublist (List.Sublist.map AgentRun.runId ?_)
  exact (List.take_sublist _ _).trans List.filter_sublist

end Scan

/-- Start-up recovery reaches every eligible run, exactly if for none of them as many incomplete
rows as the limit are older. -/
theorem recover_incomplete_complete_iff (registry : AgentRegistry) (clock : Nat → Nat)
    (start : Nat) (later : ∀ index, start ≤ clock index) (runs : RunRows) (limit : Nat) :
    (∀ run ∈ runs.rows, Eligible registry start run →
        Recovered (recoverIncomplete registry clock limit (fresh runs)).2 run) ↔
      ∀ run ∈ runs.rows, Eligible registry start run →
        (olderIncomplete runs run).length < limit := by
  have stored : ∀ run ∈ listByStatus runs incompleteStatuses limit,
      runs.find run.runId = some run := fun run member => Table.mem_find (scan_inside member)
  constructor
  · intro complete run member eligible
    rw [← mem_scan member eligible.incomplete]
    -- A run that the scan leaves out is not in the background of a fresh process.
    by_contra missed
    have absent : run.runId ∉
        (listByStatus runs incompleteStatuses limit).map AgentRun.runId := by
      intro listed
      obtain ⟨other, inside, same⟩ := List.mem_map.mp listed
      have equal : other = run :=
        List.inj_on_of_nodup_map runs.unique (scan_inside inside) member same
      exact missed (equal ▸ inside)
    have started := (complete run member eligible).2
    have idle := (recoverRecords_other registry clock _ 0 0 (fresh runs) absent).2.mp started
    cases idle
  · intro reached run member eligible
    have listed := (mem_scan member eligible.incomplete limit).mpr (reached run member eligible)
    exact recoverRecords_recovers later _ 0 0 (fresh runs) (scan_once runs limit) stored listed
      eligible

section Samples

def sampleAgent : AgentSpec := { name := "echo", version := "1.0.0", routeTags := ["echo"] }

def sampleRegistry : AgentRegistry where
  agents := ⟨[sampleAgent], by decide⟩
  routes := ⟨[("echo", sampleAgent)], by decide⟩

def waiting (runId : String) : AgentRun :=
  { runId, routeTag := "echo", requestId := runId, status := .queued }

def leasedRun (runId : String) : AgentRun :=
  { runId, routeTag := "echo", requestId := runId, status := .running,
    worker := some "worker-b", leaseExpireTime := some 600 }

def few : RunRows := ⟨[leasedRun "RUN-1", waiting "RUN-2"], by decide⟩

theorem waiting_eligible (runId : String) : Eligible sampleRegistry 10 (waiting runId) where
  incomplete := by simp [waiting, incompleteStatuses]
  free := rfl
  resolvable := ⟨sampleAgent, rfl⟩

/-- A leased run before it does not keep the second one from being recovered. -/
theorem recover_incomplete_complete_few : Recovered (recoverIncomplete sampleRegistry
    (fun index => 10 + index) 100 (fresh few)).2 (waiting "RUN-2") := by
  refine (recover_incomplete_complete_iff sampleRegistry (fun index => 10 + index) 10
    (fun index => Nat.le_add_right 10 index) few 100).mpr ?_ (waiting "RUN-2") (by simp [few])
    (waiting_eligible "RUN-2")
  intro run member _
  simp only [few, List.mem_cons, List.not_mem_nil, or_false] at member
  rcases member with rfl | rfl <;> decide

def crowded : RunRows where
  rows := (List.range 100).map (fun index => leasedRun ("RUN-" ++ toString index)) ++
    [waiting "RUN-100"]
  unique := by decide +kernel

theorem skipped_runs_hide_later : waiting "RUN-100" ∈ crowded.rows ∧
    Eligible sampleRegistry 10 (waiting "RUN-100") ∧
    ¬ Recovered (recoverIncomplete sampleRegistry (fun index => 10 + index) 100
      (fresh crowded)).2 (waiting "RUN-100") := by
  refine ⟨by simp [crowded], waiting_eligible "RUN-100", ?_⟩
  rintro ⟨_, started⟩
  have idle : (recoverIncomplete sampleRegistry (fun index => 10 + index) 100
      (fresh crowded)).2.background = [] := by decide +kernel
  rw [idle] at started
  cases started

end Samples

end AgentTaskPlatform.StartupRecovery
