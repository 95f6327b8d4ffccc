import AgentTaskPlatform.PlatformConfigs
import AgentTaskPlatform.Scheduler
import AgentTaskPlatform.StatefulCalls

/-!
The start of a process on the platform configuration of the database, and the reload of that
configuration into the components of a running process. A reload goes through all the
components, and only the scheduler, which is the first, may refuse.
-/

namespace AgentTaskPlatform.PlatformReload

open ApiKeys PlatformSettings PlatformConfigs
open Scheduler (SchedulerLimits)
open StatefulCalls (Method bind_run bind_ok bind_error get_run modify_run lift_run pure_run)

variable {Channels Kept : Type} [Inhabited Channels] [DecidableEq Channels]

section Components

def limitsOf (queue : QueueSection) : SchedulerLimits where
  globalMaxConcurrency := queue.globalMaxConcurrency
  routeTagMaxConcurrency := queue.routeTags
  callerMaxConcurrency := queue.callers
  maxNestedDepth := queue.maxNestedDepth
  maxActiveChildrenPerRoot := queue.maxActiveChildrenPerRoot

structure ModelGateway where
  defaults : ModelSection
  timeoutSeconds : ℚ
  maxRetries : Int
  initialBackoffSeconds : ℚ
  maxBackoffSeconds : ℚ
  fallbackModels : List String

def gatewayOf (model : ModelSection) : ModelGateway where
  defaults := model
  -- `float(defaults.get("timeout_seconds") or 60)`
  timeoutSeconds := if model.timeoutSeconds = 0 then 60 else model.timeoutSeconds
  maxRetries := model.maxRetries
  initialBackoffSeconds := model.initialBackoffSeconds
  maxBackoffSeconds := model.maxBackoffSeconds
  fallbackModels := model.fallbackModels

structure CallbackService where
  timeoutSeconds : ℚ
  maxAttempts : Int
  backoffSeconds : ℚ
  backoffType : BackoffType
  signingSecret : Option String
  urlAllowlist : List String
  blockPrivateNetworks : Bool

def callbackServiceOf (callback : CallbackSection Channels) : CallbackService where
  timeoutSeconds := callback.timeoutSeconds
  maxAttempts := callback.maxAttempts
  backoffSeconds := callback.backoffSeconds
  backoffType := callback.backoffType
  signingSecret := callback.signingSecret
  urlAllowlist := callback.urlAllowlist
  blockPrivateNetworks := callback.urlAllowlist.isEmpty

structure RunWorker where
  pollIntervalSeconds : ℚ
  batchSize : Int
  leaseSeconds : ℚ

def runWorkerOf (worker : WorkerSection) : RunWorker where
  pollIntervalSeconds := worker.pollIntervalSeconds
  batchSize := worker.batchSize
  leaseSeconds := worker.leaseSeconds

structure LogControls where
  level : LoggingLevel
  maxFileSizeMb : Int
  retentionDays : Int

def logControlsOf (logging : LoggingSection) : LogControls where
  level := logging.level
  maxFileSizeMb := logging.maxFileSizeMb
  retentionDays := logging.retentionDays

structure Process (Channels Kept : Type) [Inhabited Channels] where
  scheduler : SchedulerLimits
  modelGateway : ModelGateway
  callbackService : CallbackService
  worker : RunWorker
  rateLimiter : RateLimitSection
  apiKeys : ApiKeyRegistry
  logging : LogControls
  configWatcher : ℚ
  settings : Settings Channels Kept
  active : Listing Channels

def createApp (settings : Settings Channels Kept) (listing : Listing Channels) :
    Process Channels Kept where
  scheduler := limitsOf settings.sections.queue
  modelGateway := gatewayOf settings.sections.model
  callbackService := callbackServiceOf settings.sections.callback
  worker := runWorkerOf settings.sections.worker
  rateLimiter := settings.sections.rateLimit
  apiKeys := ApiKeyRegistry.load settings.sections.auth
  logging := logControlsOf settings.sections.logging
  configWatcher := settings.sections.configWatcher.pollIntervalSeconds
  settings := settings
  active := listing

end Components

section Start

structure Platform (Channels Kept : Type) [Inhabited Channels] where
  columns : Columns Channels
  order : VisitOrder
  isDigit : Char → Bool
  collation : String → String → Bool
  bootstrap : Settings Channels Kept
  initializeIfMissing : Bool

variable (platform : Platform Channels Kept)

def Platform.listing (rows : Rows Channels) : Listing Channels :=
  PlatformConfigs.list platform.isDigit platform.collation rows

def holds (listing : Listing Channels) : Namespace → Bool
  | .runtime .worker => listing.worker.isSome
  | .runtime .queue => listing.queue.isSome
  | .runtime .rateLimit => listing.rateLimit.isSome
  | .runtime .configWatcher => listing.configWatcher.isSome
  | .runtime .kanban => listing.kanban.isSome
  | .runtime .logging => listing.logging.isSome
  | .runtime .retention => listing.retention.isSome
  | .model => listing.model.isSome
  | .callback => listing.callback.isSome
  | .auth => listing.auth.isSome

/-- `sorted(set(PLATFORM_CONFIG_NAMESPACES) - {"auth"})` -/
def required : List Namespace :=
  [.callback, .runtime .configWatcher, .runtime .kanban, .runtime .logging, .model,
    .runtime .queue, .runtime .rateLimit, .runtime .retention, .runtime .worker]

def settingsError (message : String) : Exc := ⟨.exception, "SettingsValidationError", message⟩

def incomplete (missing : List Namespace) : Exc :=
  settingsError ("database-managed platform configuration is incomplete: " ++
    ", ".intercalate (missing.map Namespace.name))

def seeded (rows : Rows Channels) : Except Exc (Rows Channels) :=
  if rows.runtime.isSome then .ok rows
  else if !platform.initializeIfMissing then
    .error (settingsError
      "database-managed platform configuration is enabled but has not been initialized")
  else do
    let done ← initializeConfigs platform.columns platform.order rows platform.bootstrap.sections
    return done.2

def start (rows : Rows Channels) : Except Exc (Process Channels Kept) := do
  let rows ← seeded platform rows
  let listing := platform.listing rows
  let missing := required.filter fun wanted => !holds listing wanted
  if missing.isEmpty then do
    let settings ← mergePlatformConfigs platform.bootstrap listing
    return createApp settings listing
  else .error (incomplete missing)

end Start

section Reload

abbrev ProcessM (Channels Kept : Type) [Inhabited Channels] :=
  Method Exc (Process Channels Kept)

def differs (active listing : Listing Channels) : Namespace → Bool
  | .runtime .worker => active.worker ≠ listing.worker
  | .runtime .queue => active.queue ≠ listing.queue
  | .runtime .rateLimit => active.rateLimit ≠ listing.rateLimit
  | .runtime .configWatcher => active.configWatcher ≠ listing.configWatcher
  | .runtime .kanban => active.kanban ≠ listing.kanban
  | .runtime .logging => active.logging ≠ listing.logging
  | .runtime .retention => active.retention ≠ listing.retention
  | .model => active.model ≠ listing.model
  | .callback => active.callback ≠ listing.callback
  | .auth => active.auth ≠ listing.auth

def changedNamespaces (active listing : Listing Channels) : List Namespace :=
  (.auth :: required).filter (differs active listing)

def reconfigureScheduler (queue : QueueSection) (activeRuns : Bool) :
    ProcessM Channels Kept Unit := do
  ExceptT.mk (pure (
    if queue.globalMaxConcurrency ≤ 0 then
      .error (valueError "queue.global_max_concurrency must be greater than zero")
    else if activeRuns then
      .error (.runtime "queue settings cannot reload while runs are active")
    else .ok ()))
  modify fun process => { process with scheduler := limitsOf queue }

def onChange (changes : List Namespace) (changed : Namespace)
    (method : ProcessM Channels Kept Unit) : ProcessM Channels Kept Unit :=
  if changes.contains changed then method else pure ()

variable (platform : Platform Channels Kept)

def reloadPlatformConfigs (activeRuns : Bool) (listing : Listing Channels) :
    ProcessM Channels Kept Nat := do
  let process ← get
  let changes := changedNamespaces process.active listing
  if changes.isEmpty then return 0
  else do
    let reloaded ← ExceptT.mk (pure (mergePlatformConfigs platform.bootstrap listing))
    let governed := reloaded.sections
    onChange changes (.runtime .queue) (reconfigureScheduler governed.queue activeRuns)
    onChange changes .model
      (modify fun process => { process with modelGateway := gatewayOf governed.model })
    onChange changes .callback
      (modify fun process =>
        { process with callbackService := callbackServiceOf governed.callback })
    onChange changes (.runtime .worker)
      (modify fun process => { process with worker := runWorkerOf governed.worker })
    onChange changes (.runtime .rateLimit)
      (modify fun process => { process with rateLimiter := governed.rateLimit })
    onChange changes .auth
      (modify fun process =>
        { process with apiKeys := process.apiKeys.reconfigure governed.auth })
    onChange changes (.runtime .logging)
      (modify fun process => { process with logging := logControlsOf governed.logging })
    onChange changes (.runtime .configWatcher)
      (modify fun process =>
        { process with configWatcher := governed.configWatcher.pollIntervalSeconds })
    modify fun process => { process with settings := reloaded, active := listing }
    return changes.length

end Reload

section Validity

omit [DecidableEq Channels]

theorem workerOf_valid {values : RuntimeValues} (valid : values.valid = true) :
    (workerOf values).valid = true := by
  simp only [RuntimeValues.valid, Bool.and_eq_true] at valid
  simp only [WorkerSection.valid, workerOf, Bool.and_eq_true]
  tauto

theorem queueOf_valid {values : RuntimeValues} (valid : values.valid = true) :
    (queueOf values).valid = true := by
  simp only [RuntimeValues.valid, Bool.and_eq_true] at valid
  simp only [QueueSection.valid, queueOf, Bool.and_eq_true]
  tauto

theorem rateLimitOf_valid {values : RuntimeValues} (valid : values.valid = true) :
    (rateLimitOf values).valid = true := by
  simp only [RuntimeValues.valid, Bool.and_eq_true] at valid
  have buckets : (values.rateLimitCallerLimits.map fun item =>
      (item.1, bucketOf item.2)).all (fun item => item.2.valid) = true := by
    rw [List.all_map]
    simp only [Function.comp_def, TokenBucketLimits.valid, bucketOf]
    tauto
  simp only [RateLimitSection.valid, rateLimitOf, TokenBucketLimits.valid, Bool.and_eq_true]
  simp only [TokenBucketLimits.valid] at buckets
  tauto

theorem configWatcherOf_valid {values : RuntimeValues} (valid : values.valid = true) :
    (configWatcherOf values).valid = true := by
  simp only [RuntimeValues.valid, Bool.and_eq_true] at valid
  simp only [ConfigWatcherSection.valid, configWatcherOf]
  tauto

theorem loggingOf_valid {values : RuntimeValues} (valid : values.valid = true) :
    (loggingOf values).valid = true := by
  simp only [RuntimeValues.valid, Bool.and_eq_true] at valid
  simp only [LoggingSection.valid, loggingOf, Bool.and_eq_true]
  tauto

theorem retentionOf_valid {values : RuntimeValues} (valid : values.valid = true) :
    (retentionOf values).valid = true := by
  simp only [RuntimeValues.valid, Bool.and_eq_true] at valid
  simp only [RetentionSection.valid, retentionOf, Bool.and_eq_true]
  tauto

theorem apiKeyToSetting_key (isDigit : Char → Bool) (config : ApiKeyConfig) :
    (apiKeyToSetting isDigit config).key = config.1.apiKey := by
  unfold apiKeyToSetting
  split <;> rfl

/-- The bounds of the records are those of the settings: what the repository lists is
accepted. -/
theorem listed_valid (isDigit : Char → Bool) (collation : String → String → Bool)
    (rows : Rows Channels) :
    (mergedSections (PlatformConfigs.list isDigit collation rows)).valid = true := by
  have runtime {Section : Type} {given : RuntimeValues → Section} {valid : Section → Bool}
      {fallback : Section} (kept : ∀ values, values.valid = true → valid (given values) = true)
      (holds : valid fallback = true) :
      valid ((rows.runtime.map fun runtime => given runtime.1).getD fallback) = true := by
    cases rows.runtime with
    | none => exact holds
    | some runtime => exact kept runtime.1 runtime.2
  have auth : ((PlatformConfigs.list isDigit collation rows).auth.getD []).all
      (fun item => item.key != "") = true := by
    simp only [PlatformConfigs.list]
    split
    · rfl
    · rw [Option.getD_some, List.all_map, List.all_eq_true]
      intro config member
      have valid := config.2
      simp only [ApiKeyValues.valid, Bool.and_eq_true] at valid
      rw [Function.comp_apply, apiKeyToSetting_key]
      exact valid.1.1.2
  have model : ((PlatformConfigs.list isDigit collation rows).model.getD {}).valid = true := by
    simp only [PlatformConfigs.list]
    cases rows.model with
    | none => decide +kernel
    | some model => exact model.2.1
  have callback : ((PlatformConfigs.list isDigit collation rows).callback.getD {}).valid = true := by
    simp only [PlatformConfigs.list]
    cases rows.callback with
    | none => rfl
    | some callback => exact callback.2
  simp only [Sections.valid, mergedSections, Bool.and_eq_true]
  refine ⟨⟨⟨⟨⟨⟨⟨⟨auth, model⟩, callback⟩, ?_⟩, ?_⟩, ?_⟩, ?_⟩, ?_⟩, ?_⟩
  · exact runtime (fun _ => workerOf_valid) (by decide +kernel)
  · exact runtime (fun _ => queueOf_valid) (by decide +kernel)
  · exact runtime (fun _ => rateLimitOf_valid) (by decide +kernel)
  · exact runtime (fun _ => configWatcherOf_valid) (by decide +kernel)
  · exact runtime (fun _ => loggingOf_valid) (by decide +kernel)
  · exact runtime (fun _ => retentionOf_valid) (by decide +kernel)

end Validity

section Specs

theorem mem_changed {active listing : Listing Channels} {namespaced : Namespace} :
    namespaced ∈ changedNamespaces active listing ↔ differs active listing namespaced = true := by
  have all : namespaced ∈ Namespace.auth :: required := by
    cases namespaced with
    | runtime namespaced => cases namespaced <;> decide
    | model => decide
    | callback => decide
    | auth => decide
  simp [changedNamespaces, all]

/-- Nothing differs only between equal snapshots. -/
theorem changed_nil {active listing : Listing Channels} :
    changedNamespaces active listing = [] ↔ active = listing := by
  constructor
  · intro none
    have same (namespaced : Namespace) : differs active listing namespaced = false := by
      by_contra other
      have member := mem_changed.mpr (by simpa using other)
      rw [none] at member
      cases member
    have auth := same .auth
    have model := same .model
    have callback := same .callback
    have worker := same (.runtime .worker)
    have queue := same (.runtime .queue)
    have rateLimit := same (.runtime .rateLimit)
    have kanban := same (.runtime .kanban)
    have configWatcher := same (.runtime .configWatcher)
    have logging := same (.runtime .logging)
    have retention := same (.runtime .retention)
    simp only [differs, decide_eq_false_iff_not, not_not] at *
    cases active
    cases listing
    congr
  · rintro rfl
    rw [changedNamespaces, List.filter_eq_nil_iff]
    intro namespaced _
    cases namespaced with
    | runtime namespaced => cases namespaced <;> simp [differs]
    | model => simp [differs]
    | callback => simp [differs]
    | auth => simp [differs]

/-- A component whose section has not changed is configured already. -/
theorem onChange_run {active listing : Listing Channels} {namespaced : Namespace}
    {change : Process Channels Kept → Process Channels Kept} {process : Process Channels Kept}
    (same : differs active listing namespaced = false → change process = process) :
    onChange (changedNamespaces active listing) namespaced (modify change) process =
      (.ok (), change process) := by
  unfold onChange
  by_cases changed : (changedNamespaces active listing).contains namespaced = true
  · rw [if_pos changed]
    rfl
  · rw [if_neg changed]
    have unchanged : differs active listing namespaced = false := by
      rw [List.contains_iff_mem, mem_changed] at changed
      simpa using changed
    rw [same unchanged]
    rfl

variable (platform : Platform Channels Kept)

def merged (listing : Listing Channels) : Settings Channels Kept where
  sections := mergedSections listing
  kept := platform.bootstrap.kept

/-- The queue section differs from the one in force while runs hold slots. -/
def Refused (activeRuns : Bool) (active listing : Listing Channels) : Prop :=
  activeRuns = true ∧ active.queue ≠ listing.queue

variable {platform} {active listing : Listing Channels} {activeRuns : Bool}

omit [DecidableEq Channels] in
theorem mergePlatformConfigs_valid (valid : (mergedSections listing).valid = true) :
    mergePlatformConfigs platform.bootstrap listing = .ok (merged platform listing) := by
  rw [mergePlatformConfigs, if_pos valid]
  rfl

theorem queue_changed : (changedNamespaces active listing).contains (.runtime .queue) = true ↔
    active.queue ≠ listing.queue := by
  rw [List.contains_iff_mem, mem_changed]
  simp [differs]

theorem reload_refused {process : Process Channels Kept} (inForce : process.active = active)
    (valid : (mergedSections listing).valid = true)
    (refused : Refused activeRuns active listing) :
    ∃ error, reloadPlatformConfigs platform activeRuns listing process = (.error error, process) := by
  obtain ⟨rfl, differs⟩ := refused
  have changed := queue_changed.mpr differs
  have some_changed : (changedNamespaces active listing).isEmpty = false := by
    cases none : changedNamespaces active listing with
    | nil =>
        rw [none] at changed
        cases changed
    | cons first rest => rfl
  subst inForce
  simp only [reloadPlatformConfigs, bind_run, get_run, some_changed, Bool.false_eq_true, if_false,
    mergePlatformConfigs_valid valid, lift_run, onChange, changed, if_true, reconfigureScheduler]
  by_cases positive : (merged platform listing).sections.queue.globalMaxConcurrency ≤ 0
  · simp only [if_pos positive]
    exact ⟨_, rfl⟩
  · simp only [if_neg positive]
    exact ⟨_, rfl⟩

/-- A reload that is not refused leaves the process that a start on the sections builds. -/
theorem reload_accepted (valid : (mergedSections listing).valid = true)
    (accepted : ¬ Refused activeRuns active listing) :
    reloadPlatformConfigs platform activeRuns listing (createApp (merged platform active) active) =
      (.ok (changedNamespaces active listing).length, createApp (merged platform listing) listing) := by
  by_cases none : changedNamespaces active listing = []
  · have same := changed_nil.mp none
    subst same
    have inForce : (createApp (merged platform active) active).active = active := rfl
    simp only [reloadPlatformConfigs, bind_run, get_run, inForce, none, List.isEmpty_nil, if_true,
      pure_run, List.length_nil]
  · have some_changed : (changedNamespaces active listing).isEmpty = false := by simpa using none
    have inForce : (createApp (merged platform active) active).active = active := rfl
    have positive : ¬ (merged platform listing).sections.queue.globalMaxConcurrency ≤ 0 := by
      simp only [Sections.valid, QueueSection.valid, Bool.and_eq_true, decide_eq_true_eq] at valid
      have bound : 0 < (mergedSections listing).queue.globalMaxConcurrency := by tauto
      exact not_le.mpr bound
    -- The scheduler comes first; it is idle where its section has changed.
    have scheduled : onChange (changedNamespaces active listing) (.runtime .queue)
        (reconfigureScheduler (merged platform listing).sections.queue activeRuns)
        (createApp (merged platform active) active) =
          (.ok (), { createApp (merged platform active) active with
            scheduler := limitsOf (merged platform listing).sections.queue }) := by
      unfold onChange
      by_cases changed : (changedNamespaces active listing).contains (.runtime .queue) = true
      · have idle : activeRuns = false := by
          by_contra busy
          exact accepted ⟨by simpa using busy, queue_changed.mp changed⟩
        rw [if_pos changed]
        simp only [reconfigureScheduler, bind_run, if_neg positive, idle, Bool.false_eq_true,
          if_false, lift_run, modify_run]
      · rw [if_neg changed]
        rw [queue_changed, not_not] at changed
        simp only [merged, createApp, mergedSections, changed, pure_run]
    rw [reloadPlatformConfigs, bind_ok (get_run _)]
    simp only [inForce, some_changed, Bool.false_eq_true, if_false]
    rw [mergePlatformConfigs_valid valid, bind_ok (lift_run _ _), bind_ok scheduled]
    rw [bind_ok (onChange_run ?_), bind_ok (onChange_run ?_), bind_ok (onChange_run ?_),
      bind_ok (onChange_run ?_), bind_ok (onChange_run ?_), bind_ok (onChange_run ?_),
      bind_ok (onChange_run ?_)]
    · rfl
    all_goals
      intro same
      simp only [differs, decide_eq_false_iff_not, not_not] at same
      simp only [createApp, merged, mergedSections, same, ApiKeyRegistry.reconfigure]

omit [DecidableEq Channels] in
theorem start_complete {rows : Rows Channels} (live : rows.runtime.isSome = true)
    (model : rows.model.isSome = true) (callback : rows.callback.isSome = true) :
    start platform rows = .ok
      (createApp (merged platform (platform.listing rows)) (platform.listing rows)) := by
  have complete : (required.filter fun wanted => !holds (platform.listing rows) wanted) = [] := by
    simp [required, holds, Platform.listing, PlatformConfigs.list, live, model, callback]
  have settings := @mergePlatformConfigs_valid Channels Kept _ platform (platform.listing rows)
    (listed_valid _ _ rows)
  simp only [start, seeded, live, if_true, Bind.bind, Except.bind, complete, List.isEmpty_nil,
    settings]
  rfl

omit [DecidableEq Channels] in
theorem start_incomplete {rows : Rows Channels} (live : rows.runtime.isSome = true)
    (missing : ¬ (rows.model.isSome = true ∧ rows.callback.isSome = true)) :
    ∃ error, start platform rows = .error error := by
  have lacking : (required.filter fun wanted =>
      !holds (platform.listing rows) wanted).isEmpty = false := by
    by_contra none
    have complete : (required.filter fun wanted => !holds (platform.listing rows) wanted) = [] := by
      simpa using none
    rw [List.filter_eq_nil_iff] at complete
    have model := complete .model (by decide)
    have callback := complete .callback (by decide)
    simp only [holds, Platform.listing, PlatformConfigs.list, Option.isSome_map,
      Bool.not_eq_true', Bool.not_eq_false] at model callback
    exact missing ⟨model, callback⟩
  simp only [start, seeded, live, if_true, Bind.bind, Except.bind, lacking, Bool.false_eq_true,
    if_false]
  exact ⟨_, rfl⟩

end Specs

section Runs

structure World (Channels Kept : Type) [Inhabited Channels] where
  rows : Rows Channels
  process : Process Channels Kept
  activeRuns : Bool
  /-- The rows that the start or the last reload that returned has read. -/
  seen : Rows Channels

inductive Event (Channels : Type) where
  | save (config : PlatformConfigs.PlatformConfig Channels) (enabled : Bool)
  | delete (namespaced : Namespace)
  | runs (active : Bool)
  | reload

structure Call (Channels Kept : Type) [Inhabited Channels] where
  before : World Channels Kept
  outcome : Except Exc Nat
  after : Process Channels Kept

variable (platform : Platform Channels Kept)

def call (world : World Channels Kept) : Call Channels Kept :=
  let done := reloadPlatformConfigs platform world.activeRuns (platform.listing world.rows)
    world.process
  { before := world, outcome := done.1, after := done.2 }

def written (world : World Channels Kept) (write : Except Exc (Rows Channels)) :
    World Channels Kept :=
  match write with
  | .ok rows => { world with rows }
  | .error _ => world

def next (world : World Channels Kept) : Event Channels → World Channels Kept
  | .save config enabled => written world (save platform.columns world.rows config enabled)
  | .delete namespaced => written world (deleteRows platform.columns world.rows namespaced)
  | .runs active => { world with activeRuns := active }
  | .reload =>
      { world with
        process := (call platform world).after
        seen := if (call platform world).outcome.isOk then world.rows else world.seen }

def history (world : World Channels Kept) : List (Event Channels) → List (Call Channels Kept)
  | [] => []
  | .reload :: rest =>
      call platform world :: history (next platform world .reload) rest
  | event :: rest => history (next platform world event) rest

/-- What a reload promises: it leaves the process that a start builds, or the process it
found, and then the next one does the work. -/
structure Lawful (call : Call Channels Kept) : Prop where
  restart : ∀ count, call.outcome = .ok count →
    start platform call.before.rows = .ok call.after
  atomic : ∀ error, call.outcome = .error error → call.after = call.before.process
  retried : ∀ error, call.outcome = .error error → ∃ count, 0 < count ∧
    reloadPlatformConfigs platform false (platform.listing call.before.rows) call.after =
      (.ok count,
        createApp (merged platform (platform.listing call.before.rows))
          (platform.listing call.before.rows))
  idle : call.before.rows = call.before.seen → call.outcome = .ok 0

def Complete (call : Call Channels Kept) : Prop :=
  Refused call.before.activeRuns call.before.process.active
      (platform.listing call.before.rows) ∨
    (call.before.rows.model.isSome = true ∧ call.before.rows.callback.isSome = true)

structure Inv (world : World Channels Kept) : Prop where
  live : world.rows.runtime.isSome = true
  built : world.process = createApp (merged platform (platform.listing world.seen))
    (platform.listing world.seen)

variable {platform} {world : World Channels Kept}

/-- A write that builds something first has built it, where it returns. -/
theorem bind_returns {Built Value : Type} {built : Except Exc Built} {value : Value}
    {later : Built → Except Exc Value} (returned : (built >>= later) = .ok value) :
    ∃ found, built = .ok found ∧ later found = .ok value := by
  cases built with
  | error error => cases returned
  | ok found => exact ⟨found, rfl, returned⟩

omit [DecidableEq Channels] in
/-- A statement that the columns take leaves its rows. -/
theorem taken_live {rows after : Rows Channels} {taken : Bool} {error : Exc}
    (written : (if taken then Except.ok rows else .error error) = .ok after)
    (live : rows.runtime.isSome = true) : after.runtime.isSome = true := by
  cases taken with
  | true =>
      cases written
      exact live
  | false => cases written

omit [DecidableEq Channels] in
theorem deleteRows_live {columns : Columns Channels} {rows after : Rows Channels}
    {namespaced : Namespace} (live : rows.runtime.isSome = true)
    (deleted : deleteRows columns rows namespaced = .ok after) :
    after.runtime.isSome = true := by
  cases namespaced with
  | runtime namespaced =>
      obtain ⟨config, _, saved⟩ := bind_returns deleted
      exact taken_live saved rfl
  | model =>
      cases deleted
      exact live
  | callback =>
      cases deleted
      exact live
  | auth =>
      cases deleted
      exact live

omit [DecidableEq Channels] in
theorem save_live {columns : Columns Channels} {rows after : Rows Channels}
    {config : PlatformConfigs.PlatformConfig Channels} {enabled : Bool}
    (live : rows.runtime.isSome = true)
    (saved : save columns rows config enabled = .ok after) : after.runtime.isSome = true := by
  unfold save at saved
  split at saved
  · exact deleteRows_live live saved
  · cases config with
    | runtime values =>
        obtain ⟨updated, _, written⟩ := bind_returns saved
        exact taken_live written rfl
    | model values =>
        obtain ⟨model, _, written⟩ := bind_returns saved
        exact taken_live written live
    | callback values =>
        obtain ⟨callback, _, written⟩ := bind_returns saved
        split at written
        · cases written
          exact live
        · cases written
    | auth apiKeys =>
        obtain ⟨configs, _, written⟩ := bind_returns saved
        exact taken_live written live

omit [DecidableEq Channels] in
theorem Inv.written (inv : Inv platform world) {write : Except Exc (Rows Channels)}
    (live : ∀ after, write = .ok after → after.runtime.isSome = true) :
    Inv platform (PlatformReload.written world write) := by
  cases write with
  | error error => exact inv
  | ok rows => exact ⟨live rows rfl, inv.built⟩

/-- What a reload does from a reachable state: it is refused, or it builds the process of
the rows. -/
theorem Inv.call (inv : Inv platform world) :
    (Refused world.activeRuns world.process.active (platform.listing world.rows) ∧
      ∃ error, (PlatformReload.call platform world).outcome = .error error ∧
        (PlatformReload.call platform world).after = world.process) ∨
    (¬ Refused world.activeRuns world.process.active (platform.listing world.rows) ∧
      (PlatformReload.call platform world).outcome = .ok (changedNamespaces
        (platform.listing world.seen) (platform.listing world.rows)).length ∧
      (PlatformReload.call platform world).after =
        createApp (merged platform (platform.listing world.rows))
          (platform.listing world.rows)) := by
  have valid : (mergedSections (platform.listing world.rows)).valid = true :=
    listed_valid _ _ world.rows
  have active : world.process.active = platform.listing world.seen := by rw [inv.built]; rfl
  by_cases refused :
      Refused world.activeRuns world.process.active (platform.listing world.rows)
  · obtain ⟨error, raised⟩ := @reload_refused Channels Kept _ _ platform _ _ _ _ rfl valid refused
    left
    refine ⟨refused, error, ?_, ?_⟩
    · simp only [PlatformReload.call, raised]
    · simp only [PlatformReload.call, raised]
  · have accepted := refused
    rw [active] at accepted
    have returned := @reload_accepted Channels Kept _ _ platform _ _ _ valid accepted
    rw [← inv.built] at returned
    right
    refine ⟨refused, ?_, ?_⟩
    · simp only [PlatformReload.call, returned]
    · simp only [PlatformReload.call, returned]

theorem Inv.next (inv : Inv platform world) (event : Event Channels) :
    Inv platform (PlatformReload.next platform world event) := by
  cases event with
  | save config enabled => exact inv.written fun after saved => save_live inv.live saved
  | delete namespaced => exact inv.written fun after deleted => deleteRows_live inv.live deleted
  | runs active => exact ⟨inv.live, inv.built⟩
  | reload =>
      refine ⟨inv.live, ?_⟩
      rcases inv.call with ⟨_, error, raised, kept⟩ | ⟨_, returned, built⟩
      · simp only [PlatformReload.next, raised, Except.isOk, Except.toBool, Bool.false_eq_true,
          if_false, kept]
        exact inv.built
      · simp only [PlatformReload.next, returned, Except.isOk, Except.toBool, if_true, built]

theorem Inv.lawful_iff (inv : Inv platform world) :
    Lawful platform (PlatformReload.call platform world) ↔
      Complete platform (PlatformReload.call platform world) := by
  have active : world.process.active = platform.listing world.seen := by rw [inv.built]; rfl
  have before : (PlatformReload.call platform world).before = world := rfl
  rcases inv.call with ⟨refused, error, raised, kept⟩ | ⟨accepted, returned, built⟩
  · refine iff_of_true ⟨?_, ?_, ?_, ?_⟩ (Or.inl refused)
    · intro count outcome
      rw [raised] at outcome
      cases outcome
    · intro _ _
      exact kept
    · intro _ _
      -- The same snapshot is in force, so the queue section differs again.
      have valid : (mergedSections (platform.listing world.rows)).valid = true :=
        listed_valid _ _ world.rows
      have free : ¬ Refused false (platform.listing world.seen) (platform.listing world.rows) := by
        rintro ⟨busy, _⟩
        cases busy
      have again := @reload_accepted Channels Kept _ _ platform _ _ _ valid free
      rw [← inv.built] at again
      rw [before, kept]
      refine ⟨_, ?_, again⟩
      rw [List.length_pos_iff, ne_eq, changed_nil]
      intro same
      rw [active, same] at refused
      exact refused.2 rfl
    · intro same
      rw [before] at same
      rw [active, same] at refused
      exact absurd rfl refused.2
  · have complete : Complete platform (PlatformReload.call platform world) ↔
        (world.rows.model.isSome = true ∧ world.rows.callback.isSome = true) := by
      rw [Complete, before]
      simp only [accepted, false_or]
    rw [complete]
    constructor
    · intro lawful
      by_contra missing
      obtain ⟨error, raised⟩ := @start_incomplete Channels Kept _ platform world.rows inv.live missing
      have fresh := lawful.restart _ returned
      rw [before, raised] at fresh
      cases fresh
    · intro rows
      refine ⟨?_, ?_, ?_, ?_⟩
      · intro count _
        rw [before, built]
        exact start_complete inv.live rows.1 rows.2
      · intro error outcome
        rw [returned] at outcome
        cases outcome
      · intro error outcome
        rw [returned] at outcome
        cases outcome
      · intro same
        rw [before] at same
        rw [returned, ← same, changed_nil.mpr rfl]
        rfl

theorem history_lawful_iff (inv : Inv platform world) (events : List (Event Channels)) :
    (∀ call ∈ history platform world events, Lawful platform call) ↔
      ∀ call ∈ history platform world events, Complete platform call := by
  induction events generalizing world with
  | nil => simp [history]
  | cons event rest ih =>
      have later := ih (inv.next event)
      cases event with
      | reload => simp only [history, List.forall_mem_cons, inv.lawful_iff, later]
      | save config enabled => simpa only [history] using later
      | delete namespaced => simpa only [history] using later
      | runs active => simpa only [history] using later

def started (rows : Rows Channels) (process : Process Channels Kept) (activeRuns : Bool) :
    World Channels Kept where
  rows := rows
  process := process
  activeRuns := activeRuns
  seen := rows

omit [DecidableEq Channels] in
theorem started_inv {rows : Rows Channels} {process : Process Channels Kept} {activeRuns : Bool}
    (live : rows.runtime.isSome = true) (begun : start platform rows = .ok process) :
    Inv platform (started rows process activeRuns) := by
  refine ⟨live, ?_⟩
  by_cases complete : rows.model.isSome = true ∧ rows.callback.isSome = true
  · rw [start_complete live complete.1 complete.2] at begun
    cases begun
    rfl
  · obtain ⟨error, raised⟩ := @start_incomplete Channels Kept _ platform rows live complete
    rw [raised] at begun
    cases begun

end Runs

section Results

/-- Whatever is saved and deleted while a process runs, each of its reloads is lawful exactly
where each is refused or finds the rows that a start requires. -/
theorem platform_reload_lawful_iff (platform : Platform Channels Kept) (rows : Rows Channels)
    (process : Process Channels Kept) (activeRuns : Bool) (events : List (Event Channels))
    (live : rows.runtime.isSome = true) (begun : start platform rows = .ok process) :
    (∀ call ∈ history platform (started rows process activeRuns) events, Lawful platform call) ↔
      ∀ call ∈ history platform (started rows process activeRuns) events,
        Complete platform call :=
  history_lawful_iff (started_inv live begun) events

def plain : Platform Unit Unit where
  columns := ⟨fun _ => true, fun _ => true, fun _ => true, fun _ => true, fun _ => true,
    fun _ => true, some⟩
  order := ⟨[.worker, .queue, .rateLimit, .configWatcher, .kanban, .logging, .retention],
    fun namespaced => by cases namespaced <;> decide⟩
  isDigit := Char.isDigit
  collation left right := left ≤ right
  bootstrap := ⟨{}, ()⟩
  initializeIfMissing := true

def defaultRows : Rows Unit where
  runtime := some defaultRuntime
  model := some ⟨{}, by decide +kernel⟩
  callback := some ⟨{}, by decide +kernel⟩

def plainProcess : Process Unit Unit :=
  createApp (merged plain (plain.listing defaultRows)) (plain.listing defaultRows)

theorem plain_started : start plain defaultRows = .ok plainProcess := start_complete rfl rfl rfl

def queueEdits : List (Event Unit) :=
  [.save (.runtime (.queue (some 5) none none none none)) true, .reload, .runs false, .reload]

theorem queueEdits_lawful :
    (∀ call ∈ history plain (started defaultRows plainProcess true) queueEdits,
      Lawful plain call) ∧
    (history plain (started defaultRows plainProcess true) queueEdits).map
      (fun call => call.outcome.isOk) = [false, true] := by
  refine ⟨(platform_reload_lawful_iff plain defaultRows plainProcess true queueEdits rfl
    plain_started).mpr ?_, by decide +kernel⟩
  intro call reloaded
  right
  have rows : (history plain (started defaultRows plainProcess true) queueEdits).all (fun call =>
      call.before.rows.model.isSome && call.before.rows.callback.isSome) = true := by
    decide +kernel
  simpa using List.all_eq_true.mp rows call reloaded

/-- The model row goes, the reload returns, and no process starts on what is left. -/
theorem deleted_model_reloads :
    start plain defaultRows = .ok plainProcess ∧
    ∃ call ∈ history plain (started defaultRows plainProcess false) [.delete .model, .reload],
      call.outcome.isOk = true ∧
        start plain call.before.rows = .error (incomplete [.model]) ∧ ¬ Lawful plain call := by
  refine ⟨plain_started, _, List.mem_singleton_self _, by decide +kernel, rfl, ?_⟩
  intro lawful
  obtain ⟨count, returned⟩ : ∃ count, (call plain (next plain
      (started defaultRows plainProcess false) (.delete .model))).outcome = .ok count :=
    ⟨1, by decide +kernel⟩
  have fresh := lawful.restart count returned
  cases fresh

end Results

end AgentTaskPlatform.PlatformReload
