import AgentTaskPlatform.PlatformSettings
import Mathlib.Data.List.Sort

/-!
`PlatformConfigRepository` over the four normalized tables, and the merge of what it lists
into the settings. A section that the database does not hold falls back to its defaults.
-/

namespace AgentTaskPlatform.PlatformConfigs

open ApiKeys PlatformSettings

variable {Channels : Type} [Inhabited Channels]

section Tables

/-- What the columns of PostgreSQL take. A column gives back what it has taken; a JSON
column may give back other channels. -/
structure Columns (Channels : Type) where
  integer : Int → Bool
  float : ℚ → Bool
  text : String → Bool
  limits : Dict Int → Bool
  buckets : Dict TokenBucketConfig → Bool
  strings : List String → Bool
  channels : Channels → Option Channels

variable (columns : Columns Channels)

def storesRuntime (config : RuntimeConfig) : Bool :=
  columns.float config.1.workerPollIntervalSeconds && columns.integer config.1.workerBatchSize &&
    columns.float config.1.workerLeaseSeconds &&
    columns.float config.1.workerShutdownTimeoutSeconds &&
    columns.integer config.1.queueGlobalMaxConcurrency &&
    columns.limits config.1.queueRouteLimits && columns.limits config.1.queueCallerLimits &&
    columns.integer config.1.queueMaxNestedDepth &&
    columns.integer config.1.queueMaxActiveChildrenPerRoot &&
    columns.float config.1.rateLimitDefaultCapacity &&
    columns.float config.1.rateLimitDefaultFillRate &&
    columns.buckets config.1.rateLimitCallerLimits &&
    columns.float config.1.configWatcherPollIntervalSeconds &&
    columns.integer config.1.loggingMaxFileSizeMb &&
    columns.integer config.1.loggingRetentionDays && columns.integer config.1.loggingMaxBodyChars &&
    (config.1.runLogRetentionDays.all columns.float) &&
    (config.1.callbackRetentionDays.all columns.float) &&
    config.1.modelCallRetentionDays.all columns.float

def storesModel (config : ModelConfig) : Bool :=
  (config.1.baseUrl.all columns.text) && (config.1.apiKey.all columns.text) &&
    (config.1.model.all columns.text) && columns.float config.1.timeoutSeconds &&
    columns.float config.1.temperature && columns.integer config.1.maxRetries &&
    columns.float config.1.initialBackoffSeconds && columns.float config.1.maxBackoffSeconds &&
    columns.strings config.1.fallbackModels

def storesCallback (config : PlatformCallbackConfig Channels) : Bool :=
  columns.float config.1.timeoutSeconds && columns.integer config.1.maxAttempts &&
    columns.float config.1.backoffSeconds && (config.1.signingSecret.all columns.text) &&
    columns.strings config.1.urlAllowlist && columns.float config.1.dispatchPollIntervalSeconds &&
    columns.integer config.1.dispatchBatchSize

def storedCallback (config : PlatformCallbackConfig Channels) :
    Option (PlatformCallbackConfig Channels) :=
  if storesCallback columns config then
    (columns.channels config.1.channels).map fun channels =>
      ⟨{ config.1 with channels }, config.2⟩
  else none

def storesApiKey (config : ApiKeyConfig) : Bool :=
  columns.text config.1.name && columns.text config.1.apiKey && columns.strings config.1.scopes

def storesApiKeys (configs : List ApiKeyConfig) : Bool :=
  configs.all (storesApiKey columns) && decide (configs.map fun config => config.1.name).Nodup &&
    decide (configs.map fun config => config.1.apiKey).Nodup

structure Rows (Channels : Type) [Inhabited Channels] where
  runtime : Option RuntimeConfig := none
  model : Option ModelConfig := none
  callback : Option (PlatformCallbackConfig Channels) := none
  apiKeys : List ApiKeyConfig := []

def databaseError : Exc := ⟨.exception, "DataError", "value out of range"⟩

end Tables

section Records

inductive RuntimeUpdate where
  | worker (pollIntervalSeconds : Option ℚ) (batchSize : Option Int) (leaseSeconds : Option ℚ)
      (shutdownTimeoutSeconds : Option ℚ)
  | queue (globalMaxConcurrency : Option Int) (routeTags callers : Option (Dict Int))
      (maxNestedDepth maxActiveChildrenPerRoot : Option Int)
  | rateLimit (enabled : Option Bool) (capacity fillRate : Option ℚ)
      (callers : Option (Dict TokenBucketLimits))
  | configWatcher (pollIntervalSeconds : Option ℚ)
  | kanban (requireApiKey : Option Bool)
  | logging (level : Option LoggingLevel) (maxFileSizeMb retentionDays maxBodyChars : Option Int)
  | retention (logDays callbackDays modelCallDays : Option (Option ℚ))

/-- `TokenBucketConfig` forbids what the settings allow beside the two limits. -/
def tokenBucketConfig (limits : TokenBucketLimits) : Except Exc TokenBucketConfig :=
  if limits.extra.isEmpty then .ok ⟨limits.capacity, limits.fillRate⟩
  else .error (validationError "Extra inputs are not permitted")

def callerLimits : Dict TokenBucketLimits → Except Exc (Dict TokenBucketConfig)
  | [] => .ok []
  | (caller, limits) :: rest => do
      let config ← tokenBucketConfig limits
      let later ← callerLimits rest
      return (caller, config) :: later

/-- `_update_runtime`: the other fields stay, and the whole record is validated again. -/
def updateRuntime (current : RuntimeConfig) : RuntimeUpdate → Except Exc RuntimeConfig
  | .worker pollIntervalSeconds batchSize leaseSeconds shutdownTimeoutSeconds =>
      runtimeConfig { current.1 with
        workerPollIntervalSeconds := pollIntervalSeconds.getD current.1.workerPollIntervalSeconds
        workerBatchSize := batchSize.getD current.1.workerBatchSize
        workerLeaseSeconds := leaseSeconds.getD current.1.workerLeaseSeconds
        workerShutdownTimeoutSeconds :=
          shutdownTimeoutSeconds.getD current.1.workerShutdownTimeoutSeconds }
  | .queue globalMaxConcurrency routeTags callers maxNestedDepth maxActiveChildrenPerRoot =>
      runtimeConfig { current.1 with
        queueGlobalMaxConcurrency := globalMaxConcurrency.getD current.1.queueGlobalMaxConcurrency
        queueRouteLimits := routeTags.getD current.1.queueRouteLimits
        queueCallerLimits := callers.getD current.1.queueCallerLimits
        queueMaxNestedDepth := maxNestedDepth.getD current.1.queueMaxNestedDepth
        queueMaxActiveChildrenPerRoot :=
          maxActiveChildrenPerRoot.getD current.1.queueMaxActiveChildrenPerRoot }
  | .rateLimit enabled capacity fillRate callers => do
      let limits ← match callers with
        | none => .ok current.1.rateLimitCallerLimits
        | some callers => callerLimits callers
      runtimeConfig { current.1 with
        rateLimitEnabled := enabled.getD current.1.rateLimitEnabled
        rateLimitDefaultCapacity := capacity.getD current.1.rateLimitDefaultCapacity
        rateLimitDefaultFillRate := fillRate.getD current.1.rateLimitDefaultFillRate
        rateLimitCallerLimits := limits }
  | .configWatcher pollIntervalSeconds =>
      runtimeConfig { current.1 with
        configWatcherPollIntervalSeconds :=
          pollIntervalSeconds.getD current.1.configWatcherPollIntervalSeconds }
  | .kanban requireApiKey =>
      runtimeConfig { current.1 with
        kanbanRequireApiKey := requireApiKey.getD current.1.kanbanRequireApiKey }
  | .logging level maxFileSizeMb retentionDays maxBodyChars =>
      runtimeConfig { current.1 with
        loggingLevel := level.getD current.1.loggingLevel
        loggingMaxFileSizeMb := maxFileSizeMb.getD current.1.loggingMaxFileSizeMb
        loggingRetentionDays := retentionDays.getD current.1.loggingRetentionDays
        loggingMaxBodyChars := maxBodyChars.getD current.1.loggingMaxBodyChars }
  | .retention logDays callbackDays modelCallDays =>
      runtimeConfig { current.1 with
        runLogRetentionDays := logDays.getD current.1.runLogRetentionDays
        callbackRetentionDays := callbackDays.getD current.1.callbackRetentionDays
        modelCallRetentionDays := modelCallDays.getD current.1.modelCallRetentionDays }

structure ModelUpdate where
  baseUrl : Option (Option String) := none
  apiKey : Option (Option String) := none
  model : Option (Option String) := none
  timeoutSeconds : Option ℚ := none
  temperature : Option ℚ := none
  maxRetries : Option Int := none
  initialBackoffSeconds : Option ℚ := none
  maxBackoffSeconds : Option ℚ := none
  fallbackModels : Option (List String) := none

def modelFromSection (values : ModelUpdate) (current : ModelSection) : Except Exc ModelConfig :=
  modelConfig
    { baseUrl := values.baseUrl.getD current.baseUrl
      apiKey := values.apiKey.getD current.apiKey
      model := values.model.getD current.model
      timeoutSeconds := values.timeoutSeconds.getD current.timeoutSeconds
      temperature := values.temperature.getD current.temperature
      maxRetries := values.maxRetries.getD current.maxRetries
      initialBackoffSeconds := values.initialBackoffSeconds.getD current.initialBackoffSeconds
      maxBackoffSeconds := values.maxBackoffSeconds.getD current.maxBackoffSeconds
      fallbackModels := values.fallbackModels.getD current.fallbackModels }

structure CallbackUpdate (Channels : Type) where
  timeoutSeconds : Option ℚ := none
  maxAttempts : Option Int := none
  backoffSeconds : Option ℚ := none
  backoffType : Option BackoffType := none
  signingSecret : Option (Option String) := none
  urlAllowlist : Option (List String) := none
  channels : Option Channels := none
  dispatchPollIntervalSeconds : Option ℚ := none
  dispatchBatchSize : Option Int := none

def callbackFromSection (values : CallbackUpdate Channels) (current : CallbackSection Channels) :
    Except Exc (PlatformCallbackConfig Channels) :=
  platformCallbackConfig
    { timeoutSeconds := values.timeoutSeconds.getD current.timeoutSeconds
      maxAttempts := values.maxAttempts.getD current.maxAttempts
      backoffSeconds := values.backoffSeconds.getD current.backoffSeconds
      backoffType := values.backoffType.getD current.backoffType
      signingSecret := values.signingSecret.getD current.signingSecret
      urlAllowlist := values.urlAllowlist.getD current.urlAllowlist
      channels := values.channels.getD current.channels
      dispatchPollIntervalSeconds :=
        values.dispatchPollIntervalSeconds.getD current.dispatchPollIntervalSeconds
      dispatchBatchSize := values.dispatchBatchSize.getD current.dispatchBatchSize }

end Records

section Keys

def givenName (index : Nat) : ApiKeyItem → String
  | .string _ => "key-" ++ toString index
  | .object setting => match setting.name with
      | none => "key-" ++ toString index
      | some name => if name = "" then "key-" ++ toString index else name

/-- The rest of `while item["name"] in names`; the fuel is the number of the names. -/
def freeName (names : List String) (base : String) : Nat → Nat → String → String
  | 0, _, name => name
  | fuel + 1, suffix, name =>
      if name ∈ names then freeName names base fuel (suffix + 1) (base ++ "-" ++ toString suffix)
      else name

def uniqueName (names : List String) (base : String) : String :=
  freeName names base names.length 2 base

/-- The name, the key, the scopes and the switch that an item gives; a text of scopes is
split by the record. -/
def apiKeyValues (name : String) (item : ApiKeyItem) : ApiKeyValues where
  name := name
  apiKey := item.key
  scopes := configuredScopes item
  enabled := configuredEnabled item

def apiKeysFrom (names keys : List String) (index : Nat) :
    List ApiKeyItem → Except Exc (List ApiKeyConfig)
  | [] => .ok []
  | item :: rest => do
      let name := uniqueName names (givenName index item)
      let parsed ← apiKeyConfig (apiKeyValues name item)
      if parsed.1.apiKey ∈ keys then
        .error (valueError "duplicate inbound API keys are not allowed")
      else do
        let later ← apiKeysFrom (name :: names) (parsed.1.apiKey :: keys) (index + 1) rest
        return parsed :: later

def apiKeysFromSection (items : List ApiKeyItem) : Except Exc (List ApiKeyConfig) :=
  apiKeysFrom [] [] 1 items

variable (isDigit : Char → Bool)

/-- `re.fullmatch(r"key-\d+", name)` -/
def standardName (name : String) : Bool :=
  "key-".toList.isPrefixOf name.toList &&
    !(name.toList.drop 4).isEmpty && (name.toList.drop 4).all isDigit

def apiKeyToSetting (config : ApiKeyConfig) : ApiKeyItem :=
  if standardName isDigit config.1.name && config.1.scopes == ["*"] && config.1.enabled then
    .string config.1.apiKey
  else
    .object
      { key := config.1.apiKey
        name := some config.1.name
        scopes := some (.list config.1.scopes)
        enabled := some config.1.enabled }

end Keys

section Listing

structure Listing (Channels : Type) [Inhabited Channels] where
  auth : Option (List ApiKeyItem) := none
  model : Option ModelSection := none
  callback : Option (CallbackSection Channels) := none
  worker : Option WorkerSection := none
  queue : Option QueueSection := none
  rateLimit : Option RateLimitSection := none
  kanban : Option KanbanSection := none
  configWatcher : Option ConfigWatcherSection := none
  logging : Option LoggingSection := none
  retention : Option RetentionSection := none
  deriving DecidableEq

def workerOf (values : RuntimeValues) : WorkerSection where
  pollIntervalSeconds := values.workerPollIntervalSeconds
  batchSize := values.workerBatchSize
  leaseSeconds := values.workerLeaseSeconds
  shutdownTimeoutSeconds := values.workerShutdownTimeoutSeconds

def queueOf (values : RuntimeValues) : QueueSection where
  globalMaxConcurrency := values.queueGlobalMaxConcurrency
  routeTags := values.queueRouteLimits
  callers := values.queueCallerLimits
  maxNestedDepth := values.queueMaxNestedDepth
  maxActiveChildrenPerRoot := values.queueMaxActiveChildrenPerRoot

def bucketOf (config : TokenBucketConfig) : TokenBucketLimits where
  capacity := config.capacity
  fillRate := config.fillRate

def rateLimitOf (values : RuntimeValues) : RateLimitSection where
  enabled := values.rateLimitEnabled
  default :=
    { capacity := values.rateLimitDefaultCapacity
      fillRate := values.rateLimitDefaultFillRate }
  callers := values.rateLimitCallerLimits.map fun item => (item.1, bucketOf item.2)

def configWatcherOf (values : RuntimeValues) : ConfigWatcherSection where
  pollIntervalSeconds := values.configWatcherPollIntervalSeconds

def kanbanOf (values : RuntimeValues) : KanbanSection where
  requireApiKey := values.kanbanRequireApiKey

def loggingOf (values : RuntimeValues) : LoggingSection where
  level := values.loggingLevel
  maxFileSizeMb := values.loggingMaxFileSizeMb
  retentionDays := values.loggingRetentionDays
  maxBodyChars := values.loggingMaxBodyChars

def retentionOf (values : RuntimeValues) : RetentionSection where
  logDays := values.runLogRetentionDays
  callbackDays := values.callbackRetentionDays
  modelCallDays := values.modelCallRetentionDays

variable (isDigit : Char → Bool) (collation : String → String → Bool)

/-- `list`; the API keys stand in the order that the database gives their names. -/
def list (rows : Rows Channels) : Listing Channels where
  auth :=
    if rows.apiKeys.isEmpty then none
    else some ((rows.apiKeys.insertionSort fun left right =>
      collation left.1.name right.1.name).map (apiKeyToSetting isDigit))
  model := rows.model.map Subtype.val
  callback := rows.callback.map Subtype.val
  worker := rows.runtime.map fun runtime => workerOf runtime.1
  queue := rows.runtime.map fun runtime => queueOf runtime.1
  rateLimit := rows.runtime.map fun runtime => rateLimitOf runtime.1
  kanban := rows.runtime.map fun runtime => kanbanOf runtime.1
  configWatcher := rows.runtime.map fun runtime => configWatcherOf runtime.1
  logging := rows.runtime.map fun runtime => loggingOf runtime.1
  retention := rows.runtime.map fun runtime => retentionOf runtime.1

end Listing

section Merge

structure Settings (Channels Kept : Type) [Inhabited Channels] where
  sections : Sections Channels
  kept : Kept

variable {Kept : Type}

/-- `merge_platform_configs`: a section that is not listed has its defaults. -/
def mergedSections (listing : Listing Channels) : Sections Channels where
  auth := listing.auth.getD []
  model := listing.model.getD {}
  callback := listing.callback.getD {}
  worker := listing.worker.getD {}
  queue := listing.queue.getD {}
  rateLimit := listing.rateLimit.getD {}
  kanban := listing.kanban.getD {}
  configWatcher := listing.configWatcher.getD {}
  logging := listing.logging.getD {}
  retention := listing.retention.getD {}

def mergePlatformConfigs (bootstrap : Settings Channels Kept) (listing : Listing Channels) :
    Except Exc (Settings Channels Kept) :=
  if (mergedSections listing).valid then
    .ok { sections := mergedSections listing, kept := bootstrap.kept }
  else .error (validationError "SettingsSnapshot")

end Merge

section Writes

variable (columns : Columns Channels)

inductive RuntimeNamespace where
  | worker
  | queue
  | rateLimit
  | configWatcher
  | kanban
  | logging
  | retention
  deriving DecidableEq, Repr

inductive Namespace where
  | runtime (namespaced : RuntimeNamespace)
  | model
  | callback
  | auth
  deriving DecidableEq, Repr

def RuntimeNamespace.name : RuntimeNamespace → String
  | .worker => "worker"
  | .queue => "queue"
  | .rateLimit => "rate_limit"
  | .configWatcher => "config_watcher"
  | .kanban => "kanban"
  | .logging => "logging"
  | .retention => "retention"

def Namespace.name : Namespace → String
  | .runtime namespaced => namespaced.name
  | .model => "model"
  | .callback => "callback"
  | .auth => "auth"

def RuntimeUpdate.namespaced : RuntimeUpdate → RuntimeNamespace
  | .worker .. => .worker
  | .queue .. => .queue
  | .rateLimit .. => .rateLimit
  | .configWatcher .. => .configWatcher
  | .kanban .. => .kanban
  | .logging .. => .logging
  | .retention .. => .retention

def sectionOf (values : RuntimeValues) : RuntimeNamespace → RuntimeUpdate
  | .worker => .worker (some values.workerPollIntervalSeconds) (some values.workerBatchSize)
      (some values.workerLeaseSeconds) (some values.workerShutdownTimeoutSeconds)
  | .queue => .queue (some values.queueGlobalMaxConcurrency) (some values.queueRouteLimits)
      (some values.queueCallerLimits) (some values.queueMaxNestedDepth)
      (some values.queueMaxActiveChildrenPerRoot)
  | .rateLimit => .rateLimit (some values.rateLimitEnabled) (some values.rateLimitDefaultCapacity)
      (some values.rateLimitDefaultFillRate)
      (some (values.rateLimitCallerLimits.map fun item => (item.1, bucketOf item.2)))
  | .configWatcher => .configWatcher (some values.configWatcherPollIntervalSeconds)
  | .kanban => .kanban (some values.kanbanRequireApiKey)
  | .logging => .logging (some values.loggingLevel) (some values.loggingMaxFileSizeMb)
      (some values.loggingRetentionDays) (some values.loggingMaxBodyChars)
  | .retention => .retention (some values.runLogRetentionDays)
      (some values.callbackRetentionDays) (some values.modelCallRetentionDays)

def defaultRuntime : RuntimeConfig := ⟨{}, by decide⟩

inductive PlatformConfig (Channels : Type) where
  | runtime (values : RuntimeUpdate)
  | model (values : ModelUpdate)
  | callback (values : CallbackUpdate Channels)
  | auth (apiKeys : List ApiKeyItem)

def PlatformConfig.namespaced : PlatformConfig Channels → Namespace
  | .runtime values => .runtime values.namespaced
  | .model _ => .model
  | .callback _ => .callback
  | .auth _ => .auth

def saveRuntime (rows : Rows Channels) (config : RuntimeConfig) : Except Exc (Rows Channels) :=
  if storesRuntime columns config then .ok { rows with runtime := some config }
  else .error databaseError

def deleteRows (rows : Rows Channels) : Namespace → Except Exc (Rows Channels)
  | .runtime namespaced => do
      let current := rows.runtime.getD defaultRuntime
      -- The row is shared by seven sections and cannot go.
      let config ← updateRuntime current (sectionOf defaultRuntime.1 namespaced)
      saveRuntime columns rows config
  | .model => .ok { rows with model := none }
  | .callback => .ok { rows with callback := none }
  | .auth => .ok { rows with apiKeys := [] }

/-- `save`; the transaction of a call that raises leaves no row. -/
def save (rows : Rows Channels) (config : PlatformConfig Channels) (enabled : Bool) :
    Except Exc (Rows Channels) :=
  if !enabled then deleteRows columns rows config.namespaced
  else match config with
    | .runtime values => do
        let updated ← updateRuntime (rows.runtime.getD defaultRuntime) values
        saveRuntime columns rows updated
    | .model values => do
        let model ← modelFromSection values ((rows.model.map Subtype.val).getD {})
        if storesModel columns model then .ok { rows with model := some model }
        else .error databaseError
    | .callback values => do
        let callback ← callbackFromSection values ((rows.callback.map Subtype.val).getD {})
        match storedCallback columns callback with
        | some stored => .ok { rows with callback := some stored }
        | none => .error databaseError
    | .auth apiKeys => do
        let configs ← apiKeysFromSection apiKeys
        if storesApiKeys columns configs then .ok { rows with apiKeys := configs }
        else .error databaseError

end Writes

section Initialization

abbrev VisitOrder :=
  { order : List RuntimeNamespace // ∀ namespaced : RuntimeNamespace, namespaced ∈ order }

def sectionUpdate (sections : Sections Channels) : RuntimeNamespace → RuntimeUpdate
  | .worker => .worker (some sections.worker.pollIntervalSeconds) (some sections.worker.batchSize)
      (some sections.worker.leaseSeconds) (some sections.worker.shutdownTimeoutSeconds)
  | .queue => .queue (some sections.queue.globalMaxConcurrency) (some sections.queue.routeTags)
      (some sections.queue.callers) (some sections.queue.maxNestedDepth)
      (some sections.queue.maxActiveChildrenPerRoot)
  | .rateLimit => .rateLimit (some sections.rateLimit.enabled)
      (some sections.rateLimit.default.capacity) (some sections.rateLimit.default.fillRate)
      (some sections.rateLimit.callers)
  | .configWatcher => .configWatcher (some sections.configWatcher.pollIntervalSeconds)
  | .kanban => .kanban (some sections.kanban.requireApiKey)
  | .logging => .logging (some sections.logging.level) (some sections.logging.maxFileSizeMb)
      (some sections.logging.retentionDays) (some sections.logging.maxBodyChars)
  | .retention => .retention (some sections.retention.logDays)
      (some sections.retention.callbackDays) (some sections.retention.modelCallDays)

def modelUpdate (model : ModelSection) : ModelUpdate where
  baseUrl := some model.baseUrl
  apiKey := some model.apiKey
  model := some model.model
  timeoutSeconds := some model.timeoutSeconds
  temperature := some model.temperature
  maxRetries := some model.maxRetries
  initialBackoffSeconds := some model.initialBackoffSeconds
  maxBackoffSeconds := some model.maxBackoffSeconds
  fallbackModels := some model.fallbackModels

def callbackUpdate (callback : CallbackSection Channels) : CallbackUpdate Channels where
  timeoutSeconds := some callback.timeoutSeconds
  maxAttempts := some callback.maxAttempts
  backoffSeconds := some callback.backoffSeconds
  backoffType := some callback.backoffType
  signingSecret := some callback.signingSecret
  urlAllowlist := some callback.urlAllowlist
  channels := some callback.channels
  dispatchPollIntervalSeconds := some callback.dispatchPollIntervalSeconds
  dispatchBatchSize := some callback.dispatchBatchSize

def updateEach (sections : Sections Channels) (current : RuntimeConfig) :
    List RuntimeNamespace → Except Exc RuntimeConfig
  | [] => .ok current
  | namespaced :: rest => do
      let updated ← updateRuntime current (sectionUpdate sections namespaced)
      updateEach sections updated rest

structure Records (Channels : Type) [Inhabited Channels] where
  runtime : RuntimeConfig
  model : ModelConfig
  callback : PlatformCallbackConfig Channels
  apiKeys : List ApiKeyConfig

def recordsFromSections (order : VisitOrder) (sections : Sections Channels) :
    Except Exc (Records Channels) := do
  let runtime ← updateEach sections defaultRuntime order.1
  let model ← modelFromSection (modelUpdate sections.model) {}
  let callback ← callbackFromSection (callbackUpdate sections.callback) {}
  let apiKeys ← apiKeysFromSection sections.auth
  return { runtime, model, callback, apiKeys }

def storedRows (columns : Columns Channels) (records : Records Channels) :
    Option (Rows Channels) :=
  if storesRuntime columns records.runtime && storesModel columns records.model &&
      storesApiKeys columns records.apiKeys then
    (storedCallback columns records.callback).map fun callback =>
      { runtime := some records.runtime
        model := some records.model
        callback := some callback
        apiKeys := records.apiKeys }
  else none

/-- `initialize(platform_configs_from_settings(settings))`; the answer says whether this call
published the records. -/
def initializeConfigs (columns : Columns Channels) (order : VisitOrder) (rows : Rows Channels)
    (sections : Sections Channels) : Except Exc (Bool × Rows Channels) := do
  let records ← recordsFromSections order sections
  -- The records are built before the row is looked for.
  if rows.runtime.isSome then return (false, rows)
  else match storedRows columns records with
    | some stored => return (true, stored)
    | none => .error databaseError

end Initialization

end AgentTaskPlatform.PlatformConfigs
