import AgentTaskPlatform.ApiKeys
import Mathlib.Data.Rat.Defs

/-!
The sections of the settings that the database may govern, with their bounds, and the
typed records of the platform configuration tables with theirs. The sections go into the
records field by field, and the records give sections back.
-/

namespace AgentTaskPlatform.PlatformSettings

open ApiKeys

/-- The items of a dictionary in the order of their keys; Python compares dictionaries
without an order. -/
abbrev Dict (Value : Type) := List (String × Value)

def validationError (message : String) : Exc := ⟨.exception, "ValidationError", message⟩

def valueError (message : String) : Exc := ⟨.exception, "ValueError", message⟩

section Sections

inductive BackoffType where
  | exponential
  | fixed
  deriving DecidableEq, Repr

inductive LoggingLevel where
  | debug
  | info
  | warning
  | warn
  | error
  | critical
  | fatal
  | notset
  deriving DecidableEq, Repr

structure WorkerSection where
  pollIntervalSeconds : ℚ := 1
  batchSize : Int := 20
  leaseSeconds : ℚ := 60
  shutdownTimeoutSeconds : ℚ := 10
  deriving DecidableEq

structure QueueSection where
  globalMaxConcurrency : Int := 20
  routeTags : Dict Int := []
  callers : Dict Int := []
  maxNestedDepth : Int := 3
  maxActiveChildrenPerRoot : Int := 5
  deriving DecidableEq

structure TokenBucketLimits where
  capacity : ℚ := 100
  fillRate : ℚ := 10
  extra : Dict String := []
  deriving DecidableEq

structure RateLimitSection where
  enabled : Bool := true
  default : TokenBucketLimits := {}
  callers : Dict TokenBucketLimits := []
  deriving DecidableEq

structure ModelSection where
  baseUrl : Option String := none
  apiKey : Option String := none
  model : Option String := none
  timeoutSeconds : ℚ := 60
  temperature : ℚ := 0
  maxRetries : Int := 2
  initialBackoffSeconds : ℚ := 1
  maxBackoffSeconds : ℚ := 30
  fallbackModels : List String := []
  deriving DecidableEq

variable (Channels : Type)

/-- The channels may hold anything, and nothing reads them. -/
structure CallbackSection [Inhabited Channels] where
  timeoutSeconds : ℚ := 10
  maxAttempts : Int := 3
  backoffSeconds : ℚ := 1
  backoffType : BackoffType := .exponential
  signingSecret : Option String := none
  urlAllowlist : List String := []
  channels : Channels := default
  dispatchPollIntervalSeconds : ℚ := 1
  dispatchBatchSize : Int := 20
  deriving DecidableEq

structure KanbanSection where
  requireApiKey : Bool := true
  deriving DecidableEq

structure ConfigWatcherSection where
  pollIntervalSeconds : ℚ := 5
  deriving DecidableEq

structure LoggingSection where
  level : LoggingLevel := .info
  maxFileSizeMb : Int := 100
  retentionDays : Int := 100
  maxBodyChars : Int := 4096
  deriving DecidableEq

structure RetentionSection where
  logDays : Option ℚ := none
  callbackDays : Option ℚ := none
  modelCallDays : Option ℚ := none
  deriving DecidableEq

variable [Inhabited Channels]

/-- The sections that the database may govern, without the fields that stay local. -/
structure Sections where
  auth : List ApiKeyItem := []
  model : ModelSection := {}
  callback : CallbackSection Channels := {}
  worker : WorkerSection := {}
  queue : QueueSection := {}
  rateLimit : RateLimitSection := {}
  kanban : KanbanSection := {}
  configWatcher : ConfigWatcherSection := {}
  logging : LoggingSection := {}
  retention : RetentionSection := {}

end Sections

section Bounds

variable {Channels : Type} [Inhabited Channels]

def WorkerSection.valid (worker : WorkerSection) : Bool :=
  0 < worker.pollIntervalSeconds && 0 < worker.batchSize && 0 < worker.leaseSeconds &&
    0 < worker.shutdownTimeoutSeconds

def QueueSection.valid (queue : QueueSection) : Bool :=
  0 < queue.globalMaxConcurrency && (queue.routeTags.all fun item => 0 < item.2) &&
    (queue.callers.all fun item => 0 < item.2) && 0 ≤ queue.maxNestedDepth &&
    0 < queue.maxActiveChildrenPerRoot

def TokenBucketLimits.valid (limits : TokenBucketLimits) : Bool :=
  0 < limits.capacity && 0 ≤ limits.fillRate

def RateLimitSection.valid (rateLimit : RateLimitSection) : Bool :=
  rateLimit.default.valid && rateLimit.callers.all fun item => item.2.valid

def ModelSection.valid (model : ModelSection) : Bool :=
  0 < model.timeoutSeconds && 0 ≤ model.temperature && model.temperature ≤ 2 &&
    0 ≤ model.maxRetries && 0 ≤ model.initialBackoffSeconds && 0 ≤ model.maxBackoffSeconds &&
    model.fallbackModels.all (· != "")

def CallbackSection.valid (callback : CallbackSection Channels) : Bool :=
  0 < callback.timeoutSeconds && 0 < callback.maxAttempts && 0 ≤ callback.backoffSeconds &&
    0 < callback.dispatchPollIntervalSeconds && 0 < callback.dispatchBatchSize

def ConfigWatcherSection.valid (watcher : ConfigWatcherSection) : Bool :=
  0 < watcher.pollIntervalSeconds

def LoggingSection.valid (logging : LoggingSection) : Bool :=
  0 < logging.maxFileSizeMb && 0 < logging.retentionDays && 0 < logging.maxBodyChars

def RetentionSection.valid (retention : RetentionSection) : Bool :=
  (retention.logDays.all (0 < ·)) && (retention.callbackDays.all (0 < ·)) &&
    retention.modelCallDays.all (0 < ·)

def Sections.valid (sections : Sections Channels) : Bool :=
  (sections.auth.all fun item => item.key != "") && sections.model.valid &&
    sections.callback.valid && sections.worker.valid && sections.queue.valid &&
    sections.rateLimit.valid && sections.configWatcher.valid && sections.logging.valid &&
    sections.retention.valid

end Bounds

section Records

structure TokenBucketConfig where
  capacity : ℚ := 100
  fillRate : ℚ := 10
  deriving DecidableEq

structure RuntimeValues where
  workerPollIntervalSeconds : ℚ := 1
  workerBatchSize : Int := 20
  workerLeaseSeconds : ℚ := 60
  workerShutdownTimeoutSeconds : ℚ := 10
  queueGlobalMaxConcurrency : Int := 20
  queueRouteLimits : Dict Int := []
  queueCallerLimits : Dict Int := []
  queueMaxNestedDepth : Int := 3
  queueMaxActiveChildrenPerRoot : Int := 5
  rateLimitEnabled : Bool := true
  rateLimitDefaultCapacity : ℚ := 100
  rateLimitDefaultFillRate : ℚ := 10
  rateLimitCallerLimits : Dict TokenBucketConfig := []
  configWatcherPollIntervalSeconds : ℚ := 5
  kanbanRequireApiKey : Bool := true
  loggingLevel : LoggingLevel := .info
  loggingMaxFileSizeMb : Int := 100
  loggingRetentionDays : Int := 100
  loggingMaxBodyChars : Int := 4096
  runLogRetentionDays : Option ℚ := none
  callbackRetentionDays : Option ℚ := none
  modelCallRetentionDays : Option ℚ := none
  deriving DecidableEq

def RuntimeValues.valid (values : RuntimeValues) : Bool :=
  0 < values.workerPollIntervalSeconds && 0 < values.workerBatchSize &&
    0 < values.workerLeaseSeconds && 0 < values.workerShutdownTimeoutSeconds &&
    0 < values.queueGlobalMaxConcurrency &&
    (values.queueRouteLimits.all fun item => 0 < item.2) &&
    (values.queueCallerLimits.all fun item => 0 < item.2) &&
    0 ≤ values.queueMaxNestedDepth && 0 < values.queueMaxActiveChildrenPerRoot &&
    0 < values.rateLimitDefaultCapacity && 0 ≤ values.rateLimitDefaultFillRate &&
    (values.rateLimitCallerLimits.all fun item => 0 < item.2.capacity && 0 ≤ item.2.fillRate) &&
    0 < values.configWatcherPollIntervalSeconds && 0 < values.loggingMaxFileSizeMb &&
    0 < values.loggingRetentionDays && 0 < values.loggingMaxBodyChars &&
    (values.runLogRetentionDays.all (0 < ·)) && (values.callbackRetentionDays.all (0 < ·)) &&
    values.modelCallRetentionDays.all (0 < ·)

/-- The singleton record `ai_runtime_config`; a record that breaks a bound is never built. -/
abbrev RuntimeConfig := { values : RuntimeValues // values.valid = true }

def runtimeConfig (values : RuntimeValues) : Except Exc RuntimeConfig :=
  if valid : values.valid = true then .ok ⟨values, valid⟩
  else .error (validationError "RuntimeConfig")

def backoffRange (model : ModelSection) : Bool :=
  model.initialBackoffSeconds ≤ model.maxBackoffSeconds

abbrev ModelConfig := { model : ModelSection // model.valid = true ∧ backoffRange model = true }

def modelConfig (model : ModelSection) : Except Exc ModelConfig :=
  if valid : model.valid = true ∧ backoffRange model = true then .ok ⟨model, valid⟩
  else .error (validationError
    "max_backoff_seconds must be greater than or equal to initial_backoff_seconds")

abbrev PlatformCallbackConfig (Channels : Type) [Inhabited Channels] :=
  { callback : CallbackSection Channels // callback.valid = true }

def platformCallbackConfig {Channels : Type} [Inhabited Channels]
    (callback : CallbackSection Channels) : Except Exc (PlatformCallbackConfig Channels) :=
  if valid : callback.valid = true then .ok ⟨callback, valid⟩
  else .error (validationError "PlatformCallbackConfig")

structure ApiKeyValues where
  name : String
  apiKey : String
  scopes : List String := ["*"]
  enabled : Bool := true
  deriving DecidableEq, Repr

def ApiKeyValues.valid (values : ApiKeyValues) : Bool :=
  0 < values.name.length && values.name.length ≤ 200 && values.apiKey != "" &&
    !values.scopes.isEmpty && values.scopes.all (· != "")

abbrev ApiKeyConfig := { values : ApiKeyValues // values.valid = true }

def apiKeyConfig (values : ApiKeyValues) : Except Exc ApiKeyConfig :=
  if valid : values.valid = true then .ok ⟨values, valid⟩
  else .error (validationError "at least one non-empty scope is required")

end Records

end AgentTaskPlatform.PlatformSettings
