import AgentTaskPlatform.FinishedRuns
import AgentTaskPlatform.Settlement
import AgentTaskPlatform.Preparations
import AgentTaskPlatform.DispatchFrame
import AgentTaskPlatform.Retry
import AgentTaskPlatform.StageAgreement
import AgentTaskPlatform.StageCancellation
import AgentTaskPlatform.ExecutionIds
import AgentTaskPlatform.SideEffects
import AgentTaskPlatform.Hands
import AgentTaskPlatform.Fencing
import AgentTaskPlatform.Payloads
import AgentTaskPlatform.Renewal
import AgentTaskPlatform.Leases
import AgentTaskPlatform.BackOff
import AgentTaskPlatform.CrashPoints
import AgentTaskPlatform.DeliveryAttempts
import AgentTaskPlatform.Acknowledgements
import AgentTaskPlatform.Notifications
import AgentTaskPlatform.Takeovers
import AgentTaskPlatform.ExecutorParts
import AgentTaskPlatform.AttemptCounters
import AgentTaskPlatform.AttemptBudget
import AgentTaskPlatform.RouteTable
import AgentTaskPlatform.Identity
import AgentTaskPlatform.Relations
import AgentTaskPlatform.Submission
import AgentTaskPlatform.Idempotency
import AgentTaskPlatform.ConversationOwners
import AgentTaskPlatform.SessionLocks
import AgentTaskPlatform.Coordination
import AgentTaskPlatform.SlotProtocol
import AgentTaskPlatform.SlotExclusion
import AgentTaskPlatform.SlotLimits
import AgentTaskPlatform.SlotLedger
import AgentTaskPlatform.Footprint
import AgentTaskPlatform.Fleet
import AgentTaskPlatform.PinnedAgents
import AgentTaskPlatform.Transitions
import AgentTaskPlatform.Semaphores
import AgentTaskPlatform.Scheduler
import AgentTaskPlatform.AdmissionLedger
import AgentTaskPlatform.AdmissionLimits
import AgentTaskPlatform.Worklist
import AgentTaskPlatform.RunTree
import AgentTaskPlatform.CancellationTree
import AgentTaskPlatform.ChildRun
import AgentTaskPlatform.ChildReports
import AgentTaskPlatform.Companions
import AgentTaskPlatform.CallProtocol
import AgentTaskPlatform.ReplayedCalls
import AgentTaskPlatform.SkillLoader
import AgentTaskPlatform.SkillRegistry
import AgentTaskPlatform.SkillPublication
import AgentTaskPlatform.StatefulCalls
import AgentTaskPlatform.SkillSession
import AgentTaskPlatform.SelfDelimiting
import AgentTaskPlatform.PinnedSkills
import AgentTaskPlatform.ArtifactHash
import AgentTaskPlatform.JsonText
import AgentTaskPlatform.JsonRoundTrip
import AgentTaskPlatform.JsonCharacters
import AgentTaskPlatform.JsonNumbers
import AgentTaskPlatform.PiFraming
import AgentTaskPlatform.PiDelivery
import AgentTaskPlatform.PiBridge
import AgentTaskPlatform.PiRequestIds
import AgentTaskPlatform.PiTurns
import AgentTaskPlatform.PiTurnProtocol
import AgentTaskPlatform.FirstMaximum
import AgentTaskPlatform.VersionOrder
import AgentTaskPlatform.AgentReload
import AgentTaskPlatform.AgentRestart
import AgentTaskPlatform.ToolReload
import AgentTaskPlatform.SkillDefaults
import AgentTaskPlatform.SkillReload
import AgentTaskPlatform.SkillEdits
import AgentTaskPlatform.HotReload
import AgentTaskPlatform.ChildBudget
import AgentTaskPlatform.StageKeys
import AgentTaskPlatform.ApiKeys
import AgentTaskPlatform.StageMachine
import AgentTaskPlatform.ToolOutcome
import AgentTaskPlatform.StartupRecovery
import AgentTaskPlatform.CallbackPolling
import AgentTaskPlatform.WaitingTool
import AgentTaskPlatform.ReadyRuns
import AgentTaskPlatform.Elections
import AgentTaskPlatform.AdminWrites
import AgentTaskPlatform.AdminAtomicity
import AgentTaskPlatform.PlatformSettings
import AgentTaskPlatform.PlatformConfigs
import AgentTaskPlatform.PlatformReload
import AgentTaskPlatform.PlatformRoundTrip
import AgentTaskPlatform.Arrivals
import AgentTaskPlatform.RateLimiter
import AgentTaskPlatform.QpsLimiter
import AgentTaskPlatform.SkillBudgets
import AgentTaskPlatform.Unquote
import AgentTaskPlatform.OutboundPaths
import AgentTaskPlatform.Urls
import AgentTaskPlatform.OutboundPolicy
import AgentTaskPlatform.OutboundVerdicts
import AgentTaskPlatform.ModelCalls
import AgentTaskPlatform.CircuitBreaker
import AgentTaskPlatform.FileTree
import AgentTaskPlatform.SkillPaths
import AgentTaskPlatform.SkillScripts
import AgentTaskPlatform.SkillResources
import AgentTaskPlatform.ToolSlots
import AgentTaskPlatform.SkillHistory
import AgentTaskPlatform.Redaction
import AgentTaskPlatform.RedactionSpelling
import AgentTaskPlatform.LogFiles
import AgentTaskPlatform.LogRotation
import AgentTaskPlatform.LogSeries
import AgentTaskPlatform.LogLimits
import AgentTaskPlatform.Trails
import AgentTaskPlatform.OutputProvenance
import AgentTaskPlatform.CallbackPosts
import AgentTaskPlatform.Recorders
import AgentTaskPlatform.ToolAdmission
import AgentTaskPlatform.OrderedAcquisition
import AgentTaskPlatform.AdmissionProgress
import AgentTaskPlatform.JsonDocuments
import AgentTaskPlatform.ModelAnswers
import AgentTaskPlatform.Base64
import AgentTaskPlatform.FirstOccurrences
import AgentTaskPlatform.InputFiles
import AgentTaskPlatform.AttachedFiles
