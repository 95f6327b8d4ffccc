import AgentTaskPlatform.Domain
import AgentTaskPlatform.KeyedTable
import AgentTaskPlatform.Semaphores
import AgentTaskPlatform.Transitions

/-!
`RunScheduler`: the local semaphores that admit runs. A call of `run_with_limits` asks for
its semaphores one after another and may wait at each; a task that waits for a semaphore
leaves the event loop to the others, so calls interleave at these points. Semaphores are
objects that the dictionaries of the scheduler name for a while: a call keeps the slots of
a semaphore that a dictionary has dropped.
-/

namespace AgentTaskPlatform

namespace Json

def truthy : Json → Bool
  | .null => false
  | .bool value => value
  | .number value => value ≠ 0
  | .string value => value ≠ ""
  | .array items => !items.isEmpty
  | .object fields => !fields.isEmpty

end Json

namespace Scheduler

open KeyedTable Semaphores

structure SchedulerLimits where
  globalMaxConcurrency : Int := 20
  routeTagMaxConcurrency : List (String × Int) := []
  callerMaxConcurrency : List (String × Int) := []
  maxNestedDepth : Int := 3
  maxActiveChildrenPerRoot : Int := 5

/-- The keys of `reconfigure`'s settings that are there. -/
structure QueueSettings where
  globalMaxConcurrency : Option Int := none
  routeTags : Option (List (String × Int)) := none
  callers : Option (List (String × Int)) := none
  maxNestedDepth : Option Int := none
  maxActiveChildrenPerRoot : Option Int := none

def QueueSettings.limits (settings : QueueSettings) : SchedulerLimits where
  globalMaxConcurrency := settings.globalMaxConcurrency.getD 20
  routeTagMaxConcurrency := settings.routeTags.getD []
  callerMaxConcurrency := settings.callers.getD []
  maxNestedDepth := settings.maxNestedDepth.getD 3
  maxActiveChildrenPerRoot := settings.maxActiveChildrenPerRoot.getD 5

inductive LaneLabel where
  | agent (name : String)
  | route (tag : String)
  deriving DecidableEq

/-- What a semaphore is looked up by: the global one, and a key of `agent_semaphores`,
`task_tag_semaphores`, `caller_semaphores`, `nested_children_semaphores` or
`ancestor_reentrant_semaphores`. -/
inductive Lock where
  | global
  | agent (name : String)
  | routeTag (tag : String)
  | caller (name : String)
  | nestedChildren (rootRunId : String)
  | ancestorLane (holder : String) (label : LaneLabel)
  deriving DecidableEq

def Lock.isLane : Lock → Bool
  | .ancestorLane _ _ => true
  | _ => false

/-- A value of `_active_run_holders`, with its key. -/
structure Holder where
  runId : String
  agent : String
  routeTag : String
  caller : String
  parentRunId : Json
  rootRunId : String

/-- What a call of `run_with_limits` fixes before its first semaphore. -/
structure Admission where
  runId : String
  routeTag : String
  caller : String
  agent : AgentSpec
  parentRunId : Json
  rootRunId : String
  ancestorAgentId : Option String
  ancestorRouteId : Option String
  callerExempt : Bool

namespace Admission

def isChild (admission : Admission) : Bool := admission.parentRunId.truthy

def agentLock (admission : Admission) : Lock :=
  match admission.ancestorAgentId with
  | some holder => .ancestorLane holder (.agent admission.agent.name)
  | none => .agent admission.agent.name

def routeLock (admission : Admission) : Lock :=
  match admission.ancestorRouteId with
  | some holder => .ancestorLane holder (.route admission.routeTag)
  | none => .routeTag admission.routeTag

def locks (admission : Admission) : List Lock :=
  [if admission.isChild then .nestedChildren admission.rootRunId else .global,
    admission.agentLock, admission.routeLock] ++
  if admission.callerExempt then [] else [.caller admission.caller]

def holder (admission : Admission) : Holder where
  runId := admission.runId
  agent := admission.agent.name
  routeTag := admission.routeTag
  caller := admission.caller
  parentRunId := admission.parentRunId
  rootRunId := admission.rootRunId

end Admission

def SchedulerLimits.limit (limits : SchedulerLimits) (agent : AgentSpec) : Lock → Int
  | .global => limits.globalMaxConcurrency
  | .agent _ => agent.maxConcurrency
  | .routeTag tag => (limits.routeTagMaxConcurrency.lookup tag).getD 10000
  | .caller name => (limits.callerMaxConcurrency.lookup name).getD 10000
  | .nestedChildren _ => limits.maxActiveChildrenPerRoot
  | .ancestorLane _ _ => 1

inductive Stage where
  /-- Between two awaits; the semaphores still to enter. -/
  | asking (next : List Lock)
  /-- In `acquire` of a semaphore. -/
  | waiting (lock : Lock) (ref : Nat) (next : List Lock)
  /-- In `_active_run_holders`, before `_run_admitted`. -/
  | registered
  /-- In `_run_admitted`, around `call()`. -/
  | running
  | ended
  deriving DecidableEq

structure Call where
  admission : Admission
  stage : Stage
  held : Slots Lock := []

def Call.admitted (call : Call) : Bool :=
  match call.stage with
  | .registered | .running => true
  | _ => false

structure RunScheduler where
  limits : SchedulerLimits
  /-- `coordination.scope != "process"` -/
  distributed : Bool
  pool : Pool
  semaphores : Lock → Option Nat
  runningByAgent : String → Int := fun _ => 0
  runningByRouteTag : String → Int := fun _ => 0
  runningByCaller : String → Int := fun _ => 0
  activeRunHolders : Table Holder String Holder.runId := Table.empty
  /-- Every call so far, in the order they began. -/
  calls : List Call := []

def newSemaphore (value : Int) : Option Semaphore :=
  if value < 0 then none else some (Semaphore.fresh value.toNat)

def init (limits : Option SchedulerLimits) (distributed : Bool) : Option RunScheduler :=
  let limits := limits.getD {}
  (newSemaphore limits.globalMaxConcurrency).map fun semaphore =>
    { limits, distributed, pool := [semaphore]
      semaphores := fun lock => if lock = .global then some 0 else none }

structure Texts where
  repr : Json → String
  parseInt : String → Option Int

namespace Texts

variable (texts : Texts)

def str : Json → String
  | .null => "None"
  | .bool true => "True"
  | .bool false => "False"
  | .number value => toString value
  | .string value => value
  | .array items => texts.repr (.array items)
  | .object fields => texts.repr (.object fields)

def int : Json → Option Int
  | .bool value => some (if value then 1 else 0)
  | .number value => some value
  | .string value => texts.parseInt value
  | _ => none

end Texts

namespace RunScheduler

/-- The holders on the way up from a parent. There is no result where the parent cannot be
a dictionary key, which raises, or where the way is longer than the table, a cycle that
the source follows for ever. -/
def ancestors (holders : Table Holder String Holder.runId) : Nat → Json → Option (List Holder)
  | _, .array items => if items.isEmpty then some [] else none
  | _, .object fields => if fields.isEmpty then some [] else none
  | 0, .string parent => if parent = "" then some [] else none
  | fuel + 1, .string parent =>
      if parent = "" then some []
      else
        match holders.find parent with
        | none => some []
        | some holder => (ancestors holders fuel holder.parentRunId).map (holder :: ·)
  | _, _ => some []

/-- `run_with_limits` up to its first semaphore; there is no result where it raises. -/
def runWithLimits (texts : Texts) (scheduler : RunScheduler) (run : AgentRun)
    (agent : AgentSpec) : Option Admission :=
  let parentRunId := (run.metadata.lookup "parent_run_id").getD .null
  let root := (run.metadata.lookup "root_run_id").getD .null
  let depth := (run.metadata.lookup "call_depth").getD .null
  match if depth.truthy then texts.int depth else some 0 with
  | none => none
  | some callDepth =>
      if callDepth > scheduler.limits.maxNestedDepth then none
      else
        let holders := scheduler.activeRunHolders
        (ancestors holders (holders.rows.length + 1) parentRunId).map fun chain =>
          { runId := run.runId
            routeTag := run.routeTag
            caller := run.caller
            agent
            parentRunId
            rootRunId := if root.truthy then texts.str root else run.runId
            ancestorAgentId := (chain.find? (·.agent = agent.name)).map Holder.runId
            ancestorRouteId := (chain.find? (·.routeTag = run.routeTag)).map Holder.runId
            callerExempt := parentRunId.truthy && chain.any (·.caller = run.caller) }

/-- `semaphore_for_…`: the semaphore of the dictionary, or a new one in it. The new one is
made first, and raises, even where the old one is found. -/
def semaphoreFor (scheduler : RunScheduler) (agent : AgentSpec) (lock : Lock) :
    Option (RunScheduler × Nat) :=
  if lock = .global then (scheduler.semaphores .global).map fun ref => (scheduler, ref)
  else
    (newSemaphore (scheduler.limits.limit agent lock)).map fun semaphore =>
      match scheduler.semaphores lock with
      | some ref => (scheduler, ref)
      | none =>
          ({ scheduler with
              pool := scheduler.pool ++ [semaphore]
              semaphores := Function.update scheduler.semaphores lock (some scheduler.pool.length) },
            scheduler.pool.length)

def setCall (scheduler : RunScheduler) (index : Nat) (call : Call) : RunScheduler :=
  { scheduler with calls := scheduler.calls.set index call }

def leave (scheduler : RunScheduler) (index : Nat) (call : Call) : RunScheduler :=
  { scheduler with
    pool := releaseAll scheduler.pool call.held
    calls := scheduler.calls.set index { call with stage := .ended, held := [] } }

def register (scheduler : RunScheduler) (admission : Admission) : RunScheduler :=
  { scheduler with
    activeRunHolders := scheduler.activeRunHolders.upsert admission.holder }

def dropLanes (semaphores : Lock → Option Nat) (runId : String) : Lock → Option Nat
  | .ancestorLane holder label =>
      if holder = runId then none else semaphores (.ancestorLane holder label)
  | lock => semaphores lock

def unregister (scheduler : RunScheduler) (runId : String) : RunScheduler :=
  { scheduler with
    activeRunHolders := scheduler.activeRunHolders.deleteWhere (·.runId = runId)
    semaphores := dropLanes scheduler.semaphores runId }

def addTo (table : String → Int) (key : String) (amount : Int) : String → Int :=
  fun name => if name = key then table name + amount else table name

def count (scheduler : RunScheduler) (admission : Admission) (amount : Int) : RunScheduler :=
  { scheduler with
    runningByAgent := addTo scheduler.runningByAgent admission.agent.name amount
    runningByRouteTag := addTo scheduler.runningByRouteTag admission.routeTag amount
    runningByCaller := addTo scheduler.runningByCaller admission.caller amount }

def dropRoot (scheduler : RunScheduler) (admission : Admission) : RunScheduler :=
  if !admission.isChild && admission.rootRunId ≠ "" then
    { scheduler with
      semaphores :=
        dropLanes (Function.update scheduler.semaphores (.nestedChildren admission.rootRunId) none)
          admission.rootRunId }
  else scheduler

def replaced (semaphores : Lock → Option Nat) (global : Nat) : Lock → Option Nat
  | .global => some global
  | .agent name => semaphores (.agent name)
  | _ => none

def reconfigure (scheduler : RunScheduler) (settings : QueueSettings) : Option RunScheduler :=
  let limits := settings.limits
  if limits.globalMaxConcurrency ≤ 0 then none
  else if !scheduler.activeRunHolders.rows.isEmpty then none
  else
    (newSemaphore limits.globalMaxConcurrency).map fun semaphore =>
      { scheduler with
        limits
        pool := scheduler.pool ++ [semaphore]
        semaphores := replaced scheduler.semaphores scheduler.pool.length }

end RunScheduler

inductive Action where
  | call (run : AgentRun) (agent : AgentSpec)
  /-- The next semaphore of a call is looked up. -/
  | ask (index : Nat)
  | acquire (index : Nat)
  /-- A cancellation reaches a call that waits. -/
  | cancel (index : Nat)
  | register (index : Nat)
  /-- `_run_admitted` up to `call()`. -/
  | runAdmitted (index : Nat)
  /-- `logs.add` raises in `_run_admitted`. -/
  | logFails (index : Nat)
  /-- A slot of the coordination backend is refused, or its `acquire` is cancelled. -/
  | refuse (index : Nat)
  /-- `call()` returns, raises or is cancelled. -/
  | finish (index : Nat)
  | reconfigure (settings : QueueSettings)

namespace RunScheduler

def step (texts : Texts) (scheduler : RunScheduler) : Action → Option RunScheduler
  | .call run agent =>
      (runWithLimits texts scheduler run agent).map fun admission =>
        { scheduler with
          calls := scheduler.calls ++ [⟨admission, .asking admission.locks, []⟩] }
  | .ask index =>
      match scheduler.calls[index]? with
      | some ⟨admission, .asking (lock :: next), held⟩ =>
          match scheduler.semaphoreFor admission.agent lock with
          | some (found, ref) => some (found.setCall index ⟨admission, .waiting lock ref next, held⟩)
          | none => some (scheduler.leave index ⟨admission, .asking (lock :: next), held⟩)
      | _ => none
  | .acquire index =>
      match scheduler.calls[index]? with
      | some ⟨admission, .waiting lock ref next, held⟩ =>
          (acquire scheduler.pool ref).map fun pool =>
            { scheduler with pool }.setCall index ⟨admission, .asking next, held ++ [(lock, ref)]⟩
      | _ => none
  | .cancel index =>
      match scheduler.calls[index]? with
      | some ⟨admission, .waiting lock ref next, held⟩ =>
          some (scheduler.leave index ⟨admission, .waiting lock ref next, held⟩)
      | _ => none
  | .register index =>
      match scheduler.calls[index]? with
      | some ⟨admission, .asking [], held⟩ =>
          some ((scheduler.register admission).setCall index ⟨admission, .registered, held⟩)
      | _ => none
  | .runAdmitted index =>
      match scheduler.calls[index]? with
      | some ⟨admission, .registered, held⟩ =>
          some ((scheduler.count admission 1).setCall index ⟨admission, .running, held⟩)
      | _ => none
  | .logFails index =>
      match scheduler.calls[index]? with
      | some ⟨admission, .registered, held⟩ =>
          some (((scheduler.count admission 1).unregister admission.runId).leave index
            ⟨admission, .registered, held⟩)
      | _ => none
  | .refuse index =>
      match scheduler.calls[index]? with
      | some ⟨admission, .registered, held⟩ =>
          if scheduler.distributed then
            some ((scheduler.unregister admission.runId).leave index ⟨admission, .registered, held⟩)
          else none
      | _ => none
  | .finish index =>
      match scheduler.calls[index]? with
      | some ⟨admission, .running, held⟩ =>
          some ((((scheduler.count admission (-1)).dropRoot admission).unregister
            admission.runId).leave index ⟨admission, .running, held⟩)
      | _ => none
  | .reconfigure settings => scheduler.reconfigure settings

end RunScheduler

end Scheduler

end AgentTaskPlatform
