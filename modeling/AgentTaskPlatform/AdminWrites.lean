import AgentTaskPlatform.AgentReload
import AgentTaskPlatform.Elections
import AgentTaskPlatform.SkillDefaults
import AgentTaskPlatform.SkillPublication
import AgentTaskPlatform.ToolReload

/-!
The admin routes that change the registries and write the store. A request takes effect in
the memory and in the database, or in neither, exactly where neither an election nor the
write strikes between its two changes.
-/

namespace AgentTaskPlatform.AdminWrites

open KeyedTable
open Registry (Versioning AgentRegistry RegistryM register disable deregister setDefault getAgent
  matchingAgents disabled versionGiven preferEnabled unknownAgent maxVersion versionKey checkRoutes
  setRoutes)
open RouteTable
open Elections
open AgentReload (AgentRows)
open ToolReload (ToolRegistry ToolRows ToolM toolRef unknownTool)
open Skills (Loading SkillSpec SkillRegistry SkillTable SkillM Defaulted Keyed newest)
open SkillPublication (SkillPublishRequest verifiedArtifact publishedSpec conflicts)
open StatefulCalls (Method point bind_run bind_ok bind_error get_run modify_run lift_run pure_run
  throw_run)

structure Configuration where
  agents : AgentRegistry
  agentRows : AgentRows
  tools : ToolRegistry
  toolRows : ToolRows
  skills : SkillRegistry
  skillRows : SkillTable

abbrev AdminM := Method Exc Configuration

abbrev Fault := String → String → Option Exc

abbrev PathSegment := { text : String // text ≠ "" }

section Store

variable (fault : Fault)

def saveAgent (agent : AgentSpec) : AdminM Unit := do
  point (fault agent.name agent.version)
  modify fun configuration =>
    { configuration with agentRows := configuration.agentRows.upsert agent }

def deleteAgent (agent : AgentSpec) : AdminM Unit := do
  point (fault agent.name agent.version)
  modify fun configuration =>
    { configuration with
      agentRows := configuration.agentRows.deleteWhere fun row => row.ref = agent.ref }

def saveTool (tool : ToolSpec) : AdminM Unit := do
  point (fault tool.name tool.version)
  modify fun configuration => { configuration with toolRows := configuration.toolRows.upsert tool }

def saveSkill (skill : SkillSpec) : AdminM Unit := do
  point (fault skill.name skill.version)
  modify fun configuration =>
    { configuration with skillRows := configuration.skillRows.upsert skill }

end Store

section Registries

variable {α : Type}

def inAgents (method : RegistryM α) : AdminM α := fun configuration =>
  let done := method configuration.agents
  (done.1, { configuration with agents := done.2 })

def inTools (method : ToolM α) : AdminM α := fun configuration =>
  let done := method configuration.tools
  (done.1, { configuration with tools := done.2 })

def inSkills (method : SkillM α) : AdminM α := fun configuration =>
  let done := method configuration.skills
  (done.1, { configuration with skills := done.2 })

def disabledTool (name : String) : Exc := .registry ("Tool '" ++ name ++ "' is disabled")

def getTool (registry : ToolRegistry) (name : String) : Except Exc ToolSpec :=
  match registry.find name with
  | none => .error (unknownTool name)
  | some tool => if tool.enabled then .ok tool else .error (disabledTool name)

def withdrawTool (name : String) : ToolM ToolSpec := do
  let registry ← get
  match registry.find name with
  | none => throw (unknownTool name)
  | some tool =>
      let changed := { tool with enabled := false }
      modify fun registry => registry.upsert changed
      return changed

end Registries

section Handlers

variable (loading : Loading) (versioning : Versioning) (fault : Fault)

def registerAgent (agent : AgentSpec) (makeDefault : Bool) : AdminM Unit := do
  inAgents (register versioning agent makeDefault)
  saveAgent fault agent

def disableAgent (name version : PathSegment) : AdminM Unit := do
  let configuration ← get
  let _ ← ExceptT.mk (pure (getAgent versioning configuration.agents name (some version)))
  inAgents (disable versioning name (some version))
  let changed := (matchingAgents configuration.agents name (some version)).map disabled
  changed.forM (saveAgent fault)

def deregisterAgent (name version : PathSegment) : AdminM Unit := do
  let configuration ← get
  inAgents (deregister versioning name (some version))
  let removed := configuration.agents.agents.rows.filter fun agent =>
    agent.name = name.1 && (some version.1).all (agent.version = ·)
  removed.forM (deleteAgent fault)

def setDefaultAgent (name version : PathSegment) : AdminM Unit := do
  let configuration ← get
  let agent ← ExceptT.mk (pure (getAgent versioning configuration.agents name (some version)))
  inAgents (setDefault versioning name version)
  saveAgent fault agent

def registerTool (tool : ToolSpec) : AdminM Unit := do
  inTools (ToolReload.register tool)
  saveTool fault tool

def disableTool (name : PathSegment) : AdminM Unit := do
  let configuration ← get
  let _ ← ExceptT.mk (pure (getTool configuration.tools name))
  let tool ← inTools (withdrawTool name)
  saveTool fault tool

def publishSkill (skill : SkillPublishRequest) : AdminM Unit := fun configuration =>
  let failure := (verifiedArtifact loading skill.artifact).toOption.bind fun verified =>
    fault verified.name verified.version
  let done := SkillPublication.publishSkill loading versioning configuration.skillRows
    configuration.skills skill failure
  (done.1.map fun _ => (), { configuration with skillRows := done.2.1, skills := done.2.2 })

def disableSkill (name version : PathSegment) : AdminM Unit := do
  let changed ← inSkills (Skills.disable versioning name (some version))
  changed.forM (saveSkill fault)

inductive Request where
  | registerAgent (agent : AgentSpec) (makeDefault : Bool)
  | disableAgent (name version : PathSegment)
  | deregisterAgent (name version : PathSegment)
  | setDefaultAgent (name version : PathSegment)
  | registerTool (tool : ToolSpec)
  | disableTool (name : PathSegment)
  | publishSkill (skill : SkillPublishRequest)
  | disableSkill (name version : PathSegment)

def handle : Request → AdminM Unit
  | .registerAgent agent makeDefault => registerAgent versioning fault agent makeDefault
  | .disableAgent name version => disableAgent versioning fault name version
  | .deregisterAgent name version => deregisterAgent versioning fault name version
  | .setDefaultAgent name version => setDefaultAgent versioning fault name version
  | .registerTool tool => registerTool fault tool
  | .disableTool name => disableTool fault name
  | .publishSkill skill => publishSkill loading versioning fault skill
  | .disableSkill name version => disableSkill versioning fault name version

end Handlers

section Atomicity

structure SameAgents (before after : AgentRegistry) : Prop where
  specs : ∀ ref, after.agents.find ref = before.agents.find ref
  routes : ∀ tag, after.route tag = before.route tag

structure SameSkills (before after : SkillRegistry) : Prop where
  specs : ∀ ref, after.skills.find ref = before.skills.find ref
  defaults : ∀ name, after.default name = before.default name

structure Unchanged (before after : Configuration) : Prop where
  agents : SameAgents before.agents after.agents
  agentRows : ∀ ref, after.agentRows.find ref = before.agentRows.find ref
  tools : ∀ name, after.tools.find name = before.tools.find name
  toolRows : ∀ ref, after.toolRows.find ref = before.toolRows.find ref
  skills : SameSkills before.skills after.skills
  skillRows : ∀ ref, after.skillRows.find ref = before.skillRows.find ref

structure Carried (before after : Configuration) : Prop where
  agents : ∀ ref, after.agentRows.find ref = after.agents.agents.find ref ∨
    after.agents.agents.find ref = before.agents.agents.find ref ∧
      after.agentRows.find ref = before.agentRows.find ref
  tools : ∀ name, (∃ tool, after.tools.find name = some tool ∧
      after.toolRows.find (toolRef tool) = some tool) ∨
    after.tools.find name = before.tools.find name ∧
      ∀ version, after.toolRows.find (name, version) = before.toolRows.find (name, version)
  skills : ∀ ref, after.skillRows.find ref = after.skills.skills.find ref ∨
    after.skills.skills.find ref = before.skills.skills.find ref ∧
      after.skillRows.find ref = before.skillRows.find ref

/-- A request that is answered took effect in both; one that raises took effect in neither. -/
def Atomic (request : AdminM Unit) (configuration : Configuration) : Prop :=
  match request configuration with
  | (.ok _, after) => Carried configuration after
  | (.error _, after) => Unchanged configuration after

/-- The registries hold the specs of the database; a route leads to an enabled agent that
lists it, and a default is an enabled version. The tools of the servers are not stored. -/
structure Agrees (configuration : Configuration) : Prop where
  agents : ∀ ref, configuration.agents.agents.find ref = configuration.agentRows.find ref
  routes : RoutesEnabled configuration.agents
  tools : ∀ name tool row, configuration.tools.find name = some tool →
    configuration.toolRows.find (toolRef tool) = some row → row = tool
  skills : ∀ ref, configuration.skills.skills.find ref = configuration.skillRows.find ref
  defaults : Defaulted configuration.skills

end Atomicity

section Frames

variable {configuration : Configuration}

theorem SameAgents.refl (registry : AgentRegistry) : SameAgents registry registry :=
  ⟨fun _ => rfl, fun _ => rfl⟩

theorem SameSkills.refl (registry : SkillRegistry) : SameSkills registry registry :=
  ⟨fun _ => rfl, fun _ => rfl⟩

theorem Unchanged.refl (configuration : Configuration) : Unchanged configuration configuration where
  agents := .refl _
  agentRows := fun _ => rfl
  tools := fun _ => rfl
  toolRows := fun _ => rfl
  skills := .refl _
  skillRows := fun _ => rfl

theorem unchanged_agents {after : AgentRegistry} :
    Unchanged configuration { configuration with agents := after } ↔
      SameAgents configuration.agents after := by
  constructor
  · intro unchanged
    exact unchanged.agents
  · intro same
    exact { Unchanged.refl configuration with agents := same }

theorem unchanged_tools {after : ToolRegistry} :
    Unchanged configuration { configuration with tools := after } ↔
      ∀ name, after.find name = configuration.tools.find name := by
  constructor
  · intro unchanged
    exact unchanged.tools
  · intro same
    exact { Unchanged.refl configuration with tools := same }

theorem unchanged_skills {after : SkillRegistry} :
    Unchanged configuration { configuration with skills := after } ↔
      SameSkills configuration.skills after := by
  constructor
  · intro unchanged
    exact unchanged.skills
  · intro same
    exact { Unchanged.refl configuration with skills := same }

theorem carried_agents {agents : AgentRegistry} {agentRows : AgentRows}
    (alike : ∀ ref, agentRows.find ref = agents.agents.find ref ∨
      agents.agents.find ref = configuration.agents.agents.find ref ∧
        agentRows.find ref = configuration.agentRows.find ref) :
    Carried configuration { configuration with agents, agentRows } where
  agents := alike
  tools := fun _ => Or.inr ⟨rfl, fun _ => rfl⟩
  skills := fun _ => Or.inr ⟨rfl, rfl⟩

theorem carried_skills {skills : SkillRegistry} {skillRows : SkillTable}
    (alike : ∀ ref, skillRows.find ref = skills.skills.find ref ∨
      skills.skills.find ref = configuration.skills.skills.find ref ∧
        skillRows.find ref = configuration.skillRows.find ref) :
    Carried configuration { configuration with skills, skillRows } where
  agents := fun _ => Or.inr ⟨rfl, rfl⟩
  tools := fun _ => Or.inr ⟨rfl, fun _ => rfl⟩
  skills := alike

end Frames

section Writes

variable {configuration : Configuration} {fault : Fault}

theorem inAgents_run {α : Type} {method : RegistryM α} {outcome : Except Exc α}
    {after : AgentRegistry} (called : method configuration.agents = (outcome, after)) :
    inAgents method configuration = (outcome, { configuration with agents := after }) := by
  show ((method configuration.agents).1, _) = _
  rw [called]

theorem inSkills_run {α : Type} {method : SkillM α} {outcome : Except Exc α}
    {after : SkillRegistry} (called : method configuration.skills = (outcome, after)) :
    inSkills method configuration = (outcome, { configuration with skills := after }) := by
  show ((method configuration.skills).1, _) = _
  rw [called]

theorem forM_single {Item : Type} (write : Item → AdminM Unit) (item : Item) :
    [item].forM write = write item := by
  show (write item >>= fun _ => pure ⟨⟩) = write item
  exact bind_pure_unit

/-- The store is written after the registry has changed: the request is atomic where both
went through, or where the registry is as it was. -/
theorem saved_agent_iff {method : RegistryM Unit} {outcome : Except Exc Unit}
    {after : AgentRegistry} {agent : AgentSpec}
    (called : method configuration.agents = (outcome, after))
    (stored : after.agents = (configuration.agents.setAgent agent).agents) :
    Atomic (do inAgents method; saveAgent fault agent) configuration ↔
      (outcome = .ok () ∧ fault agent.name agent.version = none) ∨
        SameAgents configuration.agents after := by
  have run := inAgents_run called
  cases outcome with
  | error error =>
      unfold Atomic
      rw [bind_error run]
      simp only [unchanged_agents, reduceCtorEq, false_and, false_or]
  | ok value =>
      unfold Atomic
      rw [bind_ok run, saveAgent, bind_run]
      cases strike : fault agent.name agent.version with
      | some error =>
          simp only [StatefulCalls.point_some, unchanged_agents, reduceCtorEq, and_false, false_or]
      | none =>
          simp only [StatefulCalls.point_none, modify_run, and_true, true_or, iff_true]
          apply carried_agents
          intro ref
          rw [stored]
          by_cases own : ref = agent.ref
          · subst own
            left
            rw [Table.find_upsert_self, AgentRegistry.setAgent, Table.find_upsert_self]
          · right
            rw [AgentRegistry.setAgent, Table.find_upsert_other _ own,
              Table.find_upsert_other _ own]
            exact ⟨rfl, rfl⟩

theorem find_popAgent (registry : AgentRegistry) (ref : AgentRef) (wanted : AgentRef) :
    (registry.popAgent ref).agents.find wanted =
      if wanted = ref then none else registry.agents.find wanted := by
  rw [AgentRegistry.popAgent, Table.find_deleteWhere_eq]
  cases found : registry.agents.find wanted with
  | none => simp
  | some agent =>
      have key : agent.ref = wanted := Table.find_key found
      by_cases own : wanted = ref <;> simp [Option.filter_some, key, own]

theorem deleted_agent_iff {method : RegistryM Unit} {outcome : Except Exc Unit}
    {after : AgentRegistry} {agent : AgentSpec}
    (present : configuration.agents.agents.find agent.ref = some agent)
    (called : method configuration.agents = (outcome, after))
    (gone : after.agents = (configuration.agents.popAgent agent.ref).agents) :
    Atomic (do inAgents method; deleteAgent fault agent) configuration ↔
      outcome = .ok () ∧ fault agent.name agent.version = none := by
  have run := inAgents_run called
  have changed : ¬ SameAgents configuration.agents after := by
    intro same
    have kept := same.specs agent.ref
    rw [gone, find_popAgent, if_pos rfl, present] at kept
    cases kept
  cases outcome with
  | error error =>
      unfold Atomic
      rw [bind_error run]
      simp only [unchanged_agents, changed, reduceCtorEq, false_and]
  | ok value =>
      unfold Atomic
      rw [bind_ok run, deleteAgent, bind_run]
      cases strike : fault agent.name agent.version with
      | some error =>
          simp only [StatefulCalls.point_some, unchanged_agents, changed, reduceCtorEq, and_false]
      | none =>
          simp only [StatefulCalls.point_none, modify_run, and_self, iff_true]
          apply carried_agents
          intro ref
          have row : (configuration.agentRows.deleteWhere fun row => row.ref = agent.ref).find ref =
              if ref = agent.ref then none else configuration.agentRows.find ref :=
            find_popAgent { agents := configuration.agentRows, routes := Table.empty } agent.ref ref
          rw [gone, find_popAgent, row]
          by_cases own : ref = agent.ref
          · left
            rw [if_pos own, if_pos own]
          · right
            rw [if_neg own, if_neg own]
            exact ⟨rfl, rfl⟩

theorem saved_tool_iff {tool : ToolSpec} :
    Atomic (do inTools (ToolReload.register tool); saveTool fault tool) configuration ↔
      fault tool.name tool.version = none ∨ configuration.tools.find tool.name = some tool := by
  have run : inTools (ToolReload.register tool) configuration =
      (.ok (), { configuration with tools := configuration.tools.upsert tool }) := rfl
  unfold Atomic
  rw [bind_ok run, saveTool, bind_run]
  cases strike : fault tool.name tool.version with
  | some error =>
      simp only [StatefulCalls.point_some, unchanged_tools, reduceCtorEq, false_or]
      constructor
      · intro same
        rw [← same tool.name]
        exact Table.find_upsert_self _ tool
      · intro present name
        rw [Table.upsert_present present]
  | none =>
      simp only [StatefulCalls.point_none, modify_run, true_or, iff_true]
      refine ⟨fun _ => Or.inr ⟨rfl, rfl⟩, ?_, fun _ => Or.inr ⟨rfl, rfl⟩⟩
      intro name
      by_cases own : name = tool.name
      · subst own
        exact Or.inl ⟨tool, Table.find_upsert_self _ tool, Table.find_upsert_self _ tool⟩
      · refine Or.inr ⟨Table.find_upsert_other _ own, fun version => ?_⟩
        apply Table.find_upsert_other
        intro same
        exact own (congrArg Prod.fst same)

end Writes

end AgentTaskPlatform.AdminWrites
