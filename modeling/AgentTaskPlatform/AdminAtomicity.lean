import AgentTaskPlatform.AdminWrites

/-!
When an admin request is atomic. The registries change before the store is written, so a
write that fails leaves the change in the memory; only a publication writes first.
-/

namespace AgentTaskPlatform.AdminAtomicity

open KeyedTable
open Registry (Versioning AgentRegistry register disable deregister setDefault getAgent
  matchingAgents disabled versionGiven preferEnabled unknownAgent maxVersion versionKey checkRoutes
  setRoutes disabledAgent retire)
open RouteTable
open Elections
open AdminWrites
open Skills (Loading SkillSpec SkillRegistry SkillM Defaulted Keyed newest)
open SkillPublication (SkillPublishRequest verifiedArtifact publishedSpec conflicts)
open StatefulCalls (bind_run bind_ok bind_error get_run modify_run lift_run pure_run throw_run)

variable {versioning : Versioning} {fault : Fault} {configuration : Configuration}

section Lookup

variable {registry : AgentRegistry} {name version : PathSegment} {agent : AgentSpec}

theorem matching_present (found : registry.agents.find ⟨name, version⟩ = some agent) :
    matchingAgents registry name (some version) = [agent] := by
  have key : agent.ref = ⟨name, version⟩ := Table.find_key found
  obtain ⟨named, versioned⟩ := AgentRef.mk.inj key
  refine Table.filter_keyed found (by simp [versionGiven, named, versioned]) ?_
  intro other _ holds
  simpa [versionGiven, version.2, AgentSpec.ref] using holds

theorem matching_absent (missing : registry.agents.find ⟨name, version⟩ = none) :
    matchingAgents registry name (some version) = [] := by
  rw [matchingAgents, List.filter_eq_nil_iff]
  intro other member holds
  rw [Table.find_none] at missing
  apply missing
  have own : other.ref = ⟨name, version⟩ := by
    simpa [versionGiven, version.2, AgentSpec.ref] using holds
  exact own ▸ List.mem_map_of_mem member

theorem exact_present (found : registry.agents.find ⟨name, version⟩ = some agent) :
    (registry.agents.rows.filter fun agent => agent.name = name.1 &&
      (some version.1).all (agent.version = ·)) = [agent] := by
  have same := matching_present found
  simpa [matchingAgents, versionGiven, version.2] using same

theorem exact_absent (missing : registry.agents.find ⟨name, version⟩ = none) :
    (registry.agents.rows.filter fun agent => agent.name = name.1 &&
      (some version.1).all (agent.version = ·)) = [] := by
  have same := matching_absent missing
  simpa [matchingAgents, versionGiven, version.2] using same

theorem getAgent_absent (missing : registry.agents.find ⟨name, version⟩ = none) :
    getAgent versioning registry name (some version) = .error (unknownAgent name) := by
  unfold getAgent
  rw [matching_absent missing]
  rfl

theorem getAgent_present (found : registry.agents.find ⟨name, version⟩ = some agent) :
    (Keyed versioning version → getAgent versioning registry name (some version) = .ok agent) ∧
      (¬ Keyed versioning version → ∃ error,
        getAgent versioning registry name (some version) = .error error) := by
  have key : agent.ref = ⟨name, version⟩ := Table.find_key found
  obtain ⟨_, versioned⟩ := AgentRef.mk.inj key
  have only : preferEnabled [agent] = [agent] := by
    by_cases enabled : agent.enabled = true <;> simp [preferEnabled, enabled]
  unfold getAgent
  rw [matching_present found, only]
  cases read : versionKey versioning agent.version with
  | ok key =>
      constructor
      · intro _
        simp only [maxVersion, read, Bind.bind, Except.bind]
        rfl
      · intro unkeyed
        exact absurd ⟨key, versioned ▸ read⟩ unkeyed
  | error error =>
      constructor
      · rintro ⟨key, known⟩
        rw [← versioned, read] at known
        cases known
      · intro _
        refine ⟨error, ?_⟩
        simp only [maxVersion, read, Bind.bind, Except.bind]

end Lookup

section Agents

variable {agent : AgentSpec}

theorem atomic_of_raised {request : AdminM Unit} {error : Exc}
    (raised : request configuration = (.error error, configuration)) :
    Atomic request configuration := by
  unfold Atomic
  rw [raised]
  exact Unchanged.refl configuration

theorem stored_present {before after : AgentRegistry} (same : SameAgents before after)
    (stored : after.agents = (before.setAgent agent).agents) :
    before.agents.find agent.ref = some agent := by
  rw [← same.specs, stored]
  exact Table.find_upsert_self before.agents agent

theorem setAgent_present {registry : AgentRegistry}
    (present : registry.agents.find agent.ref = some agent) :
    registry.setAgent agent = registry := by
  have table := Table.upsert_present present
  simp only [AgentRegistry.setAgent, table]

theorem registerAgent_default (valid : RoutesEnabled configuration.agents)
    (enabled : agent.enabled = true) (accepted : ¬ Rejected configuration.agents agent) :
    Atomic (registerAgent versioning fault agent true) configuration ↔
      fault agent.name agent.version = none ∨
        (configuration.agents.agents.find agent.ref = some agent ∧
          ∀ tag ∈ agent.routeTags, configuration.agents.route tag = some agent) := by
  obtain ⟨after, called, agents, set, gone, kept⟩ :=
    @register_default_spec versioning _ _ valid enabled accepted
  have written := @saved_agent_iff configuration fault _ _ _ _ called agents
  rw [registerAgent]
  refine written.trans ?_
  simp only [true_and]
  apply or_congr_right
  constructor
  · intro same
    refine ⟨stored_present same agents, ?_⟩
    intro tag listed
    rw [← same.routes, set tag listed]
  · rintro ⟨present, routed⟩
    rw [setAgent_present present] at agents
    refine ⟨fun ref => by rw [agents], ?_⟩
    intro tag
    by_cases listed : tag ∈ agent.routeTags
    · rw [set tag listed, routed tag listed]
    · apply kept tag listed
      -- A route of the version leads to the spec that is registered, which lists the tag.
      rintro ⟨holder, found, own⟩
      have offers := valid tag holder found
      have member := Table.mem_find offers.registered
      rw [own, present] at member
      cases member
      exact listed offers.lists

theorem registerAgent_plain {makeDefault : Bool} (valid : RoutesEnabled configuration.agents)
    (plain : (agent.enabled && makeDefault) = false) :
    Atomic (registerAgent versioning fault agent makeDefault) configuration ↔
      ((∀ previous, configuration.agents.agents.find agent.ref = some previous →
          ∀ tag ∈ previous.routeTags,
            legible versioning (configuration.agents.setAgent agent) tag = true) ∧
        fault agent.name agent.version = none) ∨
      (configuration.agents.agents.find agent.ref = some agent ∧
        Steady versioning configuration.agents agent) := by
  obtain ⟨outcome, after, called, agents, returned, routes⟩ :=
    @register_plain_total versioning _ _ _ valid plain
  have written := @saved_agent_iff configuration fault _ _ _ _ called agents
  rw [registerAgent]
  refine written.trans ?_
  rw [returned]
  apply or_congr_right
  constructor
  · intro same
    have present := stored_present same agents
    have each := routes agent present
    refine ⟨present, ?_⟩
    apply (steady_iff valid present (fun tag => (each tag).1) (fun tag => (each tag).2)).mp
    exact same.routes
  · rintro ⟨present, steady⟩
    have each := routes agent present
    rw [setAgent_present present] at agents
    refine ⟨fun ref => by rw [agents], ?_⟩
    exact (steady_iff valid present (fun tag => (each tag).1) (fun tag => (each tag).2)).mpr steady

variable {name version : PathSegment}

theorem unrouted {registry : AgentRegistry} (valid : RoutesEnabled registry)
    (present : registry.agents.find agent.ref = some agent) (off : agent.enabled = false)
    (tag : String) : ¬ RoutedTo registry agent.ref tag := by
  rintro ⟨holder, found, own⟩
  have offers := valid tag holder found
  have member := Table.mem_find offers.registered
  rw [own, present] at member
  cases member
  have enabled := offers.enabled
  rw [off] at enabled
  cases enabled

theorem disabled_same {before after : AgentRegistry} (valid : RoutesEnabled before)
    (present : before.agents.find agent.ref = some agent)
    (agents : after.agents = (before.setAgent (disabled agent)).agents)
    (idle : (∀ tag, ¬ RoutedTo before agent.ref tag) →
      after = before.setAgent (disabled agent)) :
    SameAgents before after ↔ agent.enabled = false := by
  constructor
  · intro same
    have kept := same.specs agent.ref
    have stored : after.agents.find agent.ref = some (disabled agent) := by
      rw [agents]
      exact Table.find_upsert_self _ (disabled agent)
    rw [stored, present] at kept
    exact (congrArg AgentSpec.enabled (Option.some.inj kept)).symm
  · intro off
    have still : disabled agent = agent := by
      cases agent
      cases off
      rfl
    rw [idle (unrouted valid present off), still, setAgent_present present]
    exact .refl _

theorem disableAgent_present (valid : RoutesEnabled configuration.agents)
    (found : configuration.agents.agents.find ⟨name, version⟩ = some agent)
    (keyed : Keyed versioning version) :
    Atomic (disableAgent versioning fault name version) configuration ↔
      ((∀ tag, RoutedTo configuration.agents agent.ref tag →
          legible versioning (configuration.agents.setAgent (disabled agent)) tag = true) ∧
        fault name version = none) ∨ agent.enabled = false := by
  have key : agent.ref = ⟨name, version⟩ := Table.find_key found
  obtain ⟨named, versioned⟩ := AgentRef.mk.inj key
  have present : configuration.agents.agents.find agent.ref = some agent := by
    rw [key, found]
  obtain ⟨answered, _⟩ := @getAgent_present versioning _ _ _ _ found
  obtain ⟨outcome, after, called, agents, returned, idle⟩ :=
    @retire_single versioning _ (fun agent registry => registry.setAgent (disabled agent)) _
      (versionGiven (some version)) _ (fun _ _ => rfl) (matching_present found)
  have run : disableAgent versioning fault name version configuration =
      (do inAgents (disable versioning name (some version))
          saveAgent fault (disabled agent)) configuration := by
    rw [disableAgent, bind_ok (get_run configuration), answered keyed,
      bind_ok (lift_run _ configuration), matching_present found, List.map_singleton, forM_single]
  have written := @saved_agent_iff configuration fault _ _ _ (disabled agent) called agents
  have asked : fault (disabled agent).name (disabled agent).version = fault name version := by
    rw [← named, ← versioned]
    rfl
  rw [returned, asked, disabled_same valid present agents idle] at written
  unfold Atomic at written ⊢
  rw [run]
  exact written

theorem disableAgent_atomic_iff (valid : RoutesEnabled configuration.agents) :
    Atomic (disableAgent versioning fault name version) configuration ↔
      ∀ agent, configuration.agents.agents.find ⟨name, version⟩ = some agent →
        agent.enabled = true → Keyed versioning version →
        (∀ tag, RoutedTo configuration.agents agent.ref tag →
          legible versioning (configuration.agents.setAgent (disabled agent)) tag = true) ∧
        fault name version = none := by
  cases found : configuration.agents.agents.find ⟨name, version⟩ with
  | none =>
      have missing := @getAgent_absent versioning _ _ _ found
      refine iff_of_true ?_ nofun
      apply atomic_of_raised
      rw [disableAgent, bind_ok (get_run configuration), missing, bind_run, lift_run]
  | some agent =>
      by_cases keyed : Keyed versioning version
      · rw [disableAgent_present valid found keyed]
        constructor
        · rintro carried other ⟨rfl⟩ enabled _
          rcases carried with both | off
          · exact both
          · rw [enabled] at off
            cases off
        · intro careful
          by_cases enabled : agent.enabled = true
          · exact Or.inl (careful agent rfl enabled keyed)
          · exact Or.inr (by simpa using enabled)
      · obtain ⟨error, unread⟩ := (@getAgent_present versioning _ _ _ _ found).2 keyed
        refine iff_of_true ?_ fun _ _ _ known => absurd known keyed
        apply atomic_of_raised
        rw [disableAgent, bind_ok (get_run configuration), unread, bind_run, lift_run]

theorem deregisterAgent_atomic_iff :
    Atomic (deregisterAgent versioning fault name version) configuration ↔
      ∀ agent, configuration.agents.agents.find ⟨name, version⟩ = some agent →
        (∀ tag, RoutedTo configuration.agents agent.ref tag →
          legible versioning (configuration.agents.popAgent agent.ref) tag = true) ∧
        fault name version = none := by
  cases found : configuration.agents.agents.find ⟨name, version⟩ with
  | none =>
      have missing : deregister versioning name (some version) configuration.agents =
          (.error (unknownAgent name), configuration.agents) := retire_nobody (exact_absent found)
      refine iff_of_true ?_ nofun
      apply atomic_of_raised
      rw [deregisterAgent, bind_ok (get_run configuration), bind_error (inAgents_run missing)]
  | some agent =>
      have key : agent.ref = ⟨name, version⟩ := Table.find_key found
      obtain ⟨named, versioned⟩ := AgentRef.mk.inj key
      have present : configuration.agents.agents.find agent.ref = some agent := by
        rw [key, found]
      obtain ⟨outcome, after, called, agents, returned, _⟩ :=
        @retire_single versioning _ (fun agent registry => registry.popAgent agent.ref) _
          (fun agent => (some version.1).all (agent.version = ·)) _ (fun _ _ => rfl)
          (exact_present found)
      have run : deregisterAgent versioning fault name version configuration =
          (do inAgents (deregister versioning name (some version))
              deleteAgent fault agent) configuration := by
        rw [deregisterAgent, bind_ok (get_run configuration), exact_present found, forM_single]
      have written := @deleted_agent_iff configuration fault _ _ _ _ present called agents
      rw [returned, named, versioned] at written
      unfold Atomic at written ⊢
      rw [run]
      refine written.trans ?_
      simp

section SetDefault

variable (found : configuration.agents.agents.find ⟨name, version⟩ = some agent)
  (keyed : Keyed versioning version)

include found keyed

theorem setDefaultAgent_run : setDefaultAgent versioning fault name version configuration =
    (do inAgents (setDefault versioning name version)
        saveAgent fault agent) configuration := by
  obtain ⟨answered, _⟩ := @getAgent_present versioning _ _ _ _ found
  rw [setDefaultAgent, bind_ok (get_run configuration), answered keyed,
    bind_ok (lift_run _ configuration)]

theorem setDefault_run : setDefault versioning name version configuration.agents =
    (if !agent.enabled then throw (disabledAgent name version)
      else do
        checkRoutes agent.name agent.routeTags
        setRoutes agent agent.routeTags) configuration.agents := by
  obtain ⟨answered, _⟩ := @getAgent_present versioning _ _ _ _ found
  rw [setDefault, Registry.bind_ok (get_run configuration.agents), answered keyed,
    Registry.bind_ok (lift_run _ configuration.agents)]

omit keyed in
theorem rerouted_same {after : AgentRegistry}
    (rerouted : Rerouted (· ∈ agent.routeTags) (fun _ => some agent) configuration.agents after) :
    after.agents = (configuration.agents.setAgent agent).agents ∧
      (SameAgents configuration.agents after ↔
        ∀ tag ∈ agent.routeTags, configuration.agents.route tag = some agent) := by
  have key : agent.ref = ⟨name, version⟩ := Table.find_key found
  have present : configuration.agents.agents.find agent.ref = some agent := by rw [key, found]
  refine ⟨by rw [setAgent_present present, rerouted.agents], ?_⟩
  constructor
  · intro same tag listed
    rw [← same.routes, rerouted.set tag listed]
  · intro routed
    refine ⟨fun ref => by rw [rerouted.agents], ?_⟩
    intro tag
    by_cases listed : tag ∈ agent.routeTags
    · rw [rerouted.set tag listed, routed tag listed]
    · exact rerouted.kept tag listed

theorem setDefaultAgent_enabled (enabled : agent.enabled = true) :
    Atomic (setDefaultAgent versioning fault name version) configuration ↔
      (¬ Rejected configuration.agents agent → fault name version = none ∨
        ∀ tag ∈ agent.routeTags, configuration.agents.route tag = some agent) := by
  have own := setDefault_run found keyed
  simp only [enabled, Bool.not_true, Bool.false_eq_true, if_false] at own
  unfold Atomic
  rw [setDefaultAgent_run found keyed]
  rcases @checkRoutes_spec configuration.agents agent.name agent.routeTags with
    ⟨passed, free⟩ | ⟨⟨error, refused⟩, rejected⟩
  · obtain ⟨after, set, rerouted⟩ := setRoutes_spec agent agent.routeTags configuration.agents
    rw [Registry.bind_ok passed, set] at own
    obtain ⟨agents, same⟩ := rerouted_same found rerouted
    have accepted : ¬ Rejected configuration.agents agent := by
      rintro ⟨tag, listed, existing, routed, other⟩
      exact other (free tag listed existing routed)
    have key : agent.ref = ⟨name, version⟩ := Table.find_key found
    obtain ⟨named, versioned⟩ := AgentRef.mk.inj key
    have written := @saved_agent_iff configuration fault _ _ _ _ own agents
    rw [same, named, versioned] at written
    unfold Atomic at written
    refine written.trans ?_
    simp only [true_and, accepted, not_false_eq_true, forall_const]
  · rw [Registry.bind_error refused] at own
    rw [bind_error (inAgents_run own)]
    exact iff_of_true (Unchanged.refl configuration) fun accepted => absurd rejected accepted

end SetDefault

theorem setDefaultAgent_atomic_iff :
    Atomic (setDefaultAgent versioning fault name version) configuration ↔
      ∀ agent, configuration.agents.agents.find ⟨name, version⟩ = some agent →
        agent.enabled = true → Keyed versioning version →
        ¬ Rejected configuration.agents agent → fault name version = none ∨
          ∀ tag ∈ agent.routeTags, configuration.agents.route tag = some agent := by
  cases found : configuration.agents.agents.find ⟨name, version⟩ with
  | none =>
      have missing := @getAgent_absent versioning _ _ _ found
      refine iff_of_true ?_ nofun
      apply atomic_of_raised
      rw [setDefaultAgent, bind_ok (get_run configuration), missing, bind_run, lift_run]
  | some agent =>
      by_cases keyed : Keyed versioning version
      · by_cases enabled : agent.enabled = true
        · rw [setDefaultAgent_enabled found keyed enabled]
          constructor
          · rintro careful other ⟨rfl⟩ _ _
            exact careful
          · intro careful
            exact careful agent rfl enabled keyed
        · have off : agent.enabled = false := by simpa using enabled
          have own := setDefault_run found keyed
          rw [off] at own
          unfold Atomic
          rw [setDefaultAgent_run found keyed, bind_error (inAgents_run own)]
          refine iff_of_true (Unchanged.refl configuration) ?_
          rintro other ⟨rfl⟩ on
          exact absurd on enabled
      · obtain ⟨error, unread⟩ := (@getAgent_present versioning _ _ _ _ found).2 keyed
        refine iff_of_true ?_ fun _ _ _ known => absurd known keyed
        apply atomic_of_raised
        rw [setDefaultAgent, bind_ok (get_run configuration), unread, bind_run, lift_run]

end Agents

section Tools

variable {name : PathSegment}

theorem disableTool_atomic_iff :
    Atomic (disableTool fault name) configuration ↔
      ∀ tool, configuration.tools.find name = some tool → tool.enabled = true →
        fault tool.name tool.version = none := by
  cases found : configuration.tools.find name with
  | none =>
      have missing : getTool configuration.tools name = .error (ToolReload.unknownTool name) := by
        rw [getTool, found]
      refine iff_of_true ?_ nofun
      apply atomic_of_raised
      rw [disableTool, bind_ok (get_run configuration), missing, bind_run, lift_run]
  | some tool =>
      have key : tool.name = name := Table.find_key found
      by_cases enabled : tool.enabled = true
      · have answered : getTool configuration.tools name = .ok tool := by
          simp only [getTool, found, enabled, if_true]
        let off : ToolSpec := { tool with enabled := false }
        have withdrawn : inTools (withdrawTool name) configuration =
            (.ok off, { configuration with tools := configuration.tools.upsert off }) := by
          simp only [inTools, withdrawTool, bind_run, get_run, found, modify_run, pure_run, off]
        have run : disableTool fault name configuration =
            (do inTools (ToolReload.register off); saveTool fault off) configuration := by
          rw [disableTool, bind_ok (get_run configuration), answered,
            bind_ok (lift_run _ configuration), bind_ok withdrawn]
          rfl
        have written := @saved_tool_iff configuration fault off
        have differs : configuration.tools.find off.name ≠ some off := by
          show configuration.tools.find tool.name ≠ some off
          rw [key, found]
          intro same
          have on := congrArg ToolSpec.enabled (Option.some.inj same)
          rw [enabled] at on
          cases on
        unfold Atomic at written ⊢
        rw [run]
        refine written.trans ?_
        simp only [differs, or_false, Option.some.injEq, forall_eq', enabled, true_implies]
        rfl
      · have off : tool.enabled = false := by simpa using enabled
        have refused : getTool configuration.tools name = .error (disabledTool name) := by
          simp only [getTool, found, off, Bool.false_eq_true, if_false]
        refine iff_of_true ?_ ?_
        · apply atomic_of_raised
          rw [disableTool, bind_ok (get_run configuration), refused, bind_run, lift_run]
        · rintro other ⟨rfl⟩ on
          exact absurd on enabled

end Tools

section Defaults

variable {registry : SkillRegistry}

variable (versioning) in
def answers (registry : SkillRegistry) (name : String) : Bool :=
  match newest versioning id (registry.enabledVersions name) with
  | .ok _ => true
  | .error _ => false

theorem selectDefault_total (registry : SkillRegistry) (name : String) :
    ∃ outcome after, Skills.selectDefault versioning name registry = (outcome, after) ∧
      after.skills = registry.skills ∧
      (outcome = .ok () ↔ answers versioning registry name = true) ∧
      (answers versioning registry name = false → after = registry) := by
  simp only [Skills.selectDefault, bind_run, get_run, lift_run, answers]
  cases newest versioning id (registry.enabledVersions name) with
  | error error => exact ⟨.error error, registry, rfl, rfl, by simp, fun _ => rfl⟩
  | ok best =>
      cases best with
      | none => exact ⟨.ok (), registry, rfl, rfl, by simp, fun _ => rfl⟩
      | some version => exact ⟨.ok (), registry.setDefault name version, rfl, rfl, by simp, by simp⟩

def selects (registry : SkillRegistry) (skill : SkillSpec) (makeDefault : Bool) : Bool :=
  if skill.enabled then !makeDefault && (registry.default skill.name).isNone
  else registry.default skill.name = some skill.version

/-- A registration that raises leaves another spec or another default than before. -/
theorem register_total (skill : SkillSpec) (makeDefault : Bool) (sound : Defaulted registry) :
    ∃ outcome after, Skills.register versioning skill makeDefault registry = (outcome, after) ∧
      after.skills = (registry.setSkill skill).skills ∧
      (outcome = .ok () ↔ (selects registry skill makeDefault = true →
        answers versioning (registry.setSkill skill) skill.name = true)) ∧
      (SameSkills registry after → outcome = .ok ()) := by
  simp only [Skills.register, bind_run, modify_run, get_run, selects]
  have default : (registry.setSkill skill).default skill.name = registry.default skill.name := rfl
  by_cases enabled : skill.enabled = true
  · simp only [enabled, Bool.not_true, Bool.false_eq_true, if_false, if_true]
    by_cases asked : makeDefault = true
    · rw [if_pos asked]
      refine ⟨.ok (), _, rfl, rfl, by simp [asked], fun _ => rfl⟩
    · by_cases held : (registry.default skill.name).isNone = true
      · obtain ⟨outcome, after, called, skills, returned, _⟩ :=
          @selectDefault_total versioning (registry.setSkill skill) skill.name
        rw [if_neg asked, if_pos (default ▸ held)]
        refine ⟨outcome, after, called, skills, by simp [returned, asked, held], ?_⟩
        intro same
        -- The version is enabled, so a registry that held it would have a default.
        have stored := same.specs skill.ref
        rw [skills, Skills.find_setSkill, if_pos rfl] at stored
        exact absurd ⟨skill, stored.symm, enabled⟩
          (sound.missing skill.name skill.version (Option.isNone_iff_eq_none.mp held))
      · rw [if_neg asked, if_neg (default ▸ held)]
        exact ⟨.ok (), _, rfl, rfl, by simp [held], fun _ => rfl⟩
  · have off : skill.enabled = false := by simpa using enabled
    simp only [off, Bool.not_false, if_true, Bool.false_eq_true, if_false, decide_eq_true_eq]
    by_cases held : registry.default skill.name = some skill.version
    · obtain ⟨outcome, after, called, skills, returned, idle⟩ :=
        @selectDefault_total versioning ((registry.setSkill skill).popDefault skill.name) skill.name
      have same : answers versioning ((registry.setSkill skill).popDefault skill.name) skill.name =
          answers versioning (registry.setSkill skill) skill.name := rfl
      rw [same] at returned idle
      rw [if_pos (default.trans held), bind_ok (modify_run _ _)]
      refine ⟨outcome, after, called, skills, by simp [returned, held], ?_⟩
      intro unchanged
      rw [returned]
      by_contra raised
      -- The default was popped, and no other one was elected.
      have lost := unchanged.defaults skill.name
      rw [idle (by simpa using raised), Skills.SkillRegistry.default_popDefault, if_pos rfl,
        held] at lost
      cases lost
    · rw [if_neg (default ▸ held)]
      exact ⟨.ok (), _, rfl, rfl, by simp [held], fun _ => rfl⟩

theorem disable_total {name version : String} {skill : SkillSpec} (sound : Defaulted registry)
    (found : registry.skills.find (name, version) = some skill) :
    let off := { skill with enabled := false }
    ∃ outcome after, Skills.disable versioning name (some version) registry = (outcome, after) ∧
      after.skills = (registry.setSkill off).skills ∧
      (∀ changed, outcome = .ok changed → changed = [off]) ∧
      ((∃ changed, outcome = .ok changed) ↔ (registry.default name = some version →
        answers versioning (registry.setSkill off) name = true)) ∧
      (skill.enabled = false → after = registry ∧ outcome = .ok [off]) := by
  intro off
  have key : skill.ref = (name, version) := Table.find_key found
  obtain ⟨named, versioned⟩ := Prod.mk.inj key
  have only : Skills.matching registry name (some version) = [skill] := by
    refine Table.filter_keyed found (by simp [named, versioned]) ?_
    intro other _ holds
    simpa [SkillSpec.ref] using holds
  have default : (registry.setSkill off).default name = registry.default name := rfl
  have asked : (registry.default name).any [off.version].contains = true ↔
      registry.default name = some version := by
    show (registry.default name).any [skill.version].contains = true ↔ _
    rw [versioned]
    cases registry.default name <;> simp
  -- What is disabled already is no default, and its spec stays.
  have idle (disabled : skill.enabled = false) : registry.default name ≠ some version ∧
      registry.setSkill off = registry := by
    constructor
    · intro held
      obtain ⟨stored, present, on⟩ := sound.offered name version held
      rw [found] at present
      cases present
      rw [disabled] at on
      cases on
    · have still : off = skill := by
        cases skill
        cases disabled
        rfl
      have table := Table.upsert_present (show registry.skills.find skill.ref = some skill from
        key ▸ found)
      rw [still, SkillRegistry.setSkill, table]
  have run : Skills.disable versioning name (some version) registry =
      (do Skills.withdrawDefault versioning name [off.version]
          return [off]) (registry.setSkill off) := by
    simp only [Skills.disable, bind_run, get_run, modify_run, only, List.map_cons, List.map_nil,
      List.foldl_cons, List.foldl_nil, List.isEmpty_cons, Bool.false_eq_true, if_false, off]
  rw [run]
  simp only [Skills.withdrawDefault, bind_run, get_run, default]
  by_cases held : registry.default name = some version
  · obtain ⟨outcome, after, called, skills, returned, _⟩ :=
      @selectDefault_total versioning ((registry.setSkill off).popDefault name) name
    have same : answers versioning ((registry.setSkill off).popDefault name) name =
        answers versioning (registry.setSkill off) name := rfl
    rw [same] at returned
    rw [if_pos (asked.mpr held), bind_ok (modify_run _ _), called]
    cases outcome with
    | error error =>
        refine ⟨.error error, after, rfl, skills, (fun _ same => by cases same), ?_, ?_⟩
        · simp only [reduceCtorEq, exists_false, held, true_implies, false_iff]
          intro answered
          cases returned.mpr answered
        · intro disabled
          exact absurd held (idle disabled).1
    | ok value =>
        refine ⟨.ok [off], after, rfl, skills, ?_, ?_, ?_⟩
        · rintro changed ⟨rfl⟩
          rfl
        · simp [held, returned.mp rfl]
        · intro disabled
          exact absurd held (idle disabled).1
  · rw [if_neg (asked.not.mpr held)]
    refine ⟨.ok [off], registry.setSkill off, rfl, rfl, ?_, by simp [held], ?_⟩
    · rintro changed ⟨rfl⟩
      rfl
    · intro disabled
      exact ⟨(idle disabled).2, rfl⟩

end Defaults

section Skills

theorem carried_skill {after : SkillRegistry} {skill : SkillSpec}
    (stored : after.skills = (configuration.skills.setSkill skill).skills) :
    Carried configuration { configuration with
      skills := after, skillRows := configuration.skillRows.upsert skill } := by
  apply carried_skills
  intro ref
  rw [stored, Skills.find_setSkill]
  by_cases own : ref = skill.ref
  · subst own
    left
    rw [if_pos rfl, Table.find_upsert_self]
  · right
    rw [if_neg own, Table.find_upsert_other _ own]
    exact ⟨rfl, rfl⟩

theorem publishSkill_atomic_iff {loading : Loading} {skill : SkillPublishRequest}
    (sound : Defaulted configuration.skills) :
    Atomic (publishSkill loading versioning fault skill) configuration ↔
      ∀ verified, verifiedArtifact loading skill.artifact = .ok verified →
        conflicts configuration.skills verified = false →
        fault verified.name verified.version = none →
        selects configuration.skills (publishedSpec skill verified) skill.makeDefault = true →
          answers versioning (configuration.skills.setSkill (publishedSpec skill verified))
            verified.name = true := by
  unfold Atomic
  simp only [publishSkill, SkillPublication.publishSkill]
  cases inspected : verifiedArtifact loading skill.artifact with
  | error error =>
      simp only [reduceCtorEq, false_implies, implies_true, iff_true]
      exact Unchanged.refl configuration
  | ok verified =>
      simp only [Except.toOption, Option.bind_some, Except.ok.injEq, forall_eq']
      by_cases clash : conflicts configuration.skills verified = true
      · rw [if_pos clash]
        simp only [clash, Bool.true_eq_false, false_implies, iff_true]
        exact Unchanged.refl configuration
      · rw [if_neg clash]
        have fresh : conflicts configuration.skills verified = false := by simpa using clash
        cases strike : fault verified.name verified.version with
        | some error =>
            simp only [reduceCtorEq, false_implies, implies_true, iff_true]
            exact Unchanged.refl configuration
        | none =>
            obtain ⟨outcome, after, called, skills, returned, kept⟩ := @register_total versioning _
              (publishedSpec skill verified) skill.makeDefault sound
            simp only [fresh, true_implies, called]
            cases outcome with
            | ok value =>
                refine iff_of_true (carried_skill skills) ?_
                exact returned.mp rfl
            | error error =>
                refine iff_of_false ?_ ?_
                · intro unchanged
                  cases kept unchanged.skills
                · intro answered
                  cases returned.mpr answered

theorem disableSkill_atomic_iff {name version : PathSegment}
    (sound : Defaulted configuration.skills) :
    Atomic (disableSkill versioning fault name version) configuration ↔
      ∀ skill, configuration.skills.skills.find (name, version) = some skill →
        skill.enabled = true →
        (configuration.skills.default name = some version.1 →
          answers versioning (configuration.skills.setSkill { skill with enabled := false })
            name = true) ∧
        fault name version = none := by
  cases found : configuration.skills.skills.find (name.1, version.1) with
  | none =>
      have nobody : Skills.matching configuration.skills name (some version.1) = [] := by
        rw [Skills.matching, List.filter_eq_nil_iff]
        intro other member holds
        rw [Table.find_none] at found
        apply found
        have own : other.ref = (name.1, version.1) := by simpa [SkillSpec.ref] using holds
        exact own ▸ List.mem_map_of_mem member
      have missing : Skills.disable versioning name (some version) configuration.skills =
          (.error (Skills.skillNotFound name), configuration.skills) := by
        simp only [Skills.disable, bind_run, get_run, modify_run, nobody, List.map_nil,
          List.foldl_nil, List.isEmpty_nil, if_true, throw_run]
      refine iff_of_true ?_ fun _ same => by cases same
      apply atomic_of_raised
      rw [disableSkill, bind_error (inSkills_run missing)]
  | some skill =>
      have key : skill.ref = (name.1, version.1) := Table.find_key found
      obtain ⟨named, versioned⟩ := Prod.mk.inj key
      obtain ⟨outcome, after, called, skills, listed, returned, idle⟩ :=
        @disable_total versioning _ _ _ _ sound found
      simp only [Option.some.injEq, forall_eq']
      -- The memory is as before only where the version was not enabled.
      have same : SameSkills configuration.skills after ↔ skill.enabled = false := by
        constructor
        · intro same
          have own : skill.ref = ({ skill with enabled := false } : SkillSpec).ref := rfl
          have present : configuration.skills.skills.find skill.ref = some skill := key ▸ found
          have stored := same.specs skill.ref
          rw [skills, Skills.find_setSkill, if_pos own, present] at stored
          exact (congrArg SkillSpec.enabled (Option.some.inj stored)).symm
        · intro off
          rw [(idle off).1]
          exact .refl _
      unfold Atomic
      cases outcome with
      | error error =>
          rw [disableSkill, bind_error (inSkills_run called)]
          simp only [unchanged_skills, same]
          constructor
          · intro off on
            rw [off] at on
            cases on
          · intro careful
            by_contra enabled
            have both := careful (by simpa using enabled)
            obtain ⟨changed, impossible⟩ := returned.mpr both.1
            cases impossible
      | ok changed =>
          have answered := returned.mp ⟨changed, rfl⟩
          rw [disableSkill, bind_ok (inSkills_run called), listed changed rfl, forM_single,
            saveSkill, bind_run]
          have asked : fault skill.name skill.version = fault name version := by
            rw [named, versioned]
          simp only [asked]
          cases strike : fault name version with
          | some error =>
              simp only [StatefulCalls.point_some, unchanged_skills, same, reduceCtorEq, and_false,
                imp_false, Bool.not_eq_true]
          | none =>
              simp only [StatefulCalls.point_none, modify_run, and_true]
              refine iff_of_true (carried_skill skills) fun _ => answered

end Skills

section Requests

/-- What keeps a request atomic: the write does not fail after the registry has changed, no
election raises, or there is nothing that the request changes in the registry. -/
def Careful (loading : Loading) (versioning : Versioning) (fault : Fault)
    (configuration : Configuration) : Request → Prop
  | .registerAgent agent makeDefault =>
      if agent.enabled && makeDefault then
        Rejected configuration.agents agent ∨ fault agent.name agent.version = none ∨
          (configuration.agents.agents.find agent.ref = some agent ∧
            ∀ tag ∈ agent.routeTags, configuration.agents.route tag = some agent)
      else
        ((∀ previous, configuration.agents.agents.find agent.ref = some previous →
            ∀ tag ∈ previous.routeTags,
              legible versioning (configuration.agents.setAgent agent) tag = true) ∧
          fault agent.name agent.version = none) ∨
        (configuration.agents.agents.find agent.ref = some agent ∧
          Steady versioning configuration.agents agent)
  | .disableAgent name version =>
      ∀ agent, configuration.agents.agents.find ⟨name, version⟩ = some agent →
        agent.enabled = true → Keyed versioning version →
        (∀ tag, RoutedTo configuration.agents agent.ref tag →
          legible versioning (configuration.agents.setAgent (disabled agent)) tag = true) ∧
        fault name version = none
  | .deregisterAgent name version =>
      ∀ agent, configuration.agents.agents.find ⟨name, version⟩ = some agent →
        (∀ tag, RoutedTo configuration.agents agent.ref tag →
          legible versioning (configuration.agents.popAgent agent.ref) tag = true) ∧
        fault name version = none
  | .setDefaultAgent name version =>
      ∀ agent, configuration.agents.agents.find ⟨name, version⟩ = some agent →
        agent.enabled = true → Keyed versioning version →
        ¬ Rejected configuration.agents agent → fault name version = none ∨
          ∀ tag ∈ agent.routeTags, configuration.agents.route tag = some agent
  | .registerTool tool =>
      fault tool.name tool.version = none ∨ configuration.tools.find tool.name = some tool
  | .disableTool name =>
      ∀ tool, configuration.tools.find name = some tool → tool.enabled = true →
        fault tool.name tool.version = none
  | .publishSkill skill =>
      ∀ verified, verifiedArtifact loading skill.artifact = .ok verified →
        conflicts configuration.skills verified = false →
        fault verified.name verified.version = none →
        selects configuration.skills (publishedSpec skill verified) skill.makeDefault = true →
          answers versioning (configuration.skills.setSkill (publishedSpec skill verified))
            verified.name = true
  | .disableSkill name version =>
      ∀ skill, configuration.skills.skills.find (name, version) = some skill →
        skill.enabled = true →
        (configuration.skills.default name = some version.1 →
          answers versioning (configuration.skills.setSkill { skill with enabled := false })
            name = true) ∧
        fault name version = none

theorem registerAgent_atomic_iff {loading : Loading} {agent : AgentSpec} {makeDefault : Bool}
    (valid : RoutesEnabled configuration.agents) :
    Atomic (registerAgent versioning fault agent makeDefault) configuration ↔
      Careful loading versioning fault configuration (.registerAgent agent makeDefault) := by
  simp only [Careful]
  by_cases taken : (agent.enabled && makeDefault) = true
  · have both := taken
    rw [Bool.and_eq_true] at both
    obtain ⟨enabled, rfl⟩ := both
    rw [if_pos taken]
    by_cases rejected : Rejected configuration.agents agent
    · obtain ⟨error, refused⟩ := @register_refused versioning _ _ enabled rejected
      refine iff_of_true ?_ (Or.inl rejected)
      apply atomic_of_raised
      rw [registerAgent, bind_error (inAgents_run refused)]
    · rw [registerAgent_default valid enabled rejected]
      simp only [rejected, false_or]
  · have plain : (agent.enabled && makeDefault) = false := by simpa using taken
    rw [if_neg taken, registerAgent_plain valid plain]

/-- An admin request on a configuration whose registries agree with the database is atomic
exactly where it is careful. -/
theorem admin_atomic_iff (loading : Loading) (versioning : Versioning) (fault : Fault)
    (configuration : Configuration) (agrees : Agrees configuration) (request : Request) :
    Atomic (handle loading versioning fault request) configuration ↔
      Careful loading versioning fault configuration request := by
  cases request with
  | registerAgent agent makeDefault => exact registerAgent_atomic_iff agrees.routes
  | disableAgent name version => exact disableAgent_atomic_iff agrees.routes
  | deregisterAgent name version => exact deregisterAgent_atomic_iff
  | setDefaultAgent name version => exact setDefaultAgent_atomic_iff
  | registerTool tool => exact saved_tool_iff
  | disableTool name => exact disableTool_atomic_iff
  | publishSkill skill => exact publishSkill_atomic_iff agrees.defaults
  | disableSkill name version => exact disableSkill_atomic_iff agrees.defaults

end Requests

section Sample

def echoServed : Configuration where
  agents :=
    { agents := ⟨[echoAgent "1.0.0" ["support"]], echo_alone⟩
      routes := ⟨[("support", echoAgent "1.0.0" ["support"])], by decide⟩ }
  agentRows := ⟨[echoAgent "1.0.0" ["support"]], echo_alone⟩
  tools := Table.empty
  toolRows := Table.empty
  skills := SkillRegistry.empty
  skillRows := Table.empty

theorem echoServed_agrees : Agrees echoServed where
  agents := fun _ => rfl
  routes := by
    intro tag agent found
    have row := (mem_routes echoServed.agents tag agent).mpr found
    simp only [echoServed, List.mem_singleton, Prod.mk.injEq] at row
    obtain ⟨rfl, rfl⟩ := row
    exact ⟨List.mem_singleton_self _, rfl, List.mem_singleton_self _⟩
  tools := nofun
  skills := fun _ => rfl
  defaults := ⟨nofun, fun _ _ _ ⟨_, found, _⟩ => nomatch found⟩

def disableEcho : Request := .disableAgent ⟨"echo", by decide⟩ ⟨"1.0.0", by decide⟩

def outage : Exc := ⟨.exception, "OperationalError", "server closed the connection"⟩

/-- The row cannot be written, and the agent stays disabled in the memory. -/
theorem failed_save_leaves_disabled :
    Agrees echoServed ∧
      ¬ Atomic (handle SkillPublication.reportLoading asciiVersioning (fun _ _ => some outage)
        disableEcho) echoServed := by
  refine ⟨echoServed_agrees, ?_⟩
  intro written
  have careful := (disableAgent_atomic_iff echoServed_agrees.routes).mp written
    (echoAgent "1.0.0" ["support"]) (by decide) rfl (asciiVersioning_reads _)
  cases careful.2

theorem admin_atomic_iff_echo :
    Atomic (handle SkillPublication.reportLoading asciiVersioning (fun _ _ => none) disableEcho)
      echoServed := by
  rw [admin_atomic_iff _ _ _ _ echoServed_agrees]
  intro agent found _ _
  refine ⟨?_, rfl⟩
  intro tag _
  have present : echoServed.agents.agents.find ⟨"echo", "1.0.0"⟩ =
      some (echoAgent "1.0.0" ["support"]) := by decide
  have same := present.symm.trans found
  cases same
  -- Nobody is left to be compared.
  rfl

end Sample

end AgentTaskPlatform.AdminAtomicity
