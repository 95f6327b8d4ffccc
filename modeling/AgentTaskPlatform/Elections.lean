import AgentTaskPlatform.RouteTable

/-!
Elections of routes that may meet a version without a key: how far the loops of the
registry come, what they leave where they raise, and when they return.
-/

namespace AgentTaskPlatform.Elections

open KeyedTable Registry RouteTable

section Legibility

variable (versioning : Versioning)

def legible (registry : AgentRegistry) (routeTag : String) : Bool :=
  match maxVersion versioning (registry.enabledFor routeTag) with
  | .ok _ => true
  | .error _ => false

variable {versioning} {registry : AgentRegistry} {routeTag : String}

theorem legible_agents {other : AgentRegistry} (same : other.agents = registry.agents) :
    legible versioning other = legible versioning registry := by
  funext tag
  simp only [legible, AgentRegistry.enabledFor, same]

theorem maxVersion_legible (read : legible versioning registry routeTag = true) :
    maxVersion versioning (registry.enabledFor routeTag) =
      .ok (latest versioning registry routeTag) := by
  unfold legible at read
  cases found : maxVersion versioning (registry.enabledFor routeTag) with
  | ok best => simp [latest, found]
  | error error => simp [found] at read

theorem maxVersion_illegible (unread : legible versioning registry routeTag = false) :
    ∃ error, maxVersion versioning (registry.enabledFor routeTag) = .error error := by
  unfold legible at unread
  cases found : maxVersion versioning (registry.enabledFor routeTag) with
  | ok best => simp [found] at unread
  | error error => exact ⟨error, rfl⟩

theorem latest_exists (read : legible versioning registry routeTag = true) {agent : AgentSpec}
    (offers : Offers registry agent routeTag) :
    ∃ elected, latest versioning registry routeTag = some elected := by
  have found := maxVersion_legible read
  have member := mem_enabledFor.mpr offers
  cases elected : latest versioning registry routeTag with
  | some newest => exact ⟨newest, rfl⟩
  | none =>
      rw [elected] at found
      cases enabled : registry.enabledFor routeTag with
      | nil =>
          rw [enabled] at member
          cases member
      | cons first rest =>
          -- `max` of a list that is not empty answers an item or raises.
          rw [enabled] at found
          cases read : versionKey versioning first.version with
          | error error =>
              simp only [maxVersion, read] at found
              cases found
          | ok key =>
              cases best : maxVersionFrom versioning first key rest with
              | error error =>
                  simp only [maxVersion, read, Bind.bind, Except.bind, best] at found
                  cases found
              | ok chosen =>
                  simp only [maxVersion, read, Bind.bind, Except.bind, best] at found
                  cases found

end Legibility

section Loops

variable {versioning : Versioning}

theorem elect_legible {registry : AgentRegistry} {routeTag : String}
    (read : legible versioning registry routeTag = true) :
    ∃ after, elect versioning routeTag registry = (.ok (), after) ∧
      Rerouted (· = routeTag) (fun tag => (latest versioning registry tag).or (registry.route tag))
        registry after := by
  have called : latestEnabledForTag versioning routeTag registry =
      (.ok (latest versioning registry routeTag), registry) := by
    rw [← maxVersion_legible read]
    rfl
  exact elect_answered called

theorem elect_illegible {registry : AgentRegistry} {routeTag : String}
    (unread : legible versioning registry routeTag = false) :
    ∃ error, elect versioning routeTag registry = (.error error, registry) := by
  obtain ⟨error, raised⟩ := maxVersion_illegible unread
  have called : latestEnabledForTag versioning routeTag registry = (.error error, registry) := by
    rw [← raised]
    rfl
  exact ⟨error, bind_error called _⟩

/-- The elections reach the tags before the first one that is not legible, and return
where there is none. -/
theorem electAll_total (tags : List String) (registry : AgentRegistry) :
    ∃ outcome after, electAll versioning tags registry = (outcome, after) ∧
      (outcome = .ok () ↔ ∀ tag ∈ tags, legible versioning registry tag = true) ∧
      Rerouted (· ∈ tags.takeWhile (legible versioning registry))
        (fun tag => (latest versioning registry tag).or (registry.route tag)) registry after := by
  induction tags generalizing registry with
  | nil => exact ⟨.ok (), registry, rfl, by simp, .none registry (by simp)⟩
  | cons routeTag rest ih =>
      by_cases read : legible versioning registry routeTag = true
      · obtain ⟨middle, elected, first⟩ := elect_legible read
        obtain ⟨outcome, after, called, returned, later⟩ := ih middle
        rw [legible_agents first.agents] at returned later
        simp only [elected_stable first] at later
        refine ⟨outcome, after, ?_, ?_, (first.then later).mark fun tag => ?_⟩
        · unfold electAll
          rw [bind_ok elected]
          exact called
        · rw [returned, List.forall_mem_cons]
          simp [read]
        · simp [read]
      · have unread : legible versioning registry routeTag = false := by simpa using read
        obtain ⟨error, raised⟩ := elect_illegible unread
        refine ⟨.error error, registry, ?_, ?_, .none registry ?_⟩
        · unfold electAll
          rw [bind_error raised]
        · simp [unread]
        · simp [unread]

/-- The loop over the routes of a withdrawn version keeps the agents; it returns where the
elections answer. -/
theorem reelectRoutes_total (ref : AgentRef) (items : List (String × AgentSpec))
    (registry : AgentRegistry) :
    ∃ outcome after, reelectRoutes versioning ref items registry = (outcome, after) ∧
      after.agents = registry.agents ∧
      (outcome = .ok () ↔ ∀ tag, routedTo ref items tag → legible versioning registry tag = true) ∧
      ((∀ tag, ¬ routedTo ref items tag) → after = registry) := by
  induction items generalizing registry with
  | nil => exact ⟨.ok (), registry, rfl, rfl, by simp [routedTo], fun _ => rfl⟩
  | cons item rest ih =>
      obtain ⟨routeTag, routed⟩ := item
      by_cases hit : routed.ref = ref
      · have popped : (registry.popRoute routeTag).agents = registry.agents := rfl
        have here : routedTo ref ((routeTag, routed) :: rest) routeTag :=
          (routedTo_cons routeTag).mpr (Or.inl ⟨rfl, hit⟩)
        have poppedCall : (modify fun registry => registry.popRoute routeTag : RegistryM PUnit)
            registry = (.ok (), registry.popRoute routeTag) := rfl
        by_cases read : legible versioning (registry.popRoute routeTag) routeTag = true
        · obtain ⟨middle, elected, first⟩ := elect_legible read
          have agents : middle.agents = registry.agents := first.agents
          obtain ⟨outcome, after, called, same, returned, _⟩ := ih middle
          refine ⟨outcome, after, ?_, same.trans agents, ?_, fun none => absurd here (none routeTag)⟩
          · simp only [reelectRoutes, hit, if_true]
            rw [bind_ok poppedCall, bind_ok elected]
            exact called
          · rw [legible_agents popped] at read
            rw [returned, legible_agents agents]
            constructor
            · intro later tag marked
              rcases (routedTo_cons tag).mp marked with ⟨rfl, _⟩ | inside
              · exact read
              · exact later tag inside
            · intro all tag inside
              exact all tag ((routedTo_cons tag).mpr (Or.inr inside))
        · have unread : legible versioning (registry.popRoute routeTag) routeTag = false := by
            simpa using read
          obtain ⟨error, raised⟩ := elect_illegible unread
          refine ⟨.error error, registry.popRoute routeTag, ?_, rfl, ?_,
            fun none => absurd here (none routeTag)⟩
          · simp only [reelectRoutes, hit, if_true]
            rw [bind_ok poppedCall, bind_error raised]
          · rw [legible_agents popped] at unread
            constructor
            · intro returned
              cases returned
            · intro all
              rw [all routeTag here] at unread
              cases unread
      · obtain ⟨outcome, after, called, same, returned, idle⟩ := ih registry
        have others : ∀ tag, routedTo ref ((routeTag, routed) :: rest) tag ↔
            routedTo ref rest tag := by
          intro tag
          simp [routedTo_cons, hit]
        refine ⟨outcome, after, ?_, same, ?_, ?_⟩
        · simp only [reelectRoutes, hit, if_false]
          exact called
        · simp only [returned, others]
        · simp only [others]
          exact idle

end Loops

section Retirement

variable {versioning : Versioning} {registry : AgentRegistry}
  {withdraw : AgentSpec → AgentRegistry → AgentRegistry}

/-- One version is withdrawn: it is gone from the agents whether its routes are elected
again or an election raises. -/
theorem retire_single {name : String} {wanted : AgentSpec → Bool} {agent : AgentSpec}
    (routes : ∀ agent registry, (withdraw agent registry).routes = registry.routes)
    (only : (registry.agents.rows.filter fun agent => agent.name = name && wanted agent) = [agent]) :
    ∃ outcome after, retire versioning withdraw name wanted registry = (outcome, after) ∧
      after.agents = (withdraw agent registry).agents ∧
      (outcome = .ok () ↔ ∀ tag, RoutedTo registry agent.ref tag →
        legible versioning (withdraw agent registry) tag = true) ∧
      ((∀ tag, ¬ RoutedTo registry agent.ref tag) → after = withdraw agent registry) := by
  obtain ⟨outcome, after, called, agents, returned, idle⟩ := @reelectRoutes_total versioning
    agent.ref (withdraw agent registry).routes.rows (withdraw agent registry)
  have marked : ∀ tag, routedTo agent.ref (withdraw agent registry).routes.rows tag ↔
      RoutedTo registry agent.ref tag := by
    intro tag
    rw [routes]
    simp only [routedTo, RoutedTo, mem_routes]
  simp only [marked] at returned idle
  have read : (get : RegistryM AgentRegistry) registry = (.ok registry, registry) := rfl
  have withdrawn : (modify (withdraw agent) : RegistryM PUnit) registry =
      (.ok (), withdraw agent registry) := rfl
  have again : (get : RegistryM AgentRegistry) (withdraw agent registry) =
      (.ok (withdraw agent registry), withdraw agent registry) := rfl
  have each : retireEach versioning withdraw [agent] registry = (outcome, after) := by
    unfold retireEach
    rw [bind_ok withdrawn, bind_ok again]
    cases outcome with
    | ok value =>
        rw [bind_ok called]
        rfl
    | error error => exact bind_error called _
  refine ⟨outcome, after, ?_, agents, returned, idle⟩
  unfold retire
  rw [bind_ok read, only]
  cases outcome with
  | ok value =>
      rw [bind_ok each]
      rfl
  | error error => exact bind_error each _

theorem retire_nobody {name : String} {wanted : AgentSpec → Bool}
    (nobody : (registry.agents.rows.filter fun agent => agent.name = name && wanted agent) = []) :
    retire versioning withdraw name wanted registry = (.error (unknownAgent name), registry) := by
  have read : (get : RegistryM AgentRegistry) registry = (.ok registry, registry) := rfl
  have idle : retireEach versioning withdraw [] registry = (.ok (), registry) := rfl
  unfold retire
  rw [bind_ok read, nobody, bind_ok idle]
  rfl

end Retirement

section Registration

variable {versioning : Versioning} {registry : AgentRegistry} {agent : AgentSpec}

theorem register_refused (enabled : agent.enabled = true) (rejected : Rejected registry agent) :
    ∃ error, register versioning agent true registry = (.error error, registry) := by
  rcases @checkRoutes_spec registry agent.name agent.routeTags with
    ⟨_, free⟩ | ⟨⟨error, raised⟩, _⟩
  · obtain ⟨tag, member, existing, found, other⟩ := rejected
    exact absurd (free tag member existing found) other
  · have validated : validateRoutes agent true registry = (.error error, registry) := by
      simp only [validateRoutes, enabled, Bool.and_self, if_true]
      exact raised
    exact ⟨error, bind_error validated _⟩

variable (versioning) in
def reached (registry : AgentRegistry) (agent previous : AgentSpec) : List String :=
  previous.routeTags.takeWhile (legible versioning (registry.setAgent agent))

/-- A registration that is not one as default: its elections may raise, after the routes of
the replaced version are gone and the spec is stored. -/
theorem register_plain_total {makeDefault : Bool} (valid : RoutesEnabled registry)
    (plain : (agent.enabled && makeDefault) = false) :
    ∃ outcome after, register versioning agent makeDefault registry = (outcome, after) ∧
      after.agents = (registry.setAgent agent).agents ∧
      (outcome = .ok () ↔ ∀ previous, registry.agents.find agent.ref = some previous →
        ∀ tag ∈ previous.routeTags, legible versioning (registry.setAgent agent) tag = true) ∧
      ∀ previous, registry.agents.find agent.ref = some previous → ∀ tag,
        (RoutedTo registry agent.ref tag → after.route tag =
          if tag ∈ reached versioning registry agent previous then
            latest versioning (registry.setAgent agent) tag
          else none) ∧
        (¬ RoutedTo registry agent.ref tag → after.route tag =
          if tag ∈ reached versioning registry agent previous then
            (latest versioning (registry.setAgent agent) tag).or (registry.route tag)
          else registry.route tag) := by
  obtain ⟨middle, same, gone, kept, run⟩ :=
    @register_plain_run versioning registry agent makeDefault valid plain
  cases found : registry.agents.find agent.ref with
  | none =>
      refine ⟨.ok (), middle.setAgent agent, ?_, same, by simp, fun _ same => by cases same⟩
      rw [run, found]
      rfl
  | some previous =>
      obtain ⟨outcome, after, called, returned, rerouted⟩ := @electAll_total versioning
        previous.routeTags (middle.setAgent agent)
      rw [legible_agents same] at returned rerouted
      refine ⟨outcome, after, ?_, rerouted.agents.trans same, ?_, ?_⟩
      · rw [run, found]
        exact called
      · rw [returned]
        simp
      · rintro other ⟨rfl⟩ tag
        constructor
        · intro own
          by_cases elected : tag ∈ reached versioning registry agent previous
          · rw [rerouted.set tag elected, route_setAgent, gone tag own, latest_agents same,
              if_pos elected, Option.or_none]
          · rw [rerouted.kept tag elected, route_setAgent, gone tag own, if_neg elected]
        · intro other
          by_cases elected : tag ∈ reached versioning registry agent previous
          · rw [rerouted.set tag elected, route_setAgent, kept tag other, latest_agents same,
              if_pos elected]
          · rw [rerouted.kept tag elected, route_setAgent, kept tag other, if_neg elected]

variable (versioning) in
/-- The elections of a registration that replaces a spec by itself find the routes that
are there. -/
structure Steady (registry : AgentRegistry) (agent : AgentSpec) : Prop where
  newest : ∀ tag ∈ reached versioning registry agent agent, ∀ newest,
    latest versioning registry tag = some newest → registry.route tag = some newest
  own : ∀ tag, RoutedTo registry agent.ref tag → tag ∈ reached versioning registry agent agent

theorem steady_iff {after : AgentRegistry} (valid : RoutesEnabled registry)
    (present : registry.agents.find agent.ref = some agent)
    (own : ∀ tag, RoutedTo registry agent.ref tag → after.route tag =
      if tag ∈ reached versioning registry agent agent then
        latest versioning (registry.setAgent agent) tag
      else none)
    (others : ∀ tag, ¬ RoutedTo registry agent.ref tag → after.route tag =
      if tag ∈ reached versioning registry agent agent then
        (latest versioning (registry.setAgent agent) tag).or (registry.route tag)
      else registry.route tag) :
    (∀ tag, after.route tag = registry.route tag) ↔ Steady versioning registry agent := by
  have same : registry.setAgent agent = registry := by
    have table := Table.upsert_present present
    simp only [AgentRegistry.setAgent, table]
  rw [same] at own others
  constructor
  · intro kept
    constructor
    · intro tag member newest elected
      rw [← kept tag]
      by_cases routed : RoutedTo registry agent.ref tag
      · rw [own tag routed, if_pos member, elected]
      · rw [others tag routed, if_pos member, elected, Option.some_or]
    · intro tag routed
      by_contra missed
      have lost := own tag routed
      obtain ⟨holder, found, _⟩ := routed
      rw [if_neg missed, kept tag, found] at lost
      cases lost
  · intro steady tag
    by_cases routed : RoutedTo registry agent.ref tag
    · have member := steady.own tag routed
      have read : legible versioning registry tag = true := by
        have holds := List.all_eq_true.mp List.all_takeWhile tag member
        rwa [same] at holds
      obtain ⟨holder, found, _⟩ := id routed
      obtain ⟨newest, elected⟩ := latest_exists read (valid tag holder found)
      rw [own tag routed, if_pos member, elected, steady.newest tag member newest elected]
    · rw [others tag routed]
      by_cases member : tag ∈ reached versioning registry agent agent
      · rw [if_pos member]
        cases elected : latest versioning registry tag with
        | none => rw [Option.none_or]
        | some newest => rw [Option.some_or, steady.newest tag member newest elected]
      · rw [if_neg member]

end Registration

end AgentTaskPlatform.Elections
