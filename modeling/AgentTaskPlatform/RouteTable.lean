import AgentTaskPlatform.Registry

/-!
The route table of `AgentRegistry` over every history of operations: what is routed,
what stays routed, whose routes an operation may change, and what a raised
operation leaves.
-/

namespace AgentTaskPlatform.RouteTable

open KeyedTable Registry

section Routes

variable (registry : AgentRegistry) (routeTag wanted : String) (agent : AgentSpec)

@[simp] theorem route_setRoute : (registry.setRoute routeTag agent).route wanted =
    if wanted = routeTag then some agent else registry.route wanted := by
  by_cases same : wanted = routeTag
  · subst same
    have found := Table.find_upsert_self registry.routes (wanted, agent)
    simp only [AgentRegistry.route, AgentRegistry.setRoute, found, if_true, Option.map_some]
  · have kept := Table.find_upsert_other registry.routes
      (show wanted ≠ Prod.fst (routeTag, agent) from same)
    simp only [AgentRegistry.route, AgentRegistry.setRoute, kept, same, if_false]

@[simp] theorem route_popRoute : (registry.popRoute routeTag).route wanted =
    if wanted = routeTag then none else registry.route wanted := by
  simp only [AgentRegistry.route, AgentRegistry.popRoute, Table.find_deleteWhere_eq]
  cases found : registry.routes.find wanted with
  | none => simp
  | some row =>
      have key : row.1 = wanted := Table.find_key found
      by_cases same : wanted = routeTag
      · simp [Option.filter_some, key, same]
      · simp [Option.filter_some, key, same]

@[simp] theorem route_setAgent : (registry.setAgent agent).route wanted = registry.route wanted :=
  rfl

@[simp] theorem route_popAgent (ref : AgentRef) :
    (registry.popAgent ref).route wanted = registry.route wanted := rfl

theorem mem_routes : (routeTag, agent) ∈ registry.routes.rows ↔
    registry.route routeTag = some agent := by
  rw [AgentRegistry.route, Option.map_eq_some_iff]
  constructor
  · intro member
    exact ⟨(routeTag, agent), Table.mem_find member, rfl⟩
  · rintro ⟨⟨tag, routed⟩, found, rfl⟩
    have key : tag = routeTag := Table.find_key found
    rw [← key]
    exact Table.find_mem found

end Routes

section Agents

variable {registry : AgentRegistry} {agent other : AgentSpec} {routeTag : String}

structure Offers (registry : AgentRegistry) (agent : AgentSpec) (routeTag : String) : Prop where
  registered : agent ∈ registry.agents.rows
  enabled : agent.enabled = true
  lists : routeTag ∈ agent.routeTags

theorem mem_enabledFor : agent ∈ registry.enabledFor routeTag ↔ Offers registry agent routeTag := by
  simp only [AgentRegistry.enabledFor, List.mem_filter, Bool.and_eq_true, List.contains_iff_mem]
  constructor
  · rintro ⟨registered, enabled, lists⟩
    exact ⟨registered, enabled, lists⟩
  · rintro ⟨registered, enabled, lists⟩
    exact ⟨registered, enabled, lists⟩

theorem mem_setAgent : other ∈ (registry.setAgent agent).agents.rows ↔
    other = agent ∨ (other ∈ registry.agents.rows ∧ other.ref ≠ agent.ref) := by
  have self := Table.find_upsert_self registry.agents agent
  by_cases same : other.ref = agent.ref
  · constructor
    · intro member
      have found := Table.mem_find member
      rw [same] at found
      exact Or.inl (Option.some.inj (found.symm.trans self))
    · rintro (rfl | ⟨_, differs⟩)
      · exact Table.mem_upsert _ _
      · exact absurd same differs
  · have kept := Table.find_upsert_other registry.agents same
    constructor
    · intro member
      rw [AgentRegistry.setAgent] at member
      have found := Table.mem_find member
      rw [kept] at found
      exact Or.inr ⟨Table.find_mem found, same⟩
    · rintro (rfl | ⟨member, _⟩)
      · exact absurd rfl same
      · have found := Table.mem_find member
        rw [← kept] at found
        exact Table.find_mem found

theorem mem_popAgent {ref : AgentRef} : other ∈ (registry.popAgent ref).agents.rows ↔
    other ∈ registry.agents.rows ∧ other.ref ≠ ref := by
  simp [AgentRegistry.popAgent, Table.deleteWhere, List.mem_filter]

end Agents

section Elections

variable {versioning : Versioning}

theorem maxVersionFrom_mem {items : List AgentSpec} {best agent : AgentSpec}
    {bestKey : VersionKey versioning}
    (found : maxVersionFrom versioning best bestKey items = .ok agent) :
    agent = best ∨ agent ∈ items := by
  induction items generalizing best bestKey with
  | nil =>
      cases found
      exact Or.inl rfl
  | cons item rest ih =>
      cases read : versionKey versioning item.version with
      | error error =>
          simp only [maxVersionFrom, read] at found
          cases found
      | ok key =>
          have next : (if bestKey.older versioning key then
              maxVersionFrom versioning item key rest
              else maxVersionFrom versioning best bestKey rest) = .ok agent := by
            simp only [maxVersionFrom, read] at found
            exact found
          by_cases greater : bestKey.older versioning key = true
          · rw [if_pos greater] at next
            exact Or.inr (by simpa using ih next)
          · rw [if_neg greater] at next
            exact (ih next).imp id (List.mem_cons_of_mem _)

theorem maxVersion_mem {items : List AgentSpec} {agent : AgentSpec}
    (found : maxVersion versioning items = .ok (some agent)) : agent ∈ items := by
  cases items with
  | nil => cases found
  | cons first rest =>
      cases read : versionKey versioning first.version with
      | error error =>
          simp only [maxVersion, read] at found
          cases found
      | ok key =>
          cases best : maxVersionFrom versioning first key rest with
          | error error =>
              simp only [maxVersion, read] at found
              change (maxVersionFrom versioning first key rest >>= _) = _ at found
              rw [best] at found
              cases found
          | ok chosen =>
              simp only [maxVersion, read] at found
              change (maxVersionFrom versioning first key rest >>= _) = _ at found
              rw [best] at found
              cases found
              simpa using maxVersionFrom_mem best

theorem maxVersionFrom_cons {item best : AgentSpec} {key bestKey : VersionKey versioning}
    (read : versionKey versioning item.version = .ok key) (rest : List AgentSpec) :
    maxVersionFrom versioning best bestKey (item :: rest) =
      if bestKey.older versioning key then maxVersionFrom versioning item key rest
      else maxVersionFrom versioning best bestKey rest := by
  simp only [maxVersionFrom, read]
  rfl

theorem maxVersionFrom_ok (items : List AgentSpec)
    (readable : ∀ agent ∈ items, ∃ key, versionKey versioning agent.version = .ok key)
    (best : AgentSpec) (bestKey : VersionKey versioning) :
    ∃ agent, maxVersionFrom versioning best bestKey items = .ok agent ∧
      (agent = best ∨ agent ∈ items) := by
  induction items generalizing best bestKey with
  | nil => exact ⟨best, rfl, Or.inl rfl⟩
  | cons item rest ih =>
      obtain ⟨key, read⟩ := readable item List.mem_cons_self
      have later := ih fun agent member => readable agent (List.mem_cons_of_mem _ member)
      by_cases greater : bestKey.older versioning key = true
      · obtain ⟨agent, found, member⟩ := later item key
        refine ⟨agent, ?_, Or.inr ?_⟩
        · rw [maxVersionFrom_cons read, if_pos greater, found]
        · simpa using member
      · obtain ⟨agent, found, member⟩ := later best bestKey
        refine ⟨agent, ?_, ?_⟩
        · rw [maxVersionFrom_cons read, if_neg greater, found]
        · exact member.imp id (List.mem_cons_of_mem _)

theorem maxVersion_ok {items : List AgentSpec}
    (readable : ∀ agent ∈ items, ∃ key, versionKey versioning agent.version = .ok key) :
    (items = [] ∧ maxVersion versioning items = .ok none) ∨
      ∃ agent ∈ items, maxVersion versioning items = .ok (some agent) := by
  cases items with
  | nil => exact Or.inl ⟨rfl, rfl⟩
  | cons first rest =>
      obtain ⟨key, read⟩ := readable first List.mem_cons_self
      obtain ⟨agent, found, member⟩ := maxVersionFrom_ok rest
        (fun agent inside => readable agent (List.mem_cons_of_mem _ inside)) first key
      refine Or.inr ⟨agent, by simpa using member, ?_⟩
      simp only [maxVersion, read]
      show (maxVersionFrom versioning first key rest >>= fun best => Except.ok (some best)) = _
      rw [found]
      rfl

variable (versioning) in
def Readable (registry : AgentRegistry) (routeTag : String) : Prop :=
  ∀ agent, Offers registry agent routeTag → ∃ key, versionKey versioning agent.version = .ok key

variable (versioning) in
/-- The version that is withdrawn is asked no more. -/
def ReadableWithout (registry : AgentRegistry) (routeTag : String) (gone : AgentRef) : Prop :=
  ∀ agent, Offers registry agent routeTag → agent.ref ≠ gone →
    ∃ key, versionKey versioning agent.version = .ok key

variable (versioning) in
def latest (registry : AgentRegistry) (routeTag : String) : Option AgentSpec :=
  match maxVersion versioning (registry.enabledFor routeTag) with
  | .ok best => best
  | .error _ => none

variable {registry : AgentRegistry} {routeTag : String}

theorem latest_cases (readable : Readable versioning registry routeTag) :
    maxVersion versioning (registry.enabledFor routeTag) =
      .ok (latest versioning registry routeTag) ∧
    ((latest versioning registry routeTag = none ∧ ∀ agent, ¬ Offers registry agent routeTag) ∨
      ∃ agent, latest versioning registry routeTag = some agent ∧
        Offers registry agent routeTag) := by
  have keys : ∀ agent ∈ registry.enabledFor routeTag,
      ∃ key, versionKey versioning agent.version = .ok key := by
    intro agent member
    exact readable agent (mem_enabledFor.mp member)
  rcases maxVersion_ok keys with ⟨none_left, found⟩ | ⟨agent, member, found⟩
  · refine ⟨by simp [latest, found], Or.inl ⟨by simp [latest, found], ?_⟩⟩
    intro agent offers
    have member := mem_enabledFor.mpr offers
    rw [none_left] at member
    cases member
  · exact ⟨by simp [latest, found],
      Or.inr ⟨agent, by simp [latest, found], mem_enabledFor.mp member⟩⟩

theorem latest_offers (readable : Readable versioning registry routeTag) {agent : AgentSpec}
    (elected : latest versioning registry routeTag = some agent) :
    Offers registry agent routeTag := by
  rcases (latest_cases readable).2 with ⟨nobody, _⟩ | ⟨other, found, offers⟩
  · rw [nobody] at elected
    cases elected
  · rw [found] at elected
    cases elected
    exact offers

theorem latest_some (readable : Readable versioning registry routeTag) {agent : AgentSpec}
    (offers : Offers registry agent routeTag) :
    ∃ elected, latest versioning registry routeTag = some elected := by
  rcases (latest_cases readable).2 with ⟨_, nobody⟩ | ⟨other, found, _⟩
  · exact absurd offers (nobody agent)
  · exact ⟨other, found⟩

theorem latest_agents {other : AgentRegistry} (same : other.agents = registry.agents) :
    latest versioning other routeTag = latest versioning registry routeTag := by
  simp only [latest, AgentRegistry.enabledFor, same]

theorem readable_agents {other : AgentRegistry} (same : other.agents = registry.agents)
    (readable : Readable versioning registry routeTag) : Readable versioning other routeTag := by
  intro agent offers
  exact readable agent ⟨same ▸ offers.registered, offers.enabled, offers.lists⟩

end Elections

section Loops

structure Rerouted (marked : String → Prop) (value : String → Option AgentSpec)
    (before after : AgentRegistry) : Prop where
  agents : after.agents = before.agents
  set : ∀ tag, marked tag → after.route tag = value tag
  kept : ∀ tag, ¬ marked tag → after.route tag = before.route tag

theorem Rerouted.then {marked more : String → Prop} {value : String → Option AgentSpec}
    {before middle after : AgentRegistry} (first : Rerouted marked value before middle)
    (second : Rerouted more value middle after) :
    Rerouted (fun tag => marked tag ∨ more tag) value before after where
  agents := second.agents.trans first.agents
  set := by
    intro tag either
    by_cases again : more tag
    · exact second.set tag again
    · rw [second.kept tag again]
      exact first.set tag (either.resolve_right again)
  kept := by
    intro tag neither
    rw [not_or] at neither
    rw [second.kept tag neither.2, first.kept tag neither.1]

theorem Rerouted.mark {marked more : String → Prop} {value : String → Option AgentSpec}
    {before after : AgentRegistry} (done : Rerouted marked value before after)
    (same : ∀ tag, marked tag ↔ more tag) : Rerouted more value before after where
  agents := done.agents
  set := fun tag member => done.set tag ((same tag).mpr member)
  kept := fun tag absent => done.kept tag fun member => absent ((same tag).mp member)

theorem Rerouted.none {marked : String → Prop} {value : String → Option AgentSpec}
    (registry : AgentRegistry) (nothing : ∀ tag, ¬ marked tag) :
    Rerouted marked value registry registry where
  agents := rfl
  set := fun tag member => absurd member (nothing tag)
  kept := fun _ _ => rfl

variable {versioning : Versioning}

def routedTo (ref : AgentRef) (items : List (String × AgentSpec)) (tag : String) : Prop :=
  ∃ routed, (tag, routed) ∈ items ∧ routed.ref = ref

theorem routedTo_cons {ref : AgentRef} {routeTag : String} {agent : AgentSpec}
    {rest : List (String × AgentSpec)} (tag : String) :
    routedTo ref ((routeTag, agent) :: rest) tag ↔
      (tag = routeTag ∧ agent.ref = ref) ∨ routedTo ref rest tag := by
  simp only [routedTo, List.mem_cons, Prod.mk.injEq]
  constructor
  · rintro ⟨routed, ⟨rfl, rfl⟩ | member, same⟩
    · exact Or.inl ⟨rfl, same⟩
    · exact Or.inr ⟨routed, member, same⟩
  · rintro (⟨rfl, same⟩ | ⟨routed, member, same⟩)
    · exact ⟨agent, Or.inl ⟨rfl, rfl⟩, same⟩
    · exact ⟨routed, Or.inr member, same⟩

theorem popRoutes_spec (ref : AgentRef) (items : List (String × AgentSpec))
    (registry : AgentRegistry) :
    ∃ after, popRoutes ref items registry = (.ok (), after) ∧
      Rerouted (routedTo ref items) (fun _ => none) registry after := by
  induction items generalizing registry with
  | nil => exact ⟨registry, rfl, .none registry (by simp [routedTo])⟩
  | cons item rest ih =>
      obtain ⟨routeTag, routed⟩ := item
      by_cases hit : routed.ref = ref
      · obtain ⟨after, called, later⟩ := ih (registry.popRoute routeTag)
        have popped : Rerouted (· = routeTag) (fun _ => none) registry
            (registry.popRoute routeTag) :=
          ⟨rfl, fun tag same => by simp [same], fun tag other => by simp [other]⟩
        refine ⟨after, ?_, (popped.then later).mark fun tag => ?_⟩
        · simp only [popRoutes, hit, if_true]
          exact called
        · simp [routedTo_cons, hit]
      · obtain ⟨after, called, later⟩ := ih registry
        refine ⟨after, ?_, later.mark fun tag => ?_⟩
        · simp only [popRoutes, hit, if_false]
          exact called
        · simp [routedTo_cons, hit]

theorem setRoutes_spec (agent : AgentSpec) (tags : List String) (registry : AgentRegistry) :
    ∃ after, setRoutes agent tags registry = (.ok (), after) ∧
      Rerouted (· ∈ tags) (fun _ => some agent) registry after := by
  induction tags generalizing registry with
  | nil => exact ⟨registry, rfl, .none registry (by simp)⟩
  | cons routeTag rest ih =>
      obtain ⟨after, called, later⟩ := ih (registry.setRoute routeTag agent)
      have set : Rerouted (· = routeTag) (fun _ => some agent) registry
          (registry.setRoute routeTag agent) :=
        ⟨rfl, fun tag same => by simp [same], fun tag other => by simp [other]⟩
      refine ⟨after, called, (set.then later).mark fun tag => ?_⟩
      simp

theorem elect_answered {registry : AgentRegistry} {routeTag : String}
    (called : latestEnabledForTag versioning routeTag registry =
      (.ok (latest versioning registry routeTag), registry)) :
    ∃ after, elect versioning routeTag registry = (.ok (), after) ∧
      Rerouted (· = routeTag) (fun tag => (latest versioning registry tag).or (registry.route tag))
        registry after := by
  unfold elect
  rw [bind_ok called]
  cases found : latest versioning registry routeTag with
  | none => exact ⟨registry, rfl, rfl, fun tag same => by simp [same, found], fun _ _ => rfl⟩
  | some agent =>
      exact ⟨registry.setRoute routeTag agent, rfl, rfl, fun tag same => by simp [same, found],
        fun tag other => by simp [other]⟩

theorem elect_spec {registry : AgentRegistry} {routeTag : String}
    (readable : Readable versioning registry routeTag) :
    ∃ after, elect versioning routeTag registry = (.ok (), after) ∧
      Rerouted (· = routeTag) (fun tag => (latest versioning registry tag).or (registry.route tag))
        registry after := by
  have called : latestEnabledForTag versioning routeTag registry =
      (.ok (latest versioning registry routeTag), registry) := by
    rw [← (latest_cases readable).1]
    rfl
  exact elect_answered called

theorem elected_stable {registry middle : AgentRegistry} {routeTag : String}
    (first : Rerouted (· = routeTag)
      (fun tag => (latest versioning registry tag).or (registry.route tag)) registry middle)
    (tag : String) : (latest versioning middle tag).or (middle.route tag) =
      (latest versioning registry tag).or (registry.route tag) := by
  rw [latest_agents first.agents]
  by_cases same : tag = routeTag
  · rw [first.set tag same]
    cases latest versioning registry tag <;> simp
  · rw [first.kept tag same]

theorem electAll_spec (tags : List String) (registry : AgentRegistry)
    (readable : ∀ tag ∈ tags, Readable versioning registry tag) :
    ∃ after, electAll versioning tags registry = (.ok (), after) ∧
      Rerouted (· ∈ tags) (fun tag => (latest versioning registry tag).or (registry.route tag))
        registry after := by
  induction tags generalizing registry with
  | nil => exact ⟨registry, rfl, .none registry (by simp)⟩
  | cons routeTag rest ih =>
      obtain ⟨middle, elected, first⟩ := elect_spec (readable routeTag List.mem_cons_self)
      obtain ⟨after, called, later⟩ := ih middle fun tag member =>
        readable_agents first.agents (readable tag (List.mem_cons_of_mem _ member))
      simp only [elected_stable first] at later
      refine ⟨after, ?_, (first.then later).mark fun tag => by simp⟩
      unfold electAll
      rw [bind_ok elected]
      exact called

/-- Popped routes get the newest enabled agent that is left. -/
theorem reelectRoutes_spec (ref : AgentRef) (items : List (String × AgentSpec))
    (registry : AgentRegistry)
    (readable : ∀ tag, routedTo ref items tag → Readable versioning registry tag) :
    ∃ after, reelectRoutes versioning ref items registry = (.ok (), after) ∧
      Rerouted (routedTo ref items) (latest versioning registry) registry after := by
  induction items generalizing registry with
  | nil => exact ⟨registry, rfl, .none registry (by simp [routedTo])⟩
  | cons item rest ih =>
      obtain ⟨routeTag, routed⟩ := item
      -- Only the tags that were routed to the withdrawn version are elected.
      by_cases hit : routed.ref = ref
      · have here : Readable versioning registry routeTag :=
          readable routeTag ((routedTo_cons routeTag).mpr (Or.inl ⟨rfl, hit⟩))
        have popped : (registry.popRoute routeTag).agents = registry.agents := rfl
        obtain ⟨middle, elected, first⟩ := elect_spec (readable_agents popped here)
        have agents : middle.agents = registry.agents := first.agents
        have replaced : Rerouted (· = routeTag) (latest versioning registry) registry middle :=
          { agents := agents
            set := fun tag same => by
              rw [first.set tag same, latest_agents popped]
              simp [same]
            kept := fun tag other => by
              rw [first.kept tag other]
              simp [other] }
        obtain ⟨after, called, later⟩ := ih middle fun tag member =>
          readable_agents agents (readable tag ((routedTo_cons tag).mpr (Or.inr member)))
        have same : latest versioning middle = latest versioning registry := by
          funext tag
          exact latest_agents agents
        rw [same] at later
        refine ⟨after, ?_, (replaced.then later).mark fun tag => ?_⟩
        · simp only [reelectRoutes, hit, if_true]
          have poppedCall : (modify fun registry => registry.popRoute routeTag : RegistryM PUnit)
              registry = (.ok (), registry.popRoute routeTag) := rfl
          rw [bind_ok poppedCall, bind_ok elected]
          exact called
        · simp [routedTo_cons, hit]
      · obtain ⟨after, called, later⟩ := ih registry fun tag member =>
          readable tag ((routedTo_cons tag).mpr (Or.inr member))
        refine ⟨after, ?_, later.mark fun tag => ?_⟩
        · simp only [reelectRoutes, hit, if_false]
          exact called
        · simp [routedTo_cons, hit]

end Loops

section Laws

def RoutesEnabled (registry : AgentRegistry) : Prop :=
  ∀ tag agent, registry.route tag = some agent → Offers registry agent tag

def concerns : Operation → AgentRef → Bool
  | .register agent _, ref => agent.ref = ref
  | .disable name version, ref =>
      ref.name = name && version.all fun version => version = "" || ref.version = version
  | .deregister name version, ref => ref.name = name && version.all (ref.version = ·)
  | .setDefault name version, ref => ref.name = name && ref.version = version

def asksDefault : Operation → Bool
  | .register _ makeDefault => makeDefault
  | .setDefault _ _ => true
  | _ => false

structure Lawful (event : Event) : Prop where
  routed : RoutesEnabled event.after
  stays : ∀ tag, event.before.route tag ≠ none → (∃ agent, Offers event.after agent tag) →
    event.after.route tag ≠ none
  others : asksDefault event.operation = false → ∀ tag,
    (∀ agent, event.before.route tag = some agent →
      concerns event.operation agent.ref = false) →
    event.after.route tag = event.before.route tag
  atomic : ∀ error, event.outcome = .error error → event.after = event.before

theorem Lawful.unchanged {event : Event} (valid : RoutesEnabled event.before)
    (same : event.after = event.before) : Lawful event where
  routed := by rwa [same]
  stays := by
    intro tag routed _
    rwa [same]
  others := by
    intro _ tag _
    rw [same]
  atomic := fun _ _ => same

theorem routesEnabled_empty : RoutesEnabled AgentRegistry.empty := by
  intro tag agent found
  cases found

end Laws

section Retirement

variable {versioning : Versioning}

/-- What `disable` and `deregister` do to an agent before its routes are elected again. -/
structure Withdraws (withdraw : AgentSpec → AgentRegistry → AgentRegistry) : Prop where
  routes : ∀ agent registry, (withdraw agent registry).routes = registry.routes
  offers : ∀ agent registry other tag, Offers (withdraw agent registry) other tag ↔
    Offers registry other tag ∧ other.ref ≠ agent.ref

theorem withdraws_disabled :
    Withdraws fun agent registry => registry.setAgent (disabled agent) where
  routes := fun _ _ => rfl
  offers := by
    intro agent registry other tag
    constructor
    · rintro ⟨registered, enabled, lists⟩
      rcases mem_setAgent.mp registered with rfl | ⟨member, differs⟩
      · cases enabled
      · exact ⟨⟨member, enabled, lists⟩, differs⟩
    · rintro ⟨⟨registered, enabled, lists⟩, differs⟩
      exact ⟨mem_setAgent.mpr (Or.inr ⟨registered, differs⟩), enabled, lists⟩

theorem withdraws_removed : Withdraws fun agent registry => registry.popAgent agent.ref where
  routes := fun _ _ => rfl
  offers := by
    intro agent registry other tag
    constructor
    · rintro ⟨registered, enabled, lists⟩
      obtain ⟨member, differs⟩ := mem_popAgent.mp registered
      exact ⟨⟨member, enabled, lists⟩, differs⟩
    · rintro ⟨⟨registered, enabled, lists⟩, differs⟩
      exact ⟨mem_popAgent.mpr ⟨registered, differs⟩, enabled, lists⟩

structure Retired (refs : AgentRef → Prop) (before after : AgentRegistry) : Prop where
  routed : RoutesEnabled after
  fewer : ∀ agent tag, Offers after agent tag → Offers before agent tag
  stays : ∀ tag, before.route tag ≠ none → (∃ agent, Offers after agent tag) →
    after.route tag ≠ none
  others : ∀ tag, (∀ agent, before.route tag = some agent → ¬ refs agent.ref) →
    after.route tag = before.route tag

theorem Retired.then {refs more : AgentRef → Prop} {before middle after : AgentRegistry}
    (first : Retired refs before middle) (second : Retired more middle after) :
    Retired (fun ref => refs ref ∨ more ref) before after where
  routed := second.routed
  fewer := fun agent tag offers => first.fewer agent tag (second.fewer agent tag offers)
  stays := by
    rintro tag was ⟨agent, offers⟩
    have kept := first.stays tag was ⟨agent, second.fewer agent tag offers⟩
    exact second.stays tag kept ⟨agent, offers⟩
  others := by
    intro tag foreign
    have same := first.others tag fun agent found own => foreign agent found (Or.inl own)
    rw [← same]
    apply second.others
    intro agent found own
    rw [same] at found
    exact foreign agent found (Or.inr own)

theorem retireOne_spec {withdraw : AgentSpec → AgentRegistry → AgentRegistry}
    (withdraws : Withdraws withdraw) (agent : AgentSpec) {registry : AgentRegistry}
    (valid : RoutesEnabled registry)
    (readable : ∀ tag routed, registry.route tag = some routed → routed.ref = agent.ref →
      ReadableWithout versioning registry tag agent.ref) :
    ∃ after, reelectRoutes versioning agent.ref (withdraw agent registry).routes.rows
        (withdraw agent registry) = (.ok (), after) ∧
      Retired (· = agent.ref) registry after ∧
      ∀ other tag, Offers after other tag → other.ref ≠ agent.ref := by
  have marked : ∀ tag, routedTo agent.ref (withdraw agent registry).routes.rows tag ↔
      ∃ routed, registry.route tag = some routed ∧ routed.ref = agent.ref := by
    intro tag
    rw [withdraws.routes]
    simp only [routedTo, mem_routes]
  have route : ∀ tag, (withdraw agent registry).route tag = registry.route tag := by
    intro tag
    rw [AgentRegistry.route, withdraws.routes]
    rfl
  have readable' : ∀ tag, routedTo agent.ref (withdraw agent registry).routes.rows tag →
      Readable versioning (withdraw agent registry) tag := by
    intro tag hit other offers
    obtain ⟨routed, found, same⟩ := (marked tag).mp hit
    obtain ⟨before, stays⟩ := (withdraws.offers _ _ _ _).mp offers
    exact readable tag routed found same other before stays
  obtain ⟨after, called, rerouted⟩ := reelectRoutes_spec agent.ref _ _ readable'
  have offers : ∀ other tag, Offers after other tag ↔
      Offers registry other tag ∧ other.ref ≠ agent.ref := by
    intro other tag
    rw [← withdraws.offers]
    constructor
    · rintro ⟨registered, enabled, lists⟩
      exact ⟨rerouted.agents ▸ registered, enabled, lists⟩
    · rintro ⟨registered, enabled, lists⟩
      exact ⟨rerouted.agents.symm ▸ registered, enabled, lists⟩
  refine ⟨after, called, ⟨?_, ?_, ?_, ?_⟩, fun other tag left => ((offers other tag).mp left).2⟩
  · intro tag other found
    by_cases hit : routedTo agent.ref (withdraw agent registry).routes.rows tag
    · rw [rerouted.set tag hit] at found
      exact (offers other tag).mpr
        ((withdraws.offers _ _ _ _).mp (latest_offers (readable' tag hit) found))
    · rw [rerouted.kept tag hit, route] at found
      refine (offers other tag).mpr ⟨valid tag other found, ?_⟩
      intro same
      exact hit ((marked tag).mpr ⟨other, found, same⟩)
  · intro other tag left
    exact ((offers other tag).mp left).1
  · rintro tag was ⟨other, left⟩
    by_cases hit : routedTo agent.ref (withdraw agent registry).routes.rows tag
    · rw [rerouted.set tag hit]
      have here := (withdraws.offers agent registry other tag).mpr ((offers other tag).mp left)
      obtain ⟨elected, found⟩ := latest_some (readable' tag hit) here
      rw [found]
      simp
    · rwa [rerouted.kept tag hit, route]
  · intro tag foreign
    rw [rerouted.kept tag, route]
    intro hit
    obtain ⟨routed, found, same⟩ := (marked tag).mp hit
    exact foreign routed found same

theorem retireEach_spec {withdraw : AgentSpec → AgentRegistry → AgentRegistry}
    (withdraws : Withdraws withdraw) (agents : List AgentSpec) {registry : AgentRegistry}
    (valid : RoutesEnabled registry)
    (readable : ∀ tag routed, registry.route tag = some routed →
      routed.ref ∈ agents.map AgentSpec.ref →
        ReadableWithout versioning registry tag routed.ref) :
    ∃ after, retireEach versioning withdraw agents registry = (.ok (), after) ∧
      Retired (· ∈ agents.map AgentSpec.ref) registry after := by
  -- Each version is withdrawn and its tags elected before the next one is withdrawn.
  induction agents generalizing registry with
  | nil =>
      refine ⟨registry, rfl, valid, fun _ _ offers => offers, fun _ was _ => was, fun _ _ => rfl⟩
  | cons agent rest ih =>
      have own : ∀ tag routed, registry.route tag = some routed → routed.ref = agent.ref →
          ReadableWithout versioning registry tag agent.ref := by
        intro tag routed found same
        rw [← same]
        exact readable tag routed found (by simp [same])
      obtain ⟨middle, reelected, first, gone⟩ := retireOne_spec withdraws agent valid own
      -- A tag that is still to be elected was routed to a retiring version from the start.
      have later : ∀ tag routed, middle.route tag = some routed →
          routed.ref ∈ rest.map AgentSpec.ref →
            ReadableWithout versioning middle tag routed.ref := by
        intro tag routed found member other offers different
        have before := first.fewer other tag offers
        by_cases hit : ∃ earlier, registry.route tag = some earlier ∧ earlier.ref = agent.ref
        · obtain ⟨earlier, was, same⟩ := hit
          exact own tag earlier was same other before (gone other tag offers)
        · have same := first.others tag fun earlier was hits => hit ⟨earlier, was, hits⟩
          rw [same] at found
          exact readable tag routed found (List.mem_cons_of_mem _ member) other before different
      obtain ⟨after, called, second⟩ := ih first.routed later
      refine ⟨after, ?_, ?_⟩
      · have withdrawn : (modify (withdraw agent) : RegistryM PUnit) registry =
            (.ok (), withdraw agent registry) := rfl
        have read : (get : RegistryM AgentRegistry) (withdraw agent registry) =
            (.ok (withdraw agent registry), withdraw agent registry) := rfl
        unfold retireEach
        rw [bind_ok withdrawn, bind_ok read, bind_ok reelected]
        exact called
      · have both := first.then second
        simpa only [List.map_cons, List.mem_cons] using both

end Retirement

section Operations

variable {versioning : Versioning} {registry : AgentRegistry}

theorem retire_lawful {withdraw : AgentSpec → AgentRegistry → AgentRegistry}
    (withdraws : Withdraws withdraw) {name : String} {wanted : AgentSpec → Bool}
    {operation : Operation} (valid : RoutesEnabled registry)
    (calls : perform versioning operation = retire versioning withdraw name wanted)
    (matched : ∀ agent : AgentSpec,
      concerns operation agent.ref = (decide (agent.name = name) && wanted agent))
    (readable : ∀ tag routed, registry.route tag = some routed →
      concerns operation routed.ref = true →
        ReadableWithout versioning registry tag routed.ref) :
    Lawful (event versioning registry operation) := by
  let matching := registry.agents.rows.filter fun agent => agent.name = name && wanted agent
  have concerned : ∀ tag routed, registry.route tag = some routed →
      routed.ref ∈ matching.map AgentSpec.ref → concerns operation routed.ref = true := by
    intro tag routed found member
    obtain ⟨agent, inside, same⟩ := List.mem_map.mp member
    rw [← same, matched]
    exact (List.mem_filter.mp inside).2
  obtain ⟨after, called, retired⟩ := retireEach_spec withdraws matching valid
    fun tag routed found member => readable tag routed found (concerned tag routed found member)
  have read : (get : RegistryM AgentRegistry) registry = (.ok registry, registry) := rfl
  by_cases nobody : matching = []
  · have raised : perform versioning operation registry =
        (.error (unknownAgent name), registry) := by
      rw [calls]
      unfold retire
      rw [bind_ok read]
      have idle : retireEach versioning withdraw matching registry = (.ok (), registry) := by
        rw [nobody]
        rfl
      rw [bind_ok idle]
      simp only [matching] at nobody
      simp only [nobody]
      rfl
    exact Lawful.unchanged valid (congrArg Prod.snd raised)
  · have returned : perform versioning operation registry = (.ok (), after) := by
      rw [calls]
      unfold retire
      rw [bind_ok read, bind_ok called]
      have some_left : matching.isEmpty = false := by simpa using nobody
      simp only [matching] at some_left
      simp only [some_left]
      rfl
    have ends : (event versioning registry operation).after = after := congrArg Prod.snd returned
    constructor
    · rw [ends]
      exact retired.routed
    · rw [ends]
      exact retired.stays
    · intro _ tag foreign
      rw [ends]
      apply retired.others
      intro agent found member
      have other : concerns operation agent.ref = false := foreign agent found
      rw [concerned tag agent found member] at other
      cases other
    · intro error raised
      have fine : (event versioning registry operation).outcome = .ok () :=
        congrArg Prod.fst returned
      rw [fine] at raised
      cases raised

theorem checkRoutes_spec (name : String) (tags : List String) :
    (checkRoutes name tags registry = (.ok (), registry) ∧
      ∀ tag ∈ tags, ∀ existing, registry.route tag = some existing → existing.name = name) ∨
    ((∃ error, checkRoutes name tags registry = (.error error, registry)) ∧
      ∃ tag ∈ tags, ∃ existing, registry.route tag = some existing ∧ existing.name ≠ name) := by
  induction tags with
  | nil => exact Or.inl ⟨rfl, by simp⟩
  | cons tag rest ih =>
      have read : (get : RegistryM AgentRegistry) registry = (.ok registry, registry) := rfl
      unfold checkRoutes
      rw [bind_ok read]
      cases found : registry.route tag with
      | none =>
          rcases ih with ⟨passed, free⟩ | ⟨raised, other, member, conflict⟩
          · refine Or.inl ⟨passed, ?_⟩
            intro wanted member existing routed
            rcases List.mem_cons.mp member with rfl | inside
            · rw [found] at routed
              cases routed
            · exact free wanted inside existing routed
          · exact Or.inr ⟨raised, other, List.mem_cons_of_mem _ member, conflict⟩
      | some existing =>
          by_cases own : existing.name = name
          · simp only [own, ne_eq, not_true_eq_false, if_false]
            rcases ih with ⟨passed, free⟩ | ⟨raised, other, member, conflict⟩
            · refine Or.inl ⟨passed, ?_⟩
              intro wanted member routed same
              rcases List.mem_cons.mp member with rfl | inside
              · rw [found] at same
                cases same
                exact own
              · exact free wanted inside routed same
            · exact Or.inr ⟨raised, other, List.mem_cons_of_mem _ member, conflict⟩
          · refine Or.inr ⟨⟨alreadyRouted tag existing.name, ?_⟩, tag, List.mem_cons_self, existing,
              found, own⟩
            simp only [own, ne_eq, not_false_eq_true, if_true]
            rfl

def Rejected (registry : AgentRegistry) (agent : AgentSpec) : Prop :=
  ∃ tag ∈ agent.routeTags, ∃ existing, registry.route tag = some existing ∧
    existing.name ≠ agent.name

def RoutedTo (registry : AgentRegistry) (ref : AgentRef) (tag : String) : Prop :=
  ∃ routed, registry.route tag = some routed ∧ routed.ref = ref

/-- The routes of the replaced version are gone, the agents are up to date. -/
theorem replaced_spec (valid : RoutesEnabled registry) (agent : AgentSpec) :
    ∃ middle, popPrevious registry (registry.agents.find agent.ref) registry = (.ok (), middle) ∧
      middle.agents = registry.agents ∧
      (∀ tag, RoutedTo registry agent.ref tag → middle.route tag = none) ∧
      ∀ tag, ¬ RoutedTo registry agent.ref tag → middle.route tag = registry.route tag := by
  cases found : registry.agents.find agent.ref with
  | none =>
      refine ⟨registry, rfl, rfl, ?_, fun _ _ => rfl⟩
      rintro tag ⟨routed, route, same⟩
      have member := Table.mem_find (valid tag routed route).registered
      rw [same, found] at member
      cases member
  | some previous =>
      have key : previous.ref = agent.ref := Table.find_key found
      obtain ⟨middle, popped, rerouted⟩ := popRoutes_spec agent.ref registry.routes.rows registry
      have marked : ∀ tag, routedTo agent.ref registry.routes.rows tag ↔
          RoutedTo registry agent.ref tag := by
        intro tag
        simp only [routedTo, RoutedTo, mem_routes]
      refine ⟨middle, ?_, rerouted.agents, ?_, ?_⟩
      · simp only [popPrevious, key]
        exact popped
      · intro tag own
        exact rerouted.set tag ((marked tag).mpr own)
      · intro tag other
        exact rerouted.kept tag fun hit => other ((marked tag).mp hit)

theorem register_rejected {agent : AgentSpec} (valid : RoutesEnabled registry)
    (enabled : agent.enabled = true) (rejected : Rejected registry agent) :
    Lawful (event versioning registry (.register agent true)) := by
  apply Lawful.unchanged valid
  rcases @checkRoutes_spec registry agent.name agent.routeTags with
    ⟨_, free⟩ | ⟨⟨error, raised⟩, _⟩
  · obtain ⟨tag, member, existing, found, other⟩ := rejected
    exact absurd (free tag member existing found) other
  · have validated : validateRoutes agent true registry = (.error error, registry) := by
      simp only [validateRoutes, enabled, Bool.and_self, if_true]
      exact raised
    have stopped : perform versioning (.register agent true) registry =
        (.error error, registry) := by
      simp only [perform, register]
      rw [bind_error validated]
    exact congrArg Prod.snd stopped

theorem register_default_spec {agent : AgentSpec} (valid : RoutesEnabled registry)
    (enabled : agent.enabled = true) (accepted : ¬ Rejected registry agent) :
    ∃ after, perform versioning (.register agent true) registry = (.ok (), after) ∧
      after.agents = (registry.setAgent agent).agents ∧
      (∀ tag ∈ agent.routeTags, after.route tag = some agent) ∧
      (∀ tag ∉ agent.routeTags, RoutedTo registry agent.ref tag → after.route tag = none) ∧
      ∀ tag ∉ agent.routeTags, ¬ RoutedTo registry agent.ref tag →
        after.route tag = registry.route tag := by
  rcases @checkRoutes_spec registry agent.name agent.routeTags with
    ⟨passed, _⟩ | ⟨_, conflict⟩
  · obtain ⟨middle, popped, agents, gone, kept⟩ := replaced_spec valid agent
    obtain ⟨after, called, rerouted⟩ :=
      setRoutes_spec agent agent.routeTags (middle.setAgent agent)
    have validated : validateRoutes agent true registry = (.ok (), registry) := by
      simp only [validateRoutes, enabled, Bool.and_self, if_true]
      exact passed
    have read : (get : RegistryM AgentRegistry) registry = (.ok registry, registry) := rfl
    have stored : (modify fun registry => registry.setAgent agent : RegistryM PUnit) middle =
        (.ok (), middle.setAgent agent) := rfl
    refine ⟨after, ?_, ?_, ?_, ?_, ?_⟩
    · simp only [perform, register]
      rw [bind_ok validated, bind_ok read, bind_ok popped, bind_ok stored]
      simp only [enabled, Bool.not_true, Bool.or_self, Bool.false_eq_true, if_false]
      exact called
    · rw [rerouted.agents]
      simp only [AgentRegistry.setAgent, agents]
    · exact rerouted.set
    · intro tag absent own
      rw [rerouted.kept tag absent, route_setAgent]
      exact gone tag own
    · intro tag absent other
      rw [rerouted.kept tag absent, route_setAgent]
      exact kept tag other
  · exact absurd conflict accepted

/-- The registration of an agent that takes no routes: the ones of its version are dropped, and
the tags of the spec before it are elected again. -/
theorem register_plain_run {agent : AgentSpec} {makeDefault : Bool}
    (valid : RoutesEnabled registry) (plain : (agent.enabled && makeDefault) = false) :
    ∃ middle : AgentRegistry, (middle.setAgent agent).agents = (registry.setAgent agent).agents ∧
      (∀ tag, RoutedTo registry agent.ref tag → middle.route tag = none) ∧
      (∀ tag, ¬ RoutedTo registry agent.ref tag → middle.route tag = registry.route tag) ∧
      register versioning agent makeDefault registry =
        electPrevious versioning (registry.agents.find agent.ref) (middle.setAgent agent) := by
  obtain ⟨middle, popped, agents, gone, kept⟩ := replaced_spec valid agent
  have validated : validateRoutes agent makeDefault registry = (.ok (), registry) := by
    simp only [validateRoutes, plain]
    rfl
  have read : (get : RegistryM AgentRegistry) registry = (.ok registry, registry) := rfl
  have stored : (modify fun registry => registry.setAgent agent : RegistryM PUnit) middle =
      (.ok (), middle.setAgent agent) := rfl
  have branch : (!agent.enabled || !makeDefault) = true := by
    rw [← Bool.not_and, plain]
    rfl
  refine ⟨middle, by simp only [AgentRegistry.setAgent, agents], gone, kept, ?_⟩
  unfold register
  rw [bind_ok validated, bind_ok read, bind_ok popped, bind_ok stored]
  simp only [branch, if_true]

theorem register_plain_spec {agent : AgentSpec} {makeDefault : Bool}
    (valid : RoutesEnabled registry) (plain : (agent.enabled && makeDefault) = false)
    (readable : ∀ previous, registry.agents.find agent.ref = some previous →
      ∀ tag ∈ previous.routeTags, Readable versioning (registry.setAgent agent) tag) :
    ∃ after, perform versioning (.register agent makeDefault) registry = (.ok (), after) ∧
      after.agents = (registry.setAgent agent).agents ∧
      (∀ tag previous, registry.agents.find agent.ref = some previous →
        tag ∈ previous.routeTags → RoutedTo registry agent.ref tag →
        after.route tag = latest versioning (registry.setAgent agent) tag) ∧
      (∀ tag previous, registry.agents.find agent.ref = some previous →
        tag ∈ previous.routeTags → ¬ RoutedTo registry agent.ref tag →
        after.route tag =
          (latest versioning (registry.setAgent agent) tag).or (registry.route tag)) ∧
      ∀ tag, (∀ previous, registry.agents.find agent.ref = some previous →
        tag ∉ previous.routeTags) → after.route tag = registry.route tag := by
  obtain ⟨middle, same, gone, kept, run⟩ :=
    @register_plain_run versioning registry agent makeDefault valid plain
  change ∃ after, register versioning agent makeDefault registry = _ ∧ _
  -- A route of the version is one of a tag that its registered spec lists.
  have listed : ∀ tag, RoutedTo registry agent.ref tag → ∃ previous,
      registry.agents.find agent.ref = some previous ∧ tag ∈ previous.routeTags := by
    rintro tag ⟨routed, found, own⟩
    have offers := valid tag routed found
    rw [← own]
    exact ⟨routed, Table.mem_find offers.registered, offers.lists⟩
  cases found : registry.agents.find agent.ref with
  | none =>
      refine ⟨middle.setAgent agent, ?_, same, ?_, ?_, ?_⟩
      · rw [run, found]
        rfl
      · intro tag previous impossible
        cases impossible
      · intro tag previous impossible
        cases impossible
      · intro tag _
        rw [route_setAgent]
        apply kept
        intro own
        obtain ⟨previous, known, _⟩ := listed tag own
        rw [found] at known
        cases known
  | some previous =>
      obtain ⟨after, called, rerouted⟩ := electAll_spec previous.routeTags (middle.setAgent agent)
        fun tag member => readable_agents same (readable previous found tag member)
      refine ⟨after, ?_, rerouted.agents.trans same, ?_, ?_, ?_⟩
      · rw [run, found]
        exact called
      · intro tag own known member routed
        cases known
        rw [rerouted.set tag member, route_setAgent, gone tag routed, latest_agents same]
        simp
      · intro tag own known member other
        cases known
        rw [rerouted.set tag member, route_setAgent, kept tag other, latest_agents same]
      · intro tag absent
        have outside := absent previous rfl
        rw [rerouted.kept tag outside, route_setAgent]
        apply kept
        intro own
        obtain ⟨listing, known, lists⟩ := listed tag own
        rw [found] at known
        cases known
        exact outside lists

theorem getAgent_mem {name : String} {version : Option String} {agent : AgentSpec}
    (found : getAgent versioning registry name version = .ok agent) :
    agent ∈ registry.agents.rows ∧ agent.name = name ∧ versionGiven version agent = true := by
  unfold getAgent at found
  cases best : maxVersion versioning (preferEnabled (matchingAgents registry name version)) with
  | error error =>
      rw [best] at found
      cases found
  | ok chosen =>
      rw [best] at found
      cases chosen with
      | none => cases found
      | some chosen =>
          cases found
          have member : agent ∈ matchingAgents registry name version := by
            have inside := maxVersion_mem best
            unfold preferEnabled at inside
            split at inside
            · exact inside
            · exact (List.mem_filter.mp inside).1
          simpa [matchingAgents] using member

theorem setDefault_lawful (valid : RoutesEnabled registry) (name version : String) :
    Lawful (event versioning registry (.setDefault name version)) := by
  have read : (get : RegistryM AgentRegistry) registry = (.ok registry, registry) := rfl
  cases found : getAgent versioning registry name (some version) with
  | error error =>
      have raised : (ExceptT.mk (pure (getAgent versioning registry name (some version))) :
          RegistryM AgentSpec) registry = (.error error, registry) := by
        rw [found]
        rfl
      have stopped : perform versioning (.setDefault name version) registry =
          (.error error, registry) := by
        simp only [perform, setDefault]
        rw [bind_ok read, bind_error raised]
      exact Lawful.unchanged valid (congrArg Prod.snd stopped)
  | ok agent =>
      have returned : (ExceptT.mk (pure (getAgent versioning registry name (some version))) :
          RegistryM AgentSpec) registry = (.ok agent, registry) := by
        rw [found]
        rfl
      have run : perform versioning (.setDefault name version) registry =
          (if !agent.enabled then throw (disabledAgent name version)
            else do
              checkRoutes agent.name agent.routeTags
              setRoutes agent agent.routeTags : RegistryM Unit) registry := by
        simp only [perform, setDefault]
        rw [bind_ok read, bind_ok returned]
      cases enabled : agent.enabled with
      | false =>
          have stopped : perform versioning (.setDefault name version) registry =
              (.error (disabledAgent name version), registry) := by
            rw [run, enabled]
            rfl
          exact Lawful.unchanged valid (congrArg Prod.snd stopped)
      | true =>
          rw [enabled] at run
          simp only [Bool.not_true, Bool.false_eq_true, if_false] at run
          rcases @checkRoutes_spec registry agent.name agent.routeTags with
            ⟨passed, _⟩ | ⟨⟨error, raised⟩, _⟩
          · obtain ⟨after, called, rerouted⟩ := setRoutes_spec agent agent.routeTags registry
            rw [bind_ok passed, called] at run
            have ends : (event versioning registry (.setDefault name version)).after = after :=
              congrArg Prod.snd run
            have same : ∀ other tag, Offers registry other tag → Offers after other tag :=
              fun other tag offers =>
                ⟨rerouted.agents.symm ▸ offers.registered, offers.enabled, offers.lists⟩
            constructor
            · rw [ends]
              intro tag other routed
              by_cases listed : tag ∈ agent.routeTags
              · rw [rerouted.set tag listed] at routed
                cases routed
                exact same _ tag ⟨(getAgent_mem found).1, enabled, listed⟩
              · rw [rerouted.kept tag listed] at routed
                exact same other tag (valid tag other routed)
            · rw [ends]
              intro tag was _
              by_cases listed : tag ∈ agent.routeTags
              · rw [rerouted.set tag listed]
                simp
              · rwa [rerouted.kept tag listed]
            · intro asked
              cases asked
            · intro error raised
              have fine : (event versioning registry (.setDefault name version)).outcome = .ok () :=
                congrArg Prod.fst run
              rw [fine] at raised
              cases raised
          · rw [bind_error raised] at run
            exact Lawful.unchanged valid (congrArg Prod.snd run)

/-- The tag was routed to the replaced version, its new spec does not list the tag, and
another enabled agent does. -/
structure Orphans (registry : AgentRegistry) (agent : AgentSpec) (tag : String) : Prop where
  routed : RoutedTo registry agent.ref tag
  dropped : tag ∉ agent.routeTags
  left : ∃ other, Offers registry other tag ∧ other.ref ≠ agent.ref

variable (versioning registry) in
/-- The replaced version lists the tag, another version or none has its route, and the
newest enabled agent of the tag is not the one that has it. -/
structure Usurps (agent : AgentSpec) (tag : String) : Prop where
  elsewhere : ¬ RoutedTo registry agent.ref tag
  listed : ∃ previous, registry.agents.find agent.ref = some previous ∧ tag ∈ previous.routeTags
  elected : ∃ newest, latest versioning (registry.setAgent agent) tag = some newest ∧
    registry.route tag ≠ some newest

theorem register_default_lawful_iff {agent : AgentSpec} (valid : RoutesEnabled registry)
    (enabled : agent.enabled = true) (accepted : ¬ Rejected registry agent) :
    Lawful (event versioning registry (.register agent true)) ↔
      ∀ tag, ¬ Orphans registry agent tag := by
  obtain ⟨after, called, agents, set, gone, kept⟩ :=
    @register_default_spec versioning registry agent valid enabled accepted
  have ends : (event versioning registry (.register agent true)).after = after :=
    congrArg Prod.snd called
  have fine : (event versioning registry (.register agent true)).outcome = .ok () :=
    congrArg Prod.fst called
  have offers : ∀ other tag, Offers after other tag ↔
      (other = agent ∧ tag ∈ agent.routeTags) ∨
        (Offers registry other tag ∧ other.ref ≠ agent.ref) := by
    intro other tag
    constructor
    · rintro ⟨registered, active, lists⟩
      rw [agents] at registered
      rcases mem_setAgent.mp registered with rfl | ⟨member, differs⟩
      · exact Or.inl ⟨rfl, lists⟩
      · exact Or.inr ⟨⟨member, active, lists⟩, differs⟩
    · rintro (⟨rfl, lists⟩ | ⟨⟨member, active, lists⟩, differs⟩)
      · exact ⟨agents.symm ▸ mem_setAgent.mpr (Or.inl rfl), enabled, lists⟩
      · exact ⟨agents.symm ▸ mem_setAgent.mpr (Or.inr ⟨member, differs⟩), active, lists⟩
  constructor
  · intro lawful tag orphans
    obtain ⟨other, offered, differs⟩ := orphans.left
    obtain ⟨routed, found, _⟩ := orphans.routed
    have kept := lawful.stays tag (by
      show registry.route tag ≠ none
      rw [found]
      simp)
    rw [ends] at kept
    exact kept ⟨other, (offers other tag).mpr (Or.inr ⟨offered, differs⟩)⟩
      (gone tag orphans.dropped orphans.routed)
  · intro none_orphaned
    constructor
    · rw [ends]
      intro tag other routed
      by_cases listed : tag ∈ agent.routeTags
      · rw [set tag listed] at routed
        cases routed
        exact (offers _ tag).mpr (Or.inl ⟨rfl, listed⟩)
      · by_cases own : RoutedTo registry agent.ref tag
        · rw [gone tag listed own] at routed
          cases routed
        · rw [kept tag listed own] at routed
          refine (offers other tag).mpr (Or.inr ⟨valid tag other routed, ?_⟩)
          intro same
          exact own ⟨other, routed, same⟩
    · rw [ends]
      rintro tag was ⟨other, offered⟩
      by_cases listed : tag ∈ agent.routeTags
      · rw [set tag listed]
        simp
      · by_cases own : RoutedTo registry agent.ref tag
        · rcases (offers other tag).mp offered with ⟨_, lists⟩ | left
          · exact absurd lists listed
          · exact absurd ⟨own, listed, other, left⟩ (none_orphaned tag)
        · rwa [kept tag listed own]
    · intro asked
      cases asked
    · intro error raised
      rw [fine] at raised
      cases raised

theorem register_plain_lawful_iff {agent : AgentSpec} {makeDefault : Bool}
    (valid : RoutesEnabled registry) (plain : (agent.enabled && makeDefault) = false)
    (readable : ∀ previous, registry.agents.find agent.ref = some previous →
      ∀ tag ∈ previous.routeTags, Readable versioning (registry.setAgent agent) tag) :
    Lawful (event versioning registry (.register agent makeDefault)) ↔
      (makeDefault = false → ∀ tag, ¬ Usurps versioning registry agent tag) := by
  obtain ⟨after, called, agents, elected, examined, kept⟩ :=
    register_plain_spec valid plain readable
  have ends : (event versioning registry (.register agent makeDefault)).after = after :=
    congrArg Prod.snd called
  have fine : (event versioning registry (.register agent makeDefault)).outcome = .ok () :=
    congrArg Prod.fst called
  have offers : ∀ other tag, Offers after other tag ↔
      Offers (registry.setAgent agent) other tag := by
    intro other tag
    constructor
    · rintro ⟨registered, active, lists⟩
      exact ⟨agents ▸ registered, active, lists⟩
    · rintro ⟨registered, active, lists⟩
      exact ⟨agents.symm ▸ registered, active, lists⟩
  -- A route to another version survives the replacement of this one.
  have survives : ∀ tag other, registry.route tag = some other →
      ¬ RoutedTo registry agent.ref tag → Offers (registry.setAgent agent) other tag := by
    intro tag other routed elsewhere
    have offered := valid tag other routed
    refine ⟨mem_setAgent.mpr (Or.inr ⟨offered.registered, ?_⟩), offered.enabled, offered.lists⟩
    intro same
    exact elsewhere ⟨other, routed, same⟩
  constructor
  · intro lawful asked tag usurps
    obtain ⟨previous, known, lists⟩ := usurps.listed
    obtain ⟨newest, chosen, differs⟩ := usurps.elected
    have untouched := lawful.others asked tag (by
      intro routed found
      show decide (agent.ref = routed.ref) = false
      rw [decide_eq_false_iff_not]
      intro same
      exact usurps.elsewhere ⟨routed, found, same.symm⟩)
    rw [ends, examined tag previous known lists usurps.elsewhere, chosen] at untouched
    exact differs untouched.symm
  · intro modest
    constructor
    · rw [ends]
      intro tag other routed
      rw [offers]
      by_cases listed : ∃ previous, registry.agents.find agent.ref = some previous ∧
          tag ∈ previous.routeTags
      · obtain ⟨previous, known, lists⟩ := listed
        have comparable := readable previous known tag lists
        by_cases own : RoutedTo registry agent.ref tag
        · rw [elected tag previous known lists own] at routed
          exact latest_offers comparable routed
        · rw [examined tag previous known lists own] at routed
          rcases Option.or_eq_some_iff.mp routed with newest | ⟨_, current⟩
          · exact latest_offers comparable newest
          · exact survives tag other current own
      · have absent : ∀ previous, registry.agents.find agent.ref = some previous →
            tag ∉ previous.routeTags := by
          intro previous known lists
          exact listed ⟨previous, known, lists⟩
        rw [kept tag absent] at routed
        apply survives tag other routed
        rintro ⟨current, found, own⟩
        have offered := valid tag current found
        exact absent current (own ▸ Table.mem_find offered.registered) offered.lists
    · rw [ends]
      rintro tag was ⟨other, offered⟩
      rw [offers] at offered
      by_cases listed : ∃ previous, registry.agents.find agent.ref = some previous ∧
          tag ∈ previous.routeTags
      · obtain ⟨previous, known, lists⟩ := listed
        obtain ⟨newest, chosen⟩ := latest_some (readable previous known tag lists) offered
        by_cases own : RoutedTo registry agent.ref tag
        · rw [elected tag previous known lists own, chosen]
          simp
        · rw [examined tag previous known lists own, chosen]
          simp
      · rw [kept tag fun previous known lists => listed ⟨previous, known, lists⟩]
        exact was
    · intro asked tag foreign
      rw [ends]
      have elsewhere : ¬ RoutedTo registry agent.ref tag := by
        rintro ⟨routed, found, same⟩
        have other : decide (agent.ref = routed.ref) = false := foreign routed found
        rw [same] at other
        simp at other
      by_cases listed : ∃ previous, registry.agents.find agent.ref = some previous ∧
          tag ∈ previous.routeTags
      · obtain ⟨previous, known, lists⟩ := listed
        rw [examined tag previous known lists elsewhere]
        show _ = registry.route tag
        cases chosen : latest versioning (registry.setAgent agent) tag with
        | none => simp
        | some newest =>
            have same : registry.route tag = some newest := by
              by_contra differs
              exact modest asked tag ⟨elsewhere, ⟨previous, known, lists⟩, newest, chosen, differs⟩
            rw [same]
            simp
      · exact kept tag fun previous known lists => listed ⟨previous, known, lists⟩
    · intro error raised
      rw [fine] at raised
      cases raised

variable (versioning) in
def Comparable (registry : AgentRegistry) : Operation → Prop
  | .register agent makeDefault => (agent.enabled && makeDefault) = false →
      ∀ previous, registry.agents.find agent.ref = some previous →
        ∀ tag ∈ previous.routeTags, Readable versioning (registry.setAgent agent) tag
  | .setDefault _ _ => True
  | operation => ∀ tag routed, registry.route tag = some routed →
      concerns operation routed.ref = true → ReadableWithout versioning registry tag routed.ref

variable (versioning) in
/-- A registration neither drops the route of a tag that others serve nor, unless asked to
be the default, gives a tag of the replaced version another route. -/
def Prudent (registry : AgentRegistry) : Operation → Prop
  | .register agent makeDefault =>
      if agent.enabled && makeDefault then
        Rejected registry agent ∨ ∀ tag, ¬ Orphans registry agent tag
      else makeDefault = false → ∀ tag, ¬ Usurps versioning registry agent tag
  | _ => True

theorem event_lawful_iff (valid : RoutesEnabled registry) {operation : Operation}
    (comparable : Comparable versioning registry operation) :
    Lawful (event versioning registry operation) ↔ Prudent versioning registry operation := by
  cases operation with
  | register agent makeDefault =>
      by_cases taken : (agent.enabled && makeDefault) = true
      · have both := taken
        rw [Bool.and_eq_true] at both
        obtain ⟨enabled, rfl⟩ := both
        simp only [Prudent, taken, if_true]
        by_cases rejected : Rejected registry agent
        · simp only [rejected, true_or, iff_true]
          exact register_rejected valid enabled rejected
        · simp only [rejected, false_or]
          exact register_default_lawful_iff valid enabled rejected
      · have plain : (agent.enabled && makeDefault) = false := by simpa using taken
        simp only [Prudent, plain, Bool.false_eq_true, if_false]
        exact register_plain_lawful_iff valid plain (comparable plain)
  | disable name version =>
      simp only [Prudent, iff_true]
      refine retire_lawful withdraws_disabled valid rfl ?_ comparable
      intro agent
      cases version <;> rfl
  | deregister name version =>
      simp only [Prudent, iff_true]
      exact retire_lawful withdraws_removed valid rfl (fun _ => rfl) comparable
  | setDefault name version =>
      simp only [Prudent, iff_true]
      exact setDefault_lawful valid name version

/-- In a history whose elections compare versions that have keys, the route table keeps its
promises exactly as long as every registration is prudent. -/
theorem history_lawful_iff (operations : List Operation) (valid : RoutesEnabled registry)
    (comparable : ∀ call ∈ history versioning registry operations,
      Comparable versioning call.before call.operation) :
    (∀ call ∈ history versioning registry operations, Lawful call) ↔
      ∀ call ∈ history versioning registry operations,
        Prudent versioning call.before call.operation := by
  -- A lawful call leaves valid routes, which the next one needs.
  induction operations generalizing registry with
  | nil => simp [history]
  | cons operation rest ih =>
      simp only [history, List.forall_mem_cons] at comparable ⊢
      have first := event_lawful_iff valid comparable.1
      constructor
      · rintro ⟨lawful, later⟩
        exact ⟨first.mp lawful, (ih lawful.routed comparable.2).mp later⟩
      · rintro ⟨prudent, later⟩
        have lawful := first.mpr prudent
        exact ⟨lawful, (ih lawful.routed comparable.2).mpr later⟩

end Operations

/-- The route table keeps its promises over every history of an initially empty registry
whose registrations are prudent and whose elections compare versions that have keys. -/
theorem route_table_lawful_iff (versioning : Versioning) (operations : List Operation)
    (comparable : ∀ call ∈ history versioning AgentRegistry.empty operations,
      Comparable versioning call.before call.operation) :
    (∀ call ∈ history versioning AgentRegistry.empty operations, Lawful call) ↔
      ∀ call ∈ history versioning AgentRegistry.empty operations,
        Prudent versioning call.before call.operation :=
  history_lawful_iff operations routesEnabled_empty comparable

section Replay

def asciiVersioning : Versioning where
  Version := Empty
  older := fun _ _ => false
  parse := fun _ => none
  isdigit := Char.isDigit
  int := fun part => some (part.foldl (fun total digit => total * 10 + (digit.toNat - 48)) 0)

def echoAgent (version : String) (routeTags : List String) : AgentSpec :=
  { name := "echo", version := version, routeTags := routeTags }

theorem echo_alone : ([echoAgent "1.0.0" ["support"]].map AgentSpec.ref).Nodup := by decide

def droppedTag : List Operation :=
  [.register (echoAgent "1.0.0" ["support"]) true,
    .register (echoAgent "2.0.0" ["support", "triage"]) true,
    .register (echoAgent "2.0.0" ["triage"]) true]

def registryAfter (operations : List Operation) : AgentRegistry :=
  operations.foldl (fun registry operation => (event asciiVersioning registry operation).after)
    AgentRegistry.empty

theorem registered_route_lost :
    ¬ ∀ call ∈ history asciiVersioning AgentRegistry.empty droppedTag, Lawful call := by
  intro lawful
  have last : event asciiVersioning (registryAfter (droppedTag.take 2))
      (.register (echoAgent "2.0.0" ["triage"]) true) ∈
      history asciiVersioning AgentRegistry.empty droppedTag :=
    List.mem_cons_of_mem _ (List.mem_cons_of_mem _ List.mem_cons_self)
  have stays := (lawful _ last).stays "support" (by
    show (registryAfter (droppedTag.take 2)).route "support" ≠ none
    decide +kernel)
  apply stays
  · refine ⟨echoAgent "1.0.0" ["support"], ?_, rfl, by simp [echoAgent]⟩
    show echoAgent "1.0.0" ["support"] ∈ (registryAfter droppedTag).agents.rows
    decide +kernel
  · show (registryAfter droppedTag).route "support" = none
    decide +kernel

theorem asciiVersioning_reads (version : String) :
    ∃ key, versionKey asciiVersioning version = .ok key := by
  have parts : ∀ runs : List (List Char),
      ∃ keys, runs.mapM (naturalPart asciiVersioning) = .ok keys := by
    intro runs
    induction runs with
    | nil => exact ⟨[], rfl⟩
    | cons run rest ih =>
        obtain ⟨keys, read⟩ := ih
        have first : ∃ key, naturalPart asciiVersioning run = .ok key := by
          unfold naturalPart
          split
          · exact ⟨_, rfl⟩
          · exact ⟨_, rfl⟩
        obtain ⟨key, own⟩ := first
        refine ⟨key :: keys, ?_⟩
        rw [List.mapM_cons, own, read]
        rfl
  obtain ⟨keys, read⟩ := parts (splitDigits version)
  refine ⟨.natural keys, ?_⟩
  show ((splitDigits version).mapM (naturalPart asciiVersioning) >>= fun keys =>
    Except.ok (VersionKey.natural keys)) = _
  rw [read]
  rfl

theorem asciiVersioning_comparable (registry : AgentRegistry) (operation : Operation) :
    Comparable asciiVersioning registry operation := by
  cases operation with
  | register agent makeDefault =>
      intro _ previous _ tag _ other _
      exact asciiVersioning_reads other.version
  | setDefault name version => trivial
  | disable name version =>
      intro tag routed _ _ other _ _
      exact asciiVersioning_reads other.version
  | deregister name version =>
      intro tag routed _ _ other _ _
      exact asciiVersioning_reads other.version

theorem unorphaned {registry : AgentRegistry} {agent : AgentSpec}
    (foreign : ∀ row ∈ registry.routes.rows, row.2.ref ≠ agent.ref) (tag : String) :
    ¬ Orphans registry agent tag := by
  intro orphans
  obtain ⟨routed, found, same⟩ := orphans.routed
  exact foreign (tag, routed) ((mem_routes registry tag routed).mpr found) same

def newestDisabled : List Operation :=
  [.register (echoAgent "1.0.0" ["support"]) true,
    .register (echoAgent "2.0.0" ["support"]) true,
    .disable "echo" (some "2.0.0")]

theorem route_table_lawful_iff_disabled :
    (∀ call ∈ history asciiVersioning AgentRegistry.empty newestDisabled, Lawful call) ∧
      (registryAfter newestDisabled).route "support" = some (echoAgent "1.0.0" ["support"]) := by
  refine ⟨(route_table_lawful_iff asciiVersioning newestDisabled
    fun call _ => asciiVersioning_comparable call.before call.operation).mpr ?_, by decide +kernel⟩
  have first : ∀ row ∈ AgentRegistry.empty.routes.rows,
      row.2.ref ≠ (echoAgent "1.0.0" ["support"]).ref := by decide
  have second : ∀ row ∈ (registryAfter (newestDisabled.take 1)).routes.rows,
      row.2.ref ≠ (echoAgent "2.0.0" ["support"]).ref := by decide +kernel
  intro call member
  simp only [newestDisabled, history, List.mem_cons, List.not_mem_nil, or_false] at member
  rcases member with rfl | rfl | rfl
  · exact Or.inr (unorphaned first)
  · exact Or.inr (unorphaned second)
  · trivial

end Replay

end AgentTaskPlatform.RouteTable
