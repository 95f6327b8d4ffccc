import AgentTaskPlatform.AgentReload
import AgentTaskPlatform.VersionOrder

/-!
When a reload of the agents comes to what a restart comes to. The routes after some rows
are those of `holder`; the loop over the rows stops where a tag is not free.
-/

namespace AgentTaskPlatform.AgentReload

open KeyedTable Registry RouteTable FirstMaximum
open StatefulCalls (get_run modify_run throw_run lift_run pure_run)
open Skills (Keyed)

variable {versioning : Versioning} {registry : AgentRegistry} {rows : AgentRows}

section Validity

theorem elect_valid (valid : RoutesEnabled registry) (tag : String) :
    RoutesEnabled (elect versioning tag registry).2 := by
  simp only [elect, latestEnabledForTag, bind_run, get_run, lift_run]
  cases elected : maxVersion versioning (registry.enabledFor tag) with
  | error error => exact valid
  | ok best =>
      cases best with
      | none => exact valid
      | some agent =>
          intro wanted routed found
          have offers := mem_enabledFor.mp (maxVersion_mem elected)
          change (registry.setRoute tag agent).route wanted = some routed at found
          rw [route_setRoute] at found
          by_cases same : wanted = tag
          · rw [if_pos same] at found
            cases found
            subst same
            exact ⟨offers.registered, offers.enabled, offers.lists⟩
          · rw [if_neg same] at found
            obtain ⟨registered, enabled, lists⟩ := valid wanted routed found
            exact ⟨registered, enabled, lists⟩

theorem electAll_valid (valid : RoutesEnabled registry) (tags : List String) :
    RoutesEnabled (electAll versioning tags registry).2 := by
  induction tags generalizing registry with
  | nil => exact valid
  | cons tag rest ih =>
      have first : RoutesEnabled (elect versioning tag registry).2 := elect_valid valid tag
      simp only [electAll, bind_run]
      cases called : elect versioning tag registry with
      | mk outcome after =>
          rw [called] at first
          cases outcome with
          | error error => exact first
          | ok value => exact ih first

theorem replaced_valid (valid : RoutesEnabled registry) {agent : AgentSpec}
    {middle : AgentRegistry} (agents : middle.agents = registry.agents)
    (gone : ∀ tag, RoutedTo registry agent.ref tag → middle.route tag = none)
    (kept : ∀ tag, ¬ RoutedTo registry agent.ref tag → middle.route tag = registry.route tag) :
    RoutesEnabled (middle.setAgent agent) := by
  intro tag routed found
  rw [route_setAgent] at found
  by_cases own : RoutedTo registry agent.ref tag
  · rw [gone tag own] at found
    cases found
  · rw [kept tag own] at found
    obtain ⟨registered, enabled, lists⟩ := valid tag routed found
    refine ⟨mem_setAgent.mpr (Or.inr ⟨agents.symm ▸ registered, ?_⟩), enabled, lists⟩
    intro same
    exact own ⟨routed, found, same⟩

theorem register_valid (valid : RoutesEnabled registry) (agent : AgentSpec)
    (makeDefault : Bool) : RoutesEnabled (register versioning agent makeDefault registry).2 := by
  have rest (validated : validateRoutes agent makeDefault registry = (.ok (), registry)) :
      RoutesEnabled (register versioning agent makeDefault registry).2 := by
    obtain ⟨middle, popped, agents, gone, kept⟩ := replaced_spec valid agent
    have replaced := replaced_valid valid agents gone kept
    simp only [register, bind_run, validated, get_run, popped, modify_run]
    by_cases plain : (!agent.enabled || !makeDefault) = true
    · simp only [plain, if_true]
      cases registry.agents.find agent.ref with
      | none => exact replaced
      | some previous => exact electAll_valid replaced previous.routeTags
    · simp only [plain]
      have enabled : agent.enabled = true := by
        cases on : agent.enabled with
        | true => rfl
        | false => simp [on] at plain
      obtain ⟨after, called, rerouted⟩ :=
        setRoutes_spec agent agent.routeTags (middle.setAgent agent)
      change RoutesEnabled (setRoutes agent agent.routeTags (middle.setAgent agent)).2
      rw [called]
      intro tag routed found
      by_cases listed : tag ∈ agent.routeTags
      · rw [rerouted.set tag listed] at found
        cases found
        refine ⟨?_, enabled, listed⟩
        rw [rerouted.agents]
        exact mem_setAgent.mpr (Or.inl rfl)
      · rw [rerouted.kept tag listed] at found
        obtain ⟨registered, on, lists⟩ := replaced tag routed found
        exact ⟨rerouted.agents.symm ▸ registered, on, lists⟩
  by_cases asked : (agent.enabled && makeDefault) = true
  · rcases @checkRoutes_spec registry agent.name agent.routeTags with
      ⟨passed, _⟩ | ⟨⟨error, raised⟩, _⟩
    · apply rest
      simp only [validateRoutes, asked, if_true]
      exact passed
    · have validated : validateRoutes agent makeDefault registry = (.error error, registry) := by
        simp only [validateRoutes, asked, if_true]
        exact raised
      rw [register, bind_error validated]
      exact valid
  · apply rest
    simp only [validateRoutes, asked]
    rfl

end Validity

section Removals

def AllKeyed (versioning : Versioning) (registry : AgentRegistry) : Prop :=
  ∀ agent ∈ registry.agents.rows, Keyed versioning agent.version

theorem AllKeyed.readable (keyed : AllKeyed versioning registry) (tag : String) :
    Readable versioning registry tag :=
  fun agent offers => keyed agent offers.registered

theorem filter_registered {spec : AgentSpec} (member : spec ∈ registry.agents.rows) :
    (registry.agents.rows.filter fun agent => agent.name = spec.name &&
      (some spec.version).all (agent.version = ·)) = [spec] := by
  have found : registry.agents.find spec.ref = some spec := Table.mem_find member
  refine Table.filter_keyed found (by simp) ?_
  intro agent _ holds
  simpa [AgentSpec.ref] using holds

/-- A removed version gives its routes to the newest ones that are left. -/
theorem deregister_spec (keyed : AllKeyed versioning registry) {spec : AgentSpec}
    (member : spec ∈ registry.agents.rows) :
    ∃ after, deregister versioning spec.name (some spec.version) registry = (.ok (), after) ∧
      after.agents = (registry.popAgent spec.ref).agents ∧
      (∀ tag, RoutedTo registry spec.ref tag → after.route tag = latest versioning after tag) ∧
      ∀ tag, ¬ RoutedTo registry spec.ref tag → after.route tag = registry.route tag := by
  have kept : AllKeyed versioning (registry.popAgent spec.ref) :=
    fun agent inside => keyed agent (mem_popAgent.mp inside).1
  obtain ⟨after, called, rerouted⟩ := reelectRoutes_spec spec.ref registry.routes.rows
    (registry.popAgent spec.ref) fun tag _ => kept.readable tag
  have marked : ∀ tag, routedTo spec.ref registry.routes.rows tag ↔
      RoutedTo registry spec.ref tag := by
    intro tag
    simp only [routedTo, RoutedTo, mem_routes]
  refine ⟨after, ?_, rerouted.agents, ?_, ?_⟩
  · have once : retireEach versioning (fun agent registry => registry.popAgent agent.ref) [spec]
        registry = (.ok (), after) := by
      have routes : (registry.popAgent spec.ref).routes = registry.routes := rfl
      simp only [retireEach, bind_run, modify_run, get_run, routes, called, pure_run]
    simp only [deregister, retire, bind_run, get_run, filter_registered member, once]
    rfl
  · intro tag own
    rw [rerouted.set tag ((marked tag).mpr own), latest_agents rerouted.agents]
  · intro tag other
    rw [rerouted.kept tag fun hit => other ((marked tag).mp hit), route_popAgent]

structure Removed (versioning : Versioning) (gone : AgentRef → Bool)
    (before after : AgentRegistry) : Prop where
  agents : after.agents.rows = before.agents.rows.filter fun agent => !gone agent.ref
  lost : ∀ tag routed, before.route tag = some routed → gone routed.ref = true →
    after.route tag = latest versioning after tag
  kept : ∀ tag, (∀ routed, before.route tag = some routed → gone routed.ref = false) →
    after.route tag = before.route tag

theorem Removed.none (registry : AgentRegistry) :
    Removed versioning (fun _ => false) registry registry :=
  ⟨by simp, fun _ _ _ impossible => (Bool.false_ne_true impossible).elim, fun _ _ => rfl⟩

theorem Removed.keyed {gone : AgentRef → Bool} {before after : AgentRegistry}
    (removed : Removed versioning gone before after) (keyed : AllKeyed versioning before) :
    AllKeyed versioning after := by
  intro agent member
  rw [removed.agents] at member
  exact keyed agent (List.mem_filter.mp member).1

theorem Removed.enabledFor {gone : AgentRef → Bool} {before after : AgentRegistry}
    (removed : Removed versioning gone before after) (tag : String) :
    after.enabledFor tag = (before.enabledFor tag).filter fun agent => !gone agent.ref := by
  rw [AgentRegistry.enabledFor, AgentRegistry.enabledFor, removed.agents, List.filter_comm]

theorem Removed.latest {gone : AgentRef → Bool} {before after : AgentRegistry}
    (removed : Removed versioning gone before after) (ordered : versioning.Ordered)
    (keyed : AllKeyed versioning before) {tag : String}
    (stays : ∀ agent, latest versioning before tag = some agent → gone agent.ref = false) :
    latest versioning after tag = latest versioning before tag := by
  rw [latest_eq ((removed.keyed keyed).readable tag), latest_eq (keyed.readable tag),
    removed.enabledFor]
  rw [latest_eq (keyed.readable tag)] at stays
  cases newest : firstNewest versioning AgentSpec.version (before.enabledFor tag) with
  | none =>
      rw [firstNewest_none] at newest
      rw [newest]
      rfl
  | some agent =>
      apply firstNewest_filter ordered newest
      rw [stays agent newest]
      rfl

theorem Removed.valid {gone : AgentRef → Bool} {before after : AgentRegistry}
    (removed : Removed versioning gone before after) (keyed : AllKeyed versioning before)
    (valid : RoutesEnabled before) : RoutesEnabled after := by
  intro tag agent found
  by_cases lost : ∃ routed, before.route tag = some routed ∧ gone routed.ref = true
  · obtain ⟨routed, was, missing⟩ := lost
    rw [removed.lost tag routed was missing] at found
    exact latest_offers ((removed.keyed keyed).readable tag) found
  · have stays : ∀ routed, before.route tag = some routed → gone routed.ref = false := by
      intro routed was
      by_contra missing
      exact lost ⟨routed, was, by simpa using missing⟩
    rw [removed.kept tag stays] at found
    obtain ⟨registered, enabled, lists⟩ := valid tag agent found
    refine ⟨?_, enabled, lists⟩
    rw [removed.agents]
    refine List.mem_filter.mpr ⟨registered, ?_⟩
    rw [stays agent found]
    rfl

theorem Removed.then {gone more : AgentRef → Bool} {before middle after : AgentRegistry}
    (ordered : versioning.Ordered) (keyed : AllKeyed versioning before)
    (first : Removed versioning gone before middle)
    (second : Removed versioning more middle after) :
    Removed versioning (fun ref => gone ref || more ref) before after where
  agents := by
    rw [second.agents, first.agents, List.filter_filter]
    apply List.filter_congr
    intro agent _
    rw [Bool.not_or, Bool.and_comm]
  lost := by
    intro tag routed found either
    by_cases own : gone routed.ref = true
    · have elected := first.lost tag routed found own
      by_cases again : ∃ agent, middle.route tag = some agent ∧ more agent.ref = true
      · obtain ⟨agent, here, gone⟩ := again
        exact second.lost tag agent here gone
      · have stays : ∀ agent, middle.route tag = some agent → more agent.ref = false := by
          intro agent here
          by_contra gone
          exact again ⟨agent, here, by simpa using gone⟩
        rw [second.kept tag stays, elected]
        rw [elected] at stays
        exact (second.latest ordered (first.keyed keyed) stays).symm
    · have same : middle.route tag = before.route tag := by
        apply first.kept tag
        intro agent here
        rw [found] at here
        cases here
        simpa using own
      have later : more routed.ref = true := by simpa [own] using either
      exact second.lost tag routed (same.trans found) later
  kept := by
    intro tag stays
    have same : middle.route tag = before.route tag := by
      apply first.kept tag
      intro agent here
      have neither := stays agent here
      rw [Bool.or_eq_false_iff] at neither
      exact neither.1
    rw [← same]
    apply second.kept tag
    intro agent here
    have neither := stays agent (same ▸ here)
    rw [Bool.or_eq_false_iff] at neither
    exact neither.2

variable (rows) in
theorem removeMissing_spec (ordered : versioning.Ordered) {specs : List AgentSpec}
    (keyed : AllKeyed versioning registry) (inside : ∀ spec ∈ specs, spec ∈ registry.agents.rows)
    (once : (specs.map AgentSpec.ref).Nodup) :
    ∃ count after, removeMissing versioning rows specs registry = (.ok count, after) ∧
      Removed versioning (fun ref => (rows.find ref).isNone && (specs.map AgentSpec.ref).contains ref)
        registry after := by
  -- On the agents that were listed; each removal keeps the others and their keys.
  induction specs generalizing registry with
  | nil =>
      refine ⟨0, registry, rfl, ?_⟩
      simpa using Removed.none registry
  | cons spec rest ih =>
      rw [List.map_cons, List.nodup_cons] at once
      have member := inside spec List.mem_cons_self
      have later : ∀ other ∈ rest, other ∈ registry.agents.rows :=
        fun other here => inside other (List.mem_cons_of_mem _ here)
      simp only [removeMissing]
      cases found : rows.find spec.ref with
      | some row =>
          obtain ⟨count, after, called, removed⟩ := ih keyed later once.2
          refine ⟨count, after, called, ?_⟩
          have same : (fun ref => (rows.find ref).isNone &&
              ((spec :: rest).map AgentSpec.ref).contains ref) = fun ref =>
              (rows.find ref).isNone && (rest.map AgentSpec.ref).contains ref := by
            funext ref
            by_cases own : ref = spec.ref
            · simp [own, found]
            · simp [own]
          rw [same]
          exact removed
      | none =>
          obtain ⟨middle, deregistered, agents, lost, kept⟩ := deregister_spec keyed member
          have first : Removed versioning (fun ref => ref = spec.ref) registry middle := by
            refine ⟨?_, ?_, ?_⟩
            · rw [agents]
              rfl
            · intro tag routed here own
              exact lost tag ⟨routed, here, of_decide_eq_true own⟩
            · intro tag stays
              apply kept
              rintro ⟨routed, here, own⟩
              have other := stays routed here
              simp [own] at other
          have remaining : ∀ other ∈ rest, other ∈ middle.agents.rows := by
            intro other here
            rw [agents]
            refine mem_popAgent.mpr ⟨later other here, ?_⟩
            intro same
            exact once.1 (same ▸ List.mem_map_of_mem here)
          obtain ⟨count, after, called, second⟩ := ih (first.keyed keyed) remaining once.2
          refine ⟨count + 1, after, ?_, ?_⟩
          · simp only [bind_run, deregistered, called, pure_run]
          · have both := first.then ordered keyed second
            have same : (fun ref => decide (ref = spec.ref) ||
                ((rows.find ref).isNone && (rest.map AgentSpec.ref).contains ref)) = fun ref =>
                (rows.find ref).isNone && ((spec :: rest).map AgentSpec.ref).contains ref := by
              funext ref
              by_cases own : ref = spec.ref
              · simp [own, found]
              · simp [own]
            rw [← same]
            exact both

theorem removeMissing_nothing {specs : List AgentSpec}
    (present : ∀ spec ∈ specs, (rows.find spec.ref).isSome = true) :
    removeMissing versioning rows specs registry = (.ok 0, registry) := by
  induction specs with
  | nil => rfl
  | cons spec rest ih =>
      obtain ⟨row, found⟩ := Option.isSome_iff_exists.mp (present spec List.mem_cons_self)
      simp only [removeMissing, found]
      exact ih fun other member => present other (List.mem_cons_of_mem _ member)

end Removals

section Holders

variable {applied : List AgentSpec} {spec agent : AgentSpec} {tag : String}

theorem current_cons : current registry (spec :: applied) agent =
    (!(changed registry spec && spec.ref = agent.ref && spec ≠ agent) &&
      current registry applied agent) := by
  simp only [current, List.any_cons, Bool.not_or]

theorem remaining_find {ref : AgentRef} (present : (rows.find ref).isSome = true) :
    (remaining registry rows).agents.find ref = registry.agents.find ref := by
  rw [remaining, Table.find_deleteWhere_eq]
  cases found : registry.agents.find ref with
  | none => rfl
  | some agent =>
      have key : agent.ref = ref := Table.find_key found
      obtain ⟨row, same⟩ := Option.isSome_iff_exists.mp present
      simp [Option.filter_some, key, same]

theorem blend_find_other {ref : AgentRef} (fresh : ref ∉ applied.map AgentSpec.ref) :
    (blend registry rows applied).agents.find ref = (remaining registry rows).agents.find ref := by
  induction applied with
  | nil => rfl
  | cons spec earlier ih =>
      simp only [List.map_cons, List.mem_cons, not_or] at fresh
      rw [blend]
      split
      · exact (Table.find_upsert_other _ fresh.1).trans (ih fresh.2)
      · exact ih fresh.2

theorem blend_find_applied (once : (applied.map AgentSpec.ref).Nodup)
    (present : ∀ spec ∈ applied, (rows.find spec.ref).isSome = true) (member : spec ∈ applied) :
    (blend registry rows applied).agents.find spec.ref = some spec := by
  induction applied with
  | nil => cases member
  | cons first earlier ih =>
      rw [List.map_cons, List.nodup_cons] at once
      have later : ∀ spec ∈ earlier, (rows.find spec.ref).isSome = true :=
        fun spec inside => present spec (List.mem_cons_of_mem _ inside)
      rw [blend]
      rcases List.mem_cons.mp member with rfl | inside
      · split
        · exact Table.find_upsert_self _ spec
        · next same =>
            -- A row that is skipped is registered as it is already.
            rw [blend_find_other once.1, remaining_find (present spec List.mem_cons_self)]
            simpa [changed] using same
      · have other : spec.ref ≠ first.ref := by
          intro equal
          exact once.1 (equal ▸ List.mem_map_of_mem inside)
        split
        · exact (Table.find_upsert_other _ other).trans (ih once.2 later inside)
        · exact ih once.2 later inside

theorem blend_current (once : (applied.map AgentSpec.ref).Nodup)
    (present : ∀ spec ∈ applied, (rows.find spec.ref).isSome = true)
    (member : agent ∈ (blend registry rows applied).agents.rows) :
    current registry applied agent = true := by
  have found := Table.mem_find member
  simp only [current, Bool.not_eq_true', List.any_eq_false, Bool.and_eq_true,
    decide_eq_true_eq, not_and, not_not]
  intro spec inside changes
  have own : (blend registry rows applied).agents.find spec.ref = some spec :=
    blend_find_applied once present inside
  rw [changes.2, found] at own
  exact (Option.some.inj own).symm

theorem blend_keyed (keyed : AllKeyed versioning registry)
    (rowsKeyed : ∀ spec ∈ applied, Keyed versioning spec.version) :
    AllKeyed versioning (blend registry rows applied) := by
  induction applied with
  | nil => exact fun agent member => keyed agent (List.mem_filter.mp member).1
  | cons spec earlier ih =>
      have later := ih fun spec inside => rowsKeyed spec (List.mem_cons_of_mem _ inside)
      rw [blend]
      split
      · intro agent member
        rcases mem_setAgent.mp member with rfl | ⟨old, _⟩
        · exact rowsKeyed agent List.mem_cons_self
        · exact later agent old
      · exact later

theorem holder_nil : holder versioning registry rows tag [] =
    survivor versioning registry rows tag := by
  change (survivor versioning registry rows tag).filter (current registry []) = _
  cases survivor versioning registry rows tag <;> rfl

theorem holder_unchanged (same : changed registry spec = false) :
    holder versioning registry rows tag (spec :: applied) =
      holder versioning registry rows tag applied := by
  have settled : settles registry tag spec = false := by simp [settles, same]
  have kept : current registry (spec :: applied) = current registry applied := by
    funext agent
    simp [current_cons, same]
  simp only [holder, List.dropWhile_cons, settled, Bool.not_false, if_true, kept]

theorem holder_set (settled : settles registry tag spec = true) (enabled : spec.enabled = true) :
    holder versioning registry rows tag (spec :: applied) = some spec := by
  simp [holder, settled, enabled]

theorem holder_elected (settled : settles registry tag spec = true)
    (disabled : spec.enabled = false) :
    holder versioning registry rows tag (spec :: applied) =
      (latest versioning (blend registry rows (spec :: applied)) tag).filter
        (current registry (spec :: applied)) := by
  simp [holder, settled, disabled]

theorem holder_passed (once : spec.ref ∉ applied.map AgentSpec.ref)
    (change : changed registry spec = true) (passed : settles registry tag spec = false) :
    holder versioning registry rows tag (spec :: applied) =
      (holder versioning registry rows tag applied).filter fun agent =>
        !(decide (spec.ref = agent.ref) && decide (spec ≠ agent)) := by
  have kept : ∀ found : Option AgentSpec, found.filter (current registry (spec :: applied)) =
      (found.filter (current registry applied)).filter fun agent =>
        !(decide (spec.ref = agent.ref) && decide (spec ≠ agent)) := by
    intro found
    rw [Option.filter_filter]
    congr 1
    funext agent
    rw [current_cons, change, Bool.true_and, Bool.and_comm]
  simp only [holder, List.dropWhile_cons, passed, Bool.not_false, if_true]
  cases settling : applied.dropWhile fun spec => !settles registry tag spec with
  | nil => exact kept _
  | cons last earlier =>
      simp only []
      split
      · have inside : last ∈ applied := by
          have suffix : last :: earlier <:+ applied := settling ▸ List.dropWhile_suffix _
          exact suffix.subset List.mem_cons_self
        have other : spec.ref ≠ last.ref := by
          intro equal
          exact once (equal ▸ List.mem_map_of_mem inside)
        simp [Option.filter_some, other]
      · exact kept _

end Holders

section Registrations

variable {applied rest listed : List AgentSpec} {reached : AgentRegistry}

structure Blended (versioning : Versioning) (registry : AgentRegistry) (rows : AgentRows)
    (applied : List AgentSpec) (reached : AgentRegistry) : Prop where
  valid : RoutesEnabled reached
  agents : reached.agents = (blend registry rows applied).agents
  routes : ∀ tag, reached.route tag = holder versioning registry rows tag applied

structure Prepared (versioning : Versioning) (registry : AgentRegistry) (rows : AgentRows) :
    Prop where
  valid : RoutesEnabled registry
  registered : AllKeyed versioning registry
  stored : ∀ spec ∈ rows.rows, Keyed versioning spec.version

structure NextRow (rows : AgentRows) (applied : List AgentSpec) (spec : AgentSpec) : Prop where
  once : ((spec :: applied).map AgentSpec.ref).Nodup
  present : ∀ row ∈ spec :: applied, row ∈ rows.rows

theorem NextRow.fresh {spec : AgentSpec} (next : NextRow rows applied spec) :
    spec.ref ∉ applied.map AgentSpec.ref := by
  have once := next.once
  rw [List.map_cons, List.nodup_cons] at once
  exact once.1

theorem NextRow.stored {spec : AgentSpec} (next : NextRow rows applied spec) :
    ∀ row ∈ spec :: applied, (rows.find row.ref).isSome = true := by
  intro row member
  rw [Table.mem_find (next.present row member)]
  rfl

theorem Blended.find {spec : AgentSpec} (blended : Blended versioning registry rows applied reached)
    (next : NextRow rows applied spec) :
    reached.agents.find spec.ref = registry.agents.find spec.ref := by
  rw [blended.agents, blend_find_other next.fresh,
    remaining_find (next.stored spec List.mem_cons_self)]

theorem Blended.skip {spec : AgentSpec} (blended : Blended versioning registry rows applied reached)
    (same : changed registry spec = false) :
    Blended versioning registry rows (spec :: applied) reached where
  valid := blended.valid
  agents := by
    rw [blended.agents, blend, same]
    rfl
  routes := by
    intro tag
    rw [holder_unchanged same]
    exact blended.routes tag

theorem Blended.replaces {spec routed : AgentSpec} {tag : String}
    (blended : Blended versioning registry rows applied reached)
    (next : NextRow rows applied spec) (change : changed registry spec = true)
    (found : reached.route tag = some routed) (same : routed.ref = spec.ref) :
    registry.agents.find spec.ref = some routed ∧ spec ≠ routed := by
  have registered := Table.mem_find (blended.valid tag routed found).registered
  rw [same, blended.find next] at registered
  refine ⟨registered, ?_⟩
  rintro rfl
  simp [changed, registered] at change

theorem Blended.passed {spec : AgentSpec} {tag : String} {after : AgentRegistry}
    (blended : Blended versioning registry rows applied reached)
    (next : NextRow rows applied spec) (change : changed registry spec = true)
    (passed : settles registry tag spec = false)
    (gone : RoutedTo reached spec.ref tag → after.route tag = none)
    (kept : ¬ RoutedTo reached spec.ref tag → after.route tag = reached.route tag) :
    after.route tag = holder versioning registry rows tag (spec :: applied) := by
  rw [holder_passed next.fresh change passed, ← blended.routes tag]
  by_cases own : RoutedTo reached spec.ref tag
  · obtain ⟨routed, found, same⟩ := own
    have other := (blended.replaces next change found same).2
    rw [gone ⟨routed, found, same⟩, found]
    simp [Option.filter_some, same, other]
  · rw [kept own]
    cases found : reached.route tag with
    | none => rfl
    | some routed =>
        have differs : spec.ref ≠ routed.ref := fun same => own ⟨routed, found, same.symm⟩
        simp [Option.filter_some, differs]

theorem Blended.enabled {spec : AgentSpec}
    (blended : Blended versioning registry rows applied reached)
    (next : NextRow rows applied spec) (change : changed registry spec = true)
    (enabled : spec.enabled = true)
    (free : ∀ tag ∈ spec.routeTags, ∀ other,
      holder versioning registry rows tag applied = some other → other.name = spec.name) :
    ∃ after, register versioning spec true reached = (.ok (), after) ∧
      Blended versioning registry rows (spec :: applied) after := by
  have accepted : ¬ Rejected reached spec := by
    rintro ⟨tag, listed, existing, found, other⟩
    rw [blended.routes tag] at found
    exact other (free tag listed existing found)
  obtain ⟨after, called, agents, own, dropped, others⟩ :=
    @register_default_spec versioning reached spec blended.valid enabled accepted
  have valid : RoutesEnabled (register versioning spec true reached).2 :=
    register_valid blended.valid spec true
  change register versioning spec true reached = _ at called
  rw [called] at valid
  refine ⟨after, called, valid, ?_, ?_⟩
  · rw [agents, blend, if_pos change, AgentRegistry.setAgent, AgentRegistry.setAgent,
      blended.agents]
  · intro tag
    have settling : settles registry tag spec = spec.routeTags.contains tag := by
      simp [settles, change, enabled]
    by_cases listed : tag ∈ spec.routeTags
    · have settled : settles registry tag spec = true := by simpa [settling] using listed
      rw [own tag listed, holder_set settled enabled]
    · have passed : settles registry tag spec = false := by simpa [settling] using listed
      exact blended.passed next change passed (dropped tag listed) (others tag listed)

theorem Blended.disabled {spec : AgentSpec} (prepared : Prepared versioning registry rows)
    (blended : Blended versioning registry rows applied reached)
    (next : NextRow rows applied spec) (change : changed registry spec = true)
    (disabled : spec.enabled = false) :
    ∃ after, register versioning spec true reached = (.ok (), after) ∧
      Blended versioning registry rows (spec :: applied) after := by
  have blending : (blend registry rows (spec :: applied)).agents =
      (reached.setAgent spec).agents := by
    rw [blend, if_pos change, AgentRegistry.setAgent, AgentRegistry.setAgent, blended.agents]
  have keyed : AllKeyed versioning (reached.setAgent spec) := by
    have all : AllKeyed versioning (blend registry rows (spec :: applied)) :=
      blend_keyed prepared.registered fun row member => prepared.stored row (next.present row member)
    rw [AllKeyed, blending] at all
    exact all
  have plain : (spec.enabled && true) = false := by simp [disabled]
  obtain ⟨after, called, agents, moved, given, others⟩ :=
    register_plain_spec blended.valid plain fun previous _ tag _ => keyed.readable tag
  have valid : RoutesEnabled (register versioning spec true reached).2 :=
    register_valid blended.valid spec true
  change register versioning spec true reached = _ at called
  rw [called] at valid
  refine ⟨after, called, valid, ?_, ?_⟩
  · rw [agents, blending]
  · intro tag
    have settling : settles registry tag spec =
        (registry.agents.find spec.ref).any fun previous => previous.routeTags.contains tag := by
      simp [settles, change, disabled]
    rw [blended.find next] at moved given others
    by_cases listed : ∃ previous, registry.agents.find spec.ref = some previous ∧
        tag ∈ previous.routeTags
    · obtain ⟨previous, found, lists⟩ := listed
      have settled : settles registry tag spec = true := by simpa [settling, found] using lists
      have elected : after.route tag = latest versioning (reached.setAgent spec) tag := by
        by_cases own : RoutedTo reached spec.ref tag
        · exact moved tag previous found lists own
        · rw [given tag previous found lists own]
          cases newest : latest versioning (reached.setAgent spec) tag with
          | some agent => rfl
          | none =>
              -- The route would be to an agent that the election has found.
              cases route : reached.route tag with
              | none => rfl
              | some routed =>
                  have offers := blended.valid tag routed route
                  have differs : routed.ref ≠ spec.ref := fun same => own ⟨routed, route, same⟩
                  have here : Offers (reached.setAgent spec) routed tag :=
                    ⟨mem_setAgent.mpr (Or.inr ⟨offers.registered, differs⟩), offers.enabled,
                      offers.lists⟩
                  obtain ⟨agent, found⟩ := latest_some (keyed.readable tag) here
                  rw [newest] at found
                  cases found
      rw [elected, holder_elected settled disabled, latest_agents blending]
      cases newest : latest versioning (reached.setAgent spec) tag with
      | none => rfl
      | some agent =>
          have offers := latest_offers (keyed.readable tag) newest
          have member : agent ∈ (blend registry rows (spec :: applied)).agents.rows := by
            rw [blending]
            exact offers.registered
          rw [Option.filter_some, if_pos (blend_current next.once next.stored member)]
    · have absent : ∀ previous, registry.agents.find spec.ref = some previous →
          tag ∉ previous.routeTags := fun previous found lists => listed ⟨previous, found, lists⟩
      have passed : settles registry tag spec = false := by
        rw [settling]
        cases found : registry.agents.find spec.ref with
        | none => rfl
        | some previous => simpa using absent previous found
      apply blended.passed next change passed
      · rintro ⟨routed, found, same⟩
        have previous := (blended.replaces next change found same).1
        exact absurd (blended.valid tag routed found).lists (absent routed previous)
      · exact fun _ => others tag absent

theorem Blended.refused {spec : AgentSpec}
    (blended : Blended versioning registry rows applied reached) (enabled : spec.enabled = true)
    {tag : String} {other : AgentSpec} (listed : tag ∈ spec.routeTags)
    (held : holder versioning registry rows tag applied = some other)
    (foreign : other.name ≠ spec.name) :
    ∃ error after, register versioning spec true reached = (.error error, after) := by
  rcases @checkRoutes_spec reached spec.name spec.routeTags with ⟨_, free⟩ | ⟨⟨error, raised⟩, _⟩
  · rw [← blended.routes tag] at held
    exact absurd (free tag listed other held) foreign
  · refine ⟨error, reached, ?_⟩
    have validated : validateRoutes spec true reached = (.error error, reached) := by
      simp only [validateRoutes, enabled, Bool.and_self, if_true]
      exact raised
    rw [register, bind_error validated]

/-- The loop ends, in the state of all rows, exactly where the tags are free. -/
theorem registerChanged_spec (prepared : Prepared versioning registry rows)
    (listing : ∀ ref, listed.find? (fun agent => agent.ref = ref) = registry.agents.find ref)
    (split : rows.rows = applied.reverse ++ rest)
    (blended : Blended versioning registry rows applied reached) :
    (Free versioning registry rows applied rest ∧
      ∃ count after, registerChanged versioning listed rest reached = (.ok count, after) ∧
        Blended versioning registry rows rows.rows.reverse after) ∨
    (¬ Free versioning registry rows applied rest ∧
      ∃ error after, registerChanged versioning listed rest reached = (.error error, after)) := by
  induction rest generalizing applied reached with
  | nil =>
      left
      refine ⟨trivial, 0, reached, rfl, ?_⟩
      rw [split, List.append_nil, List.reverse_reverse]
      exact blended
  | cons spec rest ih =>
      have once : ((applied.reverse ++ spec :: rest).map AgentSpec.ref).Nodup :=
        split ▸ rows.unique
      have next : NextRow rows applied spec := by
        constructor
        · have reordered : (applied.reverse ++ spec :: rest).Perm ((spec :: applied) ++ rest) := by
            refine List.perm_middle.trans ?_
            exact ((List.reverse_perm applied).append_right rest).cons spec
          have all := (reordered.map AgentSpec.ref).nodup_iff.mp once
          rw [List.map_append] at all
          exact all.of_append_left
        · intro row member
          rw [split]
          rcases List.mem_cons.mp member with rfl | inside
          · simp
          · simp [inside]
      have later : rows.rows = (spec :: applied).reverse ++ rest := by simp [split]
      simp only [registerChanged, listing]
      by_cases change : changed registry spec = true
      · have differs : registry.agents.find spec.ref ≠ some spec := by simpa [changed] using change
        rw [if_neg differs]
        cases on : spec.enabled with
        | true =>
            by_cases free : ∀ tag ∈ spec.routeTags, ∀ other,
                holder versioning registry rows tag applied = some other → other.name = spec.name
            · obtain ⟨after, called, blendedAfter⟩ := blended.enabled next change on free
              have first : (changed registry spec = true → true = true →
                  ∀ tag ∈ spec.routeTags, ∀ other,
                    holder versioning registry rows tag applied = some other →
                    other.name = spec.name) := fun _ _ => free
              rcases ih later blendedAfter with ⟨rests, count, final, looped, ends⟩ |
                ⟨stuck, error, final, looped⟩
              · left
                refine ⟨?_, count + 1, final, ?_, ends⟩
                · rw [Free, on]
                  exact ⟨first, rests⟩
                · simp only [bind_run, called, looped, pure_run]
              · right
                refine ⟨?_, error, final, ?_⟩
                · rintro ⟨_, rests⟩
                  exact stuck rests
                · simp only [bind_run, called, looped]
            · right
              constructor
              · rintro ⟨first, _⟩
                exact free (first change on)
              · push Not at free
                obtain ⟨tag, member, other, held, foreign⟩ := free
                -- The first tag that another name holds ends the loop.
                obtain ⟨error, after, raised⟩ := blended.refused on member held foreign
                exact ⟨error, after, by simp only [bind_run, raised]⟩
        | false =>
            obtain ⟨after, called, blendedAfter⟩ := blended.disabled prepared next change on
            rcases ih later blendedAfter with ⟨rests, count, final, looped, ends⟩ |
              ⟨stuck, error, final, looped⟩
            · left
              refine ⟨?_, count + 1, final, ?_, ends⟩
              · rw [Free, on]
                exact ⟨fun _ impossible => (Bool.false_ne_true impossible).elim, rests⟩
              · simp only [bind_run, called, looped, pure_run]
            · right
              refine ⟨?_, error, final, ?_⟩
              · rintro ⟨_, rests⟩
                exact stuck rests
              · simp only [bind_run, called, looped]
      · have same : changed registry spec = false := by simpa using change
        have equal : registry.agents.find spec.ref = some spec := by simpa [changed] using same
        rw [if_pos equal]
        rcases ih later (blended.skip same) with ⟨rests, done⟩ | ⟨stuck, failed⟩
        · left
          refine ⟨⟨?_, rests⟩, done⟩
          intro changes
          rw [same] at changes
          cases changes
        · right
          exact ⟨fun free => stuck free.2, failed⟩

end Registrations

section Restarts

structure Started (applied : List AgentSpec) (reached : AgentRegistry) : Prop where
  valid : RoutesEnabled reached
  agents : reached.agents.rows = applied.reverse
  routes : ∀ tag, reached.route tag =
    applied.find? fun spec => spec.enabled && spec.routeTags.contains tag

theorem Started.more {applied : List AgentSpec} {reached after : AgentRegistry}
    {spec : AgentSpec} (started : Started applied reached)
    (fresh : spec.ref ∉ applied.map AgentSpec.ref)
    (called : register versioning spec true reached = (.ok (), after)) :
    Started (spec :: applied) after := by
  have valid : RoutesEnabled (register versioning spec true reached).2 :=
    register_valid started.valid spec true
  rw [called] at valid
  have absent : spec.ref ∉ reached.agents.rows.map AgentSpec.ref := by
    rw [started.agents, List.map_reverse, List.mem_reverse]
    exact fresh
  have unrouted : ∀ tag, ¬ RoutedTo reached spec.ref tag := by
    rintro tag ⟨routed, found, same⟩
    exact absent (same ▸ List.mem_map_of_mem (started.valid tag routed found).registered)
  have appended : (reached.setAgent spec).agents.rows = (spec :: applied).reverse := by
    rw [AgentRegistry.setAgent, Table.upsert_fresh absent, started.agents, List.reverse_cons]
  cases on : spec.enabled with
  | true =>
      have accepted : ¬ Rejected reached spec := by
        rcases @checkRoutes_spec reached spec.name spec.routeTags with
          ⟨_, free⟩ | ⟨⟨error, raised⟩, _⟩
        · rintro ⟨tag, listed, existing, found, other⟩
          exact other (free tag listed existing found)
        · have validated : validateRoutes spec true reached = (.error error, reached) := by
            simp only [validateRoutes, on, Bool.and_self, if_true]
            exact raised
          rw [Registry.register, bind_error validated] at called
          cases called
      obtain ⟨final, same, agents, own, _, others⟩ :=
        @register_default_spec versioning reached spec started.valid on accepted
      change Registry.register versioning spec true reached = _ at same
      rw [called] at same
      cases same
      refine ⟨valid, by rw [agents, appended], ?_⟩
      intro tag
      by_cases listed : tag ∈ spec.routeTags
      · simp [own tag listed, on, listed]
      · simp [others tag listed (unrouted tag), on, listed, started.routes tag]
  | false =>
      have missing : reached.agents.find spec.ref = none := Table.find_none.mpr absent
      have plain : (spec.enabled && true) = false := by simp [on]
      obtain ⟨final, same, agents, _, _, others⟩ :=
        @register_plain_spec versioning reached spec true started.valid plain
          fun previous found => absurd (missing.symm.trans found) (by simp)
      change Registry.register versioning spec true reached = _ at same
      rw [called] at same
      cases same
      refine ⟨valid, by rw [agents, appended], ?_⟩
      intro tag
      have kept := others tag fun previous found => absurd (missing.symm.trans found) (by simp)
      simp [kept, on, started.routes tag]

theorem registerAll_started {applied rest : List AgentSpec} {reached after : AgentRegistry}
    (started : Started applied reached) (once : ((applied.reverse ++ rest).map AgentSpec.ref).Nodup)
    (called : registerAll versioning rest reached = (.ok (), after)) :
    Started ((applied.reverse ++ rest).reverse) after := by
  -- The rows registered so far stand before the others, in the order of the start.
  induction rest generalizing applied reached with
  | nil =>
      cases called
      simpa using started
  | cons spec rest ih =>
      have regroup : applied.reverse ++ spec :: rest = (spec :: applied).reverse ++ rest := by simp
      have fresh : spec.ref ∉ applied.map AgentSpec.ref := by
        rw [List.map_append, List.nodup_append] at once
        intro inside
        exact once.2.2 spec.ref (by simpa using inside) spec.ref (by simp) rfl
      simp only [registerAll, bind_run] at called
      cases registered : register versioning spec true reached with
      | mk outcome middle =>
          rw [registered] at called
          cases outcome with
          | error error => cases called
          | ok value =>
              rw [regroup] at once ⊢
              exact ih (started.more fresh registered) once called

theorem restarted_spec (starts : (restarted versioning rows).1 = .ok ()) :
    (restarted versioning rows).2.agents.rows = rows.rows ∧
      ∀ tag, (restarted versioning rows).2.route tag = lastListing rows tag := by
  have begun : Started [] AgentRegistry.empty := ⟨routesEnabled_empty, rfl, fun _ => rfl⟩
  have called : registerAll versioning rows.rows AgentRegistry.empty =
      (.ok (), (restarted versioning rows).2) := by
    rw [← starts]
    rfl
  have started := registerAll_started begun rows.unique called
  exact ⟨started.agents.trans (List.reverse_reverse _), started.routes⟩

end Restarts

section Reloads

theorem withKey_keyed {agents : List AgentSpec}
    (keyed : ∀ agent ∈ agents, Keyed versioning agent.version) :
    agents.mapM (withKey versioning) =
      .ok (agents.map fun agent => (keyOf versioning agent.version, agent)) := by
  induction agents with
  | nil => rfl
  | cons agent rest ih =>
      have later := ih fun other member => keyed other (List.mem_cons_of_mem _ member)
      have first : withKey versioning agent = .ok (keyOf versioning agent.version, agent) := by
        rw [withKey, versionKey_eq (keyed agent List.mem_cons_self)]
        rfl
      rw [List.mapM_cons, first, later]
      rfl

theorem keyed_withKey {agents : List AgentSpec}
    {listed : List (VersionKey versioning × AgentSpec)}
    (read : agents.mapM (withKey versioning) = .ok listed) :
    ∀ agent ∈ agents, Keyed versioning agent.version := by
  induction agents generalizing listed with
  | nil => exact nofun
  | cons agent rest ih =>
      rw [List.mapM_cons] at read
      cases own : versionKey versioning agent.version with
      | error error => simp [withKey, own, Bind.bind, Except.bind] at read
      | ok key =>
          cases later : rest.mapM (withKey versioning) with
          | error error =>
              simp [withKey, own, later, Bind.bind, Except.bind, Pure.pure, Except.pure] at read
          | ok others =>
              intro other member
              rcases List.mem_cons.mp member with rfl | inside
              · exact ⟨key, own⟩
              · exact ih later other inside

theorem listAgents_spec (keyed : AllKeyed versioning registry) :
    ∃ listed, listAgents versioning registry = .ok listed ∧
      listed.Perm registry.agents.rows := by
  refine ⟨_, by rw [listAgents, withKey_keyed keyed]; rfl, ?_⟩
  refine ((List.perm_insertionSort _ _).map Prod.snd).trans ?_
  simp [Function.comp_def]

theorem keyed_listAgents {listed : List AgentSpec}
    (read : listAgents versioning registry = .ok listed) : AllKeyed versioning registry := by
  rw [listAgents] at read
  cases mapped : registry.agents.rows.mapM (withKey versioning) with
  | error error => simp [mapped, Bind.bind, Except.bind] at read
  | ok keys => exact keyed_withKey mapped

theorem listed_find {listed : List AgentSpec} (same : listed.Perm registry.agents.rows)
    (ref : AgentRef) :
    listed.find? (fun agent => agent.ref = ref) = registry.agents.find ref := by
  have once : (listed.map AgentSpec.ref).Nodup :=
    (same.map AgentSpec.ref).nodup_iff.mpr registry.agents.unique
  let table : AgentTable := ⟨listed, once⟩
  change table.find ref = registry.agents.find ref
  apply Option.ext
  intro agent
  rw [Table.find_iff, Table.find_iff]
  exact and_congr_left fun _ => same.mem_iff

theorem agents_eq {left right : AgentTable} (same : left.rows = right.rows) : left = right := by
  cases left
  cases right
  cases same
  rfl

/-- The removals leave the state before the first row. -/
theorem removals_blended (ordered : versioning.Ordered) (prepared : Prepared versioning registry rows)
    {listed : List AgentSpec} (same : listed.Perm registry.agents.rows) :
    ∃ count after, removeMissing versioning rows listed registry = (.ok count, after) ∧
      Blended versioning registry rows [] after := by
  obtain ⟨count, after, called, removed⟩ := removeMissing_spec rows ordered
    prepared.registered (fun spec member => same.mem_iff.mp member)
    ((same.map AgentSpec.ref).nodup_iff.mpr registry.agents.unique)
  have gone (agent : AgentSpec) (member : agent ∈ registry.agents.rows) :
      ((rows.find agent.ref).isNone && (listed.map AgentSpec.ref).contains agent.ref) =
        (rows.find agent.ref).isNone := by
    have inside : agent.ref ∈ listed.map AgentSpec.ref :=
      List.mem_map_of_mem (same.mem_iff.mpr member)
    rw [List.contains_iff_mem.mpr inside, Bool.and_true]
  have agents : after.agents = (remaining registry rows).agents := by
    apply agents_eq
    rw [removed.agents]
    apply List.filter_congr
    intro agent member
    rw [gone agent member]
  have routes : ∀ tag, after.route tag = survivor versioning registry rows tag := by
    intro tag
    unfold survivor
    cases found : registry.route tag with
    | none =>
        rw [removed.kept tag fun routed here => absurd (found.symm.trans here) nofun, found]
    | some routed =>
        have member := (prepared.valid tag routed found).registered
        cases row : rows.find routed.ref with
        | none =>
            have lost := removed.lost tag routed found (by rw [gone routed member, row]; rfl)
            rw [lost]
            simp only [row, Option.isSome_none, Bool.false_eq_true, if_false]
            exact latest_agents agents
        | some present =>
            have stays : ∀ other, registry.route tag = some other →
                ((rows.find other.ref).isNone && (listed.map AgentSpec.ref).contains other.ref) =
                  false := by
              intro other here
              rw [found] at here
              cases here
              rw [gone routed member, row]
              rfl
            rw [removed.kept tag stays, found]
            simp only [row, Option.isSome_some, if_true]
  refine ⟨count, after, called, removed.valid prepared.registered prepared.valid, agents, ?_⟩
  intro tag
  rw [routes tag, holder_nil]

theorem reload_spec (ordered : versioning.Ordered) (prepared : Prepared versioning registry rows) :
    (Free versioning registry rows [] rows.rows ∧
      ∃ count after, reloadAgents versioning rows registry = (.ok count, after) ∧
        Blended versioning registry rows rows.rows.reverse after) ∨
    (¬ Free versioning registry rows [] rows.rows ∧
      ∃ error after, reloadAgents versioning rows registry = (.error error, after)) := by
  obtain ⟨listed, read, same⟩ := listAgents_spec prepared.registered
  obtain ⟨removed, middle, called, blended⟩ := removals_blended ordered prepared same
  rcases registerChanged_spec prepared (listed_find same) rfl blended with
    ⟨free, count, after, looped, ends⟩ | ⟨stuck, error, after, looped⟩
  · left
    refine ⟨free, removed + count, after, ?_, ends⟩
    simp only [reloadAgents, bind_run, get_run, read, lift_run, called, looped, pure_run]
  · right
    refine ⟨stuck, error, after, ?_⟩
    simp only [reloadAgents, bind_run, get_run, read, lift_run, called, looped]

theorem registerChanged_valid (valid : RoutesEnabled registry) (listed specs : List AgentSpec) :
    RoutesEnabled (registerChanged versioning listed specs registry).2 := by
  induction specs generalizing registry with
  | nil => exact valid
  | cons spec rest ih =>
      simp only [registerChanged]
      split
      · exact ih valid
      · have first : RoutesEnabled (register versioning spec true registry).2 :=
          register_valid valid spec true
        simp only [bind_run]
        cases called : register versioning spec true registry with
        | mk outcome middle =>
            rw [called] at first
            cases outcome with
            | error error => exact first
            | ok value =>
                have later := ih first
                cases looped : registerChanged versioning listed rest middle with
                | mk counted after =>
                    rw [looped] at later
                    simp only [looped]
                    cases counted with
                    | error error => exact later
                    | ok count => exact later

theorem Reachable.valid (ordered : versioning.Ordered) (reached : Reachable versioning registry) :
    RoutesEnabled registry := by
  -- A reload counts as a step also where it raises half way.
  induction reached with
  | empty => exact routesEnabled_empty
  | register reached agent makeDefault ih => exact register_valid ih agent makeDefault
  | @reload registry reached rows ih =>
      simp only [reloadAgents, bind_run, get_run, lift_run]
      cases read : listAgents versioning registry with
      | error error => exact ih
      | ok listed =>
          have keyed := keyed_listAgents read
          have same : listed.Perm registry.agents.rows := by
            obtain ⟨other, again, same⟩ := listAgents_spec keyed
            rw [read] at again
            cases again
            exact same
          obtain ⟨count, middle, called, removed⟩ := removeMissing_spec rows ordered keyed
            (fun spec member => same.mem_iff.mp member)
            ((same.map AgentSpec.ref).nodup_iff.mpr registry.agents.unique)
          have later : RoutesEnabled (registerChanged versioning listed rows.rows middle).2 :=
            registerChanged_valid (removed.valid keyed ih) listed rows.rows
          simp only [called]
          cases looped : registerChanged versioning listed rows.rows middle with
          | mk counted after =>
              rw [looped] at later
              cases counted with
              | error error => exact later
              | ok total => exact later

theorem reload_idle (keyed : AllKeyed versioning registry)
    (same : ∀ ref, registry.agents.find ref = rows.find ref) :
    reloadAgents versioning rows registry = (.ok 0, registry) := by
  obtain ⟨listed, read, permuted⟩ := listAgents_spec keyed
  have present : ∀ spec ∈ listed, (rows.find spec.ref).isSome = true := by
    intro spec member
    rw [← same, Table.mem_find (permuted.mem_iff.mp member)]
    rfl
  have unchanged : ∀ specs : List AgentSpec, (∀ spec ∈ specs, spec ∈ rows.rows) →
      registerChanged versioning listed specs registry = (.ok 0, registry) := by
    intro specs
    induction specs with
    | nil => exact fun _ => rfl
    | cons spec rest ih =>
        intro inside
        have found : registry.agents.find spec.ref = some spec := by
          rw [same]
          exact Table.mem_find (inside spec List.mem_cons_self)
        simp only [registerChanged, listed_find permuted, found, if_true]
        exact ih fun other member => inside other (List.mem_cons_of_mem _ member)
  simp only [reloadAgents, bind_run, get_run, read, lift_run, removeMissing_nothing present,
    unchanged rows.rows fun _ member => member, pure_run]

theorem Blended.find_rows {reached : AgentRegistry}
    (blended : Blended versioning registry rows rows.rows.reverse reached) (ref : AgentRef) :
    reached.agents.find ref = rows.find ref := by
  rw [blended.agents]
  cases found : rows.find ref with
  | some spec =>
      obtain rfl := Table.find_key found
      apply blend_find_applied
      · rw [List.map_reverse, List.nodup_reverse]
        exact rows.unique
      · intro row member
        rw [Table.mem_find (List.mem_reverse.mp member)]
        rfl
      · exact List.mem_reverse.mpr (Table.find_mem found)
  | none =>
      -- Without a row the reload has removed the agent before the loop.
      have absent := Table.find_none.mp found
      rw [blend_find_other (by simpa using absent), remaining, Table.find_deleteWhere_eq]
      cases kept : registry.agents.find ref with
      | none => rfl
      | some agent =>
          have key : agent.ref = ref := Table.find_key kept
          simp [Option.filter_some, key, found]

/-- A reload comes to what a restart comes to exactly where the rows are settled. -/
theorem reload_equals_restart_iff (ordered : versioning.Ordered)
    (reached : Reachable versioning registry) (starts : (restarted versioning rows).1 = .ok ()) :
    EqualsRestart versioning rows registry ↔ Settled versioning rows registry := by
  have valid := reached.valid ordered
  obtain ⟨startedRows, startedRoutes⟩ := restarted_spec starts
  have startedFind : ∀ ref, (restarted versioning rows).2.agents.find ref = rows.find ref := by
    intro ref
    rw [agents_eq startedRows]
  constructor
  · rintro ⟨count, after, reloaded, agents, routes, again⟩
    have registered : AllKeyed versioning registry := by
      cases read : listAgents versioning registry with
      | ok listed => exact keyed_listAgents read
      | error error =>
          simp only [reloadAgents, bind_run, get_run, read, lift_run] at reloaded
          cases reloaded
    have kept : AllKeyed versioning after := by
      cases read : listAgents versioning after with
      | ok listed => exact keyed_listAgents read
      | error error =>
          simp only [reloadAgents, bind_run, get_run, read, lift_run] at again
          cases again
    have stored : ∀ spec ∈ rows.rows, Keyed versioning spec.version := by
      intro spec member
      apply kept
      have found : after.agents.find spec.ref = some spec := by
        rw [agents, startedFind]
        exact Table.mem_find member
      exact Table.find_mem found
    rcases reload_spec ordered ⟨valid, registered, stored⟩ with
      ⟨free, total, final, called, blended⟩ | ⟨_, error, final, called⟩
    · rw [reloaded] at called
      cases called
      refine ⟨?_, free, ?_⟩
      · intro agent member
        rcases List.mem_append.mp member with here | there
        · exact registered agent here
        · exact stored agent there
      · intro tag
        rw [← blended.routes tag, routes tag, startedRoutes tag]
    · rw [reloaded] at called
      cases called
  · rintro ⟨keyed, free, last⟩
    have prepared : Prepared versioning registry rows :=
      ⟨valid, fun agent member => keyed agent (List.mem_append_left _ member),
        fun agent member => keyed agent (List.mem_append_right _ member)⟩
    rcases reload_spec ordered prepared with
      ⟨_, total, final, called, blended⟩ | ⟨stuck, _⟩
    · have agents := blended.find_rows
      refine ⟨total, final, called, ?_, ?_, ?_⟩
      · intro ref
        rw [agents, startedFind]
      · intro tag
        rw [blended.routes tag, last tag, startedRoutes tag]
      · apply reload_idle _ agents
        intro agent member
        have found := Table.mem_find member
        rw [agents] at found
        exact prepared.stored agent (Table.find_mem found)
    · exact absurd free stuck

end Reloads

section Replay

def only (name : String) (routeTags : List String) : AgentSpec :=
  { name := name, version := "1.0.0", routeTags := routeTags }

theorem asciiVersioning_ordered : asciiVersioning.Ordered := ⟨nofun, nofun⟩

def heldByOther : AgentRegistry :=
  (register asciiVersioning (only "beta" ["support"]) true
    (register asciiVersioning (only "alpha" ["echo"]) true AgentRegistry.empty).2).2

def movedTag : AgentRows := ⟨[only "alpha" ["echo", "support"], only "beta" []], by decide⟩

theorem moved_tag_refused :
    asciiVersioning.Ordered ∧ Reachable asciiVersioning heldByOther ∧
      (restarted asciiVersioning movedTag).1 = .ok () ∧
      ¬ EqualsRestart asciiVersioning movedTag heldByOther := by
  refine ⟨asciiVersioning_ordered, .register (.register .empty _ true) _ true,
    by decide +kernel, ?_⟩
  rintro ⟨count, after, reloaded, _⟩
  have refused : (reloadAgents asciiVersioning movedTag heldByOther).1 =
      .error (alreadyRouted "support" "beta") := by decide +kernel
  rw [reloaded] at refused
  cases refused

def firstRelease : AgentRows := ⟨[echoAgent "1.0.0" ["support"]], echo_alone⟩

def secondRelease : AgentRows :=
  ⟨[echoAgent "1.0.0" ["support"], echoAgent "2.0.0" ["support"]], by decide⟩

theorem firstRelease_route (tag : String) (other : tag ≠ "support") :
    (restarted asciiVersioning firstRelease).2.route tag = none := by
  have starts : (restarted asciiVersioning firstRelease).1 = .ok () := by decide +kernel
  rw [(restarted_spec starts).2 tag]
  simp [lastListing, firstRelease, echoAgent, other]

theorem reload_equals_restart_iff_release :
    EqualsRestart asciiVersioning secondRelease (restarted asciiVersioning firstRelease).2 := by
  have starts : (restarted asciiVersioning secondRelease).1 = .ok () := by decide +kernel
  have reached : Reachable asciiVersioning (restarted asciiVersioning firstRelease).2 :=
    .register .empty (echoAgent "1.0.0" ["support"]) true
  refine (reload_equals_restart_iff asciiVersioning_ordered reached starts).mpr ⟨?_, ?_, ?_⟩
  · exact fun agent _ => asciiVersioning_reads agent.version
  · refine ⟨?_, ?_, trivial⟩
    · intro change
      exact absurd change (by decide +kernel)
    · intro _ _ tag listed other held
      obtain rfl := List.mem_singleton.mp listed
      have first : holder asciiVersioning (restarted asciiVersioning firstRelease).2 secondRelease
          "support" [echoAgent "1.0.0" ["support"]] = some (echoAgent "1.0.0" ["support"]) := by
        decide +kernel
      rw [first] at held
      cases held
      rfl
  · intro tag
    by_cases own : tag = "support"
    · subst own
      decide +kernel
    · have route := firstRelease_route tag own
      simp [holder, settles, survivor, lastListing, secondRelease, echoAgent, own, route]

end Replay
end AgentTaskPlatform.AgentReload
