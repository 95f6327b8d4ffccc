import AgentTaskPlatform.VersionOrder

/-!
The default versions of `SkillRegistry`. A default is an enabled version, and a name with
an enabled version has one; only the loops at the start and the removals elect the newest.
-/

namespace AgentTaskPlatform.Skills

open KeyedTable FirstMaximum
open Registry (Versioning VersionKey versionKey keyOf firstNewest newest_eq firstNewest_leads
  firstNewest_filter firstNewest_mem firstNewest_newest firstNewest_none)
open StatefulCalls (bind_run bind_ok get_run modify_run lift_run pure_run)

variable {versioning : Versioning} {registry : SkillRegistry}

namespace SkillRegistry

@[simp] theorem default_setSkill (registry : SkillRegistry) (skill : SkillSpec) (name : String) :
    (registry.setSkill skill).default name = registry.default name := rfl

theorem default_setDefault (registry : SkillRegistry) (name version wanted : String) :
    (registry.setDefault name version).default wanted =
      if wanted = name then some version else registry.default wanted := by
  unfold SkillRegistry.default setDefault
  by_cases same : wanted = name
  · subst same
    have found := Table.find_upsert_self registry.defaults (wanted, version)
    simp only [found, if_true, Option.map_some]
  · have other : (registry.defaults.upsert (name, version)).find wanted =
        registry.defaults.find wanted := Table.find_upsert_other registry.defaults same
    simp only [other, if_neg same]

theorem default_popDefault (registry : SkillRegistry) (name wanted : String) :
    (registry.popDefault name).default wanted =
      if wanted = name then none else registry.default wanted := by
  unfold SkillRegistry.default popDefault
  rw [Table.find_deleteWhere_eq]
  cases found : registry.defaults.find wanted with
  | none => simp
  | some row =>
      have key : row.1 = wanted := Table.find_key found
      by_cases same : wanted = name <;> simp [Option.filter_some, key, same]

def Offers (registry : SkillRegistry) (name version : String) : Prop :=
  ∃ skill, registry.skills.find (name, version) = some skill ∧ skill.enabled = true

theorem mem_enabledVersions {name version : String} :
    version ∈ registry.enabledVersions name ↔ registry.Offers name version := by
  simp only [enabledVersions, List.mem_map, List.mem_filter, Bool.and_eq_true, decide_eq_true_eq,
    Offers, Table.find_iff, SkillSpec.ref, Prod.mk.injEq]
  constructor
  · rintro ⟨skill, ⟨member, named, enabled⟩, rfl⟩
    exact ⟨skill, ⟨member, named, rfl⟩, enabled⟩
  · rintro ⟨skill, ⟨member, named, same⟩, enabled⟩
    exact ⟨skill, ⟨member, named, enabled⟩, same⟩

end SkillRegistry

section Defaulted

structure Defaulted (registry : SkillRegistry) : Prop where
  offered : ∀ name version, registry.default name = some version → registry.Offers name version
  missing : ∀ name version, registry.default name = none → ¬ registry.Offers name version

def AllKeyed (versioning : Versioning) (registry : SkillRegistry) : Prop :=
  ∀ skill ∈ registry.skills.rows, Keyed versioning skill.version

theorem AllKeyed.newest (keyed : AllKeyed versioning registry) (name : String) :
    newest versioning id (registry.enabledVersions name) =
      .ok (firstNewest versioning id (registry.enabledVersions name)) :=
  newest_eq (enabledVersions_keyed keyed name)

theorem selectDefault_spec (keyed : AllKeyed versioning registry) (name : String) :
    ∃ after, selectDefault versioning name registry = (.ok (), after) ∧
      after.skills = registry.skills ∧
      ∀ wanted, after.default wanted =
        if wanted = name then (firstNewest versioning id (registry.enabledVersions name)).or
          (registry.default name)
        else registry.default wanted := by
  simp only [selectDefault, bind_run, get_run, lift_run, keyed.newest]
  cases elected : firstNewest versioning id (registry.enabledVersions name) with
  | none =>
      refine ⟨registry, rfl, rfl, ?_⟩
      intro wanted
      by_cases same : wanted = name <;> simp [same]
  | some version =>
      refine ⟨registry.setDefault name version, rfl, rfl, ?_⟩
      intro wanted
      rw [SkillRegistry.default_setDefault]
      rfl

end Defaulted

section Registration

theorem find_setSkill (registry : SkillRegistry) (skill : SkillSpec) (ref : String × String) :
    (registry.setSkill skill).skills.find ref =
      if ref = skill.ref then some skill else registry.skills.find ref := by
  by_cases own : ref = skill.ref
  · subst own
    rw [if_pos rfl]
    exact Table.find_upsert_self registry.skills skill
  · rw [if_neg own]
    exact Table.find_upsert_other registry.skills own

theorem AllKeyed.setSkill (keyed : AllKeyed versioning registry) {skill : SkillSpec}
    (own : Keyed versioning skill.version) : AllKeyed versioning (registry.setSkill skill) := by
  intro other member
  rcases Table.mem_of_upsert member with rfl | old
  · exact own
  · exact keyed other old

def settled (versioning : Versioning) (registry : SkillRegistry) (skill : SkillSpec) :
    Option String :=
  if skill.enabled then (registry.default skill.name).or (some skill.version)
  else if registry.default skill.name = some skill.version then
    firstNewest versioning id ((registry.setSkill skill).enabledVersions skill.name)
  else registry.default skill.name

structure Registered (versioning : Versioning) (skill : SkillSpec)
    (registry after : SkillRegistry) : Prop where
  skills : after.skills = (registry.setSkill skill).skills
  own : after.default skill.name = settled versioning registry skill
  others : ∀ name, name ≠ skill.name → after.default name = registry.default name

theorem enabledVersions_first (sound : Defaulted registry) {skill : SkillSpec}
    (first : registry.default skill.name = none) :
    ∀ version ∈ (registry.setSkill skill).enabledVersions skill.name, version = skill.version := by
  intro version offered
  rw [SkillRegistry.mem_enabledVersions] at offered
  obtain ⟨other, found, on⟩ := offered
  rw [find_setSkill] at found
  by_cases own : (skill.name, version) = skill.ref
  · exact congrArg Prod.snd own
  · rw [if_neg own] at found
    exact absurd ⟨other, found, on⟩ (sound.missing skill.name version first)

theorem register_spec (keyed : AllKeyed versioning registry) (sound : Defaulted registry)
    {skill : SkillSpec} (own : Keyed versioning skill.version) {makeDefault : Bool}
    (first : makeDefault = true → registry.default skill.name = none) :
    ∃ after, register versioning skill makeDefault registry = (.ok (), after) ∧
      Registered versioning skill registry after := by
  have stored := keyed.setSkill own
  simp only [register, bind_run, modify_run, get_run]
  by_cases enabled : skill.enabled = true
  · simp only [enabled, Bool.not_true, Bool.false_eq_true, if_false]
    by_cases asked : makeDefault = true
    · have none := first asked
      rw [if_pos asked]
      refine ⟨(registry.setSkill skill).setDefault skill.name skill.version, rfl, rfl, ?_, ?_⟩
      · simp [SkillRegistry.default_setDefault, settled, enabled, none]
      · intro name other
        simp [SkillRegistry.default_setDefault, other]
    · rw [if_neg asked]
      cases known : registry.default skill.name with
      | some version =>
          refine ⟨registry.setSkill skill, ?_, rfl, ?_, fun name other => rfl⟩
          · simp [known]
          · simp [settled, enabled, known]
      | none =>
          obtain ⟨after, called, skills, defaults⟩ := selectDefault_spec stored skill.name
          refine ⟨after, ?_, skills, ?_, ?_⟩
          · simp only [SkillRegistry.default_setSkill, known, Option.isNone_none, if_true, called]
          · have only := enabledVersions_first sound known
            have inside : skill.version ∈ (registry.setSkill skill).enabledVersions skill.name := by
              rw [SkillRegistry.mem_enabledVersions]
              exact ⟨skill, Table.find_upsert_self registry.skills skill, enabled⟩
            rw [defaults, if_pos rfl]
            cases elected : firstNewest versioning id
                ((registry.setSkill skill).enabledVersions skill.name) with
            | none =>
                rw [firstNewest_none] at elected
                rw [elected] at inside
                cases inside
            | some version =>
                have same := only version (firstNewest_mem elected)
                simp [settled, enabled, known, same]
          · intro name other
            rw [defaults, if_neg other]
            rfl
  · simp only [enabled, Bool.not_false, if_true]
    by_cases held : (registry.setSkill skill).default skill.name = some skill.version
    · have kept : AllKeyed versioning ((registry.setSkill skill).popDefault skill.name) := stored
      obtain ⟨after, called, skills, defaults⟩ := selectDefault_spec kept skill.name
      refine ⟨after, ?_, skills, ?_, ?_⟩
      · rw [if_pos held, bind_ok (modify_run _ _)]
        exact called
      · have versions : ((registry.setSkill skill).popDefault skill.name).enabledVersions
            skill.name = (registry.setSkill skill).enabledVersions skill.name := rfl
        rw [defaults, if_pos rfl, SkillRegistry.default_popDefault, if_pos rfl, Option.or_none,
          versions]
        rw [SkillRegistry.default_setSkill] at held
        simp [settled, enabled, held]
      · intro name other
        rw [defaults, if_neg other, SkillRegistry.default_popDefault, if_neg other]
        rfl
    · refine ⟨registry.setSkill skill, ?_, rfl, ?_, fun name other => rfl⟩
      · rw [if_neg held]
        rfl
      · rw [SkillRegistry.default_setSkill] at held
        simp [settled, enabled, held]

variable {skill : SkillSpec} {after : SkillRegistry}

theorem offers_setSkill {name version : String} : (registry.setSkill skill).Offers name version ↔
    if (name, version) = skill.ref then skill.enabled = true
    else registry.Offers name version := by
  unfold SkillRegistry.Offers
  rw [find_setSkill]
  by_cases own : (name, version) = skill.ref <;> simp [own]

theorem Registered.offers (registered : Registered versioning skill registry after)
    {name version : String} : after.Offers name version ↔
    if (name, version) = skill.ref then skill.enabled = true
    else registry.Offers name version := by
  rw [← offers_setSkill]
  unfold SkillRegistry.Offers
  rw [registered.skills]

theorem Registered.keyed (registered : Registered versioning skill registry after)
    (keyed : AllKeyed versioning registry) (own : Keyed versioning skill.version) :
    AllKeyed versioning after := by
  intro other member
  rw [registered.skills] at member
  exact keyed.setSkill own other member

theorem Registered.taken (registered : Registered versioning skill registry after)
    (enabled : skill.enabled = true) :
    after.default skill.name = (registry.default skill.name).or (some skill.version) := by
  rw [registered.own, settled, if_pos enabled]

theorem Registered.left (registered : Registered versioning skill registry after)
    (disabled : skill.enabled = false) (other : registry.default skill.name ≠ some skill.version) :
    after.default skill.name = registry.default skill.name := by
  rw [registered.own, settled, disabled]
  simp [other]

theorem Registered.elected (registered : Registered versioning skill registry after)
    (disabled : skill.enabled = false) (held : registry.default skill.name = some skill.version) :
    after.default skill.name = firstNewest versioning id (after.enabledVersions skill.name) := by
  rw [registered.own, settled, disabled, if_pos held, SkillRegistry.enabledVersions,
    SkillRegistry.enabledVersions, registered.skills]
  rfl

theorem Registered.sound (registered : Registered versioning skill registry after)
    (sound : Defaulted registry) : Defaulted after := by
  have own : (skill.name, skill.version) = skill.ref := rfl
  have others {name version : String} (other : name ≠ skill.name) :
      after.Offers name version ↔ registry.Offers name version := by
    have differs : (name, version) ≠ skill.ref := fun same => other (congrArg Prod.fst same)
    rw [registered.offers, if_neg differs]
  have either (name : String) :
      (∀ version, after.default name = some version → after.Offers name version) ∧
      ∀ version, after.default name = none → ¬ after.Offers name version := by
    by_cases same : name = skill.name
    · subst same
      by_cases enabled : skill.enabled = true
      · rw [registered.taken enabled]
        cases held : registry.default skill.name with
        | none =>
            refine ⟨?_, nofun⟩
            rintro version ⟨rfl⟩
            rw [registered.offers, if_pos own]
            exact enabled
        | some current =>
            refine ⟨?_, nofun⟩
            rintro version ⟨rfl⟩
            rw [registered.offers]
            split
            · exact enabled
            · exact sound.offered skill.name current held
      · have disabled : skill.enabled = false := by simpa using enabled
        by_cases held : registry.default skill.name = some skill.version
        · rw [registered.elected disabled held]
          constructor
          · intro version elected
            rw [← SkillRegistry.mem_enabledVersions]
            exact firstNewest_mem elected
          · intro version elected
            rw [firstNewest_none] at elected
            rw [← SkillRegistry.mem_enabledVersions, elected]
            exact List.not_mem_nil
        · rw [registered.left disabled held]
          constructor
          · intro version current
            have differs : (skill.name, version) ≠ skill.ref := by
              intro same
              have equal : version = skill.version := congrArg Prod.snd same
              exact held (current.trans (congrArg some equal))
            rw [registered.offers, if_neg differs]
            exact sound.offered skill.name version current
          · intro version missing
            rw [registered.offers]
            split
            · exact enabled
            · exact sound.missing skill.name version missing
    · constructor
      · intro version current
        rw [registered.others name same] at current
        rw [others same]
        exact sound.offered name version current
      · intro version missing
        rw [registered.others name same] at missing
        rw [others same]
        exact sound.missing name version missing
  exact ⟨fun name => (either name).1, fun name => (either name).2⟩

/-- A row that the registry holds as it is changes nothing. -/
theorem Registered.unchanged (sound : Defaulted registry)
    (present : registry.skills.find skill.ref = some skill) :
    Registered versioning skill registry registry := by
  refine ⟨(Table.upsert_present present).symm, ?_, fun name other => rfl⟩
  rw [settled]
  by_cases enabled : skill.enabled = true
  · cases held : registry.default skill.name with
    | none => exact absurd ⟨skill, present, enabled⟩ (sound.missing _ skill.version held)
    | some version => simp [enabled]
  · have other : registry.default skill.name ≠ some skill.version := by
      intro held
      obtain ⟨stored, found, on⟩ := sound.offered skill.name skill.version held
      have same : some stored = some skill := found.symm.trans present
      cases same
      exact enabled on
    simp [enabled, other]

end Registration

section Leading

structure Leading (versioning : Versioning) (registry : SkillRegistry) : Prop where
  sound : Defaulted registry
  newest : ∀ name version other, registry.default name = some version →
    registry.Offers name other →
    (keyOf versioning version).older versioning (keyOf versioning other) = false

theorem leading_of_elected (ordered : versioning.Ordered)
    (elected : ∀ name, registry.default name =
      firstNewest versioning id (registry.enabledVersions name)) : Leading versioning registry where
  sound := by
    constructor
    · intro name version current
      rw [elected] at current
      rw [← SkillRegistry.mem_enabledVersions]
      exact firstNewest_mem current
    · intro name version missing
      rw [elected, firstNewest_none] at missing
      rw [← SkillRegistry.mem_enabledVersions, missing]
      exact List.not_mem_nil
  newest := by
    intro name version other current offered
    rw [elected] at current
    rw [← SkillRegistry.mem_enabledVersions] at offered
    exact firstNewest_newest ordered current offered

theorem Leading.strict (leading : Leading versioning registry) {name version : String}
    (offered : registry.Offers name version)
    (newer : ∀ other, registry.Offers name other → other ≠ version →
      (keyOf versioning other).older versioning (keyOf versioning version) = true) :
    registry.default name = some version := by
  cases held : registry.default name with
  | none => exact absurd offered (leading.sound.missing name version held)
  | some current =>
      by_cases same : current = version
      · rw [same]
      · have beaten := newer current (leading.sound.offered name current held) same
        rw [leading.newest name current version held offered] at beaten
        cases beaten

variable {after : SkillRegistry}

theorem offers_popSkill {ref : String × String} {name version : String} :
    (registry.popSkill ref).Offers name version ↔
      registry.Offers name version ∧ (name, version) ≠ ref := by
  unfold SkillRegistry.Offers SkillRegistry.popSkill
  rw [Table.find_deleteWhere_eq]
  cases found : registry.skills.find (name, version) with
  | none => simp
  | some skill =>
      have key : skill.ref = (name, version) := Table.find_key found
      by_cases own : (name, version) = ref <;> simp [Option.filter_some, key, own]

theorem withdrawDefault_spec (keyed : AllKeyed versioning registry) (name version : String) :
    ∃ after, withdrawDefault versioning name [version] registry = (.ok (), after) ∧
      after.skills = registry.skills ∧
      ∀ wanted, after.default wanted =
        if registry.default name = some version ∧ wanted = name then
          firstNewest versioning id (registry.enabledVersions wanted)
        else registry.default wanted := by
  have asked : (registry.default name).any [version].contains = true ↔
      registry.default name = some version := by
    cases registry.default name <;> simp
  simp only [withdrawDefault, bind_run, get_run]
  by_cases held : (registry.default name).any [version].contains = true
  · have kept : AllKeyed versioning (registry.popDefault name) := keyed
    obtain ⟨after, called, skills, defaults⟩ := selectDefault_spec kept name
    rw [if_pos held, bind_ok (modify_run _ _)]
    refine ⟨after, called, skills, ?_⟩
    intro wanted
    rw [defaults, SkillRegistry.default_popDefault, SkillRegistry.default_popDefault,
      asked.mp held]
    by_cases own : wanted = name
    · subst own
      simp only [if_true, and_self, Option.or_none]
      rfl
    · simp [own]
  · rw [if_neg held]
    refine ⟨registry, rfl, rfl, ?_⟩
    intro wanted
    rw [asked] at held
    simp [held]

theorem deregister_spec (keyed : AllKeyed versioning registry) {skill : SkillSpec}
    (member : skill ∈ registry.skills.rows) :
    ∃ removed after, deregister versioning skill.name (some skill.version) registry =
        (.ok removed, after) ∧
      after.skills = (registry.popSkill skill.ref).skills ∧
      ∀ name, after.default name =
        if registry.default skill.name = some skill.version ∧ name = skill.name then
          firstNewest versioning id (after.enabledVersions name)
        else registry.default name := by
  have only : matching registry skill.name (some skill.version) = [skill] := by
    have found : registry.skills.find skill.ref = some skill := Table.mem_find member
    refine Table.filter_keyed found (by simp) ?_
    intro other _ holds
    simpa [SkillSpec.ref] using holds
  have kept : AllKeyed versioning (registry.popSkill skill.ref) :=
    fun other inside => keyed other (List.mem_filter.mp inside).1
  obtain ⟨after, called, skills, defaults⟩ := withdrawDefault_spec kept skill.name skill.version
  refine ⟨[skill], after, ?_, skills, ?_⟩
  · simp only [deregister, bind_run, get_run, modify_run, only, List.map_cons, List.map_nil,
      List.foldl_cons, List.foldl_nil, List.isEmpty_cons, Bool.false_eq_true, if_false, called,
      pure_run]
  · intro name
    rw [defaults, SkillRegistry.enabledVersions, SkillRegistry.enabledVersions, skills]
    rfl

theorem Leading.removed (ordered : versioning.Ordered) (leading : Leading versioning registry)
    {skill : SkillSpec} (skills : after.skills = (registry.popSkill skill.ref).skills)
    (defaults : ∀ name, after.default name =
      if registry.default skill.name = some skill.version ∧ name = skill.name then
        firstNewest versioning id (after.enabledVersions name)
      else registry.default name) : Leading versioning after := by
  have offers {name version : String} : after.Offers name version ↔
      registry.Offers name version ∧ (name, version) ≠ skill.ref := by
    rw [← offers_popSkill]
    unfold SkillRegistry.Offers
    rw [skills]
  have cases_on (name : String) :
      (after.default name = firstNewest versioning id (after.enabledVersions name)) ∨
      after.default name = registry.default name ∧
        ∀ version, registry.default name = some version → (name, version) ≠ skill.ref := by
    by_cases hit : registry.default skill.name = some skill.version ∧ name = skill.name
    · left
      rw [defaults, if_pos hit]
    · right
      refine ⟨by rw [defaults, if_neg hit], ?_⟩
      intro version current same
      obtain ⟨rfl, rfl⟩ := Prod.mk.inj same
      exact hit ⟨current, rfl⟩
  refine ⟨⟨?_, ?_⟩, ?_⟩
  · intro name version current
    rcases cases_on name with elected | ⟨kept, stays⟩
    · rw [elected] at current
      exact SkillRegistry.mem_enabledVersions.mp (firstNewest_mem current)
    · rw [kept] at current
      exact offers.mpr ⟨leading.sound.offered name version current, stays version current⟩
  · intro name version missing offered
    rcases cases_on name with elected | ⟨kept, stays⟩
    · rw [elected, firstNewest_none] at missing
      rw [← SkillRegistry.mem_enabledVersions, missing] at offered
      cases offered
    · rw [kept] at missing
      exact leading.sound.missing name version missing (offers.mp offered).1
  · intro name version other current offered
    rcases cases_on name with elected | ⟨kept, stays⟩
    · rw [elected] at current
      exact firstNewest_newest ordered current (SkillRegistry.mem_enabledVersions.mpr offered)
    · rw [kept] at current
      exact leading.newest name version other current (offers.mp offered).1

end Leading

end AgentTaskPlatform.Skills
