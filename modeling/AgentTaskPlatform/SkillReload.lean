import AgentTaskPlatform.SkillDefaults
import Mathlib.Data.List.Dedup

/-!
`SkillRegistry(store.skills.list())` and `ConfigWatcher._reload_skills`: the loops over the
rows, and what they leave.
-/

namespace AgentTaskPlatform.Skills

open KeyedTable
open Registry (Versioning VersionKey versionKey keyOf versionKey_eq firstNewest firstNewest_mem
  firstNewest_none)
open StatefulCalls (bind_run bind_ok get_run modify_run lift_run pure_run)

variable {versioning : Versioning} {registry after : SkillRegistry}

section Loops

inductive Applied (versioning : Versioning) :
    List SkillSpec → SkillRegistry → SkillRegistry → Prop
  | done (registry : SkillRegistry) : Applied versioning [] registry registry
  | next {skill : SkillSpec} {rest : List SkillSpec} {registry middle after : SkillRegistry}
      (registered : Registered versioning skill registry middle)
      (applied : Applied versioning rest middle after) :
      Applied versioning (skill :: rest) registry after

theorem Applied.sound {rows : List SkillSpec} (applied : Applied versioning rows registry after)
    (sound : Defaulted registry) : Defaulted after := by
  induction applied with
  | done registry => exact sound
  | next registered applied ih => exact ih (registered.sound sound)

theorem Applied.keyed {rows : List SkillSpec} (applied : Applied versioning rows registry after)
    (keyed : AllKeyed versioning registry) (own : ∀ row ∈ rows, Keyed versioning row.version) :
    AllKeyed versioning after := by
  induction applied with
  | done registry => exact keyed
  | next registered applied ih =>
      have first := registered.keyed keyed (own _ List.mem_cons_self)
      exact ih first fun row member => own row (List.mem_cons_of_mem _ member)

theorem Applied.split {left right : List SkillSpec}
    (applied : Applied versioning (left ++ right) registry after) :
    ∃ middle, Applied versioning left registry middle ∧
      Applied versioning right middle after := by
  induction left generalizing registry with
  | nil => exact ⟨registry, .done registry, applied⟩
  | cons skill left ih =>
      cases applied with
      | next registered rest =>
          obtain ⟨middle, first, last⟩ := ih rest
          exact ⟨middle, .next registered first, last⟩

/-- The registry holds the rows as they are, and what it held under other names and
versions. -/
theorem Applied.find {rows : List SkillSpec} (applied : Applied versioning rows registry after)
    (once : (rows.map SkillSpec.ref).Nodup) (ref : String × String) :
    after.skills.find ref = (rows.find? fun row => row.ref = ref).or (registry.skills.find ref) := by
  induction applied with
  | done registry => rfl
  | next registered applied ih =>
      rename_i skill rest registry middle after
      rw [List.map_cons, List.nodup_cons] at once
      rw [ih once.2, registered.skills, find_setSkill]
      by_cases own : skill.ref = ref
      · subst own
        have absent : rest.find? (fun row => row.ref = skill.ref) = none := by
          rw [List.find?_eq_none]
          intro row member same
          exact once.1 ((of_decide_eq_true same) ▸ List.mem_map_of_mem member)
        simp [absent]
      · have other : ref ≠ skill.ref := Ne.symm own
        simp [own, other]

theorem registerAll_applied {rows : List SkillSpec} (keyed : AllKeyed versioning registry)
    (sound : Defaulted registry) (own : ∀ row ∈ rows, Keyed versioning row.version) :
    ∃ after, registerAll versioning false rows registry = (.ok (), after) ∧
      Applied versioning rows registry after := by
  induction rows generalizing registry with
  | nil => exact ⟨registry, rfl, .done registry⟩
  | cons row rest ih =>
      have first := own row List.mem_cons_self
      have later : ∀ other ∈ rest, Keyed versioning other.version :=
        fun other member => own other (List.mem_cons_of_mem _ member)
      obtain ⟨middle, called, registered⟩ := register_spec keyed sound first
        (fun asked : false = true => nomatch asked)
      obtain ⟨after, remaining, applied⟩ :=
        ih (registered.keyed keyed first) (registered.sound sound) later
      refine ⟨after, ?_, .next registered applied⟩
      rw [registerAll, bind_ok called, remaining]

theorem selectDefaults_spec (keyed : AllKeyed versioning registry) (names : List String) :
    ∃ after, selectDefaults versioning names registry = (.ok (), after) ∧
      after.skills = registry.skills ∧
      ∀ wanted, after.default wanted =
        if wanted ∈ names then (firstNewest versioning id (registry.enabledVersions wanted)).or
          (registry.default wanted)
        else registry.default wanted := by
  induction names generalizing registry with
  | nil => exact ⟨registry, rfl, rfl, fun wanted => by simp⟩
  | cons name rest ih =>
      obtain ⟨middle, called, skills, defaults⟩ := selectDefault_spec keyed name
      have kept : AllKeyed versioning middle := by
        intro skill member
        rw [skills] at member
        exact keyed skill member
      obtain ⟨after, remaining, same, later⟩ := ih kept
      refine ⟨after, by rw [selectDefaults, bind_ok called, remaining], same.trans skills, ?_⟩
      intro wanted
      have versions : middle.enabledVersions wanted = registry.enabledVersions wanted := by
        rw [SkillRegistry.enabledVersions, SkillRegistry.enabledVersions, skills]
      rw [later, defaults, versions]
      by_cases own : wanted = name
      · subst own
        by_cases again : wanted ∈ rest
        · cases firstNewest versioning id (registry.enabledVersions wanted) <;> simp [again]
        · simp [again]
      · simp [own]

variable (rows : SkillTable)

theorem rows_find (ref : String × String) :
    rows.rows.find? (fun row => row.ref = ref) = rows.find ref := rfl

theorem empty_sound : Defaulted SkillRegistry.empty :=
  ⟨nofun, fun _ _ _ ⟨_, found, _⟩ => nomatch found⟩

theorem build_spec (ordered : versioning.Ordered)
    (own : ∀ row ∈ rows.rows, Keyed versioning row.version) :
    ∃ fresh, build versioning rows.rows SkillRegistry.empty = (.ok (), fresh) ∧
      (∀ ref, fresh.skills.find ref = rows.find ref) ∧ AllKeyed versioning fresh ∧
      Leading versioning fresh := by
  have nothing : AllKeyed versioning SkillRegistry.empty := nofun
  obtain ⟨middle, called, applied⟩ := registerAll_applied nothing empty_sound own
  have keyed := applied.keyed nothing own
  have sound := applied.sound empty_sound
  obtain ⟨fresh, selected, skills, defaults⟩ :=
    selectDefaults_spec keyed (rows.rows.map SkillSpec.name).dedup
  have found : ∀ ref, fresh.skills.find ref = rows.find ref := by
    intro ref
    rw [skills, applied.find rows.unique]
    exact Option.or_none
  refine ⟨fresh, by rw [build, bind_ok called, selected], found, ?_, ?_⟩
  · intro skill member
    rw [skills] at member
    exact keyed skill member
  · apply leading_of_elected ordered
    intro name
    have versions : fresh.enabledVersions name = middle.enabledVersions name := by
      rw [SkillRegistry.enabledVersions, SkillRegistry.enabledVersions, skills]
    rw [defaults, versions]
    cases elected : firstNewest versioning id (middle.enabledVersions name) with
    | some version =>
        have offered := SkillRegistry.mem_enabledVersions.mp (firstNewest_mem elected)
        obtain ⟨skill, here, _⟩ := offered
        rw [← skills, found] at here
        have listed : name ∈ (rows.rows.map SkillSpec.name).dedup := by
          rw [List.mem_dedup]
          have named : skill.name = name := congrArg Prod.fst (Table.find_key here)
          exact named ▸ List.mem_map_of_mem (Table.find_mem here)
        simp [listed]
    | none =>
        rw [firstNewest_none] at elected
        have missing : middle.default name = none := by
          cases held : middle.default name with
          | none => rfl
          | some version =>
              have offered := sound.offered name version held
              rw [← SkillRegistry.mem_enabledVersions, elected] at offered
              cases offered
        simp [missing]

theorem deregisterEach_spec (ordered : versioning.Ordered) {skills : List SkillSpec}
    (keyed : AllKeyed versioning registry) (leading : Leading versioning registry)
    (inside : ∀ skill ∈ skills, skill ∈ registry.skills.rows)
    (once : (skills.map SkillSpec.ref).Nodup) :
    ∃ count after, deregisterEach versioning skills registry = (.ok count, after) ∧
      AllKeyed versioning after ∧ Leading versioning after ∧
      ∀ ref, after.skills.find ref =
        if ref ∈ skills.map SkillSpec.ref then none else registry.skills.find ref := by
  induction skills generalizing registry with
  | nil => exact ⟨0, registry, rfl, keyed, leading, fun ref => by simp⟩
  | cons skill rest ih =>
      rw [List.map_cons, List.nodup_cons] at once
      obtain ⟨removed, middle, called, skills, defaults⟩ :=
        deregister_spec keyed (inside skill List.mem_cons_self)
      have mem_middle {other : SkillSpec} :
          other ∈ middle.skills.rows ↔ other ∈ registry.skills.rows ∧ other.ref ≠ skill.ref := by
        rw [skills]
        simp [SkillRegistry.popSkill, Table.deleteWhere]
      have kept : AllKeyed versioning middle :=
        fun other member => keyed other (mem_middle.mp member).1
      have remaining : ∀ other ∈ rest, other ∈ middle.skills.rows := by
        intro other member
        refine mem_middle.mpr ⟨inside other (List.mem_cons_of_mem _ member), ?_⟩
        intro same
        exact once.1 (same ▸ List.mem_map_of_mem member)
      obtain ⟨count, after, later, keyed, leading, found⟩ :=
        ih kept (leading.removed ordered skills defaults) remaining once.2
      refine ⟨count + 1, after, ?_, keyed, leading, ?_⟩
      · rw [deregisterEach, bind_ok called, bind_ok later]
        rfl
      · intro ref
        rw [found, skills, SkillRegistry.popSkill, Table.find_deleteWhere_eq]
        cases here : registry.skills.find ref with
        | none => simp
        | some other =>
            have key : other.ref = ref := Table.find_key here
            by_cases own : ref = skill.ref <;> simp [Option.filter_some, key, own]

theorem listSkills_spec (keyed : AllKeyed versioning registry) :
    listSkills versioning registry = (.ok registry.skills.rows, registry) := by
  have read : ∀ skills : List SkillSpec, (∀ skill ∈ skills, Keyed versioning skill.version) →
      ∃ keys, skills.mapM (fun skill => versionKey versioning skill.version) = .ok keys := by
    intro skills
    induction skills with
    | nil => exact fun _ => ⟨[], rfl⟩
    | cons skill rest ih =>
        intro keyed
        obtain ⟨keys, later⟩ := ih fun other member => keyed other (List.mem_cons_of_mem _ member)
        refine ⟨keyOf versioning skill.version :: keys, ?_⟩
        simp only [List.mapM_cons, versionKey_eq (keyed skill List.mem_cons_self), later]
        rfl
  obtain ⟨keys, called⟩ := read registry.skills.rows keyed
  simp only [listSkills, bind_run, get_run, lift_run, called, pure_run]

/-- The loop over the rows registers each one that has changed, and the others change
nothing. -/
theorem registerEach_spec (snapshot : SkillTable) {rows : List SkillSpec}
    (keyed : AllKeyed versioning registry) (sound : Defaulted registry)
    (own : ∀ row ∈ rows, Keyed versioning row.version) (once : (rows.map SkillSpec.ref).Nodup)
    (same : ∀ row ∈ rows, registry.skills.find row.ref = snapshot.find row.ref) :
    ∃ count after, registerEach versioning snapshot rows registry = (.ok count, after) ∧
      Applied versioning rows registry after := by
  induction rows generalizing registry with
  | nil => exact ⟨0, registry, rfl, .done registry⟩
  | cons row rest ih =>
      rw [List.map_cons, List.nodup_cons] at once
      have here := same row List.mem_cons_self
      have later : ∀ other ∈ rest, Keyed versioning other.version :=
        fun other member => own other (List.mem_cons_of_mem _ member)
      rw [registerEach]
      by_cases unchanged : snapshot.find row.ref = some row
      · have registered : Registered versioning row registry registry :=
          Registered.unchanged sound (here.trans unchanged)
        obtain ⟨count, after, called, applied⟩ := ih keyed sound later once.2
          fun other member => same other (List.mem_cons_of_mem _ member)
        exact ⟨count, after, by rw [if_pos unchanged, called], .next registered applied⟩
      · have first : (!(registry.skills.rows.map SkillSpec.name).contains row.name) = true →
            registry.default row.name = none := by
          intro unknown
          cases held : registry.default row.name with
          | none => rfl
          | some version =>
              obtain ⟨skill, found, _⟩ := sound.offered row.name version held
              have named : skill.name = row.name := congrArg Prod.fst (Table.find_key found)
              have known : row.name ∈ registry.skills.rows.map SkillSpec.name :=
                named ▸ List.mem_map_of_mem (Table.find_mem found)
              simp only [Bool.not_eq_true', List.contains_eq_mem, decide_eq_false_iff_not]
                at unknown
              exact absurd known unknown
        obtain ⟨middle, called, registered⟩ :=
          register_spec keyed sound (own row List.mem_cons_self) first
        have remaining : ∀ other ∈ rest, middle.skills.find other.ref =
            snapshot.find other.ref := by
          intro other member
          have differs : other.ref ≠ row.ref := by
            intro equal
            exact once.1 (equal ▸ List.mem_map_of_mem member)
          rw [registered.skills, find_setSkill, if_neg differs]
          exact same other (List.mem_cons_of_mem _ member)
        obtain ⟨count, after, applying, applied⟩ :=
          ih (registered.keyed keyed (own row List.mem_cons_self)) (registered.sound sound)
            later once.2 remaining
        refine ⟨count + 1, after, ?_, .next registered applied⟩
        rw [if_neg unchanged, bind_ok (listSkills_spec keyed), bind_ok called, bind_ok applying]
        rfl

end Loops

section Reload

variable {loading : Loading} (rows : SkillTable)

structure Trimmed (versioning : Versioning) (rows : SkillTable) (registry middle : SkillRegistry) :
    Prop where
  keyed : AllKeyed versioning middle
  leading : Leading versioning middle
  find : ∀ ref, middle.skills.find ref =
    if rows.find ref = none then none else registry.skills.find ref

theorem reloadSkills_spec (ordered : versioning.Ordered)
    (verified : verifyAll loading rows.rows = .ok ()) (keyed : AllKeyed versioning registry)
    (own : ∀ row ∈ rows.rows, Keyed versioning row.version)
    (leading : Leading versioning registry) :
    ∃ count middle after, reloadSkills loading versioning rows.rows registry =
        (.ok count, after) ∧
      Trimmed versioning rows registry middle ∧ Applied versioning rows.rows middle after := by
  have gone_iff {skill : SkillSpec} :
      (!(rows.rows.map SkillSpec.ref).contains skill.ref) = true ↔ rows.find skill.ref = none := by
    rw [Table.find_none]
    simp
  have inside : ∀ skill ∈ registry.skills.rows.filter fun skill =>
      !(rows.rows.map SkillSpec.ref).contains skill.ref, skill ∈ registry.skills.rows :=
    fun skill member => (List.mem_filter.mp member).1
  obtain ⟨removed, middle, trimming, kept, leads, found⟩ := deregisterEach_spec ordered
    keyed leading inside (registry.skills.unique.sublist (List.filter_sublist.map _))
  have trimmed : Trimmed versioning rows registry middle := by
    refine ⟨kept, leads, ?_⟩
    intro ref
    rw [found]
    cases here : registry.skills.find ref with
    | none => simp
    | some skill =>
        have key : skill.ref = ref := Table.find_key here
        subst key
        have member := Table.find_mem here
        have same : skill.ref ∈ (registry.skills.rows.filter fun skill =>
            !(rows.rows.map SkillSpec.ref).contains skill.ref).map SkillSpec.ref ↔
            rows.find skill.ref = none := by
          constructor
          · intro listed
            obtain ⟨other, inside, equal⟩ := List.mem_map.mp listed
            rw [← equal]
            exact gone_iff.mp (List.mem_filter.mp inside).2
          · intro missing
            exact List.mem_map_of_mem (List.mem_filter.mpr ⟨member, gone_iff.mpr missing⟩)
        simp only [same]
  have same : ∀ row ∈ rows.rows, middle.skills.find row.ref = registry.skills.find row.ref := by
    intro row member
    rw [trimmed.find, Table.mem_find member]
    simp
  obtain ⟨registered, after, applying, applied⟩ :=
    registerEach_spec registry.skills kept leads.sound own rows.unique same
  refine ⟨removed + registered, middle, after, ?_, trimmed, applied⟩
  rw [reloadSkills, bind_run, lift_run, verified]
  simp only [bind_run, get_run, listSkills_spec keyed, trimming, applying, pure_run]

end Reload

end AgentTaskPlatform.Skills
