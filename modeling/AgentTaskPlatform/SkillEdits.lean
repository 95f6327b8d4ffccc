import AgentTaskPlatform.SkillReload

/-!
The edits of the database after which `_reload_skills` leaves the skills and the defaults of
a restart. A default stays with a version until a row disables or drops it, so the newest
version has to meet the moment in which the default is free.
-/

namespace AgentTaskPlatform.Skills

open KeyedTable
open Registry (Versioning VersionKey keyOf firstNewest firstNewest_mem firstNewest_none)

variable {versioning : Versioning} {registry after : SkillRegistry}

section Edits

def Enables (rows : SkillTable) (ref : String × String) : Prop :=
  ∃ row, rows.find ref = some row ∧ row.enabled = true

variable (versioning) in
structure NewestRow (rows : SkillTable) (best : SkillSpec) : Prop where
  listed : best ∈ rows.rows
  enabled : best.enabled = true
  newer : ∀ row ∈ rows.rows, row.name = best.name → row.enabled = true → row ≠ best →
    (keyOf versioning row.version).older versioning (keyOf versioning best.version) = true

variable (versioning) in
/-- A reload gives the newest row the default. It was enabled before; or the row is the first
enabled one of its name, and no later row of the name was enabled and is; or the newest
version that was enabled, of those that are still there, is disabled by a later row. -/
def Heeded (old new : SkillTable) (best : SkillSpec) : Prop :=
  Enables old best.ref ∨
  ∃ before after, new.rows = before ++ best :: after ∧
    ((∀ row ∈ before, row.name = best.name → row.enabled = false) ∧
        (∀ row ∈ after, row.name = best.name → row.enabled = true → ¬ Enables old row.ref) ∨
      ∃ heir ∈ after, heir.name = best.name ∧ heir.enabled = false ∧ Enables old heir.ref ∧
        ∀ row ∈ new.rows, row.name = best.name → Enables old row.ref → row ≠ heir →
          (keyOf versioning row.version).older versioning (keyOf versioning heir.version) = true)

def Midway (old new : SkillTable) (pending : List SkillSpec) (registry : SkillRegistry) : Prop :=
  ∀ ref, registry.skills.find ref =
    if ref ∈ pending.map SkillSpec.ref then old.find ref else new.find ref

variable {old new : SkillTable} {best : SkillSpec} {pending : List SkillSpec}

/-- An offered version that is to come was enabled before, any other one is enabled now. -/
theorem Midway.offered (midway : Midway old new pending registry)
    (inside : ∀ row ∈ pending, row ∈ new.rows) {name version : String}
    (offered : registry.Offers name version) :
    ∃ row ∈ new.rows, row.ref = (name, version) ∧
      (row ∈ pending ∧ Enables old row.ref ∨ row ∉ pending ∧ row.enabled = true) := by
  obtain ⟨skill, found, enabled⟩ := offered
  rw [midway] at found
  by_cases waiting : (name, version) ∈ pending.map SkillSpec.ref
  · obtain ⟨row, member, same⟩ := List.mem_map.mp waiting
    rw [if_pos waiting] at found
    exact ⟨row, inside row member, same, Or.inl ⟨member, skill, same ▸ found, enabled⟩⟩
  · rw [if_neg waiting] at found
    refine ⟨skill, Table.find_mem found, Table.find_key found, Or.inr ⟨?_, enabled⟩⟩
    intro member
    exact waiting (Table.find_key found ▸ List.mem_map_of_mem member)

theorem Midway.next {row : SkillSpec} {rest : List SkillSpec}
    (midway : Midway old new (row :: rest) registry)
    (registered : Registered versioning row registry after) (member : row ∈ new.rows)
    (once : row.ref ∉ rest.map SkillSpec.ref) : Midway old new rest after := by
  intro ref
  rw [registered.skills, find_setSkill, midway]
  by_cases own : ref = row.ref
  · subst own
    simp [once, Table.mem_find member]
  · simp [own]

def Settles (best : SkillSpec) (pending : List SkillSpec) (version : String) : Prop :=
  version = best.version ∨
    ∃ row ∈ pending, row.ref = (best.name, version) ∧ row.enabled = false

theorem NewestRow.settles (newest : NewestRow versioning new best)
    (midway : Midway old new pending registry) (inside : ∀ row ∈ pending, row ∈ new.rows)
    {version : String} (offered : registry.Offers best.name version)
    (unbeaten : (keyOf versioning version).older versioning
      (keyOf versioning best.version) = false) : Settles best pending version := by
  obtain ⟨row, listed, same, known⟩ := midway.offered inside offered
  obtain ⟨named, rfl⟩ := Prod.mk.inj same
  by_cases enabled : row.enabled = true
  · left
    by_cases own : row = best
    · rw [own]
    · have beaten := newest.newer row listed named enabled own
      rw [unbeaten] at beaten
      cases beaten
  · right
    rcases known with ⟨waiting, _⟩ | ⟨_, on⟩
    · exact ⟨row, waiting, same, by simpa using enabled⟩
    · exact absurd on enabled

structure Winning (best : SkillSpec) (pending : List SkillSpec) (registry : SkillRegistry) :
    Prop where
  offered : registry.Offers best.name best.version
  settles : ∃ version, registry.default best.name = some version ∧ Settles best pending version

theorem Winning.next (ordered : versioning.Ordered) (newest : NewestRow versioning new best)
    {row : SkillSpec} {rest : List SkillSpec} (winning : Winning best (row :: rest) registry)
    (midway : Midway old new (row :: rest) registry)
    (registered : Registered versioning row registry after)
    (inside : ∀ other ∈ row :: rest, other ∈ new.rows)
    (once : row.ref ∉ rest.map SkillSpec.ref) : Winning best rest after := by
  have listed := inside row List.mem_cons_self
  have remaining := midway.next registered listed once
  have offered : after.Offers best.name best.version := by
    rw [registered.offers]
    split
    · next same =>
        have equal : best = row :=
          List.inj_on_of_nodup_map new.unique newest.listed listed same
        exact equal ▸ newest.enabled
    · exact winning.offered
  obtain ⟨version, current, settles⟩ := winning.settles
  refine ⟨offered, ?_⟩
  -- a row that is not the one of the default leaves it
  have later (other : row.ref ≠ (best.name, version) ∨ row.enabled = true) :
      Settles best rest version := by
    rcases settles with same | ⟨waiting, member, key, disabled⟩
    · exact Or.inl same
    · rcases List.mem_cons.mp member with rfl | inside
      · rcases other with differs | enabled
        · exact absurd key differs
        · rw [enabled] at disabled
          cases disabled
      · exact Or.inr ⟨waiting, inside, key, disabled⟩
  by_cases named : best.name = row.name
  · by_cases enabled : row.enabled = true
    · refine ⟨version, ?_, later (Or.inr enabled)⟩
      rw [named, registered.taken enabled, ← named, current]
      rfl
    · have disabled : row.enabled = false := by simpa using enabled
      by_cases held : registry.default row.name = some row.version
      · have elected := registered.elected disabled held
        rw [← named] at elected
        cases winner : firstNewest versioning id (after.enabledVersions best.name) with
        | none =>
            rw [firstNewest_none] at winner
            rw [← SkillRegistry.mem_enabledVersions, winner] at offered
            cases offered
        | some heir =>
            refine ⟨heir, elected.trans winner, ?_⟩
            have unbeaten := Registry.firstNewest_newest ordered winner
              (SkillRegistry.mem_enabledVersions.mpr offered)
            have known := SkillRegistry.mem_enabledVersions.mp (firstNewest_mem winner)
            exact newest.settles remaining
              (fun other member => inside other (List.mem_cons_of_mem _ member)) known unbeaten
      · refine ⟨version, ?_, later (Or.inl ?_)⟩
        · rw [named, registered.left disabled held, ← named, current]
        · intro same
          obtain ⟨_, rfl⟩ := Prod.mk.inj same
          exact held (named ▸ current)
  · refine ⟨version, ?_, later (Or.inl ?_)⟩
    · rw [registered.others best.name named, current]
    · intro same
      exact named (congrArg Prod.fst same).symm

/-- Once nothing keeps the default from the best version, the loop gives it the default. -/
theorem Winning.run (ordered : versioning.Ordered) (newest : NewestRow versioning new best)
    (applied : Applied versioning pending registry after)
    (winning : Winning best pending registry) (midway : Midway old new pending registry)
    (inside : ∀ row ∈ pending, row ∈ new.rows) (once : (pending.map SkillSpec.ref).Nodup) :
    after.default best.name = some best.version := by
  induction applied with
  | done registry =>
      obtain ⟨version, current, same | ⟨row, member, _⟩⟩ := winning.settles
      · rw [current, same]
      · cases member
  | next registered applied ih =>
      rw [List.map_cons, List.nodup_cons] at once
      have listed := inside _ List.mem_cons_self
      exact ih (winning.next ordered newest midway registered inside once.1)
        (midway.next registered listed once.1)
        (fun row member => inside row (List.mem_cons_of_mem _ member)) once.2

theorem Applied.keeps {rows : List SkillSpec} {name version : String}
    (applied : Applied versioning rows registry after)
    (current : registry.default name = some version)
    (others : ∀ row ∈ rows, row.ref ≠ (name, version)) : after.default name = some version := by
  induction applied with
  | done registry => exact current
  | next registered applied ih =>
      rename_i skill rest registry middle after
      refine ih ?_ fun row member => others row (List.mem_cons_of_mem _ member)
      by_cases named : name = skill.name
      · subst named
        by_cases enabled : skill.enabled = true
        · rw [registered.taken enabled, current]
          rfl
        · have disabled : skill.enabled = false := by simpa using enabled
          rw [registered.left disabled, current]
          intro held
          rw [current] at held
          cases held
          exact others skill List.mem_cons_self rfl
      · rw [registered.others name named, current]

theorem Midway.run {left right : List SkillSpec} (midway : Midway old new (left ++ right) registry)
    (applied : Applied versioning left registry after)
    (inside : ∀ row ∈ left, row ∈ new.rows)
    (once : ((left ++ right).map SkillSpec.ref).Nodup) : Midway old new right after := by
  induction applied with
  | done registry => exact midway
  | next registered applied ih =>
      rw [List.cons_append, List.map_cons, List.nodup_cons] at once
      exact ih (midway.next registered (inside _ List.mem_cons_self) once.1)
        (fun row member => inside row (List.mem_cons_of_mem _ member)) once.2

theorem Trimmed.midway {middle : SkillRegistry} (trimmed : Trimmed versioning new registry middle)
    (same : ∀ ref, registry.skills.find ref = old.find ref) :
    Midway old new new.rows middle := by
  intro ref
  rw [trimmed.find, same]
  by_cases missing : new.find ref = none
  · have absent := Table.find_none.mp missing
    simp [missing, absent]
  · have present : ref ∈ new.rows.map SkillSpec.ref := by
      by_contra absent
      exact missing (Table.find_none.mpr absent)
    simp [missing, present]

theorem Midway.offers (midway : Midway old new pending registry) {row : SkillSpec}
    (member : row ∈ pending) (enabled : Enables old row.ref) :
    registry.Offers row.name row.version := by
  obtain ⟨skill, found, on⟩ := enabled
  refine ⟨skill, ?_, on⟩
  change registry.skills.find row.ref = some skill
  rw [midway, if_pos (List.mem_map_of_mem member), found]

theorem Winning.before (newest : NewestRow versioning new best) (leading : Leading versioning registry)
    (midway : Midway old new new.rows registry) (enabled : Enables old best.ref) :
    Winning best new.rows registry := by
  have offered := midway.offers newest.listed enabled
  refine ⟨offered, ?_⟩
  cases current : registry.default best.name with
  | none => exact absurd offered (leading.sound.missing best.name best.version current)
  | some version =>
      have known := leading.sound.offered best.name version current
      have unbeaten := leading.newest best.name version best.version current offered
      exact ⟨version, rfl, newest.settles midway (fun _ member => member) known unbeaten⟩

/-- A best version that the rows enable wins with its row, unless another one stays before
it. -/
theorem Winning.registered {rest : List SkillSpec} (newest : NewestRow versioning new best)
    (registered : Registered versioning best registry after)
    (settles : ∀ version, registry.default best.name = some version → Settles best rest version) :
    Winning best rest after := by
  constructor
  · have own : (best.name, best.version) = best.ref := rfl
    rw [registered.offers, if_pos own]
    exact newest.enabled
  · rw [registered.taken newest.enabled]
    cases current : registry.default best.name with
    | none => exact ⟨best.version, rfl, Or.inl rfl⟩
    | some version => exact ⟨version, rfl, settles version current⟩

theorem heeded_default (ordered : versioning.Ordered) (newest : NewestRow versioning new best)
    (heeded : Heeded versioning old new best) {middle : SkillRegistry}
    (leading : Leading versioning middle) (midway : Midway old new new.rows middle)
    (applied : Applied versioning new.rows middle after) :
    after.default best.name = some best.version := by
  rcases heeded with enabled | ⟨before, later, rows, kept⟩
  · exact (Winning.before newest leading midway enabled).run ordered newest applied midway
      (fun row member => member) new.unique
  · have once := new.unique
    rw [rows] at applied midway once
    have inside : ∀ row ∈ before ++ best :: later, row ∈ new.rows :=
      fun row member => rows.symm ▸ member
    obtain ⟨reached, first, last⟩ := applied.split
    have here := midway.run first
      (fun row member => inside row (List.mem_append_left _ member)) once
    have remaining : ∀ row ∈ best :: later, row ∈ new.rows :=
      fun row member => inside row (List.mem_append_right before member)
    have distinct : ((best :: later).map SkillSpec.ref).Nodup := by
      rw [List.map_append] at once
      exact once.of_append_right
    cases last with
    | next registered last =>
        rw [List.map_cons, List.nodup_cons] at distinct
        rename_i passing
        have winning : Winning best later passing := by
          refine Winning.registered newest registered fun version current => ?_
          rcases kept with ⟨fresh, stale⟩ | ⟨heir, behind, named, disabled, enabled, newer⟩
          · -- the default that the row finds is enabled, so its row is still to come
            obtain ⟨row, listed, key, known⟩ := here.offered remaining
              ((first.sound leading.sound).offered best.name version current)
            have own : row.name = best.name := congrArg Prod.fst key
            rcases known with ⟨waiting, enabled⟩ | ⟨passed, enabled⟩
            · rcases List.mem_cons.mp waiting with rfl | follows
              · exact Or.inl (congrArg Prod.snd key).symm
              · refine Or.inr ⟨row, follows, key, ?_⟩
                by_contra on
                exact stale row follows own (by simpa using on) enabled
            · rw [rows] at listed
              rcases List.mem_append.mp listed with earlier | waiting
              · rw [fresh row earlier own] at enabled
                cases enabled
              · exact absurd waiting passed
          · -- the default has been the heir from the start
            have listed : heir ∈ before ++ best :: later :=
              List.mem_append_right before (List.mem_cons_of_mem best behind)
            have started : middle.default best.name = some heir.version := by
              rw [← named]
              refine leading.strict (midway.offers listed enabled) fun other offered differs => ?_
              obtain ⟨row, member, key, known⟩ := midway.offered inside offered
              obtain ⟨same, rfl⟩ := Prod.mk.inj key
              rcases known with ⟨_, was⟩ | ⟨passed, _⟩
              · exact newer row member (same.trans named) was fun equal => differs (equal ▸ rfl)
              · exact absurd (rows ▸ member) passed
            have still := first.keeps started fun row member same => by
              have equal : row.ref = heir.ref := same.trans (named ▸ rfl)
              rw [List.map_append, List.nodup_append] at once
              exact once.2.2 row.ref (List.mem_map_of_mem member) heir.ref
                (List.mem_map_of_mem (List.mem_cons_of_mem best behind)) equal
            rw [still] at current
            cases current
            exact Or.inr ⟨heir, behind, named ▸ rfl, disabled⟩
        exact winning.run ordered newest last
          (here.next registered newest.listed distinct.1)
          (fun row member => remaining row (List.mem_cons_of_mem best member)) distinct.2

end Edits

section Agreement

variable (versioning) in
structure Current (rows : SkillTable) (registry : SkillRegistry) : Prop where
  find : ∀ ref, registry.skills.find ref = rows.find ref
  leading : Leading versioning registry

theorem Current.keyed {rows : SkillTable} (current : Current versioning rows registry)
    (own : ∀ row ∈ rows.rows, Keyed versioning row.version) : AllKeyed versioning registry := by
  intro skill member
  have found : registry.skills.find skill.ref = some skill := Table.mem_find member
  rw [current.find] at found
  exact own skill (Table.find_mem found)

variable (versioning) in
/-- An edit that a reload takes as a restart would: the artifacts are sound, the versions
have keys, and each name with an enabled version has a newest one, which a reload gives the
default. -/
structure Orderly (loading : Loading) (old new : SkillTable) : Prop where
  verified : verifyAll loading new.rows = .ok ()
  before : ∀ row ∈ old.rows, Keyed versioning row.version
  keyed : ∀ row ∈ new.rows, Keyed versioning row.version
  newest : ∀ row ∈ new.rows, row.enabled = true → ∃ best, best.name = row.name ∧
    NewestRow versioning new best ∧ Heeded versioning old new best

variable (versioning) in
def LikeRestart (rows : SkillTable) (registry : SkillRegistry) : Prop :=
  ∃ fresh, build versioning rows.rows SkillRegistry.empty = (.ok (), fresh) ∧
    (∀ ref, registry.skills.find ref = fresh.skills.find ref) ∧
    ∀ name, registry.default name = fresh.default name

variable {old new : SkillTable}

theorem Current.default (current : Current versioning new registry) {best : SkillSpec}
    (newest : NewestRow versioning new best) :
    registry.default best.name = some best.version := by
  have found : registry.skills.find best.ref = some best := by
    rw [current.find]
    exact Table.mem_find newest.listed
  apply current.leading.strict ⟨best, found, newest.enabled⟩
  intro other offered differs
  obtain ⟨row, present, enabled⟩ := offered
  rw [current.find] at present
  have key : row.ref = (best.name, other) := Table.find_key present
  obtain ⟨named, rfl⟩ := Prod.mk.inj key
  exact newest.newer row (Table.find_mem present) named enabled fun equal => differs (equal ▸ rfl)

theorem Current.none (current : Current versioning new registry) {name : String}
    (disabled : ∀ row ∈ new.rows, row.name = name → row.enabled = false) :
    registry.default name = none := by
  cases held : registry.default name with
  | none => rfl
  | some version =>
      obtain ⟨row, present, enabled⟩ := current.leading.sound.offered name version held
      rw [current.find] at present
      rw [disabled row (Table.find_mem present) (congrArg Prod.fst (Table.find_key present))]
        at enabled
      cases enabled

theorem Current.likeRestart (ordered : versioning.Ordered) {loading : Loading}
    (orderly : Orderly versioning loading old new) (current : Current versioning new registry) :
    LikeRestart versioning new registry := by
  obtain ⟨fresh, built, found, _, leading⟩ := build_spec new ordered orderly.keyed
  have started : Current versioning new fresh := ⟨found, leading⟩
  refine ⟨fresh, built, fun ref => (current.find ref).trans (found ref).symm, ?_⟩
  intro name
  by_cases offered : ∃ row ∈ new.rows, row.name = name ∧ row.enabled = true
  · obtain ⟨row, member, rfl, enabled⟩ := offered
    obtain ⟨best, named, newest, _⟩ := orderly.newest row member enabled
    rw [← named, current.default newest, started.default newest]
  · have disabled : ∀ row ∈ new.rows, row.name = name → row.enabled = false := by
      intro row member named
      by_contra on
      exact offered ⟨row, member, named, by simpa using on⟩
    rw [current.none disabled, started.none disabled]

theorem Current.reloaded (ordered : versioning.Ordered) {loading : Loading}
    (orderly : Orderly versioning loading old new) (current : Current versioning old registry) :
    Current versioning new (reloadSkills loading versioning new.rows registry).2 := by
  obtain ⟨count, middle, after, called, trimmed, applied⟩ := reloadSkills_spec new ordered
    orderly.verified (current.keyed orderly.before) orderly.keyed current.leading
  have midway := trimmed.midway current.find
  have found : ∀ ref, after.skills.find ref = new.find ref := by
    intro ref
    rw [applied.find new.unique, rows_find, trimmed.find]
    cases new.find ref <;> rfl
  have sound := applied.sound trimmed.leading.sound
  rw [called]
  refine ⟨found, sound, ?_⟩
  intro name version other held offered
  obtain ⟨row, present, enabled⟩ := sound.offered name version held
  rw [found] at present
  have key : row.ref = (name, version) := Table.find_key present
  obtain ⟨rfl, rfl⟩ := Prod.mk.inj key
  obtain ⟨best, named, newest, heeded⟩ := orderly.newest row (Table.find_mem present) enabled
  have won := heeded_default ordered newest heeded trimmed.leading midway applied
  rw [named, held] at won
  have same : row.version = best.version := Option.some.inj won
  obtain ⟨rival, here, on⟩ := offered
  rw [found] at here
  have rivalry : rival.ref = (row.name, other) := Table.find_key here
  obtain ⟨shared, rfl⟩ := Prod.mk.inj rivalry
  have weak := Registry.versionKey_weak ordered
  rw [same]
  by_cases own : rival = best
  · rw [own]
    exact weak.irrefl _
  · exact weak.asymm _ _
      (newest.newer rival (Table.find_mem here) (shared.trans named.symm) on own)

end Agreement

end AgentTaskPlatform.Skills
