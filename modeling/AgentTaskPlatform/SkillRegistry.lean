import AgentTaskPlatform.Registry
import AgentTaskPlatform.SkillLoader
import AgentTaskPlatform.StatefulCalls

/-!
`SkillRegistry`: the registered versions of every Skill in the order of their
registration, and the default version of a name. A method that raises leaves what it has
changed.
-/

namespace AgentTaskPlatform.Skills

open KeyedTable Registry StatefulCalls

abbrev SkillTable := Table SkillSpec (String × String) SkillSpec.ref

abbrev DefaultTable := Table (String × String) String Prod.fst

structure SkillRegistry where
  skills : SkillTable
  defaults : DefaultTable

namespace SkillRegistry

def empty : SkillRegistry := ⟨Table.empty, Table.empty⟩

def default (registry : SkillRegistry) (name : String) : Option String :=
  (registry.defaults.find name).map Prod.snd

def setSkill (registry : SkillRegistry) (skill : SkillSpec) : SkillRegistry :=
  { registry with skills := registry.skills.upsert skill }

def popSkill (registry : SkillRegistry) (ref : String × String) : SkillRegistry :=
  { registry with skills := registry.skills.deleteWhere fun skill => skill.ref = ref }

def setDefault (registry : SkillRegistry) (name version : String) : SkillRegistry :=
  { registry with defaults := registry.defaults.upsert (name, version) }

def popDefault (registry : SkillRegistry) (name : String) : SkillRegistry :=
  { registry with defaults := registry.defaults.deleteWhere fun row => row.1 = name }

def enabledVersions (registry : SkillRegistry) (name : String) : List String :=
  (registry.skills.rows.filter fun skill => skill.name = name && skill.enabled).map
    SkillSpec.version

def getOptional (registry : SkillRegistry) (name version : String) : Option SkillSpec :=
  registry.skills.find (name, version)

end SkillRegistry

section Newest

variable (versioning : Versioning) {Item : Type} (version : Item → String)

def newestFrom (best : Item) (bestKey : VersionKey versioning) : List Item → Except Exc Item
  | [] => .ok best
  | item :: rest => do
      let key ← versionKey versioning (version item)
      if bestKey.older versioning key then newestFrom item key rest
      else newestFrom best bestKey rest

def newest : List Item → Except Exc (Option Item)
  | [] => .ok none
  | first :: rest => do
      let key ← versionKey versioning (version first)
      let best ← newestFrom versioning version first key rest
      return some best

end Newest

abbrev SkillM := StatefulCalls.Method Exc SkillRegistry

section Methods

variable (versioning : Versioning)

def selectDefault (name : String) : SkillM Unit := do
  let registry ← get
  let version ← ExceptT.mk (pure (newest versioning id (registry.enabledVersions name)))
  match version with
  | none => pure ()
  | some version => modify fun registry => registry.setDefault name version

def register (skill : SkillSpec) (makeDefault : Bool) : SkillM Unit := do
  modify fun registry => registry.setSkill skill
  let registry ← get
  if !skill.enabled then
    if registry.default skill.name = some skill.version then
      modify fun registry => registry.popDefault skill.name
      selectDefault versioning skill.name
    else pure ()
  else if makeDefault then modify fun registry => registry.setDefault skill.name skill.version
  else if (registry.default skill.name).isNone then selectDefault versioning skill.name
  else pure ()

def registerAll (makeDefault : Bool) : List SkillSpec → SkillM Unit
  | [] => pure ()
  | skill :: rest => do
      register versioning skill makeDefault
      registerAll makeDefault rest

def selectDefaults : List String → SkillM Unit
  | [] => pure ()
  | name :: rest => do
      selectDefault versioning name
      selectDefaults rest

/-- `SkillRegistry(skills)`; the names are visited in some order. -/
def build (skills : List SkillSpec) : SkillM Unit := do
  registerAll versioning false skills
  selectDefaults versioning (skills.map SkillSpec.name).dedup

def skillNotFound (name : String) : Exc :=
  ⟨.exception, "SkillNotFoundError", "Unknown Skill '" ++ name ++ "'"⟩

def withdrawDefault (name : String) (versions : List String) : SkillM Unit := do
  let registry ← get
  if (registry.default name).any versions.contains then
    modify fun registry => registry.popDefault name
    selectDefault versioning name
  else pure ()

def matching (registry : SkillRegistry) (name : String) (version : Option String) :
    List SkillSpec :=
  registry.skills.rows.filter fun skill => skill.name = name && version.all (skill.version = ·)

def disable (name : String) (version : Option String) : SkillM (List SkillSpec) := do
  let registry ← get
  let changed := (matching registry name version).map fun skill => { skill with enabled := false }
  modify fun registry => changed.foldl SkillRegistry.setSkill registry
  if changed.isEmpty then throw (skillNotFound name)
  else do
    withdrawDefault versioning name (changed.map SkillSpec.version)
    return changed

def deregister (name : String) (version : Option String) : SkillM (List SkillSpec) := do
  let registry ← get
  let removed := matching registry name version
  modify fun registry => (removed.map SkillSpec.ref).foldl SkillRegistry.popSkill registry
  if removed.isEmpty then throw (skillNotFound name)
  else do
    withdrawDefault versioning name (removed.map SkillSpec.version)
    return removed

end Methods

section Reload

variable (loading : Loading) (versioning : Versioning)

def verifyAll : List SkillSpec → Except Exc Unit
  | [] => .ok ()
  | spec :: rest => do
      verify loading spec
      verifyAll rest

/-- `list()` sorts by the version keys; its callers make dictionaries of the result, so the
order is not kept here. -/
def listSkills : SkillM (List SkillSpec) := do
  let registry ← get
  let _ ← ExceptT.mk (pure (registry.skills.rows.mapM fun skill =>
    versionKey versioning skill.version))
  return registry.skills.rows

def deregisterEach : List SkillSpec → SkillM Nat
  | [] => pure 0
  | skill :: rest => do
      let _ ← deregister versioning skill.name (some skill.version)
      let count ← deregisterEach rest
      return count + 1

def registerEach (snapshot : SkillTable) : List SkillSpec → SkillM Nat
  | [] => pure 0
  | spec :: rest => do
      if snapshot.find spec.ref = some spec then registerEach snapshot rest
      else do
        let listed ← listSkills versioning
        register versioning spec (!(listed.map SkillSpec.name).contains spec.name)
        let count ← registerEach snapshot rest
        return count + 1

def reloadSkills (rows : List SkillSpec) : SkillM Nat := do
  ExceptT.mk (pure (verifyAll loading rows))
  let registry ← get
  let listed ← listSkills versioning
  let removed ← deregisterEach versioning
    (listed.filter fun skill => !(rows.map SkillSpec.ref).contains skill.ref)
  let registered ← registerEach versioning registry.skills rows
  return removed + registered

end Reload

section Specs

variable {versioning : Versioning}

def Keyed (versioning : Versioning) (version : String) : Prop :=
  ∃ key, versionKey versioning version = .ok key

theorem newestFrom_ok {Item : Type} {version : Item → String} {items : List Item}
    (keyed : ∀ item ∈ items, Keyed versioning (version item)) (best : Item)
    (bestKey : VersionKey versioning) :
    ∃ found, newestFrom versioning version best bestKey items = .ok found := by
  induction items generalizing best bestKey with
  | nil => exact ⟨best, rfl⟩
  | cons item rest ih =>
      obtain ⟨key, known⟩ := keyed item List.mem_cons_self
      have later : ∀ other ∈ rest, Keyed versioning (version other) := fun other member =>
        keyed other (List.mem_cons_of_mem item member)
      simp only [newestFrom, known, Bind.bind, Except.bind]
      by_cases newer : bestKey.older versioning key = true
      · rw [if_pos newer]
        exact ih later item key
      · rw [if_neg newer]
        exact ih later best bestKey

theorem newest_ok {Item : Type} {version : Item → String} {items : List Item}
    (keyed : ∀ item ∈ items, Keyed versioning (version item)) :
    ∃ found, newest versioning version items = .ok found := by
  cases items with
  | nil => exact ⟨none, rfl⟩
  | cons first rest =>
      obtain ⟨key, known⟩ := keyed first List.mem_cons_self
      obtain ⟨found, same⟩ := newestFrom_ok
        (fun item member => keyed item (List.mem_cons_of_mem first member)) first key
      exact ⟨some found, by simp only [newest, known, Bind.bind, Except.bind, same]; rfl⟩

theorem newestFrom_keyed {Item : Type} {version : Item → String} {items : List Item} {best : Item}
    {bestKey : VersionKey versioning} {found : Item}
    (read : newestFrom versioning version best bestKey items = .ok found) :
    ∀ item ∈ items, Keyed versioning (version item) := by
  induction items generalizing best bestKey with
  | nil => nofun
  | cons item rest ih =>
      simp only [newestFrom, Bind.bind, Except.bind] at read
      split at read
      · cases read
      next key known =>
        rw [List.forall_mem_cons]
        refine ⟨⟨key, known⟩, ?_⟩
        split at read
        · exact ih read
        · exact ih read

theorem newest_keyed {Item : Type} {version : Item → String} {items : List Item}
    {found : Option Item} (read : newest versioning version items = .ok found) :
    ∀ item ∈ items, Keyed versioning (version item) := by
  cases items with
  | nil => nofun
  | cons first rest =>
      simp only [newest, Bind.bind, Except.bind] at read
      split at read
      · cases read
      next key known =>
        rw [List.forall_mem_cons]
        refine ⟨⟨key, known⟩, ?_⟩
        split at read
        · cases read
        next best later => exact newestFrom_keyed later

theorem enabledVersions_keyed {registry : SkillRegistry}
    (keyed : ∀ skill ∈ registry.skills.rows, Keyed versioning skill.version) (name : String) :
    ∀ version ∈ registry.enabledVersions name, Keyed versioning version := by
  intro version member
  obtain ⟨skill, kept, rfl⟩ := List.mem_map.mp member
  exact keyed skill (List.mem_filter.mp kept).1

theorem selectDefault_returns {registry : SkillRegistry}
    (keyed : ∀ skill ∈ registry.skills.rows, Keyed versioning skill.version) (name : String) :
    Returns (selectDefault versioning name) registry := by
  obtain ⟨found, same⟩ : ∃ found,
      newest versioning id (registry.enabledVersions name) = .ok found :=
    newest_ok (enabledVersions_keyed keyed name)
  unfold selectDefault
  apply Returns.bind (get_run registry)
  apply Returns.bind (lift_run _ registry |>.trans (by rw [same]))
  cases found with
  | none => exact ⟨_, _, rfl⟩
  | some version => exact ⟨_, _, rfl⟩

theorem register_returns {registry : SkillRegistry} {skill : SkillSpec}
    (keyed : ∀ other ∈ registry.skills.rows, Keyed versioning other.version)
    (own : Keyed versioning skill.version) (makeDefault : Bool) :
    Returns (register versioning skill makeDefault) registry := by
  have stored : ∀ other ∈ (registry.setSkill skill).skills.rows,
      Keyed versioning other.version := by
    intro other member
    rcases Table.mem_of_upsert member with rfl | old
    · exact own
    · exact keyed other old
  unfold register
  apply Returns.bind (modify_run _ registry)
  apply Returns.bind (get_run _)
  by_cases enabled : skill.enabled = true
  · rw [enabled]
    simp only [Bool.not_true, Bool.false_eq_true, if_false]
    split
    · exact ⟨_, _, rfl⟩
    · split
      · exact selectDefault_returns stored skill.name
      · exact ⟨_, _, rfl⟩
  · simp only [enabled, Bool.not_false, if_true]
    split
    · apply Returns.bind (modify_run _ _)
      have kept : ∀ other ∈ ((registry.setSkill skill).popDefault skill.name).skills.rows,
          Keyed versioning other.version := stored
      exact selectDefault_returns kept skill.name
    · exact ⟨_, _, rfl⟩

end Specs

end AgentTaskPlatform.Skills
