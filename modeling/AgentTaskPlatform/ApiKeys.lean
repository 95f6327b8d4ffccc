import AgentTaskPlatform.KeyedTable
import AgentTaskPlatform.SkillLoader
import AgentTaskPlatform.Stripping

/-!
Inbound API keys: what `AuthSection` accepts, and `ApiKeyRegistry` with the scopes that a
key is authorized for. The registry normalises the scopes by itself.
-/

namespace AgentTaskPlatform.ApiKeys

open KeyedTable Stripping

inductive Scopes where
  | text (text : String)
  | list (scopes : List String)
  deriving DecidableEq, Repr

structure ApiKeySetting where
  key : String
  name : Option String := none
  scopes : Option Scopes := none
  enabled : Option Bool := none
  deriving DecidableEq, Repr

inductive ApiKeyItem where
  | string (key : String)
  | object (setting : ApiKeySetting)
  deriving DecidableEq, Repr

def ApiKeyItem.key : ApiKeyItem → String
  | .string key => key
  | .object setting => setting.key

structure AuthSection where
  apiKeys : List ApiKeyItem
  keyed : ∀ item ∈ apiKeys, item.key ≠ ""

structure ApiKeyEntry where
  key : String
  name : String
  scopes : List String
  enabled : Bool
  deriving DecidableEq, Repr

def ApiKeyEntry.hasScope (entry : ApiKeyEntry) (required : String) : Bool :=
  if !entry.enabled then false
  else if entry.scopes.contains "*" then true
  else entry.scopes.contains required

def splitScopes (text : String) : List String :=
  ((Skills.splitAt ',' text).map stripText).filter (· != "")

abbrev ApiKeyRegistry := Table ApiKeyEntry String ApiKeyEntry.key

def firstEight (text : String) : String := String.ofList (text.toList.take 8)

def entryOf : ApiKeyItem → Option ApiKeyEntry
  | .string key => some { key, name := firstEight key, scopes := ["*"], enabled := true }
  | .object setting =>
      if setting.key = "" then none
      else
        let scopes := match setting.scopes with
          | none => ["*"]
          | some (.text text) => splitScopes text
          | some (.list scopes) => scopes
        some
          { key := setting.key
            name := setting.name.getD (firstEight setting.key)
            -- `scopes or {"*"}`: no scope at all becomes every scope
            scopes := if scopes.isEmpty then ["*"] else scopes
            enabled := setting.enabled.getD true }

namespace ApiKeyRegistry

def load (apiKeys : List ApiKeyItem) : ApiKeyRegistry :=
  (apiKeys.filterMap entryOf).foldl Table.upsert Table.empty

/-- `reconfigure` builds the new entries before it takes them. -/
def reconfigure (_registry : ApiKeyRegistry) (apiKeys : List ApiKeyItem) : ApiKeyRegistry :=
  load apiKeys

def authenticate (registry : ApiKeyRegistry) (apiKey : Option String) : Option ApiKeyEntry :=
  match apiKey with
  | none => none
  | some key =>
      if key = "" then none
      else match Table.find registry key with
        | none => none
        | some entry => if entry.enabled then some entry else none

def authorize (registry : ApiKeyRegistry) (apiKey : Option String) (required : String) :
    Option ApiKeyEntry :=
  match authenticate registry apiKey with
  | none => none
  | some entry => if entry.hasScope required then some entry else none

end ApiKeyRegistry

section Configured

def effective (apiKeys : List ApiKeyItem) (key : String) : Option ApiKeyItem :=
  apiKeys.reverse.find? fun item => item.key = key

def configuredScopes : ApiKeyItem → List String
  | .string _ => ["*"]
  | .object setting => match setting.scopes with
      | none => ["*"]
      | some (.text text) => splitScopes text
      | some (.list scopes) => scopes

def configuredEnabled : ApiKeyItem → Bool
  | .string _ => true
  | .object setting => setting.enabled.getD true

def Configured (apiKeys : List ApiKeyItem) (apiKey : Option String) (required : String) : Prop :=
  ∃ key item, apiKey = some key ∧ effective apiKeys key = some item ∧
    configuredEnabled item = true ∧
      (required ∈ configuredScopes item ∨ "*" ∈ configuredScopes item)

theorem entryOf_key {item : ApiKeyItem} (keyed : item.key ≠ "") :
    ∃ entry, entryOf item = some entry ∧ entry.key = item.key := by
  cases item with
  | string key => exact ⟨_, rfl, rfl⟩
  | object setting =>
      have named : setting.key ≠ "" := keyed
      simp only [entryOf, named, if_false]
      exact ⟨_, rfl, rfl⟩

theorem load_find {apiKeys : List ApiKeyItem} (keyed : ∀ item ∈ apiKeys, item.key ≠ "")
    (key : String) : Table.find (ApiKeyRegistry.load apiKeys) key =
      (effective apiKeys key).bind entryOf := by
  rw [ApiKeyRegistry.load, Table.foldl_upsert_find, Table.find_empty, Option.or_none,
    ← List.filterMap_reverse, effective]
  have same : ∀ items : List ApiKeyItem, (∀ item ∈ items, item.key ≠ "") →
      (items.filterMap entryOf).find? (fun entry => entry.key = key) =
        (items.find? fun item => item.key = key).bind entryOf := by
    intro items
    induction items with
    | nil => exact fun _ => rfl
    | cons item rest ih =>
        intro keyed
        have later := ih fun other member => keyed other (List.mem_cons_of_mem _ member)
        obtain ⟨entry, made, named⟩ := entryOf_key (keyed item List.mem_cons_self)
        rw [List.filterMap_cons, made]
        by_cases own : item.key = key
        · simp [named, own, made]
        · simp [named, own, later]
  exact same apiKeys.reverse fun item member => keyed item (List.mem_reverse.mp member)

end Configured

section Authorization

def configure (first : AuthSection) (later : List AuthSection) : ApiKeyRegistry :=
  later.foldl (fun registry auth => registry.reconfigure auth.apiKeys)
    (ApiKeyRegistry.load first.apiKeys)

def lastSection (first : AuthSection) (later : List AuthSection) : AuthSection :=
  later.getLast?.getD first

theorem configure_last (first : AuthSection) (later : List AuthSection) :
    configure first later = ApiKeyRegistry.load (lastSection first later).apiKeys := by
  induction later generalizing first with
  | nil => rfl
  | cons auth rest ih =>
      have next : configure first (auth :: rest) = configure auth rest := rfl
      rw [next, ih auth, lastSection, lastSection, List.getLast?_cons]
      rfl

def Unscoped (item : ApiKeyItem) : Prop :=
  configuredEnabled item = true ∧ configuredScopes item = []

theorem entry_scopes {item : ApiKeyItem} {entry : ApiKeyEntry} (made : entryOf item = some entry) :
    entry.enabled = configuredEnabled item ∧
      entry.scopes = if (configuredScopes item).isEmpty then ["*"] else configuredScopes item := by
  cases item with
  | string key =>
      cases made
      exact ⟨rfl, rfl⟩
  | object setting =>
      simp only [entryOf] at made
      split at made
      · cases made
      · cases made
        exact ⟨rfl, rfl⟩

theorem authorize_isSome {auth : AuthSection} {key required : String} :
    (ApiKeyRegistry.authorize (ApiKeyRegistry.load auth.apiKeys) (some key) required).isSome =
        true ↔
      ∃ item, effective auth.apiKeys key = some item ∧ configuredEnabled item = true ∧
        (configuredScopes item = [] ∨ required ∈ configuredScopes item ∨
          "*" ∈ configuredScopes item) := by
  have member {item : ApiKeyItem} (found : effective auth.apiKeys key = some item) :
      item ∈ auth.apiKeys ∧ item.key = key := by
    refine ⟨List.mem_reverse.mp (List.mem_of_find?_eq_some found), ?_⟩
    simpa using List.find?_some found
  simp only [ApiKeyRegistry.authorize, ApiKeyRegistry.authenticate]
  by_cases empty : key = ""
  · simp only [empty, if_true, Option.isSome_none, Bool.false_eq_true, false_iff]
    rintro ⟨item, found, _⟩
    subst empty
    exact auth.keyed item (member found).1 (member found).2
  · rw [if_neg empty, load_find auth.keyed]
    cases found : effective auth.apiKeys key with
    | none => simp
    | some item =>
        obtain ⟨entry, made, _⟩ := entryOf_key (auth.keyed item (member found).1)
        obtain ⟨enabled, scopes⟩ := entry_scopes made
        rw [Option.bind_some, made]
        by_cases on : configuredEnabled item = true
        · by_cases none : configuredScopes item = []
          · simp [enabled, on, ApiKeyEntry.hasScope, scopes, none]
          · have filled : (configuredScopes item).isEmpty = false := by simpa using none
            by_cases all : "*" ∈ configuredScopes item
            · simp [enabled, on, ApiKeyEntry.hasScope, scopes, filled, all]
            · by_cases listed : required ∈ configuredScopes item <;>
                simp [enabled, on, ApiKeyEntry.hasScope, scopes, filled, all, none, listed]
        · simp [enabled, on]

end Authorization

/-- After every sequence of configurations a key is authorized as it is configured, exactly
where its item is not an enabled one without any scope. -/
theorem authorize_configured_iff (first : AuthSection) (later : List AuthSection)
    (apiKey : Option String) :
    (∀ required, ((configure first later).authorize apiKey required).isSome = true ↔
        Configured (lastSection first later).apiKeys apiKey required) ↔
      ∀ key item, apiKey = some key →
        effective (lastSection first later).apiKeys key = some item → ¬ Unscoped item := by
  rw [configure_last]
  generalize lastSection first later = auth
  cases apiKey with
  | none => simp [Configured, ApiKeyRegistry.authorize, ApiKeyRegistry.authenticate]
  | some key =>
      constructor
      · rintro closed _ item ⟨rfl⟩ found ⟨enabled, none⟩
        have opened := (closed "runs").mp (authorize_isSome.mpr ⟨item, found, enabled, Or.inl none⟩)
        obtain ⟨_, other, ⟨rfl⟩, again, _, listed⟩ := opened
        rw [found] at again
        cases again
        simp [none] at listed
      · intro listing required
        rw [authorize_isSome]
        constructor
        · rintro ⟨item, found, enabled, none | listed⟩
          · exact absurd ⟨enabled, none⟩ (listing key item rfl found)
          · exact ⟨key, item, rfl, found, enabled, listed⟩
        · rintro ⟨_, item, ⟨rfl⟩, found, enabled, listed⟩
          exact ⟨item, found, enabled, Or.inr listed⟩

def emptyScopes : AuthSection where
  apiKeys := [.object { key := "k", scopes := some (.list []) }]
  keyed := by decide

theorem empty_scopes_open : ((configure emptyScopes []).authorize (some "k") "admin").isSome = true ∧
    ¬ Configured emptyScopes.apiKeys (some "k") "admin" := by
  refine ⟨by decide +kernel, ?_⟩
  rintro ⟨_, item, ⟨rfl⟩, found, _, listed⟩
  cases found
  simp [configuredScopes] at listed

end AgentTaskPlatform.ApiKeys
