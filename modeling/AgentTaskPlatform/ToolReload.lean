import AgentTaskPlatform.SkillRegistry
import AgentTaskPlatform.VersionOrder

/-!
`ToolRegistry` and `ConfigWatcher._reload_tools`: a name has one tool, the last row that the
database lists for it. The tools that the MCP servers offer are registered at the start.
-/

namespace AgentTaskPlatform.ToolReload

open KeyedTable
open Registry (Versioning)
open StatefulCalls (Method bind_run get_run modify_run throw_run lift_run pure_run)
open Skills (newest)

abbrev ToolRegistry := Table ToolSpec String ToolSpec.name

abbrev ToolM := Method Exc ToolRegistry

def toolRef (tool : ToolSpec) : String × String := (tool.name, tool.version)

abbrev ToolRows := Table ToolSpec (String × String) toolRef

def build (tools : List ToolSpec) : ToolRegistry := tools.foldl Table.upsert Table.empty

def register (tool : ToolSpec) : ToolM Unit := modify fun registry => registry.upsert tool

def unknownTool (name : String) : Exc := .registry ("Unknown tool '" ++ name ++ "'")

def deregister (name : String) : ToolM Unit := do
  let registry ← get
  match registry.find name with
  | none => throw (unknownTool name)
  | some _ => modify fun registry => registry.deleteWhere fun tool => tool.name = name

def registerMcpTools (discovered : List ToolSpec) (registry : ToolRegistry) : ToolRegistry :=
  discovered.foldl Table.upsert registry

def started (rows : ToolRows) (discovered : List ToolSpec) : ToolRegistry :=
  registerMcpTools discovered (build rows.rows)

def removeMissing (wanted : ToolRegistry) : List ToolSpec → ToolM Nat
  | [] => pure 0
  | tool :: rest =>
      match wanted.find tool.name with
      | some _ => removeMissing wanted rest
      | none => do
          deregister tool.name
          let count ← removeMissing wanted rest
          return count + 1

def registerChanged (listed : ToolRegistry) : List ToolSpec → ToolM Nat
  | [] => pure 0
  | tool :: rest =>
      if listed.find tool.name = some tool then registerChanged listed rest
      else do
        register tool
        let count ← registerChanged listed rest
        return count + 1

/-- `_reload_tools`; the order in which the tools of the registry are visited does not
matter and is not kept. -/
def reloadTools (rows : ToolRows) : ToolM Nat := do
  let listed ← get
  let removed ← removeMissing (build rows.rows) listed.rows
  let registered ← registerChanged listed (build rows.rows).rows
  return removed + registered

section Specs

def lastNamed (tools : List ToolSpec) (name : String) : Option ToolSpec :=
  tools.reverse.find? fun tool => tool.name = name

theorem build_find (tools : List ToolSpec) (name : String) :
    (build tools).find name = lastNamed tools name := by
  rw [build, Table.foldl_upsert_find, Table.find_empty, Option.or_none, lastNamed]

theorem started_find (rows : ToolRows) (discovered : List ToolSpec) (name : String) :
    (started rows discovered).find name =
      (lastNamed discovered name).or (lastNamed rows.rows name) := by
  rw [started, registerMcpTools, Table.foldl_upsert_find, build_find, lastNamed, lastNamed]

/-- The tools that are gone from the database are removed, the others stay. -/
theorem removeMissing_spec (wanted : ToolRegistry) {registry : ToolRegistry} {tools : List ToolSpec}
    (inside : ∀ tool ∈ tools, registry.find tool.name = some tool)
    (once : (tools.map ToolSpec.name).Nodup) :
    ∃ count after, removeMissing wanted tools registry = (.ok count, after) ∧
      ∀ name, after.find name =
        if name ∈ tools.map ToolSpec.name ∧ wanted.find name = none then none
        else registry.find name := by
  induction tools generalizing registry with
  | nil => exact ⟨0, registry, rfl, fun name => by simp⟩
  | cons tool rest ih =>
      rw [List.map_cons, List.nodup_cons] at once
      have found := inside tool List.mem_cons_self
      have later : ∀ other ∈ rest, registry.find other.name = some other :=
        fun other member => inside other (List.mem_cons_of_mem _ member)
      simp only [removeMissing]
      cases kept : wanted.find tool.name with
      | some row =>
          obtain ⟨count, after, called, spec⟩ := ih later once.2
          refine ⟨count, after, called, ?_⟩
          intro name
          rw [spec name]
          by_cases own : name = tool.name
          · subst own
            simp [kept]
          · simp [own]
      | none =>
          let middle : ToolRegistry := registry.deleteWhere fun other => other.name = tool.name
          have deleted : ∀ name, middle.find name =
              if name = tool.name then none else registry.find name := by
            intro name
            rw [Table.find_deleteWhere_eq]
            cases here : registry.find name with
            | none => simp
            | some other =>
                have key : other.name = name := Table.find_key here
                by_cases own : name = tool.name <;> simp [Option.filter_some, key, own]
          have remaining : ∀ other ∈ rest, middle.find other.name = some other := by
            intro other member
            have differs : other.name ≠ tool.name := by
              intro same
              exact once.1 (same ▸ List.mem_map_of_mem member)
            rw [deleted, if_neg differs]
            exact later other member
          obtain ⟨count, after, called, spec⟩ := ih remaining once.2
          refine ⟨count + 1, after, ?_, ?_⟩
          · have deregistered : deregister tool.name registry = (.ok (), middle) := by
              simp only [deregister, bind_run, get_run, found, modify_run]
              rfl
            simp only [bind_run, deregistered, called, pure_run]
          · intro name
            rw [spec name, deleted name]
            by_cases own : name = tool.name
            · subst own
              simp [kept]
            · simp [own]

theorem registerChanged_spec {listed registry : ToolRegistry} {tools : List ToolSpec}
    (same : ∀ tool ∈ tools, registry.find tool.name = listed.find tool.name)
    (once : (tools.map ToolSpec.name).Nodup) :
    ∃ count after, registerChanged listed tools registry = (.ok count, after) ∧
      ∀ name, after.find name =
        (tools.find? fun tool => tool.name = name).or (registry.find name) := by
  induction tools generalizing registry with
  | nil => exact ⟨0, registry, rfl, fun name => rfl⟩
  | cons tool rest ih =>
      rw [List.map_cons, List.nodup_cons] at once
      have here := same tool List.mem_cons_self
      have later : ∀ other ∈ rest, registry.find other.name = listed.find other.name :=
        fun other member => same other (List.mem_cons_of_mem _ member)
      have absent : rest.find? (fun other => other.name = tool.name) = none := by
        rw [List.find?_eq_none]
        intro other member equal
        exact once.1 ((of_decide_eq_true equal) ▸ List.mem_map_of_mem member)
      simp only [registerChanged]
      by_cases kept : listed.find tool.name = some tool
      · obtain ⟨count, after, called, spec⟩ := ih later once.2
        refine ⟨count, after, by rw [if_pos kept, called], ?_⟩
        intro name
        rw [spec name]
        by_cases own : tool.name = name
        · subst own
          simp [absent, here, kept]
        · simp [own]
      · have stored : ∀ other ∈ rest, (registry.upsert tool).find other.name =
            listed.find other.name := by
          intro other member
          have differs : other.name ≠ tool.name := by
            intro same
            exact once.1 (same ▸ List.mem_map_of_mem member)
          rw [Table.find_upsert_other registry differs]
          exact later other member
        obtain ⟨count, after, called, spec⟩ := ih stored once.2
        refine ⟨count + 1, after, ?_, ?_⟩
        · rw [if_neg kept]
          simp only [register, bind_run, modify_run, called, pure_run]
        · intro name
          rw [spec name]
          by_cases own : tool.name = name
          · subst own
            simp [absent, Table.find_upsert_self]
          · have other : name ≠ tool.name := Ne.symm own
            simp [own, Table.find_upsert_other registry other]

theorem reloadTools_spec (rows : ToolRows) (registry : ToolRegistry) :
    ∃ count after, reloadTools rows registry = (.ok count, after) ∧
      ∀ name, after.find name = lastNamed rows.rows name := by
  have inside : ∀ tool ∈ registry.rows, registry.find tool.name = some tool :=
    fun tool member => Table.mem_find member
  obtain ⟨removed, middle, first, deleted⟩ :=
    removeMissing_spec (build rows.rows) inside registry.unique
  have same : ∀ tool ∈ (build rows.rows).rows, middle.find tool.name = registry.find tool.name := by
    intro tool member
    rw [deleted, Table.mem_find member]
    simp
  obtain ⟨registered, after, second, stored⟩ :=
    registerChanged_spec same (build rows.rows).unique
  refine ⟨removed + registered, after, ?_, ?_⟩
  · simp only [reloadTools, bind_run, get_run, first, second, pure_run]
  · intro name
    have found : (build rows.rows).rows.find? (fun tool => tool.name = name) =
        lastNamed rows.rows name := build_find rows.rows name
    rw [stored name, found, deleted name, build_find]
    cases last : lastNamed rows.rows name with
    | some tool => rfl
    | none =>
        cases here : registry.find name with
        | none => simp
        | some tool =>
            have key : tool.name = name := Table.find_key here
            have member : name ∈ registry.rows.map ToolSpec.name :=
              key ▸ List.mem_map_of_mem (Table.find_mem here)
            simp [member]

end Specs

section Agreement

variable (versioning : Versioning)

def Resolves (rows : ToolRows) (discovered : List ToolSpec) (registry : ToolRegistry)
    (name : String) : Prop :=
  if lastNamed rows.rows name = none then registry.find name = lastNamed discovered name
  else newest versioning ToolSpec.version (rows.rows.filter fun tool => tool.name = name) =
    .ok (registry.find name)

def Agrees (rows : ToolRows) (discovered : List ToolSpec) (registry : ToolRegistry) : Prop :=
  ∀ name, registry.find name = (started rows discovered).find name ∧
    Resolves versioning rows discovered registry name

def Smooth (rows : ToolRows) (discovered : List ToolSpec) : Prop :=
  ∀ name, (∀ tool, lastNamed discovered name = some tool →
      lastNamed rows.rows name = some tool) ∧
    ∀ tool, lastNamed rows.rows name = some tool →
      newest versioning ToolSpec.version (rows.rows.filter fun tool => tool.name = name) =
        .ok (some tool)

def Ready (rows : ToolRows) (discovered : List ToolSpec) : Prop :=
  ∀ name row, lastNamed rows.rows name = some row →
    newest versioning ToolSpec.version (rows.rows.filter fun tool => tool.name = name) =
      .ok (some ((lastNamed discovered name).getD row))

variable {versioning}

theorem started_agrees_iff (rows : ToolRows) (discovered : List ToolSpec) :
    Agrees versioning rows discovered (started rows discovered) ↔
      Ready versioning rows discovered := by
  apply forall_congr'
  intro name
  rw [Resolves, started_find]
  cases row : lastNamed rows.rows name with
  | none => simp
  | some tool =>
      cases lastNamed discovered name with
      | none => simp
      | some other => simp

theorem agrees_iff {rows : ToolRows} {discovered : List ToolSpec} {registry : ToolRegistry}
    (last : ∀ name, registry.find name = lastNamed rows.rows name) :
    Agrees versioning rows discovered registry ↔ Smooth versioning rows discovered := by
  apply forall_congr'
  intro name
  rw [last name, started_find, Resolves]
  cases row : lastNamed rows.rows name with
  | none =>
      cases lastNamed discovered name with
      | none => simp [row, last name]
      | some tool => simp [row, last name]
  | some tool =>
      cases lastNamed discovered name with
      | none => simp [row, last name]
      | some other => simp [row, last name, eq_comm]

theorem reload_agrees_iff (rows : ToolRows) (discovered : List ToolSpec)
    (registry : ToolRegistry) :
    Agrees versioning rows discovered (reloadTools rows registry).2 ↔
      Smooth versioning rows discovered := by
  obtain ⟨count, after, called, spec⟩ := reloadTools_spec rows registry
  rw [called]
  exact agrees_iff spec

end Agreement

end AgentTaskPlatform.ToolReload
