import AgentTaskPlatform.KeyedTable

/-!
Tables with a primary key and one more unique constraint. An insertion is refused
where it would break one of the two, so what a refusal tells about the table is that
one of the two values is taken.
-/

namespace AgentTaskPlatform.KeyedTable

structure Relation (Row Id Key : Type) (id : Row → Id) (key : Row → Key) extends
    Table Row Id id where
  distinct : (rows.map key).Nodup

namespace Relation

variable {Row Id Key : Type} {id : Row → Id} {key : Row → Key}

def empty : Relation Row Id Key id key := ⟨Table.empty, List.nodup_nil⟩

/-- A list with a new value at its end has no duplicates. -/
theorem nodup_snoc {α β : Type} {column : α → β} {rows : List α} {row : α}
    (unique : (rows.map column).Nodup) (fresh : column row ∉ rows.map column) :
    ((rows ++ [row]).map column).Nodup := by
  rw [List.map_append, List.nodup_append]
  refine ⟨unique, List.nodup_singleton _, ?_⟩
  intro present found other single same
  simp only [List.map_cons, List.map_nil, List.mem_singleton] at single
  rw [same, single] at found
  exact fresh found

theorem same_row {relation : Relation Row Id Key id key} {first second : Row}
    (one : first ∈ relation.rows) (other : second ∈ relation.rows)
    (same : key first = key second) : first = second :=
  List.inj_on_of_nodup_map relation.distinct one other same

section Lookup

variable [DecidableEq Key] {relation : Relation Row Id Key id key} {wanted : Key}

/-- `SELECT … WHERE` on the columns of the second constraint. -/
def lookup (relation : Relation Row Id Key id key) (wanted : Key) : Option Row :=
  relation.rows.find? fun row => key row = wanted

theorem lookup_some {row : Row} (found : relation.lookup wanted = some row) :
    row ∈ relation.rows ∧ key row = wanted :=
  ⟨List.mem_of_find?_eq_some found, by simpa using List.find?_some found⟩

theorem lookup_none (missing : relation.lookup wanted = none) :
    ∀ present ∈ relation.rows, key present ≠ wanted := by
  simpa [lookup] using missing

end Lookup

variable [DecidableEq Id] [DecidableEq Key]

/-- `INSERT`, refused where one of the unique columns has its value already. -/
def insert (relation : Relation Row Id Key id key) (row : Row) :
    Option (Relation Row Id Key id key) :=
  if fresh : id row ∉ relation.rows.map id ∧ key row ∉ relation.rows.map key then
    some
      { rows := relation.rows ++ [row]
        unique := nodup_snoc relation.unique fresh.1
        distinct := nodup_snoc relation.distinct fresh.2 }
  else none

theorem column_replaced {α β : Type} (column : α → β) (rows : List α) {replaces : α → Bool}
    {row : α} (same : ∀ present, replaces present = true → column present = column row) :
    (rows.map fun present => if replaces present then row else present).map column =
      rows.map column := by
  rw [List.map_map]
  apply List.map_congr_left
  intro present _
  by_cases hit : replaces present = true
  · simp [hit, same present hit]
  · simp [hit]

def matching (id : Row → Id) (key : Row → Key) (row present : Row) : Bool :=
  id present = id row ∧ key present = key row

def replace (relation : Relation Row Id Key id key) (row : Row) :
    Relation Row Id Key id key where
  rows := relation.rows.map fun present =>
    if matching id key row present then row else present
  unique := by
    rw [column_replaced id relation.rows fun present hit => (of_decide_eq_true hit).1]
    exact relation.unique
  distinct := by
    rw [column_replaced key relation.rows fun present hit => (of_decide_eq_true hit).2]
    exact relation.distinct

variable {relation after : Relation Row Id Key id key} {row : Row}

theorem insert_rows (inserted : relation.insert row = some after) :
    after.rows = relation.rows ++ [row] := by
  unfold insert at inserted
  split at inserted
  · cases inserted
    rfl
  · cases inserted

theorem insert_fresh (inserted : relation.insert row = some after) :
    ∀ present ∈ relation.rows, id present ≠ id row ∧ key present ≠ key row := by
  intro present member
  unfold insert at inserted
  split at inserted
  · next fresh =>
      refine ⟨?_, ?_⟩
      · intro same
        exact fresh.1 (List.mem_map.mpr ⟨present, member, same⟩)
      · intro same
        exact fresh.2 (List.mem_map.mpr ⟨present, member, same⟩)
  · cases inserted

theorem insert_none (refused : relation.insert row = none) :
    ∃ present ∈ relation.rows, id present = id row ∨ key present = key row := by
  unfold insert at refused
  split at refused
  · cases refused
  · next taken =>
      by_cases known : id row ∈ relation.rows.map id
      · obtain ⟨present, member, same⟩ := List.mem_map.mp known
        exact ⟨present, member, Or.inl same⟩
      · have held : key row ∈ relation.rows.map key := by
          by_contra free
          exact taken ⟨known, free⟩
        obtain ⟨present, member, same⟩ := List.mem_map.mp held
        exact ⟨present, member, Or.inr same⟩

theorem mem_insert (inserted : relation.insert row = some after) {present : Row} :
    present ∈ after.rows ↔ present ∈ relation.rows ∨ present = row := by
  rw [insert_rows inserted]
  simp

/-- A row of the table after an update is one from before or the new one, in the place of
a row with the same unique columns. -/
theorem mem_replace {present : Row} (member : present ∈ (relation.replace row).rows) :
    present ∈ relation.rows ∨
      (present = row ∧ ∃ old ∈ relation.rows, id old = id row ∧ key old = key row) := by
  obtain ⟨old, inside, same⟩ := List.mem_map.mp member
  split at same
  · next hit => exact Or.inr ⟨same.symm, old, inside, of_decide_eq_true hit⟩
  · exact Or.inl (same ▸ inside)

theorem replace_mem {old : Row} (member : old ∈ relation.rows) :
    ∃ present ∈ (relation.replace row).rows, id present = id old ∧ key present = key old := by
  by_cases hit : matching id key row old = true
  · have same : id old = id row ∧ key old = key row := of_decide_eq_true hit
    exact ⟨row, List.mem_map.mpr ⟨old, member, if_pos hit⟩, same.1.symm, same.2.symm⟩
  · exact ⟨old, List.mem_map.mpr ⟨old, member, if_neg hit⟩, rfl, rfl⟩

end Relation

end AgentTaskPlatform.KeyedTable
