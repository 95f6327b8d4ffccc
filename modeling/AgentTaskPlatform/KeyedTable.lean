import Mathlib.Data.List.Nodup

/-!
Tables whose rows are unique in a key column. A table carries the uniqueness of
its keys, so a conditional update touches at most one row of a key and a lookup
after any write is described by the lookup before it.
-/

namespace AgentTaskPlatform.KeyedTable

structure Table (Row Key : Type) (key : Row → Key) where
  rows : List Row
  unique : (rows.map key).Nodup

namespace Table

variable {Row Key : Type} {key : Row → Key}

def empty : Table Row Key key := ⟨[], List.nodup_nil⟩

structure Change (key : Row → Key) where
  apply : Row → Row
  keeps : ∀ row, key (apply row) = key row

theorem keys_change (change : Change key) (condition : Row → Bool) (rows : List Row) :
    (rows.map fun row => if condition row then change.apply row else row).map key =
      rows.map key := by
  rw [List.map_map]
  apply List.map_congr_left
  intro row _
  by_cases holds : condition row
  · simp [holds, change.keeps]
  · simp [holds]

def updateWhere (table : Table Row Key key) (condition : Row → Bool) (change : Change key) :
    Table Row Key key where
  rows := table.rows.map fun row => if condition row then change.apply row else row
  unique := by
    rw [keys_change]
    exact table.unique

def countWhere (table : Table Row Key key) (condition : Row → Bool) : Nat :=
  (table.rows.filter condition).length

theorem updateWhere_missed {table : Table Row Key key} {condition : Row → Bool}
    (change : Change key) (missed : ∀ row ∈ table.rows, condition row = false) :
    table.updateWhere condition change = table := by
  have rows : (table.rows.map fun row => if condition row then change.apply row else row) =
      table.rows := by
    conv_rhs => rw [← List.map_id table.rows]
    apply List.map_congr_left
    intro row member
    simp [missed row member]
  unfold updateWhere
  congr

theorem countWhere_missed {table : Table Row Key key} {condition : Row → Bool}
    (missed : ∀ row ∈ table.rows, condition row = false) : table.countWhere condition = 0 := by
  rw [countWhere, List.length_eq_zero_iff, List.filter_eq_nil_iff]
  intro row member
  simp [missed row member]

theorem countWhere_pos {table : Table Row Key key} {condition : Row → Bool} :
    0 < table.countWhere condition ↔ ∃ row ∈ table.rows, condition row = true := by
  simp [countWhere, List.length_pos_iff_exists_mem, List.mem_filter]

variable [DecidableEq Key]

def find (table : Table Row Key key) (wanted : Key) : Option Row :=
  table.rows.find? fun row => key row = wanted

def insertNew (table : Table Row Key key) (row : Row) : Table Row Key key :=
  if fresh : key row ∈ table.rows.map key then table
  else
    { rows := table.rows ++ [row]
      unique := by
        rw [List.map_append, List.nodup_append]
        refine ⟨table.unique, List.nodup_singleton _, ?_⟩
        intro present found other single same
        simp only [List.map_cons, List.map_nil, List.mem_singleton] at single
        rw [same, single] at found
        exact fresh found }

def upsert (table : Table Row Key key) (row : Row) : Table Row Key key :=
  if known : key row ∈ table.rows.map key then
    { rows := table.rows.map fun present => if key present = key row then row else present
      unique := by
        have same : (table.rows.map fun present =>
            if key present = key row then row else present).map key = table.rows.map key := by
          rw [List.map_map]
          apply List.map_congr_left
          intro present _
          by_cases equal : key present = key row
          · simp [equal]
          · simp [equal]
        rw [same]
        exact table.unique }
  else table.insertNew row

def deleteWhere (table : Table Row Key key) (condition : Row → Bool) : Table Row Key key where
  rows := table.rows.filter fun row => !condition row
  unique := table.unique.sublist (List.filter_sublist.map key)

theorem find_key {table : Table Row Key key} {wanted : Key} {row : Row}
    (found : table.find wanted = some row) : key row = wanted := by
  simpa using List.find?_some found

theorem find_mem {table : Table Row Key key} {wanted : Key} {row : Row}
    (found : table.find wanted = some row) : row ∈ table.rows :=
  List.mem_of_find?_eq_some found

theorem find_none {table : Table Row Key key} {wanted : Key} :
    table.find wanted = none ↔ wanted ∉ table.rows.map key := by
  simp only [find, List.find?_eq_none, List.mem_map, not_exists, not_and, decide_eq_true_eq]

theorem mem_find {table : Table Row Key key} {row : Row} (member : row ∈ table.rows) :
    table.find (key row) = some row := by
  cases found : table.find (key row) with
  | none =>
      rw [find_none] at found
      exact absurd (List.mem_map_of_mem member) found
  | some other =>
      have same : other = row :=
        List.inj_on_of_nodup_map table.unique (find_mem found) member (find_key found)
      rw [same]

@[simp] theorem find_empty (wanted : Key) :
    (empty : Table Row Key key).find wanted = none := rfl

theorem find_updateWhere (table : Table Row Key key) (condition : Row → Bool)
    (change : Change key) (wanted : Key) :
    (table.updateWhere condition change).find wanted =
      (table.find wanted).map fun row => if condition row then change.apply row else row := by
  unfold find updateWhere
  have same : ((fun row => decide (key row = wanted)) ∘ fun row =>
      if condition row then change.apply row else row) = fun row => decide (key row = wanted) := by
    funext row
    by_cases holds : condition row
    · simp [holds, change.keeps]
    · simp [holds]
  rw [List.find?_map, same]

theorem find_insertNew (table : Table Row Key key) (row : Row) (wanted : Key) :
    (table.insertNew row).find wanted =
      if wanted = key row then (table.find wanted).or (some row) else table.find wanted := by
  unfold insertNew
  split
  · next known =>
      split
      · next same =>
          cases found : table.find wanted with
          | none =>
              rw [find_none, same] at found
              exact absurd known found
          | some present => rfl
      · rfl
  · next fresh =>
      simp only [find, List.find?_append]
      by_cases same : wanted = key row
      · subst same
        simp
      · have other : key row ≠ wanted := Ne.symm same
        simp [same, other]

theorem find_insertNew_kept {table : Table Row Key key} {wanted : Key} {present : Row}
    (row : Row) (found : table.find wanted = some present) :
    (table.insertNew row).find wanted = some present := by
  rw [find_insertNew, found]
  simp

theorem find_insertNew_self (table : Table Row Key key) (row : Row) :
    (table.insertNew row).find (key row) = some ((table.find (key row)).getD row) := by
  rw [find_insertNew]
  cases table.find (key row) <;> simp

theorem mem_upsert (table : Table Row Key key) (row : Row) : row ∈ (table.upsert row).rows := by
  unfold upsert
  split
  · next known =>
      obtain ⟨present, member, same⟩ := List.mem_map.mp known
      exact List.mem_map.mpr ⟨present, member, by simp [same]⟩
  · next fresh =>
      simp [insertNew, fresh]

theorem mem_of_upsert {table : Table Row Key key} {row other : Row}
    (member : other ∈ (table.upsert row).rows) : other = row ∨ other ∈ table.rows := by
  unfold upsert at member
  split at member
  · obtain ⟨present, inside, same⟩ := List.mem_map.mp member
    split at same
    · exact Or.inl same.symm
    · exact Or.inr (same ▸ inside)
  · next fresh =>
      simp only [insertNew, fresh, dite_false, List.mem_append, List.mem_singleton] at member
      exact member.symm

theorem upsert_fresh {table : Table Row Key key} {row : Row}
    (fresh : key row ∉ table.rows.map key) : (table.upsert row).rows = table.rows ++ [row] := by
  simp [upsert, insertNew, fresh]

theorem find_upsert_self (table : Table Row Key key) (row : Row) :
    (table.upsert row).find (key row) = some row :=
  mem_find (mem_upsert table row)

theorem find_upsert_other (table : Table Row Key key) {row : Row} {wanted : Key}
    (other : wanted ≠ key row) : (table.upsert row).find wanted = table.find wanted := by
  unfold upsert
  split
  · simp only [find, List.find?_map]
    have same : ((fun present => decide (key present = wanted)) ∘ fun present =>
        if key present = key row then row else present) =
        fun present => decide (key present = wanted) := by
      funext present
      by_cases hit : key present = key row
      · simp [hit]
      · simp [hit]
    rw [same]
    cases found : table.rows.find? fun present => decide (key present = wanted) with
    | none => rfl
    | some present =>
        have equal : key present = wanted := by simpa using List.find?_some found
        have miss : key present ≠ key row := by
          intro same
          exact other (equal.symm.trans same)
        simp [miss]
  · rw [find_insertNew]
    simp [other]

/-- Of the rows written one after the other, the last one with a key stands under it. -/
theorem foldl_upsert_find (written : List Row) (table : Table Row Key key) (wanted : Key) :
    (written.foldl upsert table).find wanted =
      (written.reverse.find? fun row => key row = wanted).or (table.find wanted) := by
  induction written generalizing table with
  | nil => rfl
  | cons row rest ih =>
      rw [List.foldl_cons, ih, List.reverse_cons, List.find?_append, Option.or_assoc]
      congr 1
      by_cases own : key row = wanted
      · subst own
        simp [find_upsert_self]
      · have other : wanted ≠ key row := Ne.symm own
        simp [find_upsert_other table other, own]

theorem find_iff {table : Table Row Key key} {wanted : Key} {row : Row} :
    table.find wanted = some row ↔ row ∈ table.rows ∧ key row = wanted := by
  constructor
  · intro found
    exact ⟨find_mem found, find_key found⟩
  · rintro ⟨member, rfl⟩
    exact mem_find member

theorem mem_upsert_iff {table : Table Row Key key} {row other : Row} :
    other ∈ (table.upsert row).rows ↔ other = row ∨ other ∈ table.rows ∧ key other ≠ key row := by
  constructor
  · intro member
    have found := mem_find member
    by_cases same : key other = key row
    · rw [same, find_upsert_self] at found
      exact Or.inl (Option.some.inj found).symm
    · rw [find_upsert_other table same] at found
      exact Or.inr ⟨find_mem found, same⟩
  · rintro (rfl | ⟨member, other⟩)
    · exact mem_upsert table _
    · have found := mem_find member
      rw [← find_upsert_other table other] at found
      exact find_mem found

/-- A column that the new row shares with the one it replaces stays as it is. -/
theorem upsert_column {β : Type} {table : Table Row Key key} {row old : Row}
    (found : table.find (key row) = some old) (column : Row → β)
    (same : column row = column old) :
    (table.upsert row).rows.map column = table.rows.map column := by
  have known : key row ∈ table.rows.map key :=
    find_key found ▸ List.mem_map_of_mem (find_mem found)
  simp only [upsert, known, dite_true, List.map_map]
  apply List.map_congr_left
  intro present member
  by_cases hit : key present = key row
  · have equal : present = old :=
      List.inj_on_of_nodup_map table.unique member (find_mem found) (hit.trans (find_key found).symm)
    rw [Function.comp_apply, if_pos hit, same, equal]
  · simp [hit]

theorem upsert_present {table : Table Row Key key} {row : Row}
    (present : table.find (key row) = some row) : table.upsert row = table := by
  have known : key row ∈ table.rows.map key := List.mem_map_of_mem (find_mem present)
  have same := upsert_column present id rfl
  simp only [List.map_id] at same
  cases table with
  | mk rows unique =>
      simp only [upsert, known, dite_true] at same ⊢
      congr 1

theorem find_deleteWhere_eq (table : Table Row Key key) (condition : Row → Bool) (wanted : Key) :
    (table.deleteWhere condition).find wanted = (table.find wanted).filter (!condition ·) := by
  apply Option.ext
  intro row
  rw [find_iff, Option.filter_eq_some_iff, find_iff]
  simp only [deleteWhere, List.mem_filter]
  tauto

theorem filter_keyed {table : Table Row Key key} {wanted : Key} {row : Row}
    {condition : Row → Bool} (found : table.find wanted = some row)
    (holds : condition row = true)
    (fixes : ∀ row ∈ table.rows, condition row = true → key row = wanted) :
    table.rows.filter condition = [row] := by
  have inside : row ∈ table.rows.filter condition := List.mem_filter.mpr ⟨find_mem found, holds⟩
  have distinct : ((table.rows.filter condition).map key).Nodup :=
    table.unique.sublist (List.filter_sublist.map key)
  have only : ∀ other ∈ table.rows.filter condition, other = row := by
    intro other member
    obtain ⟨present, hit⟩ := List.mem_filter.mp member
    exact List.inj_on_of_nodup_map table.unique present (find_mem found)
      ((fixes other present hit).trans (find_key found).symm)
  cases rows : table.rows.filter condition with
  | nil => simp [rows] at inside
  | cons first rest =>
      rw [rows] at distinct only
      have head := only first List.mem_cons_self
      cases rest with
      | nil => rw [head]
      | cons second tail =>
          have next := only second (List.mem_cons_of_mem _ List.mem_cons_self)
          simp [head, next] at distinct

theorem countWhere_keyed (table : Table Row Key key) (wanted : Key) (condition : Row → Bool)
    (fixes : ∀ row ∈ table.rows, condition row = true → key row = wanted) :
    table.countWhere condition = 1 ↔ ∃ row, table.find wanted = some row ∧ condition row = true := by
  constructor
  · intro one
    have positive : 0 < table.countWhere condition := by omega
    obtain ⟨row, member, holds⟩ := countWhere_pos.mp positive
    have found := mem_find member
    rw [fixes row member holds] at found
    exact ⟨row, found, holds⟩
  · intro ⟨row, found, holds⟩
    rw [countWhere, filter_keyed found holds fixes]
    rfl

end Table

end AgentTaskPlatform.KeyedTable
