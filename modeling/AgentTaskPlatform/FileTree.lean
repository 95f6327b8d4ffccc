import AgentTaskPlatform.Outcomes
import Mathlib.Data.List.Infix
import Mathlib.Data.List.Nodup
import Mathlib.Logic.Function.Basic

/-!
Directory trees as functions from paths, and the files that are written one after the other
below an empty directory: when they can all be written, and the tree that they leave.
-/

namespace AgentTaskPlatform.FileTree

inductive Node (Content : Type) where
  | directory
  | file (content : Content)

def Node.isFile {Content : Type} : Option (Node Content) → Bool
  | some (.file _) => true
  | _ => false

abbrev Tree (Name Content : Type) := List Name → Option (Node Content)

inductive Fault (Name : Type) where
  /-- A file stands where the directory is to be made. -/
  | fileExists (path : List Name)
  /-- The directory is to be made below a file. -/
  | notADirectory (path : List Name)
  /-- A directory stands where the file is to be written. -/
  | isADirectory (path : List Name)

section Operations

variable {Name Content : Type} [DecidableEq Name]

def emptyDirectory : Tree Name Content := fun key => if key = [] then some .directory else none

def makeDirectory (tree : Tree Name Content) (path : List Name) :
    Except (Fault Name) (Tree Name Content) :=
  if Node.isFile (tree path) then .error (.fileExists path)
  else if path.inits.any fun above => Node.isFile (tree above) then .error (.notADirectory path)
  else .ok fun key => if key <+: path then some .directory else tree key

def writeFile (tree : Tree Name Content) (path : List Name) (content : Content) :
    Except (Fault Name) (Tree Name Content) :=
  match tree path with
  | some .directory => .error (.isADirectory path)
  | _ => .ok (Function.update tree path (some (.file content)))

def place (tree : Tree Name Content) (entry : List Name × Content) :
    Except (Fault Name) (Tree Name Content) := do
  let tree ← makeDirectory tree entry.1.dropLast
  writeFile tree entry.1 entry.2

def standing (entries : List (List Name × Content)) : Tree Name Content := fun key =>
  match entries.find? fun entry => entry.1 = key with
  | some entry => some (.file entry.2)
  | none =>
      if key = [] ∨ ∃ entry ∈ entries, key <+: entry.1 then some .directory else none

def Below (above path : List Name) : Prop := above <+: path ∧ above ≠ path

def Apart (entries : List (List Name × Content)) : Prop :=
  ∀ one ∈ entries, ∀ other ∈ entries, ¬ Below one.1 other.1

end Operations

section Standing

variable {Name Content : Type} [DecidableEq Name] {entries rest : List (List Name × Content)}
  {tree : Tree Name Content} {path key : List Name} {content : Content}

theorem standing_nil : standing ([] : List (List Name × Content)) = emptyDirectory := by
  funext key
  simp [standing, emptyDirectory]

theorem standing_isFile :
    Node.isFile (standing entries key) = true ↔ key ∈ entries.map Prod.fst := by
  unfold standing
  cases found : entries.find? fun entry => entry.1 = key with
  | some entry =>
      have same : entry.1 = key := by simpa using List.find?_some found
      have member := List.mem_of_find?_eq_some found
      simpa [Node.isFile] using ⟨entry.2, same ▸ member⟩
  | none =>
      simp only [List.find?_eq_none, decide_eq_true_eq] at found
      have absent : key ∉ entries.map Prod.fst := by
        intro member
        obtain ⟨entry, present, same⟩ := List.mem_map.mp member
        exact found entry present same
      simp only [absent, iff_false]
      split <;> simp [Node.isFile]

theorem standing_file {entry : List Name × Content} (distinct : (entries.map Prod.fst).Nodup)
    (member : entry ∈ entries) : standing entries entry.1 = some (.file entry.2) := by
  unfold standing
  cases found : entries.find? fun other => other.1 = entry.1 with
  | none =>
      have absent := List.find?_eq_none.mp found entry member
      simp at absent
  | some other =>
      have same : other.1 = entry.1 := by simpa using List.find?_some found
      have equal := List.inj_on_of_nodup_map distinct (List.mem_of_find?_eq_some found) member same
      simp [equal]

theorem standing_directory : standing entries key = some .directory ↔
    key ∉ entries.map Prod.fst ∧ (key = [] ∨ ∃ entry ∈ entries, key <+: entry.1) := by
  rw [← standing_isFile]
  unfold standing
  cases entries.find? fun entry => entry.1 = key with
  | some entry => simp [Node.isFile]
  | none =>
      dsimp only
      by_cases above : key = [] ∨ ∃ entry ∈ entries, key <+: entry.1
      · rw [if_pos above]
        exact ⟨fun _ => ⟨nofun, above⟩, fun _ => rfl⟩
      · rw [if_neg above]
        exact ⟨nofun, fun stands => absurd stands.2 above⟩

theorem makeDirectory_ok {made : Tree Name Content} :
    makeDirectory tree path = .ok made ↔
      (∀ above, above <+: path → Node.isFile (tree above) = false) ∧
        made = fun key => if key <+: path then some .directory else tree key := by
  unfold makeDirectory
  by_cases own : Node.isFile (tree path) = true
  · rw [if_pos own]
    refine ⟨nofun, fun free => ?_⟩
    rw [free.1 path List.prefix_rfl] at own
    cases own
  · rw [if_neg own]
    by_cases blocked : path.inits.any (fun above => Node.isFile (tree above)) = true
    · rw [if_pos blocked]
      refine ⟨nofun, fun free => ?_⟩
      obtain ⟨above, inside, file⟩ := List.any_eq_true.mp blocked
      rw [free.1 above ((List.mem_inits above path).mp inside)] at file
      cases file
    · rw [if_neg blocked]
      have free : ∀ above, above <+: path → Node.isFile (tree above) = false := by
        intro above inside
        by_contra file
        exact blocked (List.any_eq_true.mpr
          ⟨above, (List.mem_inits above path).mpr inside, by simpa using file⟩)
      rw [Except.ok.injEq]
      exact ⟨fun same => ⟨free, same.symm⟩, fun same => same.2.symm⟩

theorem writeFile_ok {written : Tree Name Content} :
    writeFile tree path content = .ok written ↔
      tree path ≠ some .directory ∧
        written = Function.update tree path (some (.file content)) := by
  unfold writeFile
  cases tree path with
  | none => simp [eq_comm]
  | some node => cases node <;> simp [eq_comm]

omit [DecidableEq Name] in
theorem below_concat {above init : List Name} {last : Name} :
    Below above (init ++ [last]) ↔ above <+: init := by
  unfold Below
  rw [List.prefix_concat_iff]
  constructor
  · rintro ⟨same | inside, apart⟩
    · exact absurd same apart
    · exact inside
  · intro inside
    refine ⟨.inr inside, fun same => ?_⟩
    have short := inside.length_le
    rw [same, List.length_append, List.length_singleton] at short
    omega

/-- The tree after a file has been written that is apart from those that stand. -/
theorem standing_snoc {init : List Name} {last : Name}
    (apart : ∀ entry ∈ entries, ¬ entry.1 <+: init)
    (fresh : init ++ [last] ∉ entries.map Prod.fst) :
    Function.update (fun key => if key <+: init then some .directory else standing entries key)
        (init ++ [last]) (some (.file content)) =
      standing (entries ++ [(init ++ [last], content)]) := by
  have missing : entries.find? (fun entry => entry.1 = init ++ [last]) = none := by
    rw [List.find?_eq_none]
    intro entry member same
    exact fresh (List.mem_map.mpr ⟨entry, member, by simpa using same⟩)
  funext key
  -- The path itself, a file that stands, a directory on the way, or nothing.
  by_cases own : key = init ++ [last]
  · subst own
    rw [Function.update_self]
    simp [standing, List.find?_append, missing]
  · rw [Function.update_of_ne own]
    have others : (entries ++ [(init ++ [last], content)]).find? (fun entry => entry.1 = key) =
        entries.find? fun entry => entry.1 = key := by
      simp [List.find?_append, Ne.symm own]
    unfold standing
    rw [others]
    cases found : entries.find? fun entry => entry.1 = key with
    | some entry =>
        have same : entry.1 = key := by simpa using List.find?_some found
        have outside := apart entry (List.mem_of_find?_eq_some found)
        rw [if_neg (same ▸ outside)]
    | none =>
        by_cases inside : key <+: init
        · have above : key <+: init ++ [last] := inside.trans (List.prefix_append init [last])
          simp [inside, above]
        · have elsewhere : ¬ key <+: init ++ [last] := by
            rw [List.prefix_concat_iff]
            simp [own, inside]
          have same : (∃ entry ∈ entries ++ [(init ++ [last], content)], key <+: entry.1) ↔
              ∃ entry ∈ entries, key <+: entry.1 := by
            simp [or_and_right, exists_or, elsewhere]
          simp only [inside, if_false, same]

/-- A file can be written after others when neither it nor one of them lies below the other. -/
theorem place_standing (named : path ≠ []) (fresh : path ∉ entries.map Prod.fst) :
    place (standing entries) (path, content) = .ok tree ↔
      (∀ entry ∈ entries, ¬ Below entry.1 path ∧ ¬ Below path entry.1) ∧
        tree = standing (entries ++ [(path, content)]) := by
  obtain ⟨init, last, rfl⟩ := (List.eq_nil_or_concat' path).resolve_left named
  have outside : init ++ [last] ≠ [] ∧ ¬ init ++ [last] <+: init := by
    refine ⟨by simp, fun inside => ?_⟩
    have short := inside.length_le
    rw [List.length_append, List.length_singleton] at short
    omega
  have clear : (∀ above, above <+: init → Node.isFile (standing entries above) = false) ↔
      ∀ entry ∈ entries, ¬ entry.1 <+: init := by
    simp only [← Bool.not_eq_true, standing_isFile, List.mem_map, not_exists, not_and]
    exact ⟨fun free entry member inside => free entry.1 inside entry member rfl,
      fun free above inside entry member same => free entry member (same ▸ inside)⟩
  have replaced : standing entries (init ++ [last]) ≠ some .directory ↔
      ∀ entry ∈ entries, ¬ Below (init ++ [last]) entry.1 := by
    rw [Ne, standing_directory]
    simp only [fresh, not_false_eq_true, true_and, outside.1, false_or, not_exists, not_and, Below]
    refine ⟨fun free entry member inside => absurd inside (free entry member),
      fun free entry member inside => ?_⟩
    have same := not_ne_iff.mp (free entry member inside)
    exact fresh (List.mem_map.mpr ⟨entry, member, same.symm⟩)
  simp only [place, List.dropLast_concat, Outcomes.bind_ok, makeDirectory_ok, writeFile_ok, clear,
    below_concat]
  constructor
  · rintro ⟨made, ⟨free, rfl⟩, unblocked, rfl⟩
    dsimp only at unblocked
    rw [if_neg outside.2, replaced] at unblocked
    exact ⟨fun entry member => ⟨free entry member, unblocked entry member⟩, standing_snoc free fresh⟩
  · rintro ⟨apart, rfl⟩
    have free := fun entry member => (apart entry member).1
    refine ⟨_, ⟨free, rfl⟩, ?_, (standing_snoc free fresh).symm⟩
    rw [if_neg outside.2, replaced]
    exact fun entry member => (apart entry member).2

/-- Files of different paths can be written in any order when no one lies below another. -/
theorem foldlM_place (distinct : ((entries ++ rest).map Prod.fst).Nodup)
    (named : ∀ entry ∈ rest, entry.1 ≠ []) (apart : Apart entries) :
    rest.foldlM place (standing entries) = .ok tree ↔
      Apart (entries ++ rest) ∧ tree = standing (entries ++ rest) := by
  -- The invariant is that the tree is that of the files written so far, and these are apart.
  induction rest generalizing entries with
  | nil =>
      have whole : entries ++ [] = entries := List.append_nil entries
      rw [whole]
      simp only [List.foldlM_nil, Pure.pure, Except.pure, Except.ok.injEq, apart, true_and]
      exact eq_comm
  | cons entry rest ih =>
      have whole : entries ++ entry :: rest = entries ++ [entry] ++ rest := by simp
      have fresh : entry.1 ∉ entries.map Prod.fst := by
        rw [List.map_append, List.nodup_append] at distinct
        intro member
        exact distinct.2.2 _ member _ (by simp) rfl
      have step (after : Tree Name Content) : place (standing entries) entry = .ok after ↔ _ :=
        place_standing (named entry (by simp)) fresh
      rw [List.foldlM_cons, whole]
      cases placed : place (standing entries) entry with
      | error fault =>
          refine ⟨nofun, fun laid => ?_⟩
          have free : ∀ other ∈ entries, ¬ Below other.1 entry.1 ∧ ¬ Below entry.1 other.1 :=
            fun other member => ⟨laid.1 other (by simp [member]) entry (by simp),
              laid.1 entry (by simp) other (by simp [member])⟩
          have stands := (step _).mpr ⟨free, rfl⟩
          rw [placed] at stands
          cases stands
      | ok after =>
          obtain ⟨free, rfl⟩ := (step after).mp placed
          have further : Apart (entries ++ [entry]) := by
            intro one first other second
            rw [List.mem_append, List.mem_singleton] at first second
            rcases first with first | rfl <;> rcases second with second | rfl
            · exact apart one first other second
            · exact (free one first).1
            · exact (free other second).2
            · exact fun below => below.2 rfl
          exact ih (whole ▸ distinct) (fun other member => named other (by simp [member])) further

end Standing

end AgentTaskPlatform.FileTree
