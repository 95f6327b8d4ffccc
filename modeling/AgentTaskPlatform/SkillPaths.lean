import AgentTaskPlatform.SkillLoader

/-!
Paths of Skill files. A stored path is its own parts joined again, and every spelling of a
path has the parts of one such path.
-/

namespace AgentTaskPlatform.Skills

section Parts

variable {path text : String} {parts : List String}

/-- What `Path` keeps of a text between two separators. -/
def Kept (part : String) : Prop := '/' ∉ part.toList ∧ part ≠ "" ∧ part ≠ "."

theorem splitOn_free (text : List Char) : ∀ part ∈ text.splitOn '/', '/' ∉ part := by
  induction text with
  | nil => simp
  | cons first rest ih =>
      rw [List.splitOn_cons_eq_if_modifyHead]
      split
      · simpa using ih
      next other =>
        obtain ⟨head, tail, split⟩ := List.exists_cons_of_ne_nil (List.splitOn_ne_nil '/' rest)
        rw [split] at ih ⊢
        intro part member
        rcases List.mem_cons.mp member with rfl | inside
        · have free := ih head List.mem_cons_self
          have apart : first ≠ '/' := by simpa using other
          rw [List.mem_cons, not_or]
          exact ⟨apart.symm, free⟩
        · exact ih part (List.mem_cons_of_mem _ inside)

theorem splitAt_free : ∀ part ∈ splitAt '/' text, '/' ∉ part.toList := by
  intro part member
  obtain ⟨piece, inside, rfl⟩ := List.mem_map.mp member
  simpa using splitOn_free text.toList piece inside

theorem intercalate_splitAt (text : String) : "/".intercalate (splitAt '/' text) = text := by
  apply String.toList_injective
  rw [String.toList_intercalate, splitAt, List.map_map]
  have same : String.toList ∘ String.ofList = id := by
    funext piece
    simp
  rw [same, List.map_id]
  exact List.intercalate_splitOn '/'

theorem splitAt_intercalate (free : ∀ part ∈ parts, '/' ∉ part.toList) (some : parts ≠ []) :
    splitAt '/' ("/".intercalate parts) = parts := by
  rw [splitAt, String.toList_intercalate]
  have pieces : ∀ piece ∈ parts.map String.toList, '/' ∉ piece := by
    intro piece member
    obtain ⟨part, inside, rfl⟩ := List.mem_map.mp member
    exact free part inside
  have split := List.splitOn_intercalate '/' pieces (by simpa using some)
  have slash : "/".toList = ['/'] := by decide
  rw [slash, split, List.map_map]
  have same : String.ofList ∘ String.toList = id := by
    funext part
    simp
  rw [same, List.map_id]

theorem pathParts_kept : ∀ part ∈ pathParts text, Kept part := by
  intro part member
  obtain ⟨inside, kept⟩ := List.mem_filter.mp member
  simp only [Bool.and_eq_true, bne_iff_ne] at kept
  exact ⟨splitAt_free part inside, kept⟩

theorem pathParts_intercalate (kept : ∀ part ∈ parts, Kept part) (some : parts ≠ []) :
    pathParts ("/".intercalate parts) = parts := by
  rw [pathParts, splitAt_intercalate (fun part member => (kept part member).1) some,
    List.filter_eq_self]
  intro part member
  simpa using (kept part member).2

theorem pathParts_asPosix (text : String) : pathParts (asPosix text) = pathParts text := by
  unfold asPosix
  split
  next empty =>
    rw [List.isEmpty_iff.mp empty]
    decide
  next nonempty =>
    exact pathParts_intercalate pathParts_kept (by simpa using nonempty)

theorem asPosix_congr (same : pathParts text = pathParts path) : asPosix text = asPosix path := by
  rw [asPosix, asPosix, same]

theorem pathParts_safe (safe : safePath path = true) : pathParts path = splitAt '/' path := by
  rw [pathParts, List.filter_eq_self]
  intro part member
  have named := List.all_eq_true.mp safe part member
  simp only [Bool.and_eq_true] at named ⊢
  exact named.1

theorem pathParts_ne_nil (safe : safePath path = true) : pathParts path ≠ [] := by
  rw [pathParts_safe safe, splitAt]
  simp

/-- A stored path is spelled in the normal way. -/
theorem asPosix_safe (safe : safePath path = true) : asPosix path = path := by
  rw [asPosix, if_neg (by simpa using pathParts_ne_nil safe), pathParts_safe safe]
  exact intercalate_splitAt path

theorem eq_of_pathParts {other : String} (safe : safePath path = true)
    (also : safePath other = true) (same : pathParts path = pathParts other) : path = other := by
  rw [← asPosix_safe safe, ← asPosix_safe also]
  exact asPosix_congr same

theorem pathParts_below {directory : String} (kept : Kept directory) (rest : String) :
    pathParts (directory ++ "/" ++ rest) = directory :: pathParts rest := by
  have split : splitAt '/' (directory ++ "/" ++ rest) = directory :: splitAt '/' rest := by
    have letters : (directory ++ "/" ++ rest).toList = directory.toList ++ '/' :: rest.toList := by
      simp
    rw [splitAt, letters, List.splitOn_append_cons_self_of_not_mem kept.1]
    simp [splitAt]
  rw [pathParts, split, List.filter_cons_of_pos (by simpa using kept.2)]
  rfl

theorem below_iff {directory : String} (kept : Kept directory) (safe : safePath path = true) :
    (directory ++ "/").toList.isPrefixOf path.toList = true ↔
      ∃ rest, rest ≠ [] ∧ pathParts path = directory :: rest := by
  rw [List.isPrefixOf_iff_prefix]
  constructor
  · rintro ⟨rest, letters⟩
    -- Nothing after the separator would be an empty part, which no stored path has.
    have whole : path = directory ++ "/" ++ String.ofList rest := by
      apply String.toList_injective
      rw [← letters]
      simp
    refine ⟨pathParts (String.ofList rest), ?_, whole ▸ pathParts_below kept _⟩
    intro empty
    have short : pathParts path = [directory] := by rw [whole, pathParts_below kept, empty]
    have same : path = directory := by
      rw [← asPosix_safe safe, asPosix, short]
      simp
    rw [same] at letters
    have longer := congrArg List.length letters
    simp at longer
  · rintro ⟨rest, some, parts⟩
    have whole : path = directory ++ "/" ++ "/".intercalate rest := by
      rw [← asPosix_safe safe, asPosix, parts]
      simp [String.intercalate_cons_of_ne_nil some]
    rw [whole]
    simp

end Parts

end AgentTaskPlatform.Skills
