import AgentTaskPlatform.SelfDelimiting
import AgentTaskPlatform.SkillLoader
import Mathlib.Data.List.Induction

/-!
The content hash of a Skill: the length-prefixed frames of the sorted files delimit
themselves, so the hash determines every file.
-/

namespace AgentTaskPlatform.Skills

open KeyedTable SelfDelimiting

section Encoding

theorem bigEndian_length (width value : Nat) : (bigEndian width value).length = width := by
  induction width generalizing value with
  | zero => rfl
  | succ width ih => simp [bigEndian, ih]

theorem bigEndian_injective {width left right : Nat} (first : left < 256 ^ width)
    (second : right < 256 ^ width) (same : bigEndian width left = bigEndian width right) :
    left = right := by
  induction width generalizing left right with
  | zero => simp at first second; omega
  | succ width ih =>
      have positive : 0 < 256 ^ width := Nat.pow_pos (by decide)
      have high {value : Nat} (bounded : value < 256 ^ (width + 1)) : value / 256 ^ width < 256 := by
        rw [Nat.div_lt_iff_lt_mul positive, Nat.mul_comm, ← Nat.pow_succ]
        exact bounded
      simp only [bigEndian, List.cons.injEq] at same
      have heads : left / 256 ^ width = right / 256 ^ width := by
        have values := congrArg UInt8.toNat same.1
        simpa [Nat.mod_eq_of_lt (high first), Nat.mod_eq_of_lt (high second)] using values
      have tails : left % 256 ^ width = right % 256 ^ width :=
        ih (Nat.mod_lt _ positive) (Nat.mod_lt _ positive) same.2
      rw [← Nat.div_add_mod left (256 ^ width), heads, tails, Nat.div_add_mod]

theorem encode_injective : ∀ ⦃left right : String⦄, encode left = encode right → left = right := by
  intro left right same
  have arrays : left.toUTF8.data = right.toUTF8.data := Array.toList_inj.mp same
  have bytes : left.toUTF8 = right.toUTF8 := ByteArray.ext arrays
  exact String.toByteArray_inj.mp bytes

theorem toBytes_ok {width value : Nat} {bytes : Bytes} (encoded : toBytes width value = .ok bytes) :
    value < 256 ^ width ∧ bytes = bigEndian width value := by
  unfold toBytes at encoded
  split at encoded
  · next bounded =>
      cases encoded
      exact ⟨bounded, rfl⟩
  · cases encoded

def Framed (file : String × Bytes) : Prop :=
  (encode file.1).length < 256 ^ 4 ∧ file.2.length < 256 ^ 8

def frameBytes (file : String × Bytes) : Bytes :=
  (bigEndian 4 (encode file.1).length ++ encode file.1) ++
    (bigEndian 8 file.2.length ++ file.2)

theorem frame_ok {file : String × Bytes} {bytes : Bytes} (framed : frame file = .ok bytes) :
    Framed file ∧ bytes = frameBytes file := by
  unfold frame at framed
  cases path : toBytes 4 (encode file.1).length with
  | error error => simp [path, Bind.bind, Except.bind] at framed
  | ok pathLength =>
      cases content : toBytes 8 file.2.length with
      | error error => simp [path, content, Bind.bind, Except.bind] at framed
      | ok contentLength =>
          simp only [path, content, Bind.bind, Except.bind, Pure.pure, Except.pure] at framed
          cases framed
          obtain ⟨short, rfl⟩ := toBytes_ok path
          obtain ⟨small, rfl⟩ := toBytes_ok content
          exact ⟨⟨short, small⟩, by simp [frameBytes]⟩

theorem frames_ok {files : List (String × Bytes)} {bytes : Bytes}
    (framed : frames files = .ok bytes) :
    (∀ file ∈ files, Framed file) ∧ bytes = files.flatMap frameBytes := by
  induction files generalizing bytes with
  | nil =>
      cases framed
      exact ⟨nofun, rfl⟩
  | cons file rest ih =>
      simp only [frames] at framed
      cases first : frame file with
      | error error => simp [first, Bind.bind, Except.bind] at framed
      | ok head =>
          cases later : frames rest with
          | error error => simp [first, later, Bind.bind, Except.bind] at framed
          | ok tail =>
              simp only [first, later, Bind.bind, Except.bind, Pure.pure, Except.pure] at framed
              cases framed
              obtain ⟨own, rfl⟩ := frame_ok first
              obtain ⟨others, rfl⟩ := ih later
              refine ⟨?_, rfl⟩
              intro other member
              rcases List.mem_cons.mp member with rfl | inside
              · exact own
              · exact others other inside

theorem frameBytes_delimited : Delimited Framed frameBytes := by
  have sizes (width : Nat) : Delimited (fun value => value < 256 ^ width) (bigEndian width) :=
    fixedLength (bigEndian_length width) fun _ _ first second => bigEndian_injective first second
  have paths : Delimited (fun path : String => (encode path).length < 256 ^ 4)
      fun path => bigEndian 4 (encode path).length ++ encode path :=
    through (prefixed (sizes 4)) encode_injective fun _ holds => holds
  exact pair paths (prefixed (sizes 8))

theorem frameBytes_nonempty (file : String × Bytes) : frameBytes file ≠ [] := by
  intro empty
  have length := congrArg List.length empty
  simp [frameBytes, bigEndian_length] at length

end Encoding

section Artifacts

variable {loading : Loading}

theorem contentHash_files (injective : Function.Injective loading.sha256) {left right : Files}
    {hash : String} (first : artifactContentHash loading left = .ok hash)
    (second : artifactContentHash loading right = .ok hash) :
    sortedItems left = sortedItems right := by
  unfold artifactContentHash at first second
  cases one : frames (sortedItems left) with
  | error error => simp [one, Bind.bind, Except.bind] at first
  | ok encoded =>
      cases two : frames (sortedItems right) with
      | error error => simp [two, Bind.bind, Except.bind] at second
      | ok other =>
          simp only [one, Bind.bind, Except.bind, Pure.pure, Except.pure, Except.ok.injEq] at first
          simp only [two, Bind.bind, Except.bind, Pure.pure, Except.pure, Except.ok.injEq] at second
          have same : encoded = other := injective (first.trans second.symm)
          obtain ⟨framed, rfl⟩ := frames_ok one
          obtain ⟨also, rfl⟩ := frames_ok two
          exact sequences frameBytes_delimited frameBytes_nonempty framed also same

/-- Files of different paths are mapped in their order. -/
theorem artifactMapping_rows {artifact : List SkillArtifactFile}
    (distinct : (artifact.map SkillArtifactFile.path).Nodup) :
    (artifactMapping artifact).rows = artifact.map fun file => (file.path, file.content) := by
  induction artifact using List.reverseRecOn with
  | nil => rfl
  | append_singleton artifact file ih =>
      rw [List.map_append, List.nodup_append] at distinct
      have rows := ih distinct.1
      rw [artifactMapping, List.foldl_append]
      change ((artifactMapping artifact).upsert (file.path, file.content)).rows = _
      rw [Table.upsert_fresh, rows, List.map_append]
      · rfl
      · rw [rows, List.map_map]
        intro member
        exact distinct.2.2 _ member _ (by simp) rfl

theorem mem_sortedItems {files : Files} {file : String × Bytes} :
    file ∈ sortedItems files ↔ file ∈ files.rows :=
  (List.perm_insertionSort _ files.rows).mem_iff

theorem get_sortedItems {left right : Files} (same : sortedItems left = sortedItems right)
    (path : String) : left.get path = right.get path := by
  have rows (file : String × Bytes) : file ∈ left.rows ↔ file ∈ right.rows := by
    rw [← mem_sortedItems, ← mem_sortedItems, same]
  have found : left.find path = right.find path := by
    apply Option.ext
    intro file
    rw [Table.find_iff, Table.find_iff, rows]
  unfold Files.get
  rw [found]

theorem validated_ok {spec result : SkillSpec} (valid : validated loading spec = .ok result) :
    result = spec := by
  unfold validated at valid
  split at valid
  · cases valid
  · split at valid
    · cases valid
      rfl
    · cases valid

theorem inspectArtifact_ok {artifact : List SkillArtifactFile} {sourcePath : String}
    {spec : SkillSpec} (inspected : inspectArtifact loading artifact sourcePath = .ok spec) :
    artifactContentHash loading (artifactMapping artifact) = .ok spec.contentHash ∧
      spec.artifact = artifact ∧
      manifestScripts loading (artifactMapping artifact) = .ok spec.scripts := by
  unfold inspectArtifact at inspected
  simp only [Bind.bind, Except.bind] at inspected
  repeat' split at inspected
  all_goals first | cases inspected | skip
  next scripts declared _ hash hashed =>
    have same := validated_ok inspected
    subst same
    exact ⟨hashed, rfl, declared⟩

theorem verify_ok {spec : SkillSpec} (verified : verify loading spec = .ok ())
    (backed : spec.artifact ≠ []) :
    artifactContentHash loading (artifactMapping spec.artifact) = .ok spec.contentHash := by
  unfold verify at verified
  rw [if_neg (by simpa using backed)] at verified
  cases inspected : inspectArtifact loading spec.artifact spec.sourcePath with
  | error error => simp [inspected, Bind.bind, Except.bind] at verified
  | ok found =>
      simp only [inspected, Bind.bind, Except.bind] at verified
      split at verified
      · cases verified
      · split at verified
        · cases verified
        · next same =>
            rw [← not_ne_iff.mp same]
            exact (inspectArtifact_ok inspected).1

end Artifacts

end AgentTaskPlatform.Skills
