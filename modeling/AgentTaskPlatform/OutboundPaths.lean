import AgentTaskPlatform.Domain
import AgentTaskPlatform.Unquote
import Mathlib.Logic.Function.Iterate

/-!
The paths that the outbound policy refuses because a client and a server may read them
differently. The check looks at a path, at what it decodes to, at what that decodes to, and
so on until a decoding changes nothing.
-/

namespace AgentTaskPlatform.Outbound

open Unquote

def policyError (message : String) : Exc := ⟨.exception, "OutboundPolicyError", message⟩

def isDotSegment (part : List Char) : Bool := part = ['.'] || part = ['.', '.']

def Plain (text : List Char) : Prop :=
  '\\' ∉ text ∧ ∀ part ∈ text.splitOn '/', isDotSegment part = false

instance (text : List Char) : Decidable (Plain text) := inferInstanceAs (Decidable (_ ∧ _))

def separators (text : List Char) : Nat := text.count '/'

def rejectAmbiguous : Nat → List Char → Except Exc Unit
  | 0, _ => throw (policyError "Outbound URL path contains excessive nested encoding")
  | rounds + 1, candidate =>
      if ¬ Plain candidate then
        throw (policyError "Outbound URL path contains ambiguous traversal segments")
      else if separators (unquote candidate) > separators candidate then
        throw (policyError "Outbound URL path contains an encoded path separator")
      else if unquote candidate = candidate then return ()
      else rejectAmbiguous rounds (unquote candidate)

def orRoot (path : List Char) : List Char := if path = [] then ['/'] else path

def rejectAmbiguousPath (path : List Char) : Except Exc Unit := rejectAmbiguous 5 (orRoot path)

def layer (path : List Char) (depth : Nat) : List Char := unquote^[depth] path

theorem layer_succ (path : List Char) (depth : Nat) :
    layer path (depth + 1) = layer (unquote path) depth := Function.iterate_succ_apply ..

theorem layer_next (path : List Char) (depth : Nat) :
    layer path (depth + 1) = unquote (layer path depth) := Function.iterate_succ_apply' ..

theorem separators_layer (path : List Char) (depth : Nat) :
    separators path ≤ separators (layer path depth) := by
  induction depth with
  | zero => exact Nat.le_refl _
  | succ depth ih =>
      rw [layer_next]
      exact Nat.le_trans ih (unquote_slashes _)

/-- From a layer that decodes to itself on, all layers are the same. -/
theorem layer_stable {path : List Char} {depth : Nat}
    (stable : layer path (depth + 1) = layer path depth) (further : Nat) :
    layer path (depth + further) = layer path depth := by
  induction further with
  | zero => rfl
  | succ further ih => rw [← Nat.add_assoc, layer_next, ih, ← layer_next, stable]

def Harmless (path : List Char) (depth : Nat) : Prop :=
  Plain (layer path depth) ∧
    separators (layer path (depth + 1)) ≤ separators (layer path depth)

/-- The loop accepts when a round changes nothing and no round up to it has refused. -/
theorem rejectAmbiguous_ok (rounds : Nat) (candidate : List Char) :
    rejectAmbiguous rounds candidate = .ok () ↔
      ∃ last < rounds, layer candidate (last + 1) = layer candidate last ∧
        ∀ depth ≤ last, Harmless candidate depth := by
  induction rounds generalizing candidate with
  | zero => simp [rejectAmbiguous, throw, throwThe, MonadExceptOf.throw]
  | succ rounds ih =>
      have here : Harmless candidate 0 ↔
          Plain candidate ∧ separators (unquote candidate) ≤ separators candidate := Iff.rfl
      rw [rejectAmbiguous]
      by_cases plain : Plain candidate
      · by_cases more : separators (unquote candidate) > separators candidate
        · rw [if_neg (not_not_intro plain), if_pos more]
          constructor
          · intro accepted
            cases accepted
          · rintro ⟨last, _, _, harmless⟩
            have first := (here.mp (harmless 0 (Nat.zero_le _))).2
            omega
        · by_cases same : unquote candidate = candidate
          · rw [if_neg (not_not_intro plain), if_neg more, if_pos same]
            refine ⟨fun _ => ⟨0, Nat.succ_pos _, same, ?_⟩, fun _ => rfl⟩
            intro depth bound
            obtain rfl : depth = 0 := Nat.le_zero.mp bound
            exact here.mpr ⟨plain, Nat.le_of_not_lt more⟩
          · rw [if_neg (not_not_intro plain), if_neg more, if_neg same, ih]
            constructor
            · rintro ⟨last, bound, stable, harmless⟩
              refine ⟨last + 1, Nat.succ_lt_succ bound, ?_, ?_⟩
              · rw [layer_succ, layer_succ]
                exact stable
              · intro depth within
                cases depth with
                | zero => exact here.mpr ⟨plain, Nat.le_of_not_lt more⟩
                | succ depth =>
                    have later := harmless depth (Nat.le_of_succ_le_succ within)
                    simpa only [Harmless, layer_succ] using later
            · rintro ⟨last, bound, stable, harmless⟩
              cases last with
              | zero => exact absurd stable same
              | succ last =>
                  refine ⟨last, Nat.lt_of_succ_lt_succ bound, ?_, ?_⟩
                  · rw [layer_succ, layer_succ] at stable
                    exact stable
                  · intro depth within
                    have later := harmless (depth + 1) (Nat.succ_le_succ within)
                    simpa only [Harmless, layer_succ] using later
      · rw [if_pos plain]
        constructor
        · intro accepted
          cases accepted
        · rintro ⟨last, _, _, harmless⟩
          exact absurd (here.mp (harmless 0 (Nat.zero_le _))).1 plain

theorem layer_nil (depth : Nat) : layer [] depth = [] := by
  have stable : layer [] (0 + 1) = layer [] 0 := rfl
  have kept := layer_stable stable depth
  rw [Nat.zero_add] at kept
  exact kept

section Accepted

variable {path : List Char} {last : Nat} (harmless : ∀ depth ≤ last, Harmless path depth)
include harmless

theorem separators_kept (depth : Nat) (within : depth ≤ last) :
    separators (layer path depth) = separators path := by
  induction depth with
  | zero => rfl
  | succ depth ih =>
      have before := Nat.le_of_succ_le within
      apply Nat.le_antisymm
      · exact Nat.le_trans (harmless depth before).2 (Nat.le_of_eq (ih before))
      · exact separators_layer path (depth + 1)

theorem layers_harmless (stable : layer path (last + 1) = layer path last) (depth : Nat) :
    Plain (layer path depth) ∧ separators (layer path depth) = separators path := by
  rcases Nat.le_total depth last with within | beyond
  · exact ⟨(harmless depth within).1, separators_kept harmless depth within⟩
  · obtain ⟨further, rfl⟩ := Nat.exists_eq_add_of_le beyond
    rw [layer_stable stable]
    exact ⟨(harmless last (Nat.le_refl _)).1, separators_kept harmless last (Nat.le_refl _)⟩

end Accepted

theorem accepted_layers {path : List Char} (accepted : rejectAmbiguousPath path = .ok ())
    (depth : Nat) :
    Plain (layer path depth) ∧ separators (layer path depth) = separators path := by
  obtain ⟨last, _, stable, harmless⟩ := (rejectAmbiguous_ok 5 (orRoot path)).mp accepted
  by_cases empty : path = []
  · subst empty
    rw [layer_nil]
    decide
  · rw [orRoot, if_neg empty] at stable harmless
    exact layers_harmless harmless stable depth

theorem harmless_accepted {path : List Char} {round : Nat} (bound : round < 5)
    (stable : layer path (round + 1) = layer path round)
    (plain : ∀ depth, Plain (layer path depth))
    (fewer : ∀ depth, separators (layer path depth) ≤ separators path) :
    rejectAmbiguousPath path = .ok () := by
  by_cases empty : path = []
  · subst empty
    decide
  · rw [rejectAmbiguousPath, orRoot, if_neg empty, rejectAmbiguous_ok]
    refine ⟨round, bound, stable, fun depth _ => ⟨plain depth, ?_⟩⟩
    exact Nat.le_trans (fewer (depth + 1)) (separators_layer path depth)

/-- What is accepted stays harmless however often it is decoded, and what is harmless is
accepted when it is stable after at most four decodings, which the fifth round sees. -/
theorem ambiguous_path_sound (path : List Char) :
    (rejectAmbiguousPath path = .ok () →
      ∀ depth, Plain (layer path depth) ∧ separators (layer path depth) = separators path) ∧
    ((∃ round < 5, layer path (round + 1) = layer path round) →
      (∀ depth, Plain (layer path depth) ∧
        separators (layer path depth) ≤ separators path) →
      rejectAmbiguousPath path = .ok ()) := by
  refine ⟨accepted_layers, ?_⟩
  rintro ⟨round, bound, stable⟩ plain
  exact harmless_accepted bound stable (fun depth => (plain depth).1) fun depth =>
    (plain depth).2

theorem rejectAmbiguousPath_orRoot (path : List Char) :
    rejectAmbiguousPath (orRoot path) = rejectAmbiguousPath path := by
  by_cases empty : path = []
  · subst empty
    rfl
  · simp [rejectAmbiguousPath, orRoot, empty]

section Longer

theorem layer_longer (path : List Char) (depth : Nat) :
    layer (path ++ ['x']) depth = layer path depth ++ ['x'] := by
  induction depth with
  | zero => rfl
  | succ depth ih => rw [layer_next, layer_next, ih, unquote_snoc rfl rfl (by decide)]

theorem splitOn_longer (text : List Char) :
    ∃ parts last, text.splitOn '/' = parts ++ [last] ∧
      (text ++ ['x']).splitOn '/' = parts ++ [last ++ ['x']] := by
  induction text with
  | nil => exact ⟨[], [], rfl, rfl⟩
  | cons char rest ih =>
      obtain ⟨parts, last, short, long⟩ := ih
      rw [List.cons_append, List.splitOn_cons_eq_if_modifyHead,
        List.splitOn_cons_eq_if_modifyHead, short, long]
      by_cases slash : (char == '/') = true
      · rw [if_pos slash, if_pos slash]
        exact ⟨[] :: parts, last, rfl, rfl⟩
      · rw [if_neg slash, if_neg slash]
        cases parts with
        | nil => exact ⟨[], char :: last, rfl, rfl⟩
        | cons first more => exact ⟨(char :: first) :: more, last, rfl, rfl⟩

theorem Plain.longer {text : List Char} (plain : Plain text) : Plain (text ++ ['x']) := by
  refine ⟨by simpa using plain.1, fun part member => ?_⟩
  obtain ⟨parts, last, short, long⟩ := splitOn_longer text
  rw [long, List.mem_append, List.mem_singleton] at member
  rcases member with known | rfl
  · exact plain.2 part (by rw [short]; exact List.mem_append_left _ known)
  · have ends : (last ++ ['x']).getLast? = some 'x' := List.getLast?_concat ..
    simp only [isDotSegment, Bool.or_eq_false_iff, decide_eq_false_iff_not]
    constructor <;> intro dots <;> rw [dots] at ends <;> simp at ends

/-- A path that is accepted can be continued by a letter that is no digit. -/
theorem accepted_longer {path : List Char} (accepted : rejectAmbiguousPath path = .ok ())
    (rooted : path ≠ []) : rejectAmbiguousPath (path ++ ['x']) = .ok () := by
  obtain ⟨last, bound, stable, harmless⟩ := (rejectAmbiguous_ok 5 (orRoot path)).mp accepted
  rw [orRoot, if_neg rooted] at stable harmless
  apply harmless_accepted bound
  · rw [layer_longer, layer_longer, stable]
  · intro depth
    rw [layer_longer]
    exact (layers_harmless harmless stable depth).1.longer
  · intro depth
    have kept := (layers_harmless harmless stable depth).2
    rw [layer_longer]
    simp only [separators, List.count_append] at kept ⊢
    omega

end Longer

def nestedPath : List Char := "/a%2541%ZZ%".toList

theorem ambiguous_path_sound_nested :
    (∀ depth, Plain (layer nestedPath depth) ∧
      separators (layer nestedPath depth) = separators nestedPath) ∧
    rejectAmbiguousPath nestedPath = .ok () := by
  have harmless := (ambiguous_path_sound nestedPath).1 (by decide)
  refine ⟨harmless, (ambiguous_path_sound nestedPath).2 ⟨2, by decide, by decide⟩ ?_⟩
  exact fun depth => ⟨(harmless depth).1, Nat.le_of_eq (harmless depth).2⟩

end AgentTaskPlatform.Outbound
