import Mathlib.Data.List.Basic
import Mathlib.Order.Lattice

/-!
The first greatest item of a list by a key. The comparison of the keys is any relation
whose negation is transitive; the choice then does not depend on the items that lose.
-/

namespace AgentTaskPlatform.FirstMaximum

section Comparisons

variable {Key : Type}

structure Weak (older : Key → Key → Bool) : Prop where
  asymm : ∀ left right, older left right = true → older right left = false
  negated : ∀ first second third, older first second = false → older second third = false →
    older first third = false

theorem Weak.trans {older : Key → Key → Bool} (weak : Weak older) {first second third : Key}
    (before : older first second = true) (after : older second third = true) :
    older first third = true := by
  by_contra other
  have contrary := weak.negated first third second (by simpa using other)
    (weak.asymm second third after)
  rw [contrary] at before
  cases before

theorem Weak.irrefl {older : Key → Key → Bool} (weak : Weak older) (key : Key) :
    older key key = false := by
  cases own : older key key with
  | false => rfl
  | true => exact own.symm.trans (weak.asymm key key own)

def Trichotomous (older : Key → Key → Bool) : Prop :=
  ∀ left right, older left right = false → older right left = false → left = right

theorem weak_lt {Linear : Type} [LinearOrder Linear] {older : Linear → Linear → Bool}
    (compares : ∀ left right, older left right = true ↔ left < right) : Weak older where
  asymm := by
    intro left right before
    rw [compares] at before
    rw [Bool.eq_false_iff, ne_eq, compares]
    exact before.asymm
  negated := by
    intro first second third before after
    rw [Bool.eq_false_iff, ne_eq, compares, not_lt] at before after ⊢
    exact after.trans before

theorem trichotomous_lt {Linear : Type} [LinearOrder Linear] {older : Linear → Linear → Bool}
    (compares : ∀ left right, older left right = true ↔ left < right) : Trichotomous older := by
  intro left right before after
  rw [Bool.eq_false_iff, ne_eq, compares, not_lt] at before after
  exact le_antisymm after before

variable [DecidableEq Key] {older : Key → Key → Bool}

theorem lex_asymm (weak : Weak older) (left right : List Key)
    (before : left.lex right older = true) : right.lex left older = false := by
  induction left generalizing right with
  | nil =>
      cases right with
      | nil => cases before
      | cons head tail => rfl
  | cons a left ih =>
      cases right with
      | nil => cases before
      | cons b right =>
          simp only [List.lex, Bool.or_eq_true, Bool.and_eq_true, beq_iff_eq] at before
          simp only [List.lex, Bool.or_eq_false_iff, Bool.and_eq_false_iff, beq_eq_false_iff_ne]
          have irreflexive := weak.irrefl b
          rcases before with first | ⟨rfl, later⟩
          · refine ⟨weak.asymm a b first, Or.inl ?_⟩
            rintro rfl
            rw [irreflexive] at first
            cases first
          · exact ⟨irreflexive, Or.inr (ih right later)⟩

theorem lex_negated (weak : Weak older) (trichotomous : Trichotomous older)
    (first second third : List Key) (before : first.lex second older = false)
    (after : second.lex third older = false) : first.lex third older = false := by
  induction first generalizing second third with
  | nil =>
      cases second with
      | nil => exact after
      | cons head tail => cases before
  | cons a first ih =>
      cases third with
      | nil => rfl
      | cons c third =>
          cases second with
          | nil => cases after
          | cons b second =>
              simp only [List.lex, Bool.or_eq_false_iff, Bool.and_eq_false_iff,
                beq_eq_false_iff_ne] at before after ⊢
              refine ⟨weak.negated a b c before.1 after.1, ?_⟩
              by_cases same : a = c
              · subst same
                obtain rfl := trichotomous a b before.1 after.1
                right
                exact ih second third (before.2.resolve_left (not_not.mpr rfl))
                  (after.2.resolve_left (not_not.mpr rfl))
              · exact Or.inl same

/-- Lists are compared by their first different items. -/
theorem weak_lex (weak : Weak older) (trichotomous : Trichotomous older) :
    Weak fun left right : List Key => left.lex right older :=
  ⟨lex_asymm weak, lex_negated weak trichotomous⟩

end Comparisons

section Choice

variable {Item Key : Type} (older : Key → Key → Bool) (key : Item → Key)

def maximum : Item → List Item → Item
  | best, [] => best
  | best, item :: rest =>
      if older (key best) (key item) then maximum item rest else maximum best rest

def Leads (items : List Item) (winner : Item) : Prop :=
  ∃ before after, items = before ++ winner :: after ∧
    (∀ item ∈ before, older (key item) (key winner) = true) ∧
    ∀ item ∈ after, older (key winner) (key item) = false

variable {older key} {items : List Item} {winner : Item}

theorem maximum_mem (older : Key → Key → Bool) (key : Item → Key) (best : Item)
    (rest : List Item) : maximum older key best rest ∈ best :: rest := by
  induction rest generalizing best with
  | nil => exact List.mem_cons_self
  | cons item rest ih =>
      rw [maximum]
      split
      · exact List.mem_cons_of_mem _ (ih item)
      · rcases List.mem_cons.mp (ih best) with same | later
        · rw [same]
          exact List.mem_cons_self
        · exact List.mem_cons_of_mem _ (List.mem_cons_of_mem _ later)

theorem maximum_leads (weak : Weak older) (best : Item) (passed rest : List Item)
    (leads : Leads older key passed best) :
    Leads older key (passed ++ rest) (maximum older key best rest) := by
  induction rest generalizing best passed with
  | nil => simpa [maximum] using leads
  | cons item rest ih =>
      obtain ⟨before, after, rfl, beaten, behind⟩ := leads
      have regroup : before ++ best :: after ++ item :: rest =
          (before ++ best :: after ++ [item]) ++ rest := by simp
      rw [regroup]
      by_cases beats : older (key best) (key item) = true
      · simp only [maximum, beats, if_true]
        apply ih
        refine ⟨before ++ best :: after, [], rfl, ?_, nofun⟩
        intro other member
        rcases List.mem_append.mp member with first | later
        · exact weak.trans (beaten other first) beats
        · rcases List.mem_cons.mp later with rfl | later
          · exact beats
          · by_contra not_older
            have contrary := weak.negated _ _ _ (behind other later) (by simpa using not_older)
            rw [contrary] at beats
            cases beats
      · simp only [maximum, beats]
        apply ih
        refine ⟨before, after ++ [item], by simp, beaten, ?_⟩
        intro other member
        rcases List.mem_append.mp member with first | last
        · exact behind other first
        · rw [List.mem_singleton.mp last]
          simpa using beats

theorem maximum_cons_leads (weak : Weak older) (first : Item) (rest : List Item) :
    Leads older key (first :: rest) (maximum older key first rest) :=
  maximum_leads weak first [first] rest ⟨[], [], rfl, nofun, nofun⟩

theorem Leads.greatest (leads : Leads older key items winner) (weak : Weak older) {item : Item}
    (member : item ∈ items) : older (key winner) (key item) = false := by
  obtain ⟨before, after, rfl, beaten, behind⟩ := leads
  rcases List.mem_append.mp member with first | later
  · exact weak.asymm _ _ (beaten item first)
  · rcases List.mem_cons.mp later with rfl | last
    · exact weak.irrefl _
    · exact behind item last

theorem Leads.unique {other : Item} (left : Leads older key items winner)
    (right : Leads older key items other) : winner = other := by
  obtain ⟨before, after, rfl, beaten, behind⟩ := left
  obtain ⟨first, later, same, surpassed, remaining⟩ := right
  rcases List.append_eq_append_iff.mp same with ⟨between, rfl, tail⟩ | ⟨between, rfl, tail⟩
  · cases between with
    | nil =>
        simp only [List.nil_append, List.cons.injEq] at tail
        exact tail.1
    | cons head middle =>
        simp only [List.cons_append, List.cons.injEq] at tail
        obtain ⟨rfl, rfl⟩ := tail
        have forth := surpassed winner (by simp)
        have back := behind other (by simp)
        rw [forth] at back
        cases back
  · cases between with
    | nil =>
        simp only [List.nil_append, List.cons.injEq] at tail
        exact tail.1.symm
    | cons head middle =>
        simp only [List.cons_append, List.cons.injEq] at tail
        obtain ⟨rfl, rfl⟩ := tail
        have forth := beaten other (by simp)
        have back := remaining winner (by simp)
        rw [forth] at back
        cases back

theorem Leads.filter (leads : Leads older key items winner) {kept : Item → Bool}
    (stays : kept winner = true) : Leads older key (items.filter kept) winner := by
  obtain ⟨before, after, rfl, beaten, behind⟩ := leads
  refine ⟨before.filter kept, after.filter kept, by simp [stays], ?_, ?_⟩
  · exact fun item member => beaten item (List.mem_filter.mp member).1
  · exact fun item member => behind item (List.mem_filter.mp member).1

end Choice

end AgentTaskPlatform.FirstMaximum
