import Mathlib.Data.List.Basic

/-!
What `str.strip` leaves of a text.
-/

namespace AgentTaskPlatform.Stripping

def isspace (c : Char) : Bool :=
  (9 ≤ c.toNat && c.toNat ≤ 13) || (28 ≤ c.toNat && c.toNat ≤ 32) || c.toNat == 133 ||
    c.toNat == 160 || c.toNat == 5760 || (8192 ≤ c.toNat && c.toNat ≤ 8202) ||
    c.toNat == 8232 || c.toNat == 8233 || c.toNat == 8239 || c.toNat == 8287 || c.toNat == 12288

def stripBy {Item : Type} (dropped : Item → Bool) (items : List Item) : List Item :=
  ((items.dropWhile dropped).reverse.dropWhile dropped).reverse

def stripText (text : String) : String := String.ofList (stripBy isspace text.toList)

variable {Item : Type} {dropped : Item → Bool} {items : List Item}

theorem mem_stripBy {item : Item} (member : item ∈ stripBy dropped items) : item ∈ items := by
  rw [stripBy, List.mem_reverse] at member
  have inside := (List.dropWhile_sublist dropped).mem member
  rw [List.mem_reverse] at inside
  exact (List.dropWhile_sublist dropped).mem inside

theorem stripBy_head {first : Item} (head : (stripBy dropped items).head? = some first) :
    dropped first = false := by
  rw [stripBy, List.head?_reverse] at head
  have kept : (items.dropWhile dropped).head? = some first := by
    generalize items.dropWhile dropped = rest at head ⊢
    obtain ⟨tail, same⟩ := List.dropWhile_suffix dropped (l := rest.reverse)
    rw [← List.getLast?_reverse, ← same, List.getLast?_append, head]
    rfl
  cases left : items.dropWhile dropped with
  | nil => simp [left] at kept
  | cons head rest =>
      simp only [left, List.head?_cons, Option.some.injEq] at kept
      subst kept
      have nonempty : items.dropWhile dropped ≠ [] := by simp [left]
      have stops := List.head_dropWhile_not dropped nonempty
      simpa [left] using stops

theorem stripBy_self (clean : ∀ item ∈ items, dropped item = false) :
    stripBy dropped items = items := by
  have keeps (list : List Item) (none : ∀ item ∈ list, dropped item = false) :
      list.dropWhile dropped = list := by
    cases list with
    | nil => rfl
    | cons first rest => simp [none first List.mem_cons_self]
  rw [stripBy, keeps items clean, keeps items.reverse, List.reverse_reverse]
  exact fun item member => clean item (List.mem_reverse.mp member)

theorem stripBy_around {before core after : List Item} {first last : Item}
    (gap : ∀ item ∈ before, dropped item = true) (head : core.head? = some first)
    (kept : dropped first = false) (ending : core.getLast? = some last)
    (stays : dropped last = false) :
    stripBy dropped (before ++ (core ++ after)) =
      core ++ (after.reverse.dropWhile dropped).reverse := by
  have front : (before ++ (core ++ after)).dropWhile dropped = core ++ after := by
    rw [List.dropWhile_append_of_pos gap]
    cases core with
    | nil => cases head
    | cons item rest =>
        cases head
        simp [kept]
  have back : core.reverse.dropWhile dropped = core.reverse := by
    rw [← List.head?_reverse] at ending
    cases turned : core.reverse with
    | nil => simp [turned] at ending
    | cons item rest =>
        rw [turned] at ending
        cases ending
        simp [stays]
  rw [stripBy, front, List.reverse_append, List.dropWhile_append, back]
  split
  · next none =>
      rw [List.isEmpty_iff.mp none, List.reverse_reverse, List.reverse_nil, List.append_nil]
  · rw [List.reverse_append, List.reverse_reverse]

end AgentTaskPlatform.Stripping
