import Mathlib.Data.List.Basic

/-!
Encodings that tell where they end. What follows such an encoding can be told apart from
it, so that sequences of encodings determine the encoded values.
-/

namespace AgentTaskPlatform.SelfDelimiting

variable {α β γ : Type}

/-- On the valid values, an encoding followed by anything determines both. -/
def Delimited (valid : α → Prop) (encoding : α → List γ) : Prop :=
  ∀ ⦃left right⦄, valid left → valid right → ∀ ⦃rest other⦄,
    encoding left ++ rest = encoding right ++ other → left = right ∧ rest = other

theorem fixedLength {valid : α → Prop} {encoding : α → List γ} {width : Nat}
    (length : ∀ value, (encoding value).length = width)
    (injective : ∀ ⦃left right⦄, valid left → valid right →
      encoding left = encoding right → left = right) : Delimited valid encoding := by
  intro left right first second rest other same
  obtain ⟨head, tail⟩ := List.append_inj same ((length left).trans (length right).symm)
  exact ⟨injective first second head, tail⟩

theorem prefixed {bounded : Nat → Prop} {size : Nat → List γ} (sizes : Delimited bounded size) :
    Delimited (fun text : List γ => bounded text.length) fun text => size text.length ++ text := by
  intro left right first second rest other same
  rw [List.append_assoc, List.append_assoc] at same
  obtain ⟨length, later⟩ := sizes first second same
  exact List.append_inj later length

/-- A value that determines its parts may be encoded by their encodings, one after the
other. -/
theorem pair {valid : α → Prop} {also : β → Prop} {first : α → List γ} {second : β → List γ}
    (one : Delimited valid first) (two : Delimited also second) :
    Delimited (fun value : α × β => valid value.1 ∧ also value.2)
      fun value => first value.1 ++ second value.2 := by
  rintro ⟨left, more⟩ ⟨right, less⟩ ⟨validLeft, alsoMore⟩ ⟨validRight, alsoLess⟩ rest other same
  simp only [List.append_assoc] at same
  obtain ⟨rfl, later⟩ := one validLeft validRight same
  obtain ⟨rfl, last⟩ := two alsoMore alsoLess later
  exact ⟨rfl, last⟩

theorem through {valid : α → Prop} {also : β → Prop} {encoding : α → List γ}
    (delimited : Delimited valid encoding) {part : β → α}
    (injective : ∀ ⦃left right⦄, part left = part right → left = right)
    (holds : ∀ ⦃value⦄, also value → valid (part value)) :
    Delimited also fun value => encoding (part value) := by
  intro left right first second rest other same
  obtain ⟨parts, tail⟩ := delimited (holds first) (holds second) same
  exact ⟨injective parts, tail⟩

theorem sequences {valid : α → Prop} {encoding : α → List γ}
    (delimited : Delimited valid encoding) (nonempty : ∀ value, encoding value ≠ [])
    {left right : List α} (first : ∀ value ∈ left, valid value)
    (second : ∀ value ∈ right, valid value)
    (same : left.flatMap encoding = right.flatMap encoding) : left = right := by
  induction left generalizing right with
  | nil =>
      cases right with
      | nil => rfl
      | cons value rest =>
          simp only [List.flatMap_nil, List.flatMap_cons] at same
          exact absurd (List.append_eq_nil_iff.mp same.symm).1 (nonempty value)
  | cons value rest ih =>
      cases right with
      | nil =>
          simp only [List.flatMap_nil, List.flatMap_cons] at same
          exact absurd (List.append_eq_nil_iff.mp same).1 (nonempty value)
      | cons other more =>
          simp only [List.flatMap_cons] at same
          obtain ⟨rfl, later⟩ := delimited (first value List.mem_cons_self)
            (second other List.mem_cons_self) same
          have tails := ih (fun item member => first item (List.mem_cons_of_mem _ member))
            (fun item member => second item (List.mem_cons_of_mem _ member)) later
          rw [tails]

end AgentTaskPlatform.SelfDelimiting
