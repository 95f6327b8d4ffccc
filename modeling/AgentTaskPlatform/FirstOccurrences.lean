import Mathlib.Data.List.Nodup
import Mathlib.Tactic.Common

/-!
The items of a list whose key has not come before, in their order.
-/

namespace AgentTaskPlatform.FirstOccurrences

variable {Item Key : Type} [DecidableEq Key] (key : Item → Key)

def firstsFrom (seen : List Key) : List Item → List Item
  | [] => []
  | item :: rest =>
      if key item ∈ seen then firstsFrom seen rest else item :: firstsFrom (key item :: seen) rest

def firsts (items : List Item) : List Item := firstsFrom key [] items

variable {key} {seen : List Key} {items : List Item}

theorem mem_firstsFrom {item : Item} (member : item ∈ firstsFrom key seen items) :
    item ∈ items := by
  induction items generalizing seen with
  | nil => exact member
  | cons first rest ih =>
      rw [firstsFrom] at member
      split at member
      · exact List.mem_cons_of_mem first (ih member)
      · rcases List.mem_cons.mp member with rfl | later
        · exact List.mem_cons_self
        · exact List.mem_cons_of_mem first (ih later)

theorem firstsFrom_keys : ((firstsFrom key seen items).map key).Nodup ∧
    ∀ item ∈ firstsFrom key seen items, key item ∉ seen := by
  induction items generalizing seen with
  | nil => exact ⟨List.nodup_nil, fun _ none => by cases none⟩
  | cons first rest ih =>
      rw [firstsFrom]
      split
      · exact ih
      · next fresh =>
          obtain ⟨distinct, new⟩ := @ih (key first :: seen)
          refine ⟨List.nodup_cons.mpr ⟨?_, distinct⟩, ?_⟩
          · intro again
            obtain ⟨item, member, same⟩ := List.mem_map.mp again
            exact new item member (same ▸ List.mem_cons_self)
          · intro item member
            rcases List.mem_cons.mp member with rfl | later
            · exact fresh
            · exact fun old => new item later (List.mem_cons_of_mem _ old)

theorem firstsFrom_cover {item : Item} (member : item ∈ items) (fresh : key item ∉ seen) :
    ∃ first ∈ firstsFrom key seen items, key first = key item := by
  induction items generalizing seen with
  | nil => cases member
  | cons head rest ih =>
      rw [firstsFrom]
      split
      · next known =>
          rcases List.mem_cons.mp member with rfl | later
          · exact absurd known fresh
          · exact ih later fresh
      · by_cases same : key item = key head
        · exact ⟨head, List.mem_cons_self, same.symm⟩
        · rcases List.mem_cons.mp member with rfl | later
          · exact absurd rfl same
          · obtain ⟨first, found, own⟩ := @ih (key head :: seen) later
              (List.not_mem_cons_of_ne_of_not_mem same fresh)
            exact ⟨first, List.mem_cons_of_mem head found, own⟩

end AgentTaskPlatform.FirstOccurrences
