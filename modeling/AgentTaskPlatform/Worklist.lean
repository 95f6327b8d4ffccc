import Mathlib.Logic.Relation

/-!
A worklist that walks down a graph. What is below the root is settled, or below something
that is still on the list; an edge from outside changes nothing.
-/

namespace AgentTaskPlatform.Worklist

open Relation

variable {Node : Type} {edge later : Node → Node → Prop} {settled : Node → Prop}
variable {todo rest next : List Node} {root node : Node}

def Awaits (edge : Node → Node → Prop) (todo : List Node) (node : Node) : Prop :=
  ∃ source ∈ todo, ReflTransGen edge source node

def Covers (edge : Node → Node → Prop) (settled : Node → Prop) (todo : List Node)
    (root : Node) : Prop :=
  ∀ node, ReflTransGen edge root node → settled node ∨ Awaits edge todo node

theorem covers_root (member : root ∈ todo) : Covers edge settled todo root :=
  fun _ below => Or.inr ⟨root, member, below⟩

theorem Awaits.mono (awaits : Awaits edge todo node) (grows : ∀ a b, edge a b → later a b)
    (more : ∀ source ∈ todo, source ∈ next) : Awaits later next node := by
  obtain ⟨source, member, below⟩ := awaits
  exact ⟨source, more source member, ReflTransGen.mono grows _ _ below⟩

theorem Covers.expand (covers : Covers edge settled (node :: rest) root) (own : settled node)
    (children : ∀ child, edge node child → child ∈ next) :
    Covers edge settled (next ++ rest) root := by
  intro target below
  rcases covers target below with done | ⟨source, member, path⟩
  · exact Or.inl done
  · rcases List.mem_cons.mp member with rfl | waiting
    · cases ReflTransGen.cases_head path with
      | inl same =>
          rw [← same]
          exact Or.inl own
      | inr first =>
          obtain ⟨child, step, onward⟩ := first
          exact Or.inr ⟨child, List.mem_append_left _ (children child step), onward⟩
    · exact Or.inr ⟨source, List.mem_append_right _ waiting, path⟩

/-- A node is taken off the list with nothing below it left to settle. -/
theorem Covers.skip (covers : Covers edge settled (node :: rest) root)
    (below : ∀ target, ReflTransGen edge node target → settled target ∨ Awaits edge rest target) :
    Covers edge settled rest root := by
  intro target reached
  rcases covers target reached with done | ⟨source, member, path⟩
  · exact Or.inl done
  · rcases List.mem_cons.mp member with rfl | waiting
    · exact below target path
    · exact Or.inr ⟨source, waiting, path⟩

theorem Covers.done (covers : Covers edge settled [] root) (below : ReflTransGen edge root node) :
    settled node := by
  rcases covers node below with done | ⟨source, member, _⟩
  · exact done
  · cases member

theorem below_kept (outside : ∀ a b, later a b → ReflTransGen edge root a → edge a b)
    (path : ReflTransGen later root node) : ReflTransGen edge root node := by
  induction path with
  | refl => exact .refl
  | tail _ step ih => exact ih.tail (outside _ _ step ih)

theorem Covers.kept {after : Node → Prop} (covers : Covers edge settled todo root)
    (grows : ∀ a b, edge a b → later a b)
    (outside : ∀ a b, later a b → ReflTransGen edge root a → edge a b)
    (stays : ∀ node, ReflTransGen edge root node → settled node → after node) :
    Covers later after todo root := by
  intro target path
  have before := below_kept outside path
  rcases covers target before with done | awaits
  · exact Or.inl (stays target before done)
  · exact Or.inr (awaits.mono grows fun _ member => member)

end AgentTaskPlatform.Worklist
