import AgentTaskPlatform.Semaphores
import Mathlib.Order.Interval.Finset.Nat

/-!
Clients that take their slots in the order of a rank. Whatever a client waits for, itself
or through others, is above the slots that it holds, so the clients cannot all wait for one
another: above the semaphore of a blocked client there would be another one, with a blocked
holder, and so on for ever.
-/

namespace AgentTaskPlatform.Semaphores

variable {Lock : Type}

theorem acquire_blocked {pool : Pool} {ref : Nat} {semaphore : Semaphore}
    (found : pool[ref]? = some semaphore) (blocked : acquire pool ref = none) :
    semaphore.value = 0 := by
  obtain ⟨made, value⟩ := semaphore
  cases value with
  | zero => rfl
  | succ value => simp [acquire, found, Semaphore.acquire] at blocked

structure Ordered (pool : Pool) (clients : List (Slots Lock)) (rank : Nat → Nat)
    (waits : Nat → Nat → Prop) : Prop where
  known : ∀ index ref, waits index ref → ref < pool.length
  ascending : ∀ index slots ref, clients[index]? = some slots → waits index ref →
    ∀ slot ∈ slots, rank slot.2 < rank ref
  /-- Who holds a slot waits for another one. -/
  holders : ∀ index slots slot, clients[index]? = some slots → slot ∈ slots →
    ∃ ref, waits index ref

namespace Ordered

variable {pool : Pool} {clients : List (Slots Lock)} {rank : Nat → Nat}
  {waits : Nat → Nat → Prop}

theorem holder (conserved : Conserved pool clients)
    (positive : ∀ semaphore ∈ pool, 0 < semaphore.initial) {ref : Nat} (inside : ref < pool.length)
    (blocked : acquire pool ref = none) : ∃ (index : Nat) (slots : Slots Lock) (slot : Lock × Nat),
      clients[index]? = some slots ∧ slot ∈ slots ∧ slot.2 = ref := by
  obtain ⟨semaphore, found⟩ : ∃ semaphore, pool[ref]? = some semaphore :=
    ⟨_, List.getElem?_eq_getElem inside⟩
  have balanced := conserved.balance ref semaphore found
  have made := positive semaphore (List.mem_of_getElem? found)
  have full := acquire_blocked found blocked
  by_contra none
  have nobody : out clients ref = 0 := by
    apply List.sum_eq_zero
    intro count counted
    obtain ⟨slots, member, rfl⟩ := List.mem_map.mp counted
    obtain ⟨index, there⟩ := List.mem_iff_getElem?.mp member
    apply List.countP_eq_zero.mpr
    intro slot held same
    exact none ⟨index, slots, slot, there, held, by simpa using same⟩
  omega

/-- If anybody waits, somebody who waits gets a slot. -/
theorem progress (ordered : Ordered pool clients rank waits) (conserved : Conserved pool clients)
    (positive : ∀ semaphore ∈ pool, 0 < semaphore.initial) {index ref : Nat}
    (waiting : waits index ref) : ∃ index ref after, waits index ref ∧
      acquire pool ref = some after := by
  by_contra stuck
  have blocked : ∀ index ref, waits index ref → acquire pool ref = none := by
    intro index ref waiting
    cases got : acquire pool ref with
    | none => rfl
    | some after => exact absurd ⟨index, ref, after, waiting, got⟩ stuck
  -- Every waiting client leads to one that waits for something of a higher rank.
  have climb : ∀ height, ∃ index ref, waits index ref ∧ height ≤ rank ref := by
    intro height
    induction height with
    | zero => exact ⟨index, ref, waiting, Nat.zero_le _⟩
    | succ height ih =>
        obtain ⟨index, ref, waiting, reached⟩ := ih
        obtain ⟨owner, slots, slot, there, held, rfl⟩ :=
          holder conserved positive (ordered.known index ref waiting) (blocked index ref waiting)
        obtain ⟨next, waits⟩ := ordered.holders owner slots slot there held
        have above := ordered.ascending owner slots next there waits slot held
        exact ⟨owner, next, waits, by omega⟩
  obtain ⟨index, ref, waiting, reached⟩ := climb ((Finset.range pool.length).sup rank + 1)
  have inside : ref ∈ Finset.range pool.length := Finset.mem_range.mpr (ordered.known _ _ waiting)
  have below : rank ref ≤ (Finset.range pool.length).sup rank := Finset.le_sup inside
  omega

end Ordered

end AgentTaskPlatform.Semaphores
