import Mathlib.Algebra.BigOperators.Group.List.Basic
import Mathlib.Algebra.GroupWithZero.Nat

/-!
A pool of counting semaphores and the slots that clients hold of them. A client takes one
slot after another and gives all of them back at once; the value of a semaphore and the
slots that are out always add up to the value it was made with.
-/

namespace AgentTaskPlatform.Semaphores

structure Semaphore where
  initial : Nat
  value : Nat
  deriving DecidableEq, Repr

namespace Semaphore

def fresh (value : Nat) : Semaphore := ⟨value, value⟩

def acquire : Semaphore → Option Semaphore
  | ⟨_, 0⟩ => none
  | ⟨initial, value + 1⟩ => some ⟨initial, value⟩

def release (semaphore : Semaphore) : Semaphore :=
  { semaphore with value := semaphore.value + 1 }

theorem acquire_value {semaphore after : Semaphore} (acquired : semaphore.acquire = some after) :
    semaphore.value = after.value + 1 := by
  obtain ⟨initial, value⟩ := semaphore
  cases value with
  | zero => cases acquired
  | succ value =>
      cases acquired
      rfl

end Semaphore

abbrev Pool := List Semaphore

abbrev Slots (Lock : Type) := List (Lock × Nat)

def acquire (pool : Pool) (ref : Nat) : Option Pool :=
  match pool[ref]? with
  | none => none
  | some semaphore => semaphore.acquire.map (pool.set ref)

def release (pool : Pool) (ref : Nat) : Pool :=
  pool.modify ref Semaphore.release

variable {Lock : Type} {pool after : Pool} {ref name : Nat}

def releaseAll (pool : Pool) : Slots Lock → Pool
  | [] => pool
  | slot :: rest => releaseAll (release pool slot.2) rest

def taken (slots : Slots Lock) (ref : Nat) : Nat :=
  slots.countP fun slot => slot.2 = ref

def out (clients : List (Slots Lock)) (ref : Nat) : Nat :=
  (clients.map fun slots => taken slots ref).sum

def initial (pool : Pool) (ref : Nat) : Option Nat :=
  (pool[ref]?).map Semaphore.initial

theorem acquire_cases (acquired : acquire pool ref = some after) :
    ∃ made value, pool[ref]? = some ⟨made, value + 1⟩ ∧ after = pool.set ref ⟨made, value⟩ := by
  unfold acquire at acquired
  cases found : pool[ref]? with
  | none => simp [found] at acquired
  | some semaphore =>
      obtain ⟨made, value⟩ := semaphore
      cases value with
      | zero => simp [found, Semaphore.acquire] at acquired
      | succ value =>
          have same : pool.set ref ⟨made, value⟩ = after := by
            simpa [found, Semaphore.acquire] using acquired
          exact ⟨made, value, rfl, same.symm⟩

theorem acquire_length (acquired : acquire pool ref = some after) :
    after.length = pool.length := by
  obtain ⟨made, value, found, rfl⟩ := acquire_cases acquired
  simp

theorem acquire_initial (acquired : acquire pool ref = some after) :
    initial after name = initial pool name := by
  obtain ⟨made, value, found, rfl⟩ := acquire_cases acquired
  unfold initial
  by_cases same : ref = name
  · subst same
    obtain ⟨inside, _⟩ := List.getElem?_eq_some_iff.mp found
    rw [List.getElem?_set_self inside, found]
    rfl
  · rw [List.getElem?_set_ne same]

theorem release_length : (release pool ref).length = pool.length := by
  simp [release]

theorem release_initial : initial (release pool ref) name = initial pool name := by
  unfold initial release
  rw [List.getElem?_modify]
  cases pool[name]? with
  | none => rfl
  | some semaphore => by_cases same : ref = name <;> simp [same, Semaphore.release]

theorem releaseAll_length (slots : Slots Lock) :
    (releaseAll pool slots).length = pool.length := by
  induction slots generalizing pool with
  | nil => rfl
  | cons slot rest ih => rw [releaseAll, ih, release_length]

theorem releaseAll_initial (slots : Slots Lock) :
    initial (releaseAll pool slots) name = initial pool name := by
  induction slots generalizing pool with
  | nil => rfl
  | cons slot rest ih => rw [releaseAll, ih, release_initial]

theorem initial_append {semaphore : Semaphore} (inside : name < pool.length) :
    initial (pool ++ [semaphore]) name = initial pool name := by
  unfold initial
  rw [List.getElem?_append_left inside]

theorem releaseAll_value (slots : Slots Lock) :
    (releaseAll pool slots)[ref]? = (pool[ref]?).map fun semaphore =>
      { semaphore with value := semaphore.value + taken slots ref } := by
  induction slots generalizing pool with
  | nil => simp [releaseAll, taken]
  | cons slot rest ih =>
      rw [releaseAll, ih, release, List.getElem?_modify]
      cases pool[ref]? with
      | none => rfl
      | some semaphore =>
          by_cases same : slot.2 = ref
          · simp [same, taken, Semaphore.release]
            omega
          · simp [same, taken]

/-- Clients that hold a slot of a semaphore hold at least as many slots. -/
theorem count_out {Client : Type} {slots : Client → Slots Lock} {clients : List Client}
    {member : Client → Bool}
    (held : ∀ client ∈ clients, member client = true → 0 < taken (slots client) ref) :
    clients.countP member ≤ out (clients.map slots) ref := by
  induction clients with
  | nil => simp
  | cons client rest ih =>
      have later := ih fun other inside => held other (List.mem_cons_of_mem _ inside)
      have own := held client List.mem_cons_self
      simp only [out, List.map_cons, List.sum_cons] at later ⊢
      by_cases counted : member client = true
      · rw [List.countP_cons_of_pos counted]
        have := own counted
        omega
      · rw [List.countP_cons_of_neg counted]
        omega

theorem taken_pos {slots : Slots Lock} {lock : Lock} (member : (lock, ref) ∈ slots) :
    0 < taken slots ref :=
  List.countP_pos_iff.mpr ⟨_, member, by simp⟩

/-- A sum over a list before and after one element is replaced. -/
theorem sum_map_set {α Amount : Type} [AddCommMonoid Amount] {items : List α} {index : Nat}
    {old : α} (present : items[index]? = some old) (new : α) (weight : α → Amount) :
    ((items.set index new).map weight).sum + weight old = (items.map weight).sum + weight new := by
  induction items generalizing index with
  | nil => simp at present
  | cons item rest ih =>
      cases index with
      | zero =>
          have same : item = old := by simpa using present
          simp only [List.set_cons_zero, List.map_cons, List.sum_cons, same]
          rw [add_right_comm, add_comm (weight new), add_right_comm]
      | succ index =>
          have later := ih (by simpa using present)
          simp only [List.set_cons_succ, List.map_cons, List.sum_cons]
          rw [add_assoc, later, add_assoc]

theorem out_set {clients : List (Slots Lock)} {index : Nat} {old : Slots Lock}
    (present : clients[index]? = some old) (slots : Slots Lock) (ref : Nat) :
    out (clients.set index slots) ref + taken old ref = out clients ref + taken slots ref :=
  sum_map_set present slots fun slots => taken slots ref

structure Conserved (pool : Pool) (clients : List (Slots Lock)) : Prop where
  balance : ∀ ref semaphore, pool[ref]? = some semaphore →
    semaphore.value + out clients ref = semaphore.initial
  known : ∀ slots ∈ clients, ∀ slot ∈ slots, slot.2 < pool.length

namespace Conserved

variable {clients : List (Slots Lock)} {index : Nat} {old : Slots Lock}

theorem client (conserved : Conserved pool clients) : Conserved pool (clients ++ [[]]) where
  balance := by
    intro ref semaphore found
    simpa [out, taken] using conserved.balance ref semaphore found
  known := by
    intro slots member slot inside
    rcases List.mem_append.mp member with earlier | last
    · exact conserved.known slots earlier slot inside
    · rw [List.mem_singleton.mp last] at inside
      cases inside

/-- Nobody holds a slot of a semaphore that is not there yet. -/
theorem out_fresh (conserved : Conserved pool clients) (outside : pool.length ≤ ref) :
    out clients ref = 0 := by
  apply List.sum_eq_zero
  intro count counted
  obtain ⟨slots, member, rfl⟩ := List.mem_map.mp counted
  apply List.countP_eq_zero.mpr
  intro slot inside same
  have below := conserved.known slots member slot inside
  have equal : slot.2 = ref := by simpa using same
  omega

theorem made (conserved : Conserved pool clients) (value : Nat) :
    Conserved (pool ++ [Semaphore.fresh value]) clients where
  balance := by
    intro ref semaphore found
    by_cases inside : ref < pool.length
    · rw [List.getElem?_append_left inside] at found
      exact conserved.balance ref semaphore found
    · rw [List.getElem?_append_right (by omega), List.getElem?_singleton] at found
      split at found
      · cases found
        simp [Semaphore.fresh, conserved.out_fresh (by omega : pool.length ≤ ref)]
      · cases found
  known := by
    intro slots member slot inside
    have below := conserved.known slots member slot inside
    simp
    omega

theorem acquired (conserved : Conserved pool clients) (present : clients[index]? = some old)
    (acquired : acquire pool ref = some after) (lock : Lock) :
    Conserved after (clients.set index (old ++ [(lock, ref)])) where
  balance := by
    obtain ⟨made, value, found, rfl⟩ := acquire_cases acquired
    intro name semaphore there
    have moved := out_set present (old ++ [(lock, ref)]) name
    obtain ⟨inside, _⟩ := List.getElem?_eq_some_iff.mp found
    by_cases same : ref = name
    · subst same
      have before := conserved.balance _ _ found
      rw [List.getElem?_set_self inside] at there
      cases there
      simp [taken] at moved before ⊢
      omega
    · rw [List.getElem?_set_ne same] at there
      have before := conserved.balance _ _ there
      simp [taken, same] at moved
      omega
  known := by
    rw [acquire_length acquired]
    obtain ⟨made, value, found, rfl⟩ := acquire_cases acquired
    obtain ⟨inside, _⟩ := List.getElem?_eq_some_iff.mp found
    intro slots member slot there
    rcases List.mem_or_eq_of_mem_set member with earlier | own
    · exact conserved.known slots earlier slot there
    · rw [own] at there
      rcases List.mem_append.mp there with before | last
      · exact conserved.known old (List.mem_of_getElem? present) slot before
      · rw [List.mem_singleton.mp last]
        exact inside

theorem released (conserved : Conserved pool clients) (present : clients[index]? = some old) :
    Conserved (releaseAll pool old) (clients.set index []) where
  balance := by
    intro ref semaphore found
    rw [releaseAll_value] at found
    obtain ⟨before, there, rfl⟩ := Option.map_eq_some_iff.mp found
    have balanced := conserved.balance ref before there
    have moved := out_set present [] ref
    simp only [taken, List.countP_nil] at moved ⊢
    omega
  known := by
    intro slots member slot inside
    rw [releaseAll_length]
    rcases List.mem_or_eq_of_mem_set member with earlier | own
    · exact conserved.known slots earlier slot inside
    · rw [own] at inside
      cases inside

theorem bounded {Client : Type} {slots : Client → Slots Lock} {clients : List Client}
    {member : Client → Bool} {made : Nat} (conserved : Conserved pool (clients.map slots))
    (held : ∀ client ∈ clients, member client = true → 0 < taken (slots client) ref)
    (known : initial pool ref = some made) : clients.countP member ≤ made := by
  obtain ⟨semaphore, found, rfl⟩ := Option.map_eq_some_iff.mp known
  have balanced := conserved.balance ref semaphore found
  have counted := count_out held
  omega

theorem idle (conserved : Conserved pool clients) (empty : ∀ slots ∈ clients, slots = [])
    {semaphore : Semaphore} (member : semaphore ∈ pool) :
    semaphore.value = semaphore.initial := by
  obtain ⟨ref, found⟩ := List.mem_iff_getElem?.mp member
  have nothing : out clients ref = 0 := by
    apply List.sum_eq_zero
    intro count counted
    obtain ⟨slots, inside, rfl⟩ := List.mem_map.mp counted
    rw [empty slots inside]
    rfl
  have balanced := conserved.balance ref semaphore found
  omega

end Conserved

end AgentTaskPlatform.Semaphores
