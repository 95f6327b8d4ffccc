/-!
Computations that fail with an error: when a composed one succeeds.
-/

namespace AgentTaskPlatform.Outcomes

variable {ε ε' α β : Type}

@[simp] theorem bind_ok {first : Except ε α} {next : α → Except ε β} {result : β} :
    (first >>= next) = .ok result ↔ ∃ value, first = .ok value ∧ next value = .ok result := by
  cases first <;> simp [bind, Except.bind]

@[simp] theorem pure_ok {value result : α} :
    (pure value : Except ε α) = .ok result ↔ value = result := by
  simp [pure, Except.pure]

@[simp] theorem throw_ok {error : ε} {result : α} :
    (throw error : Except ε α) = .ok result ↔ False := by
  simp [throw, throwThe, MonadExceptOf.throw]

@[simp] theorem mapError_ok {first : Except ε α} {relabel : ε → ε'} {value : α} :
    first.mapError relabel = .ok value ↔ first = .ok value := by
  cases first with
  | ok own =>
      constructor
      · intro relabelled
        cases relabelled
        rfl
      · intro same
        cases same
        rfl
  | error error =>
      constructor
      · intro relabelled
        cases relabelled
      · intro impossible
        cases impossible

theorem mapM_results {compute : α → Except ε β} {items : List α} {results : List β}
    (computed : items.mapM compute = .ok results) :
    ∀ result ∈ results, ∃ item ∈ items, compute item = .ok result := by
  induction items generalizing results with
  | nil =>
      cases computed
      exact fun _ none => by cases none
  | cons first rest ih =>
      simp only [List.mapM_cons, bind_ok, pure_ok] at computed
      obtain ⟨value, own, values, others, rfl⟩ := computed
      intro result member
      cases member with
      | head => exact ⟨first, List.mem_cons_self, own⟩
      | tail _ later =>
          obtain ⟨item, found, same⟩ := ih others result later
          exact ⟨item, List.mem_cons_of_mem first found, same⟩

end AgentTaskPlatform.Outcomes
