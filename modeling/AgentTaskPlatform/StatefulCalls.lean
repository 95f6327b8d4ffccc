import AgentTaskPlatform.Domain

/-!
Methods of an object that may raise: what they have changed stays. The rules say how a
sequence of calls runs, when it raises and what it leaves.
-/

namespace AgentTaskPlatform.StatefulCalls

variable {ε State α β : Type}

abbrev Method (ε State α : Type) := ExceptT ε (StateM State) α

theorem bind_run (first : Method ε State α) (next : α → Method ε State β) (state : State) :
    (first >>= next) state = match first state with
      | (.ok value, after) => next value after
      | (.error error, after) => (.error error, after) := by
  cases called : first state with
  | mk outcome after =>
      cases outcome with
      | ok value =>
          simp only [Bind.bind, ExceptT.bind, ExceptT.mk, StateT.bind, called, ExceptT.bindCont]
      | error error =>
          simp only [Bind.bind, ExceptT.bind, ExceptT.mk, StateT.bind, called, ExceptT.bindCont]
          rfl

theorem bind_ok {first : Method ε State α} {state after : State} {value : α}
    (called : first state = (.ok value, after)) (next : α → Method ε State β) :
    (first >>= next) state = next value after := by
  rw [bind_run, called]

theorem bind_error {first : Method ε State α} {state after : State} {error : ε}
    (called : first state = (.error error, after)) (next : α → Method ε State β) :
    (first >>= next) state = (.error error, after) := by
  rw [bind_run, called]

@[simp] theorem pure_run (value : α) (state : State) :
    (pure value : Method ε State α) state = (.ok value, state) := rfl

@[simp] theorem get_run (state : State) :
    (get : Method ε State State) state = (.ok state, state) := rfl

@[simp] theorem modify_run (change : State → State) (state : State) :
    (modify change : Method ε State PUnit) state = (.ok ⟨⟩, change state) := rfl

@[simp] theorem throw_run (error : ε) (state : State) :
    (throw error : Method ε State α) state = (.error error, state) := rfl

/-- A computation that does not look at the state. -/
@[simp] theorem lift_run (outcome : Except ε α) (state : State) :
    (ExceptT.mk (pure outcome) : Method ε State α) state = (outcome, state) := rfl

theorem tryCatch_run (method : Method ε State α) (handler : ε → Method ε State α) (state : State) :
    tryCatch method handler state = match method state with
      | (.ok value, after) => (.ok value, after)
      | (.error error, after) => handler error after := by
  cases called : method state with
  | mk outcome after =>
      cases outcome with
      | ok value =>
          simp only [tryCatch, tryCatchThe, MonadExceptOf.tryCatch, ExceptT.tryCatch, ExceptT.mk,
            Bind.bind, StateT.bind, called]
          rfl
      | error error =>
          simp only [tryCatch, tryCatchThe, MonadExceptOf.tryCatch, ExceptT.tryCatch, ExceptT.mk,
            Bind.bind, StateT.bind, called]

theorem map_run (change : α → β) (method : Method ε State α) (state : State) :
    (change <$> method) state = match method state with
      | (.ok value, after) => (.ok (change value), after)
      | (.error error, after) => (.error error, after) := by
  rw [← bind_pure_comp, bind_run]
  rfl

def point (strike : Option ε) : Method ε State Unit :=
  match strike with
  | none => pure ()
  | some error => throw error

@[simp] theorem point_none (state : State) :
    (point none : Method ε State Unit) state = (.ok (), state) := rfl

@[simp] theorem point_some (error : ε) (state : State) :
    point (some error) state = (.error error, state) := rfl

def Returns (method : Method ε State α) (state : State) : Prop :=
  ∃ value after, method state = (.ok value, after)

theorem Returns.bind {first : Method ε State α} {next : α → Method ε State β} {state after : State}
    {value : α} (called : first state = (.ok value, after)) (later : Returns (next value) after) :
    Returns (first >>= next) state := by
  obtain ⟨result, final, same⟩ := later
  exact ⟨result, final, by rw [bind_ok called, same]⟩

end AgentTaskPlatform.StatefulCalls
