import Mathlib.Data.List.Basic

/-!
Runs of a partial step function. An event of a run is an action with the state it met, so
a condition on the steps of a run is a condition on its events.
-/

namespace AgentTaskPlatform.Transitions

variable {State Action : Type} {step : State → Action → Option State}

inductive Run (step : State → Action → Option State) :
    State → List (State × Action) → State → Prop
  | done (state : State) : Run step state [] state
  | next {state middle final : State} {action : Action} {events : List (State × Action)}
      (moved : step state action = some middle) (rest : Run step middle events final) :
      Run step state ((state, action) :: events) final

theorem Run.split {start final : State} {left right : List (State × Action)}
    (run : Run step start (left ++ right) final) :
    ∃ middle, Run step start left middle ∧ Run step middle right final := by
  induction left generalizing start with
  | nil => exact ⟨start, .done start, run⟩
  | cons event left ih =>
      cases run with
      | next moved rest =>
          obtain ⟨middle, first, last⟩ := ih rest
          exact ⟨middle, .next moved first, last⟩

theorem Run.append {start middle final : State} {left right : List (State × Action)}
    (first : Run step start left middle) (second : Run step middle right final) :
    Run step start (left ++ right) final := by
  induction first with
  | done state => exact second
  | next moved rest ih => exact .next moved (ih second)

structure Inductive (step : State → Action → Option State) (allowed : State → Action → Prop)
    (holds : State → Prop) : Prop where
  kept : ∀ {state action after}, holds state → allowed state action →
    step state action = some after → holds after

theorem Inductive.run {allowed : State → Action → Prop} {holds : State → Prop}
    (preserved : Inductive step allowed holds) {start final : State}
    {events : List (State × Action)} (run : Run step start events final) (initial : holds start)
    (orderly : ∀ event ∈ events, allowed event.1 event.2) : holds final := by
  induction run with
  | done state => exact initial
  | next moved rest ih =>
      have first := preserved.kept initial (orderly _ List.mem_cons_self) moved
      exact ih first fun event member => orderly event (List.mem_cons_of_mem _ member)

theorem Inductive.met {allowed : State → Action → Prop} {holds : State → Prop}
    (preserved : Inductive step allowed holds) {start final : State}
    {events : List (State × Action)} (run : Run step start events final) (initial : holds start)
    (orderly : ∀ event ∈ events, allowed event.1 event.2) :
    ∀ event ∈ events, holds event.1 := by
  induction run with
  | done state =>
      intro event member
      cases member
  | next moved rest ih =>
      intro event member
      rcases List.mem_cons.mp member with rfl | later
      · exact initial
      · have first := preserved.kept initial (orderly _ List.mem_cons_self) moved
        exact ih first (fun event member => orderly event (List.mem_cons_of_mem _ member))
          event later

def replay (step : State → Action → Option State) (start : State) :
    List Action → Option (List (State × Action) × State)
  | [] => some ([], start)
  | action :: rest =>
      match step start action with
      | none => none
      | some middle =>
          (replay step middle rest).map fun outcome => ((start, action) :: outcome.1, outcome.2)

theorem replay_run {start final : State} {actions : List Action} {events : List (State × Action)}
    (replayed : replay step start actions = some (events, final)) :
    Run step start events final := by
  induction actions generalizing start events with
  | nil =>
      cases replayed
      exact .done _
  | cons action rest ih =>
      simp only [replay] at replayed
      cases moved : step start action with
      | none => simp [moved] at replayed
      | some middle =>
          simp only [moved, Option.map_eq_some_iff] at replayed
          obtain ⟨outcome, found, same⟩ := replayed
          cases same
          exact .next moved (ih found)

theorem replay_checked {start : State} {actions : List Action}
    {check : List (State × Action) × State → Bool}
    (passed : (replay step start actions).any check = true) :
    ∃ events final, Run step start events final ∧ check (events, final) = true := by
  cases replayed : replay step start actions with
  | none => simp [replayed] at passed
  | some outcome =>
      rw [replayed] at passed
      exact ⟨outcome.1, outcome.2, replay_run replayed, passed⟩

end AgentTaskPlatform.Transitions
