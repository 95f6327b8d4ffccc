import AgentTaskPlatform.Interleaving
import AgentTaskPlatform.Protocol
import Mathlib.Data.List.Basic

/-!
Runs read through the protocols of their threads. The phase of every thread is
a function of the events so far, so a fact about a run can name the phase an
operation was issued in, and an invariant may speak of the phases of threads
that are still waiting.
-/

namespace AgentTaskPlatform.Interleaving

variable {I : Interface} {State Tag Entry Loop Result Phase Other : Type} {α : Type}

/-- A protocol inside a larger one: its phases are a part of the other phases. -/
theorem Protocol.Follows.embed {P : Protocol I Phase} {Q : Protocol I Other}
    (embed : Phase → Other)
    (permits : ∀ phase op, P.permits phase op → Q.permits (embed phase) op)
    (after : ∀ phase op answer, Q.after (embed phase) op answer = embed (P.after phase op answer))
    {phase : Phase} {program : Program I α} {post : α → Phase → Prop}
    {weaker : α → Other → Prop}
    (implies : ∀ value phase, post value phase → weaker value (embed phase))
    (follows : P.Follows phase program post) : Q.Follows (embed phase) program weaker := by
  induction program generalizing phase with
  | ret value => exact implies value phase follows
  | act op next ih =>
      refine ⟨permits phase op follows.1, fun answer => ?_⟩
      rw [after]
      exact ih answer (follows.2 answer)

structure Discipline (sys : System I State Tag Entry Loop Result) (Phase : Type) where
  protocol : Protocol I Phase
  /-- The phase of the thread that an entry starts in a state. -/
  start : Entry → State → Option Phase
  concludes : Result → Phase → Prop
  belongs : Tag → Phase → Prop
  belongs_after : ∀ tag phase op answer, belongs tag phase →
    belongs tag (protocol.after phase op answer)
  launched : ∀ entry config state thread,
    sys.launch entry config = some (state, some thread) →
    ∃ phase, start entry config.state = some phase ∧ belongs thread.tag phase ∧
      protocol.Follows phase thread.program concludes

namespace Discipline

variable {sys : System I State Tag Entry Loop Result} (D : Discipline sys Phase)

def observe (phases : List Phase) : Event I State Tag Entry → List Phase
  | .acted thread _ op answer _ _ =>
      phases.modify thread fun phase => D.protocol.after phase op answer
  | .launched entry (some _) before _ => phases ++ (D.start entry before).toList
  | .launched _ none _ _ => phases

def phases (events : List (Event I State Tag Entry)) : List Phase :=
  events.foldl D.observe []

theorem observe_acted (phases : List Phase) (thread index : Nat) (tag : Tag) (op : I.Op)
    (answer : I.Answer op) (before after : State) :
    (D.observe phases (.acted thread tag op answer before after))[index]? =
      if thread = index then (phases[index]?).map fun phase => D.protocol.after phase op answer
      else phases[index]? := by
  simp only [observe, List.getElem?_modify]
  by_cases same : thread = index <;> simp [same]

theorem phases_snoc (events : List (Event I State Tag Entry)) (event : Event I State Tag Entry) :
    D.phases (events ++ [event]) = D.observe (D.phases events) event := by
  simp [phases]

structure Tracked (config : Config I State Tag Result) (phases : List Phase) : Prop where
  length : phases.length = config.threads.length
  follows : ∀ (index : Nat) thread phase, config.threads[index]? = some thread →
    phases[index]? = some phase →
    D.belongs thread.tag phase ∧ D.protocol.Follows phase thread.program D.concludes

variable {D}

theorem Tracked.phase {config : Config I State Tag Result} {phases : List Phase}
    (tracked : D.Tracked config phases) {index : Nat} {thread : Thread I Tag Result}
    (found : config.threads[index]? = some thread) :
    ∃ phase, phases[index]? = some phase ∧ D.belongs thread.tag phase ∧
      D.protocol.Follows phase thread.program D.concludes := by
  obtain ⟨inside, _⟩ := List.getElem?_eq_some_iff.mp found
  rw [← tracked.length] at inside
  have named : phases[index]? = some phases[index] := List.getElem?_eq_getElem inside
  obtain ⟨belongs, follows⟩ := tracked.follows index thread _ found named
  exact ⟨_, named, belongs, follows⟩

theorem tracked_empty {config : Config I State Tag Result} (rest : config.threads = []) :
    D.Tracked config [] := by
  refine ⟨by simp [rest], ?_⟩
  intro index thread phase found
  simp [rest] at found

variable [DecidableEq Loop]

theorem step_tracked {config after : Config I State Tag Result} {phases : List Phase}
    {event : Event I State Tag Entry} {move : Move I Entry} (tracked : D.Tracked config phases)
    (taken : sys.step config move = some (event, after)) :
    D.Tracked after (D.observe phases event) := by
  cases move with
  | act thread oracle =>
      obtain ⟨tag, op, next, found, _, rfl, rfl⟩ := System.step_act taken
      refine ⟨?_, ?_⟩
      · simp only [observe, List.length_modify, List.length_set, tracked.length]
      · intro index other phase present named
        rw [observe_acted] at named
        simp only at present
        by_cases same : thread = index
        · subst index
          obtain ⟨inside, _⟩ := List.getElem?_eq_some_iff.mp found
          rw [List.getElem?_set_self inside] at present
          cases present
          obtain ⟨old, known, belongs, follows⟩ := tracked.phase found
          simp only [if_true, known, Option.map_some, Option.some.injEq] at named
          subst named
          exact ⟨D.belongs_after _ _ _ _ belongs, follows.2 _⟩
        · rw [List.getElem?_set_ne same] at present
          rw [if_neg same] at named
          exact tracked.follows index other phase present named
  | launch entry =>
      obtain ⟨state, spawned, launched, rfl, rfl⟩ := System.step_launch taken
      cases spawned with
      | none =>
          refine ⟨?_, ?_⟩
          · simp [observe, System.spawnedThread, tracked.length]
          · intro index thread phase present named
            simp only [Option.toList_none, List.append_nil] at present
            exact tracked.follows index thread phase present named
      | some spawned =>
          obtain ⟨phase, start, belongs, follows⟩ := D.launched entry config state spawned launched
          refine ⟨?_, ?_⟩
          · simp [observe, System.spawnedThread, tracked.length, start]
          · intro index thread other present named
            simp only [observe, System.spawnedThread, start, Option.toList_some] at named
            simp only [Option.toList_some] at present
            by_cases old : index < config.threads.length
            · rw [List.getElem?_append_left old] at present
              rw [List.getElem?_append_left (tracked.length ▸ old)] at named
              exact tracked.follows index thread other present named
            · have late : config.threads.length ≤ index := Nat.le_of_not_lt old
              rw [List.getElem?_append_right late] at present
              rw [List.getElem?_append_right (tracked.length ▸ late), tracked.length] at named
              have first : index - config.threads.length = 0 := by
                obtain ⟨inside, _⟩ := List.getElem?_eq_some_iff.mp present
                simpa using inside
              rw [first] at present named
              cases present
              cases named
              exact ⟨belongs, follows⟩

theorem run_tracked {config final : Config I State Tag Result}
    {events : List (Event I State Tag Entry)} (run : sys.Run config events final)
    {phases : List Phase} (tracked : D.Tracked config phases) :
    D.Tracked final (events.foldl D.observe phases) := by
  induction run generalizing phases with
  | refl => exact tracked
  | next move taken _ ih => exact ih (step_tracked tracked taken)

theorem run_permits {config final : Config I State Tag Result}
    {left right : List (Event I State Tag Entry)} {thread : Nat} {tag : Tag} {op : I.Op}
    {answer : I.Answer op} {before after : State}
    (run : sys.Run config (left ++ .acted thread tag op answer before after :: right) final)
    (rest : config.threads = []) :
    ∃ phase oracle, (D.phases left)[thread]? = some phase ∧ D.belongs tag phase ∧
      D.protocol.permits phase op ∧
      .acted thread tag op answer before after =
        (sys.performed thread tag op oracle before : Event I State Tag Entry) := by
  obtain ⟨start, stop, move, first, taken, _⟩ := run.at_event
  have tracked := run_tracked first (tracked_empty (D := D) rest)
  cases move with
  | act index oracle =>
      obtain ⟨_, _, _, found, _, same, _⟩ := System.step_act taken
      cases same
      obtain ⟨phase, named, belongs, follows⟩ := tracked.phase found
      exact ⟨phase, oracle _, named, belongs, follows.1, rfl⟩
  | launch entry =>
      obtain ⟨_, _, _, same, _⟩ := System.step_launch taken
      cases same

theorem run_launches {config final : Config I State Tag Result}
    {left right : List (Event I State Tag Entry)} {entry : Entry}
    {spawned : Option (Nat × Tag)} {before after : State}
    (run : sys.Run config (left ++ .launched entry spawned before after :: right) final)
    (rest : config.threads = []) :
    ∃ start thread, D.Tracked start (D.phases left) ∧ start.state = before ∧
      sys.launch entry start = some (after, thread) ∧
      spawned = System.spawnedThread start thread := by
  obtain ⟨start, stop, move, first, taken, _⟩ := run.at_event
  have tracked := run_tracked first (tracked_empty (D := D) rest)
  cases move with
  | act index oracle =>
      obtain ⟨_, _, _, _, _, same, _⟩ := System.step_act taken
      cases same
  | launch entry =>
      obtain ⟨state, thread, launched, same, _⟩ := System.step_launch taken
      cases same
      exact ⟨start, thread, tracked, rfl, launched, rfl⟩

theorem run_event {config final : Config I State Tag Result}
    {events : List (Event I State Tag Entry)} (run : sys.Run config events final)
    (rest : config.threads = []) {event : Event I State Tag Entry} (member : event ∈ events) :
    (∃ thread tag op oracle state phase, event = sys.performed thread tag op oracle state ∧
      D.belongs tag phase ∧ D.protocol.permits phase op) ∨
    (∃ entry config state spawned, sys.launch entry config = some (state, spawned) ∧
      event = .launched entry (System.spawnedThread config spawned) config.state state) := by
  obtain ⟨left, right, rfl⟩ := List.append_of_mem member
  cases event with
  | acted thread tag op answer before after =>
      obtain ⟨phase, oracle, _, belongs, permitted, same⟩ := run_permits (D := D) run rest
      exact Or.inl ⟨thread, tag, op, oracle, before, phase, same, belongs, permitted⟩
  | launched entry spawned before after =>
      obtain ⟨start, thread, _, rfl, launched, rfl⟩ := run_launches (D := D) run rest
      exact Or.inr ⟨entry, start, after, thread, launched, rfl⟩

section Phases

omit [DecidableEq Loop]

theorem performed_phase {phases : List Phase} {phase later : Phase} {thread index : Nat}
    {tag : Tag} {op : I.Op} {oracle : I.Answer op} {state : State}
    (present : phases[thread]? = some phase)
    (found : (D.observe phases (sys.performed thread tag op oracle state))[index]? =
      some later) :
    (index = thread ∧ later = D.protocol.after phase op (sys.perform tag op oracle state).1) ∨
      (index ≠ thread ∧ phases[index]? = some later) := by
  unfold System.performed at found
  rw [observe_acted] at found
  by_cases same : thread = index
  · subst index
    rw [if_pos rfl, present] at found
    cases found
    exact Or.inl ⟨rfl, rfl⟩
  · rw [if_neg same] at found
    exact Or.inr ⟨Ne.symm same, found⟩

theorem performed_self {phases : List Phase} {phase : Phase} {thread : Nat} {tag : Tag}
    {op : I.Op} {oracle : I.Answer op} {state : State} (present : phases[thread]? = some phase) :
    (D.observe phases (sys.performed thread tag op oracle state))[thread]? =
      some (D.protocol.after phase op (sys.perform tag op oracle state).1) := by
  unfold System.performed
  rw [observe_acted, if_pos rfl, present]
  rfl

theorem performed_other {phases : List Phase} {thread index : Nat} {tag : Tag} {op : I.Op}
    {oracle : I.Answer op} {state : State} (other : index ≠ thread) :
    (D.observe phases (sys.performed thread tag op oracle state))[index]? = phases[index]? := by
  unfold System.performed
  rw [observe_acted, if_neg (Ne.symm other)]

/-- A thread of the list stays where it is when another starts. -/
theorem launched_kept {phases : List Phase} {index : Nat} {phase : Phase} {entry : Entry}
    {spawned : Option (Nat × Tag)} {before after : State}
    (present : phases[index]? = some phase) :
    (D.observe phases (.launched entry spawned before after))[index]? = some phase := by
  have inside := (List.getElem?_eq_some_iff.mp present).1
  cases spawned with
  | none => exact present
  | some spawned =>
      simp only [observe]
      rw [List.getElem?_append_left inside]
      exact present

theorem launched_phase {phases : List Phase} {index : Nat} {phase : Phase} {entry : Entry}
    {spawned : Option (Nat × Tag)} {before after : State}
    (found : (D.observe phases (.launched entry spawned before after))[index]? = some phase) :
    phases[index]? = some phase ∨
      (index = phases.length ∧ spawned.isSome = true ∧ D.start entry before = some phase) := by
  cases spawned with
  | none => exact Or.inl found
  | some spawned =>
      simp only [observe] at found
      by_cases old : index < phases.length
      · rw [List.getElem?_append_left old] at found
        exact Or.inl found
      · rw [List.getElem?_append_right (Nat.le_of_not_lt old)] at found
        cases start : D.start entry before with
        | none => simp [start] at found
        | some first =>
            rw [start] at found
            obtain ⟨inside, _⟩ := List.getElem?_eq_some_iff.mp found
            simp only [Option.toList_some, List.length_singleton] at inside
            have position : index = phases.length := by omega
            subst position
            simp only [Option.toList_some, Nat.sub_self, List.getElem?_cons_zero,
              Option.some.injEq] at found
            exact Or.inr ⟨rfl, rfl, congrArg some found⟩

end Phases

/-- A relation between the past of a run, its configuration and the phases of its
threads that every permitted operation and every launch preserves. `allowed`
restricts the events, each judged in its own past. -/
structure Invariant (D : Discipline sys Phase)
    (allowed : List (Event I State Tag Entry) → Event I State Tag Entry → Prop)
    (holds : List (Event I State Tag Entry) → Config I State Tag Result → List Phase → Prop) :
    Prop where
  acts : ∀ past config phases thread tag op next oracle phase, D.Tracked config phases →
    holds past config phases → config.threads[thread]? = some ⟨tag, .act op next⟩ →
    sys.idleExcept config (sys.loop tag) (some thread) = true →
    phases[thread]? = some phase → D.belongs tag phase → D.protocol.permits phase op →
    allowed past (sys.performed thread tag op oracle config.state) →
    holds (past ++ [sys.performed thread tag op oracle config.state])
      { state := (sys.perform tag op oracle config.state).2
        threads := config.threads.set thread
          ⟨tag, next (sys.perform tag op oracle config.state).1⟩ }
      (D.observe phases (sys.performed thread tag op oracle config.state))
  launches : ∀ past config phases entry state spawned, D.Tracked config phases →
    holds past config phases → sys.launch entry config = some (state, spawned) →
    allowed past
      (.launched entry (System.spawnedThread config spawned) config.state state) →
    holds (past ++ [.launched entry (System.spawnedThread config spawned) config.state state])
      { state := state, threads := config.threads ++ spawned.toList }
      (D.observe phases
        (.launched entry (System.spawnedThread config spawned) config.state state))

section Invariant

variable {allowed : List (Event I State Tag Entry) → Event I State Tag Entry → Prop}
  {holds : List (Event I State Tag Entry) → Config I State Tag Result → List Phase → Prop}

theorem Invariant.from_past (step : D.Invariant allowed holds)
    {config final : Config I State Tag Result} {events : List (Event I State Tag Entry)}
    {phases : List Phase} (past : List (Event I State Tag Entry))
    (run : sys.Run config events final) (tracked : D.Tracked config phases)
    (permitted : ∀ left event right, events = left ++ event :: right →
      allowed (past ++ left) event)
    (start : holds past config phases) :
    holds (past ++ events) final (events.foldl D.observe phases) := by
  induction run generalizing past phases with
  | refl => simpa using start
  | @next config middle final event events move taken _ ih =>
      have now : allowed past event := by
        have first := permitted [] event events rfl
        simpa using first
      have reached : holds (past ++ [event]) middle (D.observe phases event) := by
        cases move with
        | act thread oracle =>
            obtain ⟨tag, op, next, found, idle, rfl, rfl⟩ := System.step_act taken
            obtain ⟨phase, named, belongs, follows⟩ := tracked.phase found
            exact step.acts past config phases thread tag op next (oracle op) phase tracked start
              found idle named belongs follows.1 now
        | launch entry =>
            obtain ⟨state, spawned, launched, rfl, rfl⟩ := System.step_launch taken
            exact step.launches past config phases entry state spawned tracked start launched now
      have later := ih (past ++ [event]) (step_tracked tracked taken)
        (fun left other right split => by
          have shifted := permitted (event :: left) other right (by rw [split]; rfl)
          simpa using shifted) reached
      simpa using later

theorem Invariant.run (step : D.Invariant allowed holds)
    {config final : Config I State Tag Result} {events : List (Event I State Tag Entry)}
    (run : sys.Run config events final) (rest : config.threads = [])
    (permitted : ∀ left event right, events = left ++ event :: right → allowed left event)
    (start : holds [] config []) : holds events final (D.phases events) := by
  have reached := step.from_past [] run (tracked_empty rest)
    (fun left event right split => by simpa using permitted left event right split) start
  simpa [Discipline.phases] using reached

theorem Invariant.before_event (step : D.Invariant allowed holds)
    {config final : Config I State Tag Result} {left right : List (Event I State Tag Entry)}
    {event : Event I State Tag Entry} (run : sys.Run config (left ++ event :: right) final)
    (rest : config.threads = [])
    (permitted : ∀ past event later, left = past ++ event :: later → allowed past event)
    (start : holds [] config []) :
    ∃ before after move, sys.step before move = some (event, after) ∧
      D.Tracked before (D.phases left) ∧ holds left before (D.phases left) := by
  obtain ⟨before, after, move, first, taken, _⟩ := run.at_event
  exact ⟨before, after, move, taken, run_tracked first (tracked_empty (D := D) rest),
    step.run first rest permitted start⟩

end Invariant

structure Inductive (D : Discipline sys Phase)
    (allowed : List (Event I State Tag Entry) → Event I State Tag Entry → Prop)
    (holds : List (Event I State Tag Entry) → State → List Phase → Prop) : Prop where
  acts : ∀ past state phases thread tag op oracle phase, holds past state phases →
    phases[thread]? = some phase → D.belongs tag phase → D.protocol.permits phase op →
    allowed past (sys.performed thread tag op oracle state) →
    holds (past ++ [sys.performed thread tag op oracle state])
      (sys.perform tag op oracle state).2
      (D.observe phases (sys.performed thread tag op oracle state))
  launches : ∀ past config phases entry state spawned, D.Tracked config phases →
    holds past config.state phases → sys.launch entry config = some (state, spawned) →
    allowed past
      (.launched entry (System.spawnedThread config spawned) config.state state) →
    holds (past ++ [.launched entry (System.spawnedThread config spawned) config.state state])
      state (D.observe phases
        (.launched entry (System.spawnedThread config spawned) config.state state))

variable {allowed : List (Event I State Tag Entry) → Event I State Tag Entry → Prop}
  {holds : List (Event I State Tag Entry) → State → List Phase → Prop}

theorem Inductive.invariant (step : D.Inductive allowed holds) :
    D.Invariant allowed fun past config phases => holds past config.state phases where
  acts past config phases thread tag op _ oracle phase _ start _ _ named belongs permits now :=
    step.acts past config.state phases thread tag op oracle phase start named belongs permits now
  launches := step.launches

theorem Inductive.run (step : D.Inductive allowed holds)
    {config final : Config I State Tag Result} {events : List (Event I State Tag Entry)}
    (run : sys.Run config events final) (rest : config.threads = [])
    (permitted : ∀ left event right, events = left ++ event :: right → allowed left event)
    (start : holds [] config.state []) : holds events final.state (D.phases events) :=
  step.invariant.run run rest permitted start

theorem Inductive.before_event (step : D.Inductive allowed holds)
    {config final : Config I State Tag Result} {left right : List (Event I State Tag Entry)}
    {event : Event I State Tag Entry} (run : sys.Run config (left ++ event :: right) final)
    (rest : config.threads = [])
    (permitted : ∀ past event later, left = past ++ event :: later → allowed past event)
    (start : holds [] config.state []) : holds left event.before (D.phases left) := by
  obtain ⟨before, after, move, taken, _, reached⟩ :=
    step.invariant.before_event run rest permitted start
  rw [(System.step_states taken).1]
  exact reached

theorem Inductive.between (step : D.Inductive allowed holds)
    {config final : Config I State Tag Result} {left middle right : List (Event I State Tag Entry)}
    {first last : Event I State Tag Entry}
    (run : sys.Run config (left ++ first :: (middle ++ last :: right)) final)
    (rest : config.threads = [])
    (permitted : ∀ past event later, middle = past ++ event :: later →
      allowed (left ++ first :: past) event)
    (start : holds (left ++ [first]) first.after (D.phases (left ++ [first]))) :
    holds (left ++ first :: middle) last.before (D.phases (left ++ first :: middle)) := by
  have grouped : left ++ first :: (middle ++ last :: right) =
      (left ++ [first]) ++ (middle ++ last :: right) := by simp
  rw [grouped] at run
  obtain ⟨opened, begins, continues⟩ := run.split
  obtain ⟨before, after, move, through, taken, _⟩ := continues.at_event
  rw [begins.ends] at start
  rw [(System.step_states taken).1]
  have tracked := run_tracked begins (tracked_empty (D := D) rest)
  have reached := step.invariant.from_past (left ++ [first]) through tracked
    (fun past event later split => by
      have given := permitted past event later split
      simpa using given) start
  simpa [Discipline.phases] using reached

end Discipline

end AgentTaskPlatform.Interleaving
