import Mathlib.Algebra.Order.Ring.Rat
import Mathlib.Data.List.Induction
import Mathlib.Logic.Function.Basic
import Mathlib.Tactic.Linarith

/-!
The circuit breakers of the tools, and the calls that look at them once. A call that has
passed the gate waits for the QPS gate, the semaphore or a slot, makes its attempts and
pauses between them, while any number of other calls do the same.
-/

namespace AgentTaskPlatform.CircuitBreaker

section Breaker

structure BreakerConfig where
  failureThreshold : Int := 3
  cooldownSeconds : ℚ := 30

/-- What the gateway reads of a tool. There are no attempts after the last one. -/
structure Tool where
  /-- `circuit_breaker`, none when it is empty or not enabled -/
  circuitBreaker : Option BreakerConfig
  maxAttempts : Int
  sideEffecting : Bool

structure BreakerState where
  failures : Nat := 0
  openUntil : ℚ := 0

def recordFailure (config : Option BreakerConfig) (now : ℚ) (state : BreakerState) :
    BreakerState :=
  match config with
  | none => state
  | some config =>
      if config.failureThreshold ≤ state.failures + 1 then
        ⟨state.failures + 1, now + config.cooldownSeconds⟩
      else { state with failures := state.failures + 1 }

def recordSuccess : BreakerState := {}

end Breaker

section Calls

/-- Where a call is. It has passed the gate when it waits, and has recorded a success when its
end hooks run. -/
inductive Phase where
  | new
  | waiting
  | attempting (attempt : Nat)
  | ending (attempt : Nat)
  | pausing (attempt : Nat)
  | done

inductive Act where
  /-- `_fallback_if_breaker_open` -/
  | gate
  /-- `_invoke` is started. -/
  | start
  | succeed
  | fail
  /-- The call returns, is refused by a guardrail or a slot, or is cancelled. -/
  | leave
  deriving DecidableEq

structure Event where
  now : ℚ
  call : Nat
  act : Act

structure State where
  clock : ℚ := 0
  breakers : String → BreakerState := fun _ => {}
  phases : Nat → Phase := fun _ => .new

variable (tools : String → Tool) (toolOf : Nat → String)

def attempts (tool : Tool) : Int := if tool.sideEffecting then 1 else max 1 tool.maxAttempts

def afterFailure (tool : Tool) (attempt : Nat) : Phase :=
  if attempt < attempts tool then .pausing attempt else .done

def nextPhase (tool : Tool) (isOpen : Bool) : Phase → Act → Option Phase
  | .new, .gate => some (if isOpen then .done else .waiting)
  | .waiting, .start => some (.attempting 1)
  | .pausing attempt, .start => some (.attempting (attempt + 1))
  | .attempting attempt, .succeed => some (.ending attempt)
  | .attempting attempt, .fail => some (afterFailure tool attempt)
  -- A hook that raises after the success counts as a failure of the attempt.
  | .ending attempt, .fail => some (afterFailure tool attempt)
  | .waiting, .leave | .attempting _, .leave | .ending _, .leave | .pausing _, .leave => some .done
  | _, _ => none

def nextBreaker (tool : Tool) (now : ℚ) (state : BreakerState) : Act → BreakerState
  | .succeed => recordSuccess
  | .fail => recordFailure tool.circuitBreaker now state
  | _ => state

def State.isOpen (state : State) (name : String) (now : ℚ) : Bool :=
  now < (state.breakers name).openUntil

def step (state : State) (event : Event) : Option State :=
  let name := toolOf event.call
  if event.now < state.clock then none
  else (nextPhase (tools name) (state.isOpen name event.now) (state.phases event.call)
      event.act).map fun phase =>
    { clock := event.now
      breakers := Function.update state.breakers name
        (nextBreaker (tools name) event.now (state.breakers name) event.act)
      phases := Function.update state.phases event.call phase }

def Run (events : List Event) (state : State) : Prop :=
  events.foldlM (step tools toolOf) {} = some state

end Calls

section Histories

variable (tools : String → Tool) (toolOf : Nat → String) (name : String)

def Event.isOf (event : Event) (act : Act) : Bool := toolOf event.call = name && event.act = act

def failuresSince (past : List Event) : Nat :=
  (past.reverse.takeWhile fun event => !event.isOf toolOf name .succeed).countP fun event =>
    event.isOf toolOf name .fail

def Trips (config : BreakerConfig) (past : List Event) (event : Event) : Prop :=
  event.isOf toolOf name .fail = true ∧
    config.failureThreshold ≤ failuresSince toolOf name (past ++ [event])

def Cooling (config : BreakerConfig) (past : List Event) (now : ℚ) : Prop :=
  ∃ before event later, past = before ++ event :: later ∧ Trips toolOf name config before event ∧
    now < event.now + config.cooldownSeconds

structure Protects (config : BreakerConfig) (events : List Event) : Prop where
  counted : ∀ past state, past <+: events → Run tools toolOf past state →
    (state.breakers name).failures = failuresSince toolOf name past
  opened : ∀ past state later now, events = past ++ later → Run tools toolOf past state →
    state.clock ≤ now → (∀ event ∈ later, now ≤ event.now) →
      (state.isOpen name now = true ↔ Cooling toolOf name config past now)
  unstarted : ∀ past event later state, events = past ++ event :: later →
    Run tools toolOf past state → event.isOf toolOf name .start = true →
      state.isOpen name event.now = false

/-- No success is recorded during a cooldown, and no call starts an attempt during the cooldown
of a failure that has been recorded since the call passed the gate. -/
structure Undisturbed (config : BreakerConfig) (events : List Event) : Prop where
  succeeds : ∀ past event later, events = past ++ event :: later →
    event.isOf toolOf name .succeed = true → ¬ Cooling toolOf name config past event.now
  starts : ∀ before gate between event later,
    events = before ++ gate :: (between ++ event :: later) → gate.act = .gate →
      gate.call = event.call → event.isOf toolOf name .start = true →
        ∀ left failure right, between = left ++ failure :: right →
          Trips toolOf name config (before ++ gate :: left) failure →
            failure.now + config.cooldownSeconds ≤ event.now

end Histories
section Runs

variable {tools : String → Tool} {toolOf : Nat → String} {name : String} {config : BreakerConfig}
  {past later : List Event} {event : Event} {before after state : State} {now : ℚ}

theorem run_snoc : Run tools toolOf (past ++ [event]) after ↔
    ∃ before, Run tools toolOf past before ∧ step tools toolOf before event = some after := by
  simp [Run, List.foldlM_append, Option.bind_eq_some_iff]

theorem run_initial (run : Run tools toolOf (past ++ later) after) :
    ∃ state, Run tools toolOf past state := by
  rw [Run, List.foldlM_append, Option.bind_eq_bind, Option.bind_eq_some_iff] at run
  obtain ⟨state, initial, _⟩ := run
  exact ⟨state, initial⟩

theorem run_unique (one : Run tools toolOf past before) (other : Run tools toolOf past after) :
    before = after := Option.some.inj (one.symm.trans other)

theorem step_cases (stepped : step tools toolOf before event = some after) :
    before.clock ≤ event.now ∧ ∃ phase,
      nextPhase (tools (toolOf event.call)) (before.isOpen (toolOf event.call) event.now)
          (before.phases event.call) event.act = some phase ∧
        after = { clock := event.now
                  breakers := Function.update before.breakers (toolOf event.call)
                    (nextBreaker (tools (toolOf event.call)) event.now
                      (before.breakers (toolOf event.call)) event.act)
                  phases := Function.update before.phases event.call phase } := by
  unfold step at stepped
  split at stepped
  · cases stepped
  next current =>
    obtain ⟨phase, next, rfl⟩ := Option.map_eq_some_iff.mp stepped
    exact ⟨not_lt.mp current, phase, next, rfl⟩

theorem isOf_iff {act : Act} :
    event.isOf toolOf name act = true ↔ toolOf event.call = name ∧ event.act = act := by
  simp [Event.isOf]

theorem failuresSince_snoc :
    failuresSince toolOf name (past ++ [event]) =
      if event.isOf toolOf name .succeed then 0
      else failuresSince toolOf name past + if event.isOf toolOf name .fail then 1 else 0 := by
  rw [failuresSince, List.reverse_append, List.reverse_singleton, List.singleton_append]
  by_cases succeeds : event.isOf toolOf name .succeed = true
  · simp [succeeds]
  · simp [succeeds, failuresSince, List.countP_cons]

theorem cooling_snoc : Cooling toolOf name config (past ++ [event]) now ↔
    Cooling toolOf name config past now ∨
      (Trips toolOf name config past event ∧ now < event.now + config.cooldownSeconds) := by
  constructor
  · rintro ⟨left, failure, right, whole, trips, running⟩
    cases right using List.reverseRecOn with
    | nil =>
        obtain ⟨rfl, same⟩ := List.append_inj' whole rfl
        cases same
        exact .inr ⟨trips, running⟩
    | append_singleton right last =>
        rw [← List.cons_append, ← List.append_assoc] at whole
        obtain ⟨rfl, _⟩ := List.append_inj' whole rfl
        exact .inl ⟨left, failure, right, rfl, trips, running⟩
  · rintro (⟨left, failure, right, rfl, trips, running⟩ | ⟨trips, running⟩)
    · exact ⟨left, failure, right ++ [event], by simp, trips, running⟩
    · exact ⟨past, event, [], rfl, trips, running⟩

theorem Cooling.earlier {now' : ℚ} (cooling : Cooling toolOf name config past now')
    (passed : now ≤ now') : Cooling toolOf name config past now := by
  obtain ⟨left, failure, right, whole, trips, running⟩ := cooling
  exact ⟨left, failure, right, whole, trips, lt_of_le_of_lt passed running⟩

theorem step_breaker (enabled : (tools name).circuitBreaker = some config)
    (stepped : step tools toolOf before event = some after) :
    after.breakers name =
      if event.isOf toolOf name .succeed then {}
      else if event.isOf toolOf name .fail then
        recordFailure (some config) event.now (before.breakers name)
      else before.breakers name := by
  obtain ⟨_, phase, _, rfl⟩ := step_cases stepped
  by_cases own : toolOf event.call = name
  · subst own
    cases act : event.act <;> simp [Event.isOf, act, nextBreaker, recordSuccess, enabled]
  · simp [Event.isOf, own, Function.update_of_ne (Ne.symm own)]

theorem run_counted (enabled : (tools name).circuitBreaker = some config)
    (run : Run tools toolOf past state) :
    (state.breakers name).failures = failuresSince toolOf name past := by
  induction past using List.reverseRecOn generalizing state with
  | nil =>
      cases run
      rfl
  | append_singleton past event ih =>
      obtain ⟨before, initial, stepped⟩ := run_snoc.mp run
      rw [step_breaker enabled stepped, failuresSince_snoc, ← ih initial]
      split_ifs
      · rfl
      · rw [recordFailure]
        split <;> rfl
      · rfl

theorem run_clock (run : Run tools toolOf past state) :
    0 ≤ state.clock ∧ ∀ event ∈ past, event.now ≤ state.clock := by
  induction past using List.reverseRecOn generalizing state with
  | nil =>
      cases run
      exact ⟨le_refl _, by simp⟩
  | append_singleton past event ih =>
      obtain ⟨before, initial, stepped⟩ := run_snoc.mp run
      obtain ⟨passed, _, _, rfl⟩ := step_cases stepped
      obtain ⟨start, all⟩ := ih initial
      refine ⟨start.trans passed, fun other member => ?_⟩
      rcases List.mem_append.mp member with earlier | last
      · exact (all other earlier).trans passed
      · rw [List.mem_singleton.mp last]

theorem Cooling.bound (cooling : Cooling toolOf name config past now) {time : ℚ}
    (earlier : ∀ event ∈ past, event.now ≤ time) : now < time + config.cooldownSeconds := by
  obtain ⟨left, failure, right, rfl, _, running⟩ := cooling
  have first := earlier failure (by simp)
  linarith

theorem trips_iff (enabled : (tools name).circuitBreaker = some config)
    (run : Run tools toolOf past state) (fails : event.isOf toolOf name .fail = true) :
    Trips toolOf name config past event ↔
      config.failureThreshold ≤ (state.breakers name).failures + 1 := by
  have other : event.isOf toolOf name .succeed = false := by
    have act := (isOf_iff.mp fails).2
    simp [Event.isOf, act]
  rw [Trips, failuresSince_snoc, run_counted enabled run]
  simp [fails, other]

/-- Without successes during a cooldown, the breaker is open exactly during the cooldowns. -/
theorem run_opened (enabled : (tools name).circuitBreaker = some config)
    (run : Run tools toolOf past state)
    (succeeds : ∀ left event right, past = left ++ event :: right →
      event.isOf toolOf name .succeed = true → ¬ Cooling toolOf name config left event.now)
    (current : state.clock ≤ now) :
    state.isOpen name now = true ↔ Cooling toolOf name config past now := by
  induction past using List.reverseRecOn generalizing state with
  | nil =>
      cases run
      have closed : ¬ now < 0 := not_lt.mpr current
      simp [State.isOpen, Cooling, closed]
  | append_singleton past event ih =>
      obtain ⟨before, initial, stepped⟩ := run_snoc.mp run
      have counted := run_counted enabled initial
      have passed := (step_cases stepped).1
      have at_event : event.now ≤ now := by
        obtain ⟨_, _, _, rfl⟩ := step_cases stepped
        exact current
      have known := ih initial
        (fun left other right whole => succeeds left other (right ++ [event]) (by simp [whole]))
        (passed.trans at_event)
      rw [State.isOpen, decide_eq_true_eq] at known
      rw [State.isOpen, decide_eq_true_eq, step_breaker enabled stepped, cooling_snoc, ← known]
      by_cases success : event.isOf toolOf name .succeed = true
      -- A success closes the breaker, and no cooldown is running that it could cut off.
      · have closed : ¬ now < 0 := not_lt.mpr ((run_clock run).1.trans current)
        have ended : ¬ now < (before.breakers name).openUntil := fun running =>
          succeeds past event [] rfl success ((known.mp running).earlier at_event)
        have apart : ¬ Trips toolOf name config past event := fun trips => by
          have fails := (isOf_iff.mp trips.1).2
          rw [(isOf_iff.mp success).2] at fails
          cases fails
        simp [success, closed, ended, apart]
      · by_cases fails : event.isOf toolOf name .fail = true
        · rw [if_neg success, if_pos fails, trips_iff enabled initial fails, recordFailure]
          by_cases trips : config.failureThreshold ≤ (before.breakers name).failures + 1
          · have bound : now < (before.breakers name).openUntil →
                now < event.now + config.cooldownSeconds := fun running =>
              (known.mp running).bound fun other member =>
                ((run_clock initial).2 other member).trans passed
            rw [if_pos trips]
            constructor
            · exact fun running => .inr ⟨trips, running⟩
            · rintro (running | ⟨_, running⟩)
              · exact bound running
              · exact running
          · simp [trips]
        · have untouched : ¬ Trips toolOf name config past event := fun trips => fails trips.1
          simp [success, fails, untouched]

def Phase.begun : Phase → Prop
  | .new | .done => False
  | _ => True

theorem begun_before {tool : Tool} {isOpen : Bool} {phase next : Phase} {act : Act}
    (moved : nextPhase tool isOpen phase act = some next) (begun : next.begun) :
    phase.begun ∨ (act = .gate ∧ isOpen = false) := by
  cases phase with
  | new =>
      cases act with
      | gate =>
          cases isOpen with
          | false => exact .inr ⟨rfl, rfl⟩
          | true =>
              cases moved
              exact begun.elim
      | _ => cases moved
  | done => cases act <;> cases moved
  | _ => exact .inl trivial

theorem run_gate (run : Run tools toolOf past state) {call : Nat}
    (begun : (state.phases call).begun) :
    ∃ left gate right earlier, past = left ++ gate :: right ∧ gate.act = .gate ∧
      gate.call = call ∧ Run tools toolOf left earlier ∧ earlier.clock ≤ gate.now ∧
        earlier.isOpen (toolOf call) gate.now = false := by
  induction past using List.reverseRecOn generalizing state with
  | nil =>
      cases run
      exact begun.elim
  | append_singleton past event ih =>
      obtain ⟨before, initial, stepped⟩ := run_snoc.mp run
      obtain ⟨passed, next, moved, rfl⟩ := step_cases stepped
      have extended (earlier : (before.phases call).begun) : ∃ left gate right earlier,
          past ++ [event] = left ++ gate :: right ∧ gate.act = .gate ∧ gate.call = call ∧
            Run tools toolOf left earlier ∧ earlier.clock ≤ gate.now ∧
              earlier.isOpen (toolOf call) gate.now = false := by
        obtain ⟨left, gate, right, known, rfl, rest⟩ := ih initial earlier
        exact ⟨left, gate, right ++ [event], known, by simp, rest⟩
      by_cases own : call = event.call
      · subst own
        dsimp only at begun
        rw [Function.update_self] at begun
        rcases begun_before moved begun with earlier | ⟨gate, closed⟩
        · exact extended earlier
        · exact ⟨past, event, [], before, rfl, gate, rfl, initial, passed, closed⟩
      · dsimp only at begun
        rw [Function.update_of_ne own] at begun
        exact extended begun

theorem start_begun (stepped : step tools toolOf before event = some after)
    (starts : event.act = .start) : (before.phases event.call).begun := by
  obtain ⟨_, next, moved, _⟩ := step_cases stepped
  rw [starts] at moved
  cases phase : before.phases event.call with
  | new =>
      rw [phase] at moved
      cases moved
  | done =>
      rw [phase] at moved
      cases moved
  | _ => trivial

theorem run_later (run : Run tools toolOf (past ++ later) after)
    (initial : Run tools toolOf past before) :
    before.clock ≤ after.clock ∧ ∀ event ∈ later, before.clock ≤ event.now := by
  induction later using List.reverseRecOn generalizing after with
  | nil =>
      rw [List.append_nil] at run
      rw [run_unique initial run]
      exact ⟨le_refl _, by simp⟩
  | append_singleton later last ih =>
      rw [← List.append_assoc] at run
      obtain ⟨middle, inner, stepped⟩ := run_snoc.mp run
      obtain ⟨passed, _, _, rfl⟩ := step_cases stepped
      obtain ⟨clock, all⟩ := ih inner
      refine ⟨clock.trans passed, fun event member => ?_⟩
      rcases List.mem_append.mp member with earlier | only
      · exact all event earlier
      · rw [List.mem_singleton.mp only]
        exact clock.trans passed

theorem run_around (run : Run tools toolOf (past ++ event :: later) after) :
    ∃ state next, Run tools toolOf past state ∧ step tools toolOf state event = some next ∧
      Run tools toolOf (past ++ [event]) next ∧ state.clock ≤ event.now ∧
        next.clock = event.now ∧ ∀ other ∈ later, event.now ≤ other.now := by
  have whole : past ++ event :: later = (past ++ [event]) ++ later := by simp
  rw [whole] at run
  obtain ⟨next, initial⟩ := run_initial run
  obtain ⟨state, first, stepped⟩ := run_snoc.mp initial
  have later_events := (run_later run initial).2
  obtain ⟨passed, _, _, same⟩ := step_cases stepped
  have clock : next.clock = event.now := by rw [same]
  rw [clock] at later_events
  exact ⟨state, next, first, stepped, initial, passed, clock, later_events⟩

theorem split_order {left right left' right' : List Event} {one other : Event}
    (same : left ++ one :: right = left' ++ other :: right') (apart : one ≠ other) :
    (∃ middle, left' = left ++ one :: middle) ∨
      ∃ middle, left = left' ++ other :: middle ∧ right' = middle ++ one :: right := by
  rcases List.append_eq_append_iff.mp same with ⟨between, rfl, rest⟩ | ⟨between, rfl, rest⟩
  · cases between with
    | nil =>
        cases rest
        exact absurd rfl apart
    | cons first middle =>
        cases rest
        exact .inl ⟨middle, rfl⟩
  · cases between with
    | nil =>
        cases rest
        exact absurd rfl apart
    | cons first middle =>
        cases rest
        exact .inr ⟨middle, rfl, rfl⟩

theorem start_closed (enabled : (tools name).circuitBreaker = some config) {events : List Event}
    {final : State} (run : Run tools toolOf events final)
    (undisturbed : Undisturbed toolOf name config events)
    (whole : events = past ++ event :: later) (initial : Run tools toolOf past state)
    (starts : event.isOf toolOf name .start = true) : state.isOpen name event.now = false := by
  subst whole
  have successes (left : List Event) (right : List Event) (inside : past = left ++ right) :
      ∀ front other back, left = front ++ other :: back →
        other.isOf toolOf name .succeed = true →
          ¬ Cooling toolOf name config front other.now := by
    rintro front other back rfl
    exact undisturbed.succeeds front other (back ++ right ++ event :: later) (by simp [inside])
  obtain ⟨first, next, initial', stepped, _, passed, _, _⟩ := run_around run
  obtain rfl := run_unique initial initial'
  obtain ⟨own, act⟩ := isOf_iff.mp starts
  obtain ⟨left, gate, right, earlier, split, gates, same_call, at_gate, gate_clock, closed⟩ :=
    run_gate initial (start_begun stepped act)
  by_contra opened
  have cooling := (run_opened enabled initial (successes past [] (by simp)) passed).mp
    (by simpa using opened)
  obtain ⟨before, failure, after, whole, trips, running⟩ := cooling
  have apart : failure ≠ gate := by
    rintro rfl
    have fails := (isOf_iff.mp trips.1).2
    rw [gates] at fails
    cases fails
  rcases split_order (whole.symm.trans split) apart with ⟨middle, rfl⟩ | ⟨middle, rfl, rfl⟩
  · -- The breaker was open already when the call looked at it.
    have gate_passed : gate.now ≤ event.now := by
      have all := (run_clock initial).2 gate (by simp [split])
      exact all.trans passed
    have open_then := (run_opened enabled at_gate
      (successes _ (gate :: right) split) gate_clock).mpr
        ⟨before, failure, middle, rfl, trips, lt_of_le_of_lt gate_passed running⟩
    rw [own] at closed
    rw [closed] at open_then
    cases open_then
  · have ended := undisturbed.starts left gate (middle ++ failure :: after) event later
      (by simp [split]) gates same_call starts middle failure after rfl trips
    exact absurd running (not_lt.mpr ended)

/-- The breaker protects the backend in the runs that are not disturbed, and in no others. -/
theorem breaker_protects_iff (tools : String → Tool) (toolOf : Nat → String) (name : String)
    (config : BreakerConfig) (enabled : (tools name).circuitBreaker = some config)
    (events : List Event) (final : State) (run : Run tools toolOf events final) :
    Protects tools toolOf name config events ↔ Undisturbed toolOf name config events := by
  constructor
  · intro protects
    constructor
    · rintro past event later rfl success cooling
      obtain ⟨state, next, _, stepped, after, passed, clock, rest⟩ := run_around run
      have opened := (protects.opened (past ++ [event]) next later event.now (by simp) after
        (le_of_eq clock) rest).mpr (cooling_snoc.mpr (.inl cooling))
      have start := (run_clock after).1
      rw [State.isOpen, decide_eq_true_eq, step_breaker enabled stepped, if_pos success] at opened
      rw [clock] at start
      exact absurd opened (not_lt.mpr start)
    · intro before gate between event later whole gates own starts left failure right inside trips
      have split : events = (before ++ gate :: between) ++ event :: later := by simp [whole]
      subst split
      obtain ⟨state, next, initial, stepped, _, passed, _, rest⟩ := run_around run
      have closed := protects.unstarted _ event later state rfl initial starts
      have opened := protects.opened _ state (event :: later) event.now rfl initial passed
        (by simpa using rest)
      by_contra running
      rw [closed] at opened
      refine absurd (opened.mpr ⟨before ++ gate :: left, failure, right, ?_, trips, ?_⟩)
        Bool.false_ne_true
      · simp [inside]
      · exact not_le.mp running
  · intro undisturbed
    constructor
    · intro past state inside initial
      exact run_counted enabled initial
    · rintro past state later now rfl initial current bound
      refine run_opened enabled initial (fun left event right whole => ?_) current
      exact undisturbed.succeeds left event (right ++ later) (by simp [whole])
    · intro past event later state whole initial starts
      exact start_closed enabled run undisturbed whole initial starts

def sampleTool : Tool where
  circuitBreaker := some ⟨1, 30⟩
  maxAttempts := 2
  sideEffecting := false

def sampleTools (_ : String) : Tool := sampleTool

def failedOnce : List Event := [⟨0, 0, .gate⟩, ⟨0, 0, .start⟩, ⟨0, 0, .fail⟩]

theorem breaker_protects_iff_failed :
    Protects sampleTools (fun _ => "t") "t" ⟨1, 30⟩ failedOnce ↔
      Undisturbed (fun _ => "t") "t" ⟨1, 30⟩ failedOnce :=
  breaker_protects_iff sampleTools (fun _ => "t") "t" ⟨1, 30⟩ rfl failedOnce _ rfl

/-- The retry of a call starts a second after the failure that has opened the breaker. -/
theorem retry_while_open :
    (∃ final, Run sampleTools (fun _ => "t") (failedOnce ++ [⟨1, 0, .start⟩]) final) ∧
      ¬ Protects sampleTools (fun _ => "t") "t" ⟨1, 30⟩ (failedOnce ++ [⟨1, 0, .start⟩]) := by
  refine ⟨⟨_, rfl⟩, fun protects => ?_⟩
  have closed := protects.unstarted failedOnce ⟨1, 0, .start⟩ [] _ rfl rfl rfl
  have opened := (protects.opened failedOnce _ [⟨1, 0, .start⟩] 1 rfl rfl (by decide)
    (by simp)).mpr
      ⟨[⟨0, 0, .gate⟩, ⟨0, 0, .start⟩], ⟨0, 0, .fail⟩, [], rfl, ⟨by decide, by decide⟩, by norm_num⟩
  rw [closed] at opened
  cases opened

end Runs
end AgentTaskPlatform.CircuitBreaker
