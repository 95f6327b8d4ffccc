import AgentTaskPlatform.RunExecutor
import AgentTaskPlatform.RunManager
import AgentTaskPlatform.StageMachine
import AgentTaskPlatform.StatefulCalls

/-!
A side-effecting call under every strike of an exception or a cancellation: its response is
committed in the middle of the `try` block, and each later failure is still reported as an
unknown outcome.
-/

namespace AgentTaskPlatform.ToolOutcome

open KeyedTable StatefulCalls ToolGateway

/-- An exception of synchronous code, which no cancellation reaches and which does not
know the class of unknown outcomes. -/
structure Strike where
  error : Exc
  isException : error.isException = true
  foreign : error.kind ≠ .externalSideEffectOutcomeUnknownError

/-- A write that raises has been refused, or was applied and not acknowledged. -/
inductive StoreFault where
  | refused (strike : Strike)
  | unacknowledged (strike : Strike)

structure Surroundings where
  getOrCreate : Option StoreFault := none
  beginOnce : Option StoreFault := none
  dispatched : Option StoreFault := none
  backend : Except Exc Fields
  validation : Option Strike := none
  guardrails : Except Exc (Option (Option String)) := .ok none
  returned : Option StoreFault := none
  completed : Option StoreFault := none
  log : Option Strike := none
  breaker : Option Strike := none
  logger : Option Strike := none
  hook : Option Exc := none
  /-- The points of the `except` clause. -/
  failureBreaker : Option Strike := none
  failureLog : Option Strike := none
  failureLogger : Option Strike := none

abbrev Step (α : Type) := Method Exc State α

def store (fault : Option StoreFault) (op : StageOp) : Step op.Answer :=
  ExceptT.mk fun state => match fault with
    | none => (.ok (op.perform state).1, (op.perform state).2)
    | some (.refused strike) => (.error strike.error, state)
    | some (.unacknowledged strike) => (.error strike.error, (op.perform state).2)

section Gateway

variable (digest : Digest) (context : AgentContext) (tool : ToolSpec) (uuid4 : Uuid)
  (around : Surroundings)

def claimOperation (stageKey durableKey : String) : Step SideEffect := do
  let active ← store around.beginOnce (.beginSideEffectOnce stageKey uuid4)
  match active with
  | none => throw (.sideEffectOutcomeUnknown tool.name
      "durable side-effect operation was already claimed")
  | some _ => do
      let dispatched ← store around.dispatched (.markSideEffectDispatched durableKey uuid4)
      if dispatched then return ⟨stageKey, durableKey, some uuid4, .null⟩
      else throw (.sideEffectOutcomeUnknown tool.name
        "durable side-effect operation was already claimed")

def prepareSideEffectOperation (input : Json) (idempotencyKey : Option String) :
    Step SideEffect := do
  let identity := operationIdentity digest tool input idempotencyKey
  let stageKey := sideEffectStageKey digest tool identity
  let durableKey := context.run.runId ++ ":" ++ stageKey
  let stage ← store around.getOrCreate (.getOrCreate
    (sideEffectStage digest context tool identity (digest.stableHash input)))
  if stage.status = .succeeded then
    return ⟨stageKey, durableKey, stage.executionId, stage.output⟩
  -- A dispatch that was never confirmed is not repeated.
  else if stage.status = .running || stage.status = .outcomeUnknown then
    throw (.sideEffectOutcomeUnknown tool.name
      "a prior dispatch did not commit a confirmed response")
  else claimOperation tool uuid4 around stageKey durableKey

def ownershipChanged : Exc :=
  .sideEffectOutcomeUnknown tool.name
    "durable operation ownership changed before its response was committed"

def completeSideEffectOperation (effect : SideEffect) (output : Fields) : Step Unit :=
  match effect.executionId with
  -- No claim can be without its execution id; the source checks it all the same.
  | none => throw (.sideEffectOutcomeUnknown tool.name "durable operation identity is missing")
  | some executionId => do
      let returned ← store around.returned
        (.markSideEffectReturned effect.durableKey executionId)
      if returned then do
        let completed ← store around.completed
          (.markSucceeded effect.stageKey executionId (.object output))
        if completed then return ()
        else throw (ownershipChanged tool)
      else throw (ownershipChanged tool)

def answer : Except Exc (Fields × Option (Option String)) := do
  let output ← around.backend
  match around.validation with
  | some strike => throw strike.error
  | none => do
      let rejected ← around.guardrails
      return (output, rejected)

def report (rejected : Option (Option String)) : List (Option Exc) :=
  let breaker := around.breaker.map Strike.error
  let log := around.log.map Strike.error
  match rejected with
  | some _ => [breaker, log, around.hook]
  | none => [log, breaker, around.logger.map Strike.error, around.hook]

def invokeOnce (effect : SideEffect) : Step Fields := do
  let (output, rejected) ← ExceptT.mk (pure (answer around))
  let output := match rejected with
    | some message => guardrailBlocked message "Tool output rejected by guardrail"
    | none => output
  completeSideEffectOperation tool around effect output
  (report around rejected).forM point
  return output

/-- The `except Exception` clause, up to the end of its only attempt. -/
def recordFailure : Step Unit := do
  point (around.failureBreaker.map Strike.error)
  point (around.failureLog.map Strike.error)
  point (around.failureLogger.map Strike.error)

/-- The `except` clauses: every failure of the `try` block ends as an unknown outcome. -/
def failed (error : Exc) : Step Json := do
  if error.isException then recordFailure around else pure ()
  throw (.sideEffectOutcomeUnknown tool.name error.message)

def attempted (effect : SideEffect) : Step Json :=
  tryCatch (Json.object <$> invokeOnce tool around effect) (failed tool around)

def callWithRetries (input : Json) (idempotencyKey : Option String) : Step Json := do
  let effect ← prepareSideEffectOperation digest context tool uuid4 around input idempotencyKey
  if !effect.cachedOutput.isNull then pure effect.cachedOutput
  else attempted tool around effect

end Gateway

section Conditions

variable (around : Surroundings)

def Committed (state : State) (stageKey : String) : Prop :=
  ∃ row, state.stages.find stageKey = some row ∧ row.status = .succeeded

def Truthful (result : Except Exc Json × State) (stageKey : String) : Prop :=
  ∀ error, result.1 = .error error → Committed result.2 stageKey →
    error.kind ≠ .externalSideEffectOutcomeUnknownError ∧
      ∀ run attempt attempts timeout, (RunExecutor.failedRun run attempt attempts timeout
        error).errorType ≠ some .sideEffectOutcomeUnknown

structure Drawn (state : State) (uuid4 : Uuid) : Prop where
  fresh : ∀ row ∈ state.stages.rows, row.executionId ≠ some uuid4

def firstStrike (points : List (Option Exc)) : Option Exc := points.findSome? id

def StoreFault.error : StoreFault → Exc
  | .refused strike => strike.error
  | .unacknowledged strike => strike.error

def Reported (strike : Exc) : Prop :=
  strike.isException = true → around.failureBreaker = none ∧ around.failureLog = none ∧
    around.failureLogger = none

def Unclaimed (state : State) (stageKey durableKey : String) : Prop :=
  ∀ row, state.stages.find stageKey = some row →
    row.status = .pending ∧ row.attempts = 0 ∧ row.idempotencyKey = durableKey

def Undisturbed : Prop :=
  around.getOrCreate = none ∧ around.beginOnce = none ∧ around.dispatched = none

def Applied : Prop :=
  around.returned = none ∧ ∀ strike, around.completed ≠ some (.refused strike)

structure StruckLate (state : State) (stageKey durableKey : String) : Prop where
  unclaimed : Unclaimed state stageKey durableKey
  prepared : Undisturbed around
  applied : Applied around
  struck : ∃ output rejected strike, answer around = .ok (output, rejected) ∧
    firstStrike (around.completed.map StoreFault.error :: report around rejected) = some strike ∧
    Reported around strike

structure NullResponse (state : State) (stageKey : String) : Prop where
  read : around.getOrCreate = none
  stored : ∃ row, state.stages.find stageKey = some row ∧ row.status = .succeeded ∧
    row.output.isNull = true
  struck : (∃ strike, answer around = .error strike ∧ strike.isException = false) ∨
    around.failureBreaker = none ∧ around.failureLog = none ∧ around.failureLogger = none

end Conditions

section Runs

theorem classify_unknown (attempt attempts : Nat) (error : Exc) :
    (RunExecutor.classify attempt attempts error).2 = .sideEffectOutcomeUnknown ↔
      error.kind = .externalSideEffectOutcomeUnknownError := by
  unfold RunExecutor.classify
  cases error.kind with
  | externalSideEffectOutcomeUnknownError => simp
  | timeoutError => simp
  | toolExecutionError => simp
  | registryError =>
      simp only [reduceCtorEq, iff_false]
      split <;> simp
  | _ =>
      simp only [reduceCtorEq, iff_false]
      split
      · simp
      · split
        · simp
        · split <;> simp

/-- Only the class of the error decides how it stops its run. -/
theorem truthful_result_iff (result : Except Exc Json × State) (stageKey : String) :
    Truthful result stageKey ↔ ∀ error, result.1 = .error error →
      error.kind = .externalSideEffectOutcomeUnknownError → ¬ Committed result.2 stageKey := by
  constructor
  · intro truthful error raised unknown committed
    exact (truthful error raised committed).1 unknown
  · intro truthful error raised committed
    have known : error.kind ≠ .externalSideEffectOutcomeUnknownError :=
      fun unknown => truthful error raised unknown committed
    refine ⟨known, fun run attempt attempts timeout stopped => known ?_⟩
    exact (classify_unknown attempt attempts error).mp (Option.some.inj stopped)

theorem report_run (points : List (Option Exc)) (state : State) :
    points.forM point state = match firstStrike points with
      | none => (.ok (), state)
      | some error => (.error error, state) := by
  induction points with
  | nil => rfl
  | cons strike rest ih =>
      have next : (strike :: rest).forM point state =
          (point strike >>= fun _ => rest.forM point) state := rfl
      rw [next, bind_run]
      cases strike with
      | none => exact ih
      | some error => rfl

/-- Every failure of the `try` block becomes an unknown outcome, if its handler gets there. -/
theorem failed_run (tool : ToolSpec) (around : Surroundings) (error : Exc) (state : State) :
    ∃ raised, failed tool around error state = (.error raised, state) ∧
      (raised.kind = .externalSideEffectOutcomeUnknownError ↔ Reported around error) := by
  by_cases caught : error.isException = true
  · have handled : failed tool around error state =
        (do recordFailure around; throw (.sideEffectOutcomeUnknown tool.name error.message) :
          Step Json) state := by
      simp only [failed, caught, if_true]
    rw [handled, recordFailure]
    simp only [bind_run, Reported, caught, true_implies]
    cases breaker : around.failureBreaker with
    | some strike => exact ⟨strike.error, rfl, by simp [strike.foreign]⟩
    | none =>
        cases log : around.failureLog with
        | some strike => exact ⟨strike.error, rfl, by simp [strike.foreign]⟩
        | none =>
            cases logger : around.failureLogger with
            | some strike => exact ⟨strike.error, rfl, by simp [strike.foreign]⟩
            | none => exact ⟨_, rfl, by simp [Exc.sideEffectOutcomeUnknown]⟩
  · refine ⟨.sideEffectOutcomeUnknown tool.name error.message, ?_, ?_⟩
    · simp only [failed, caught]
      rfl
    · simp [Exc.sideEffectOutcomeUnknown, Reported, caught]

end Runs

section Rows

variable {state : State} {stageKey durableKey : String} {uuid4 : Uuid} {row : AgentStage}

def Sole (state : State) (stageKey : String) (uuid4 : Uuid) : Prop :=
  ∀ other row, state.stages.find other = some row → row.executionId = some uuid4 →
    other = stageKey

structure Waiting (state : State) (stageKey durableKey : String) (uuid4 : Uuid) : Prop where
  row : ∃ row, state.stages.find stageKey = some row ∧ row.status = .outcomeUnknown ∧
    row.executionId = some uuid4 ∧ row.idempotencyKey = durableKey
  sole : Sole state stageKey uuid4

theorem update_hit {condition : AgentStage → Bool} {set : StageValues → StageValues}
    (found : state.stages.find stageKey = some row) (hit : condition row = true) :
    (state.updateStages condition set).2.stages.find stageKey =
      some (row.withValues (set row.values)) := by
  simp only [State.updateStages]
  rw [Table.find_updateWhere, found]
  simp [hit, setValues]

theorem update_missed {condition : AgentStage → Bool} {set : StageValues → StageValues}
    (found : state.stages.find stageKey = some row) (missed : condition row = false) :
    (state.updateStages condition set).2.stages.find stageKey = some row := by
  simp only [State.updateStages]
  rw [Table.find_updateWhere, found]
  simp [missed]

theorem update_sole {condition : AgentStage → Bool} {set : StageValues → StageValues}
    (sole : Sole state stageKey uuid4)
    (keeps : ∀ row : AgentStage,
      (row.withValues (set row.values)).executionId = row.executionId) :
    Sole (state.updateStages condition set).2 stageKey uuid4 := by
  intro other row found owner
  simp only [State.updateStages] at found
  rw [Table.find_updateWhere] at found
  obtain ⟨before, earlier, written⟩ := Option.map_eq_some_iff.mp found
  refine sole other before earlier ?_
  by_cases hit : condition before = true
  · simp only [hit, if_true, setValues] at written
    rw [← keeps before, written, owner]
  · simp only [hit] at written
    rw [← owner, ← written]
    rfl

theorem update_answer {condition : AgentStage → Bool} {set : StageValues → StageValues}
    (sole : Sole state stageKey uuid4)
    (owned : ∀ row, condition row = true → row.executionId = some uuid4)
    (found : state.stages.find stageKey = some row) :
    (state.updateStages condition set).1 = condition row := by
  have one := Table.countWhere_keyed state.stages stageKey condition fun row member holds =>
    sole row.stageKey row (Table.mem_find member) (owned row holds)
  cases hit : condition row with
  | true =>
      have counted := one.mpr ⟨row, found, hit⟩
      simp [State.updateStages, counted]
  | false =>
      have missed : state.stages.countWhere condition ≠ 1 := by
        intro counted
        obtain ⟨other, same, holds⟩ := one.mp counted
        rw [found] at same
        cases same
        rw [hit] at holds
        cases holds
      simp [State.updateStages, missed]

theorem getOrCreate_row (stage : AgentStage) (state : State) :
    ∃ row, ((StageOp.getOrCreate stage).perform state).1 = row ∧
      ((StageOp.getOrCreate stage).perform state).2.stages.find stage.stageKey = some row ∧
      (row = stage ∧ state.stages.find stage.stageKey = none ∨
        state.stages.find stage.stageKey = some row) := by
  refine ⟨_, rfl, StageOp.getOrCreate_answer stage state, ?_⟩
  cases found : state.stages.find stage.stageKey with
  | some row =>
      right
      have kept := StageOp.getOrCreate_answer stage state
      simp only [StageOp.perform] at kept ⊢
      rw [Table.find_insertNew_kept stage found] at kept ⊢
      rfl
  | none =>
      left
      simp [StageOp.perform, Table.find_insertNew, found]

theorem getOrCreate_sole (stage : AgentStage) (drawn : Drawn state uuid4)
    (unclaimed : stage.executionId = none) :
    ∀ other row, ((StageOp.getOrCreate stage).perform state).2.stages.find other = some row →
      row.executionId ≠ some uuid4 := by
  intro other row found owner
  have present : Table.find (StageOp.inserted state.stages (.getOrCreate stage)) other =
      some row := found
  rcases StageOp.inserted_found present with before | ⟨_, inserted, _⟩
  · exact drawn.fresh row (Table.find_mem before) owner
  · cases inserted
    rw [unclaimed] at owner
    cases owner

end Rows

section Preparation

variable (digest : Digest) (context : AgentContext) (tool : ToolSpec) (uuid4 : Uuid)
  (around : Surroundings) (state : State) (input : Json) (idempotencyKey : Option String)

def operationKey : String :=
  sideEffectStageKey digest tool (operationIdentity digest tool input idempotencyKey)

def durableKey : String :=
  context.run.runId ++ ":" ++ operationKey digest tool input idempotencyKey

/-- The row that was read decides whether the operation is free. -/
theorem created_row :
    ∃ row, ((StageOp.getOrCreate (sideEffectStage digest context tool
        (operationIdentity digest tool input idempotencyKey)
        (digest.stableHash input))).perform state).1 = row ∧
      ((StageOp.getOrCreate (sideEffectStage digest context tool
        (operationIdentity digest tool input idempotencyKey)
        (digest.stableHash input))).perform state).2.stages.find
          (operationKey digest tool input idempotencyKey) = some row ∧
      (row.status = .succeeded →
        state.stages.find (operationKey digest tool input idempotencyKey) = some row) ∧
      (row.status ≠ .succeeded →
        ¬ Committed state (operationKey digest tool input idempotencyKey)) ∧
      (Unclaimed state (operationKey digest tool input idempotencyKey)
          (durableKey digest context tool input idempotencyKey) ↔
        row.status = .pending ∧ row.attempts = 0 ∧
          row.idempotencyKey = durableKey digest context tool input idempotencyKey) := by
  obtain ⟨row, answered, present, origin⟩ := getOrCreate_row (sideEffectStage digest context tool
    (operationIdentity digest tool input idempotencyKey) (digest.stableHash input)) state
  refine ⟨row, answered, present, ?_⟩
  rcases origin with ⟨rfl, absent⟩ | found
  · have missing : state.stages.find (operationKey digest tool input idempotencyKey) = none := absent
    refine ⟨nofun, fun _ ⟨row, found, _⟩ => ?_, ?_⟩
    · rw [missing] at found
      cases found
    · refine iff_of_true (fun row found => ?_) ⟨rfl, rfl, rfl⟩
      rw [missing] at found
      cases found
  · have same : state.stages.find (operationKey digest tool input idempotencyKey) = some row := found
    refine ⟨fun _ => same, fun unsettled ⟨other, found, succeeded⟩ => ?_, ?_⟩
    · rw [same] at found
      cases found
      exact unsettled succeeded
    · constructor
      · exact fun unclaimed => unclaimed row same
      · intro fresh other found
        rw [same] at found
        cases found
        exact fresh

variable {digest context tool uuid4 around state input idempotencyKey}

theorem store_run (fault : Option StoreFault) (op : StageOp) (state : State) :
    store fault op state = match fault with
      | none => (.ok (op.perform state).1, (op.perform state).2)
      | some (.refused strike) => (.error strike.error, state)
      | some (.unacknowledged strike) => (.error strike.error, (op.perform state).2) := by
  rcases fault with _ | _ | _ <;> rfl

/-- A struck write raises, whatever it wrote. -/
theorem store_struck (fault : StoreFault) (op : StageOp) (state : State) :
    ∃ after, store (some fault) op state = (.error fault.error, after) := by
  cases fault with
  | refused strike => exact ⟨_, rfl⟩
  | unacknowledged strike => exact ⟨_, rfl⟩

theorem StoreFault.foreign (fault : StoreFault) :
    fault.error.kind ≠ .externalSideEffectOutcomeUnknownError := by
  cases fault with
  | refused strike => exact strike.foreign
  | unacknowledged strike => exact strike.foreign

theorem StoreFault.isException (fault : StoreFault) : fault.error.isException = true := by
  cases fault with
  | refused strike => exact strike.isException
  | unacknowledged strike => exact strike.isException

inductive Prepared (digest : Digest) (context : AgentContext) (tool : ToolSpec) (uuid4 : Uuid)
    (around : Surroundings) (state : State) (input : Json) (idempotencyKey : Option String) :
    Except Exc SideEffect × State → Prop
  | settled {row after} : around.getOrCreate = none →
      state.stages.find (operationKey digest tool input idempotencyKey) = some row →
      row.status = .succeeded →
      after.stages.find (operationKey digest tool input idempotencyKey) = some row →
      Prepared digest context tool uuid4 around state input idempotencyKey
        (.ok ⟨operationKey digest tool input idempotencyKey,
          durableKey digest context tool input idempotencyKey, row.executionId, row.output⟩, after)
  | refused {error after} :
      (error.kind = .externalSideEffectOutcomeUnknownError →
        ¬ Committed after (operationKey digest tool input idempotencyKey)) →
      ¬ (Unclaimed state (operationKey digest tool input idempotencyKey)
        (durableKey digest context tool input idempotencyKey) ∧ Undisturbed around) →
      ¬ (around.getOrCreate = none ∧
        Committed state (operationKey digest tool input idempotencyKey)) →
      Prepared digest context tool uuid4 around state input idempotencyKey (.error error, after)
  | dispatched {after} : Unclaimed state (operationKey digest tool input idempotencyKey)
        (durableKey digest context tool input idempotencyKey) → Undisturbed around →
      Waiting after (operationKey digest tool input idempotencyKey)
        (durableKey digest context tool input idempotencyKey) uuid4 →
      Prepared digest context tool uuid4 around state input idempotencyKey
        (.ok ⟨operationKey digest tool input idempotencyKey,
          durableKey digest context tool input idempotencyKey, some uuid4, .null⟩, after)

theorem beginOnce_run {stageKey : String} {row : AgentStage}
    (found : state.stages.find stageKey = some row)
    (free : ∀ other row, state.stages.find other = some row → row.executionId ≠ some uuid4) :
    if row.status = .pending ∧ row.attempts = 0 then
      ∃ claimed, ((StageOp.beginSideEffectOnce stageKey uuid4).perform state).1 = some claimed ∧
        ((StageOp.beginSideEffectOnce stageKey uuid4).perform state).2.stages.find stageKey =
          some claimed ∧ claimed.status = .running ∧ claimed.executionId = some uuid4 ∧
        claimed.idempotencyKey = row.idempotencyKey ∧
        Sole ((StageOp.beginSideEffectOnce stageKey uuid4).perform state).2 stageKey uuid4
    else ((StageOp.beginSideEffectOnce stageKey uuid4).perform state).1 = none ∧
      ((StageOp.beginSideEffectOnce stageKey uuid4).perform state).2.stages.find stageKey =
        some row := by
  have named : row.stageKey = stageKey := Table.find_key found
  have rows : ∀ other, ((StageOp.beginSideEffectOnce stageKey uuid4).perform state).2.stages.find
      other = (state.stages.find other).map fun row =>
        if beginSideEffectWhere stageKey row then row.withValues { row.values with
          status := .running
          attempts := 1
          executionId := some uuid4
          startTime := some state.clock } else row :=
    fun other => Table.find_updateWhere _ _ _ other
  have answer : ((StageOp.beginSideEffectOnce stageKey uuid4).perform state).1 =
      ((state.stages.find stageKey).filter (beginSideEffectWhere stageKey)).bind fun _ =>
        ((StageOp.beginSideEffectOnce stageKey uuid4).perform state).2.stages.find stageKey := rfl
  split
  · next unclaimed =>
      have hit : beginSideEffectWhere stageKey row = true := by
        simp [beginSideEffectWhere, named, unclaimed]
      have own := rows stageKey
      rw [found, Option.map_some, if_pos hit] at own
      refine ⟨_, ?_, own, rfl, rfl, rfl, ?_⟩
      · rw [answer, found, own, Option.filter_some_pos hit, Option.bind_some]
      · intro other holder present owner
        rw [rows] at present
        obtain ⟨before, earlier, written⟩ := Option.map_eq_some_iff.mp present
        by_cases claimed : beginSideEffectWhere stageKey before = true
        · simp only [beginSideEffectWhere, Bool.and_eq_true, decide_eq_true_eq] at claimed
          exact (Table.find_key earlier).symm.trans claimed.1.1
        · rw [if_neg claimed] at written
          subst written
          exact absurd owner (free other before earlier)
  · next claimed =>
      have missed : beginSideEffectWhere stageKey row = false := by
        simp only [beginSideEffectWhere, Bool.and_eq_false_iff, decide_eq_false_iff_not]
        by_cases pending : row.status = .pending
        · exact Or.inr fun unspent => claimed ⟨pending, unspent⟩
        · exact Or.inl (Or.inr pending)
      rw [answer, rows, found]
      simp [missed]

theorem dispatch_run (durableKey : String) {stageKey : String} {row : AgentStage}
    (found : state.stages.find stageKey = some row) (running : row.status = .running)
    (owner : row.executionId = some uuid4) (sole : Sole state stageKey uuid4) :
    if row.idempotencyKey = durableKey then
      ((StageOp.markSideEffectDispatched durableKey uuid4).perform state).1 = true ∧
        Waiting ((StageOp.markSideEffectDispatched durableKey uuid4).perform state).2 stageKey
          durableKey uuid4
    else ((StageOp.markSideEffectDispatched durableKey uuid4).perform state).1 = false ∧
      ((StageOp.markSideEffectDispatched durableKey uuid4).perform state).2.stages.find stageKey =
        some row := by
  have owned : ∀ row, dispatchedWhere durableKey uuid4 row = true →
      row.executionId = some uuid4 := by
    intro row holds
    simp only [dispatchedWhere, Bool.and_eq_true, decide_eq_true_eq] at holds
    exact holds.2
  simp only [StageOp.perform]
  rw [update_answer sole owned found]
  split
  · next same =>
      have hit : dispatchedWhere durableKey uuid4 row = true := by
        simp [dispatchedWhere, same, running, owner]
      exact ⟨hit, ⟨_, update_hit found hit, rfl, owner, same⟩, update_sole sole fun _ => rfl⟩
  · next other =>
      have missed : dispatchedWhere durableKey uuid4 row = false := by
        simp [dispatchedWhere, other]
      exact ⟨missed, update_missed found missed⟩

theorem claim_run {stageKey durableKey : String} {row : AgentStage}
    (found : state.stages.find stageKey = some row) (unsettled : row.status ≠ .succeeded)
    (free : ∀ other row, state.stages.find other = some row → row.executionId ≠ some uuid4) :
    (∃ after, claimOperation tool uuid4 around stageKey durableKey state =
        (.ok ⟨stageKey, durableKey, some uuid4, .null⟩, after) ∧
      (row.status = .pending ∧ row.attempts = 0 ∧ row.idempotencyKey = durableKey) ∧
      (around.beginOnce = none ∧ around.dispatched = none) ∧
      Waiting after stageKey durableKey uuid4) ∨
    (∃ error after, claimOperation tool uuid4 around stageKey durableKey state =
        (.error error, after) ∧
      (error.kind = .externalSideEffectOutcomeUnknownError → ¬ Committed after stageKey) ∧
      ¬ ((row.status = .pending ∧ row.attempts = 0 ∧ row.idempotencyKey = durableKey) ∧
        around.beginOnce = none ∧ around.dispatched = none)) := by
  have uncommitted : ∀ {after : State} {row : AgentStage}, after.stages.find stageKey = some row →
      row.status ≠ .succeeded → ¬ Committed after stageKey := by
    rintro after row found unsettled ⟨other, same, succeeded⟩
    rw [found] at same
    cases same
    exact unsettled succeeded
  have claim := beginOnce_run found free
  unfold claimOperation
  rw [bind_run]
  cases begun : around.beginOnce with
  | some fault =>
      obtain ⟨after, called⟩ := store_struck fault (.beginSideEffectOnce stageKey uuid4) state
      refine Or.inr ⟨fault.error, after, by rw [called], ?_, by simp⟩
      exact fun unknown => absurd unknown fault.foreign
  | none =>
      rw [store_run]
      simp only
      by_cases unclaimed : row.status = .pending ∧ row.attempts = 0
      · rw [if_pos unclaimed] at claim
        obtain ⟨claimed, answer, present, running, owner, key, sole⟩ := claim
        rw [answer]
        simp only
        rw [bind_run]
        cases dispatched : around.dispatched with
        | some fault =>
            obtain ⟨after, called⟩ := store_struck fault
              (.markSideEffectDispatched durableKey uuid4)
              ((StageOp.beginSideEffectOnce stageKey uuid4).perform state).2
            refine Or.inr ⟨fault.error, after, by rw [called], ?_, by simp⟩
            exact fun unknown => absurd unknown fault.foreign
        | none =>
            rw [store_run]
            simp only
            have dispatch := dispatch_run durableKey present running owner sole
            by_cases same : claimed.idempotencyKey = durableKey
            · rw [if_pos same] at dispatch
              refine Or.inl ⟨_, ?_, ⟨unclaimed.1, unclaimed.2, key ▸ same⟩,
                by simp, dispatch.2⟩
              simp only [dispatch.1, if_true]
              rfl
            · rw [if_neg same] at dispatch
              refine Or.inr ⟨_, _, by simp only [dispatch.1, Bool.false_eq_true, if_false]; rfl,
                fun _ => uncommitted dispatch.2 (by simp [running]), ?_⟩
              rintro ⟨⟨_, _, own⟩, _⟩
              exact same (key.trans own)
      · rw [if_neg unclaimed] at claim
        rw [claim.1]
        refine Or.inr ⟨_, _, rfl, fun _ => uncommitted claim.2 unsettled, ?_⟩
        rintro ⟨⟨pending, unspent, _⟩, _⟩
        exact unclaimed ⟨pending, unspent⟩

theorem prepare_prepared (drawn : Drawn state uuid4) :
    Prepared digest context tool uuid4 around state input idempotencyKey
      (prepareSideEffectOperation digest context tool uuid4 around input idempotencyKey state) := by
  unfold prepareSideEffectOperation
  rw [bind_run]
  cases read : around.getOrCreate with
  | some fault =>
      obtain ⟨after, called⟩ := store_struck fault (.getOrCreate (sideEffectStage digest context
        tool (operationIdentity digest tool input idempotencyKey) (digest.stableHash input))) state
      rw [called]
      refine .refused (fun unknown => absurd unknown fault.foreign) ?_ ?_
      · rintro ⟨_, calm, _⟩
        simp [read] at calm
      · rintro ⟨calm, _⟩
        simp [read] at calm
  | none =>
      obtain ⟨row, answered, present, settled, uncommitted, unclaimed⟩ :=
        created_row digest context tool state input idempotencyKey
      have free := getOrCreate_sole (sideEffectStage digest context tool
        (operationIdentity digest tool input idempotencyKey) (digest.stableHash input)) drawn rfl
      rw [store_run]
      simp only
      generalize ((StageOp.getOrCreate (sideEffectStage digest context tool
        (operationIdentity digest tool input idempotencyKey)
        (digest.stableHash input))).perform state) = called at answered present free ⊢
      obtain ⟨stage, created⟩ := called
      cases answered
      simp only at present free ⊢
      by_cases succeeded : stage.status = .succeeded
      · rw [if_pos succeeded]
        exact .settled read (settled succeeded) succeeded present
      · rw [if_neg succeeded]
        have untouched : ¬ (around.getOrCreate = none ∧
            Committed state (operationKey digest tool input idempotencyKey)) :=
          fun committed => uncommitted succeeded committed.2
        by_cases dispatched : (stage.status = .running || stage.status = .outcomeUnknown) = true
        · rw [if_pos dispatched]
          refine .refused (fun _ => ?_) (fun free => ?_) untouched
          · rintro ⟨other, same, settled⟩
            rw [present] at same
            cases same
            exact succeeded settled
          · have pending : stage.status = .pending := (unclaimed.mp free.1).1
            simp [pending] at dispatched
        · rw [if_neg dispatched]
          rcases claim_run present succeeded free with
            ⟨after, claimed, fresh, calm, waiting⟩ | ⟨error, after, claimed, unknown, struck⟩
          · have run : claimOperation tool uuid4 around (sideEffectStageKey digest tool
                (operationIdentity digest tool input idempotencyKey)) (context.run.runId ++ ":" ++
                  sideEffectStageKey digest tool (operationIdentity digest tool input
                    idempotencyKey)) created = _ := claimed
            rw [run]
            exact .dispatched (unclaimed.mpr fresh) ⟨read, calm⟩ waiting
          · have run : claimOperation tool uuid4 around (sideEffectStageKey digest tool
                (operationIdentity digest tool input idempotencyKey)) (context.run.runId ++ ":" ++
                  sideEffectStageKey digest tool (operationIdentity digest tool input
                    idempotencyKey)) created = _ := claimed
            rw [run]
            exact .refused unknown (fun free => struck ⟨unclaimed.mp free.1, free.2.2⟩) untouched

end Preparation

section Completion

variable (tool : ToolSpec) (around : Surroundings) {uuid4 : Uuid} {state : State}
  {stageKey durableKey : String}

theorem uncommitted_row {row : AgentStage} (found : state.stages.find stageKey = some row)
    (unsettled : row.status ≠ .succeeded) : ¬ Committed state stageKey := by
  rintro ⟨other, same, succeeded⟩
  rw [found] at same
  cases same
  exact unsettled succeeded

/-- The first completion write of a waiting operation. -/
theorem returned_run (waiting : Waiting state stageKey durableKey uuid4) :
    ((StageOp.markSideEffectReturned durableKey uuid4).perform state).1 = true ∧
      ∃ row, ((StageOp.markSideEffectReturned durableKey uuid4).perform state).2.stages.find
          stageKey = some row ∧ row.status = .outcomeUnknown ∧ row.executionId = some uuid4 ∧
        row.errorType = some "SIDE_EFFECT_RETURNED" ∧
        Sole ((StageOp.markSideEffectReturned durableKey uuid4).perform state).2 stageKey uuid4 := by
  obtain ⟨⟨row, found, unknown, owner, key⟩, sole⟩ := waiting
  have owned : ∀ row, returnedWhere durableKey uuid4 row = true →
      row.executionId = some uuid4 := by
    intro row holds
    simp only [returnedWhere, Bool.and_eq_true, decide_eq_true_eq] at holds
    exact holds.2
  have hit : returnedWhere durableKey uuid4 row = true := by
    simp [returnedWhere, unknown, owner, key]
  simp only [StageOp.perform]
  rw [update_answer sole owned found]
  exact ⟨hit, _, update_hit found hit, unknown, owner, rfl, update_sole sole fun _ => rfl⟩

theorem succeeded_run {row : AgentStage} (output : Json)
    (found : state.stages.find stageKey = some row) (unknown : row.status = .outcomeUnknown)
    (owner : row.executionId = some uuid4)
    (marked : row.errorType = some "SIDE_EFFECT_RETURNED") (sole : Sole state stageKey uuid4) :
    ((StageOp.markSucceeded stageKey uuid4 output).perform state).1 = true ∧
      Committed ((StageOp.markSucceeded stageKey uuid4 output).perform state).2 stageKey := by
  have named : row.stageKey = stageKey := Table.find_key found
  have owned : ∀ row, activeWhere stageKey uuid4 [.running, .outcomeUnknown] true row = true →
      row.executionId = some uuid4 := by
    intro row holds
    simp only [activeWhere, Bool.and_eq_true, decide_eq_true_eq] at holds
    exact holds.2
  have hit : activeWhere stageKey uuid4 [.running, .outcomeUnknown] true row = true := by
    simp [activeWhere, named, unknown, owner, marked]
  simp only [StageOp.perform]
  rw [update_answer sole owned found]
  exact ⟨hit, _, update_hit found hit, rfl⟩

theorem complete_run (waiting : Waiting state stageKey durableKey uuid4) (output : Fields) :
    (Applied around ∧
      ∃ after, completeSideEffectOperation tool around ⟨stageKey, durableKey, some uuid4, .null⟩
          output state = (match around.completed with
            | none => (.ok (), after)
            | some fault => (.error fault.error, after)) ∧ Committed after stageKey) ∨
    (¬ Applied around ∧
      ∃ error after, completeSideEffectOperation tool around
          ⟨stageKey, durableKey, some uuid4, .null⟩ output state = (.error error, after) ∧
        ¬ Committed after stageKey) := by
  obtain ⟨answered, row, present, unknown, owner, marked, sole⟩ := returned_run waiting
  have unsettled : ¬ Committed
      ((StageOp.markSideEffectReturned durableKey uuid4).perform state).2 stageKey :=
    uncommitted_row present (by simp [unknown])
  unfold completeSideEffectOperation
  simp only
  rw [bind_run]
  cases returned : around.returned with
  | some fault =>
      refine Or.inr ⟨fun calm => by simp [Applied, returned] at calm, ?_⟩
      cases fault with
      | refused strike =>
          obtain ⟨⟨before, found, waiting, _⟩, _⟩ := waiting
          exact ⟨strike.error, state, rfl, uncommitted_row found (by simp [waiting])⟩
      | unacknowledged strike => exact ⟨strike.error, _, rfl, unsettled⟩
  | none =>
      rw [store_run]
      simp only [answered, if_true]
      rw [bind_run]
      obtain ⟨accepted, committed⟩ := succeeded_run (.object output) present unknown owner marked sole
      cases completed : around.completed with
      | none =>
          refine Or.inl ⟨⟨returned, by simp [completed]⟩, _, ?_, committed⟩
          rw [store_run]
          simp only [accepted, if_true]
          rfl
      | some fault =>
          cases fault with
          | refused strike =>
              exact Or.inr ⟨fun calm => calm.2 strike completed, strike.error, _, rfl, unsettled⟩
          | unacknowledged strike => exact Or.inl ⟨⟨returned, by simp [completed]⟩, _, rfl, committed⟩

theorem committed_kept (op : StageOp) (committed : Committed state stageKey) :
    Committed (op.perform state).2 stageKey := by
  obtain ⟨row, found, succeeded⟩ := committed
  obtain ⟨set, _, rows⟩ := op.find_perform state
  have missed : op.hits row = false := by
    by_contra hit
    exact (StageOp.hits_unsettled (by simpa using hit)).1 succeeded
  refine ⟨row, ?_, succeeded⟩
  rw [rows, StageOp.inserted_kept found]
  simp [missed]

/-- A write answers or raises, and keeps a committed response either way. -/
theorem store_kept (fault : Option StoreFault) (op : StageOp)
    (committed : Committed state stageKey) : ∃ after, store fault op state =
      ((match fault with
        | none => .ok (op.perform state).1
        | some fault => .error fault.error), after) ∧ Committed after stageKey := by
  rcases fault with _ | _ | _
  · exact ⟨_, rfl, committed_kept op committed⟩
  · exact ⟨_, rfl, committed⟩
  · exact ⟨_, rfl, committed_kept op committed⟩

theorem markSucceeded_refused (executionId : Uuid) (output : Json)
    (committed : Committed state stageKey) :
    ((StageOp.markSucceeded stageKey executionId output).perform state).1 = false := by
  obtain ⟨row, found, succeeded⟩ := committed
  have one := Table.countWhere_keyed state.stages stageKey
    (activeWhere stageKey executionId [.running, .outcomeUnknown] true) fun row _ holds => by
      simp only [activeWhere, Bool.and_eq_true, decide_eq_true_eq] at holds
      exact holds.1.1.1
  simp only [StageOp.perform, State.updateStages, beq_eq_false_iff_ne]
  intro counted
  obtain ⟨other, same, active⟩ := one.mp counted
  rw [found] at same
  cases same
  simp [activeWhere, succeeded] at active

theorem complete_settled (durableKey : String) (executionId : Option Uuid) (cached : Json)
    (output : Fields) (committed : Committed state stageKey) :
    ∃ error after, completeSideEffectOperation tool around
        ⟨stageKey, durableKey, executionId, cached⟩ output state = (.error error, after) ∧
      error.isException = true ∧ Committed after stageKey := by
  cases executionId with
  | none => exact ⟨_, state, rfl, rfl, committed⟩
  | some executionId =>
      unfold completeSideEffectOperation
      simp only
      rw [bind_run]
      obtain ⟨marked, called, kept⟩ := store_kept around.returned
        (.markSideEffectReturned durableKey executionId) committed
      rw [called]
      cases around.returned with
      | some fault => exact ⟨_, _, rfl, fault.isException, kept⟩
      | none =>
          simp only
          split
          · rw [bind_run]
            obtain ⟨completed, again, still⟩ := store_kept around.completed
              (.markSucceeded stageKey executionId (.object output)) kept
            rw [again]
            cases around.completed with
            | some fault => exact ⟨_, _, rfl, fault.isException, still⟩
            | none =>
                simp only
                rw [markSucceeded_refused executionId (.object output) kept]
                exact ⟨_, _, rfl, rfl, still⟩
          · exact ⟨_, _, rfl, rfl, kept⟩

end Completion

section Calls

variable {digest : Digest} {context : AgentContext} {tool : ToolSpec} {uuid4 : Uuid}
  {around : Surroundings} {state : State} {input : Json} {idempotencyKey : Option String}

theorem invokeOnce_run (effect : SideEffect) (state : State) :
    invokeOnce tool around effect state = match answer around with
      | .error error => (.error error, state)
      | .ok (output, rejected) =>
          let response := match rejected with
            | some message => guardrailBlocked message "Tool output rejected by guardrail"
            | none => output
          match completeSideEffectOperation tool around effect response state with
          | (.error error, after) => (.error error, after)
          | (.ok _, after) => match firstStrike (report around rejected) with
              | none => (.ok response, after)
              | some error => (.error error, after) := by
  unfold invokeOnce
  rw [bind_run, lift_run]
  cases answer around with
  | error error => rfl
  | ok answered =>
      obtain ⟨output, rejected⟩ := answered
      simp only
      rw [bind_run]
      generalize completeSideEffectOperation tool around effect _ state = completed
      obtain ⟨outcome, after⟩ := completed
      cases outcome with
      | error error => rfl
      | ok _ =>
          simp only
          rw [bind_run, report_run]
          cases firstStrike (report around rejected) <;> rfl

/-- A failure of the `try` block is told truly unless the response stands and its handler
gets to the end. -/
theorem failed_truthful (error : Exc) {stageKey : String} (state : State) :
    Truthful (failed tool around error state) stageKey ↔
      (Committed state stageKey → ¬ Reported around error) := by
  obtain ⟨raised, called, unknown⟩ := failed_run tool around error state
  rw [called, truthful_result_iff]
  constructor
  · intro truthful committed reported
    exact truthful raised rfl (unknown.mpr reported) committed
  · rintro truthful _ ⟨rfl⟩ same committed
    exact truthful committed (unknown.mp same)

theorem truthful_returned {outcome : Json} {stageKey : String} (state : State) :
    Truthful (.ok outcome, state) stageKey := nofun

end Calls

section Outcomes

variable {digest : Digest} {context : AgentContext} {tool : ToolSpec} {uuid4 : Uuid}
  {around : Surroundings} {state : State} {stageKey durableKey : String}

theorem attempted_run (effect : SideEffect) (state : State) :
    attempted tool around effect state = match invokeOnce tool around effect state with
      | (.ok output, after) => (.ok (.object output), after)
      | (.error error, after) => failed tool around error after := by
  rw [attempted, tryCatch_run, map_run]
  cases invokeOnce tool around effect state with
  | mk outcome after => cases outcome <;> rfl

theorem attempted_truthful (waiting : Waiting state stageKey durableKey uuid4) :
    Truthful (attempted tool around ⟨stageKey, durableKey, some uuid4, .null⟩ state) stageKey ↔
      ¬ (Applied around ∧ ∃ output rejected strike, answer around = .ok (output, rejected) ∧
        firstStrike (around.completed.map StoreFault.error :: report around rejected) =
          some strike ∧ Reported around strike) := by
  rw [attempted_run, invokeOnce_run]
  cases answered : answer around with
  | error error =>
      obtain ⟨⟨row, found, unknown, _⟩, _⟩ := waiting
      have uncommitted := uncommitted_row found (by simp [unknown])
      refine iff_of_true ((failed_truthful error state).mpr fun committed => ?_) ?_
      · exact absurd committed uncommitted
      · rintro ⟨_, _, _, _, ⟨⟩, _⟩
  | ok response =>
      obtain ⟨output, rejected⟩ := response
      simp only
      generalize (match rejected with
        | some message => guardrailBlocked message "Tool output rejected by guardrail"
        | none => output) = response
      -- Either both completion writes are applied, and only a later strike can hide the response,
      -- or the row keeps its unknown outcome and the error tells the truth.
      rcases complete_run tool around waiting response with
        ⟨applied, after, completed, committed⟩ | ⟨unapplied, error, after, completed, uncommitted⟩
      · rw [completed]
        cases written : around.completed with
        | some fault =>
            simp only
            rw [failed_truthful]
            constructor
            · rintro truthful ⟨_, _, _, strike, ⟨rfl⟩, first, reported⟩
              have same : fault.error = strike := Option.some.inj first
              exact truthful committed (same ▸ reported)
            · intro unreported _ reported
              exact unreported ⟨applied, output, rejected, fault.error, rfl, rfl, reported⟩
        | none =>
            simp only
            cases first : firstStrike (report around rejected) with
            | none =>
                refine iff_of_true (truthful_returned after) ?_
                rintro ⟨_, _, _, strike, ⟨rfl⟩, struck, _⟩
                have same : firstStrike (report around rejected) = some strike := struck
                rw [first] at same
                cases same
            | some error =>
                simp only
                rw [failed_truthful]
                constructor
                · rintro truthful ⟨_, _, _, strike, ⟨rfl⟩, struck, reported⟩
                  have same : firstStrike (report around rejected) = some strike := struck
                  rw [first] at same
                  cases same
                  exact truthful committed reported
                · intro unreported _ reported
                  exact unreported ⟨applied, output, rejected, error, rfl, first, reported⟩
      · rw [completed]
        refine iff_of_true ((failed_truthful error after).mpr fun committed => ?_) ?_
        · exact absurd committed uncommitted
        · rintro ⟨applied, _⟩
          exact unapplied applied

theorem attempted_settled {executionId : Option Uuid} {cached : Json}
    (committed : Committed state stageKey) :
    Truthful (attempted tool around ⟨stageKey, durableKey, executionId, cached⟩ state) stageKey ↔
      ¬ ((∃ strike, answer around = .error strike ∧ strike.isException = false) ∨
        around.failureBreaker = none ∧ around.failureLog = none ∧ around.failureLogger = none) := by
  rw [attempted_run, invokeOnce_run]
  cases answered : answer around with
  | error error =>
      simp only
      rw [failed_truthful]
      by_cases caught : error.isException = true
      · simp [committed, Reported, caught]
      · simp [committed, Reported, caught]
  | ok response =>
      obtain ⟨output, rejected⟩ := response
      simp only
      generalize (match rejected with
        | some message => guardrailBlocked message "Tool output rejected by guardrail"
        | none => output) = response
      obtain ⟨error, after, completed, caught, kept⟩ :=
        complete_settled tool around durableKey executionId cached response committed
      rw [completed]
      simp only
      rw [failed_truthful]
      simp [kept, Reported, caught]

end Outcomes

/-- A call tells the truth about its operation, exactly where it is not struck between the
commit of its response and its end, and where no null response was committed before. -/
theorem unknown_outcome_truthful_iff (digest : Digest) (context : AgentContext) (tool : ToolSpec)
    (uuid4 : Uuid) (around : Surroundings) (state : State) (input : Json)
    (idempotencyKey : Option String) (drawn : Drawn state uuid4) :
    Truthful (callWithRetries digest context tool uuid4 around input idempotencyKey state)
        (operationKey digest tool input idempotencyKey) ↔
      ¬ StruckLate around state (operationKey digest tool input idempotencyKey)
          (durableKey digest context tool input idempotencyKey) ∧
        ¬ NullResponse around state (operationKey digest tool input idempotencyKey) := by
  have prepared : Prepared digest context tool uuid4 around state input idempotencyKey
    (prepareSideEffectOperation digest context tool uuid4 around input idempotencyKey state) :=
    prepare_prepared drawn
  rw [callWithRetries, bind_run]
  generalize prepareSideEffectOperation digest context tool uuid4 around input idempotencyKey
    state = result at prepared
  -- The three ends of the preparation: a response from before, a refusal, a fresh claim.
  cases prepared with
  | @settled row after read found succeeded present =>
      have claimed : ¬ StruckLate around state (operationKey digest tool input idempotencyKey)
          (durableKey digest context tool input idempotencyKey) := by
        rintro ⟨unclaimed, _⟩
        have pending := (unclaimed row found).1
        rw [succeeded] at pending
        cases pending
      by_cases null : row.output.isNull = true
      · have uncached : (!row.output.isNull) = false := by simpa using null
        simp only [uncached, Bool.false_eq_true, if_false]
        rw [attempted_settled ⟨row, present, succeeded⟩]
        constructor
        · intro calm
          exact ⟨claimed, fun response => calm response.struck⟩
        · rintro ⟨_, answered⟩ struck
          exact answered ⟨read, ⟨row, found, succeeded, null⟩, struck⟩
      · have cached : (!row.output.isNull) = true := by simpa using null
        simp only [cached, if_true]
        refine iff_of_true (truthful_returned after) ⟨claimed, ?_⟩
        rintro ⟨_, ⟨other, same, _, empty⟩, _⟩
        rw [found] at same
        cases same
        exact null empty
  | @refused error after unknown disturbed uncommitted =>
      refine iff_of_true ((truthful_result_iff _ _).mpr ?_) ⟨?_, ?_⟩
      · rintro _ ⟨rfl⟩
        exact unknown
      · rintro ⟨unclaimed, calm, _⟩
        exact disturbed ⟨unclaimed, calm⟩
      · rintro ⟨read, ⟨row, found, succeeded, _⟩, _⟩
        exact uncommitted ⟨read, row, found, succeeded⟩
  | @dispatched after unclaimed calm waiting =>
      have fresh : ¬ NullResponse around state (operationKey digest tool input idempotencyKey) := by
        rintro ⟨_, ⟨row, found, succeeded, _⟩, _⟩
        have pending := (unclaimed row found).1
        rw [succeeded] at pending
        cases pending
      have truthful : Truthful (attempted tool around
          ⟨operationKey digest tool input idempotencyKey,
            durableKey digest context tool input idempotencyKey, some uuid4, .null⟩ after)
          (operationKey digest tool input idempotencyKey) ↔ _ := attempted_truthful waiting
      simp only [Json.isNull, Bool.not_true, Bool.false_eq_true, if_false]
      constructor
      · intro told
        refine ⟨fun late => ?_, fresh⟩
        exact truthful.mp told ⟨late.applied, late.struck⟩
      · rintro ⟨prompt, _⟩
        refine truthful.mpr ?_
        rintro ⟨applied, struck⟩
        exact prompt ⟨unclaimed, calm, applied, struck⟩

section Samples

def payTool : ToolSpec := { name := "pay", operationType := .sideEffecting }

def payContext : AgentContext where
  process := "worker-a"
  run := { runId := "RUN-1", routeTag := "echo", requestId := "REQ-1" }
  agent := { name := "echo", version := "1.0.0", routeTags := ["echo"] }
  cancellationSignal := none

def plainDigest : Digest := { stableHash := fun _ => "0f", sha256 := fun text => text }

def pay (around : Surroundings) : Except Exc Json × State :=
  callWithRetries plainDigest payContext payTool ⟨1⟩ around (.object []) (some "order-7")
    StageMachine.blank

def payKey : String := operationKey plainDigest payTool (.object []) (some "order-7")

def smooth : Surroundings := { backend := .ok [("paid", .bool true)] }

theorem unknown_outcome_truthful_smooth : Truthful (pay smooth) payKey := by
  refine (unknown_outcome_truthful_iff plainDigest payContext payTool ⟨1⟩ smooth
    StageMachine.blank (.object []) (some "order-7") ⟨fun row member => nomatch member⟩).mpr
      ⟨?_, ?_⟩
  · rintro ⟨_, _, _, _, _, strike, ⟨rfl⟩, struck, _⟩
    cases struck
  · rintro ⟨_, ⟨row, found, _⟩, _⟩
    cases found

def unlogged : Surroundings :=
  { smooth with log := some ⟨.runtime "database is gone", by decide, by decide⟩ }

/-- The paid order stops its run, and `retry` leaves that run where it is. -/
theorem committed_response_unknown : ∃ error, (pay unlogged).1 = .error error ∧
    error.name = "SideEffectOutcomeUnknownError" ∧ Committed (pay unlogged).2 payKey ∧
    RunManager.retryable (RunExecutor.failedRun payContext.run 1 1 300 error) = false ∧
    ¬ Truthful (pay unlogged) payKey := by
  have raised : ∃ error, (pay unlogged).1 = .error error ∧
      error.name = "SideEffectOutcomeUnknownError" ∧
      error.kind = .externalSideEffectOutcomeUnknownError := ⟨_, rfl, rfl, rfl⟩
  obtain ⟨error, same, name, unknown⟩ := raised
  have committed : Committed (pay unlogged).2 payKey := ⟨_, rfl, rfl⟩
  refine ⟨error, same, name, committed, ?_, ?_⟩
  · have stopped := (classify_unknown 1 1 error).mpr unknown
    simp [RunManager.retryable, RunExecutor.failedRun, stopped]
  · intro truthful
    exact (truthful error same committed).1 unknown

end Samples

end AgentTaskPlatform.ToolOutcome
