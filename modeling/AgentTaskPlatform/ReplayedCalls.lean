import AgentTaskPlatform.CallProtocol
import AgentTaskPlatform.SideEffects

/-!
Replays of side effects. A call finds the row of its operation by the idempotency key and
does not compare the input hash that the row stores. Where every call finds its own input
hash in a row it does not refuse, a replayed output was produced by an invocation of the
same tool with the same input.
-/

namespace AgentTaskPlatform.ReplayedCalls

open Interleaving KeyedTable ToolGateway CallProtocol

def Asks (thread : Nat) (row stored : AgentStage) (event : PlatformEvent) : Prop :=
  ∃ tag before after, event = .acted thread tag (.stage (.getOrCreate row)) stored before after

def Invokes (thread : Nat) (tool : ToolSpec) (carried : Option String) (input : Json)
    (event : PlatformEvent) : Prop :=
  ∃ tag answer before after,
    event = .acted thread tag (.external (.invoke tool carried input)) answer before after

def Commits (thread : Nat) (stageKey : String) (output : Json) (event : PlatformEvent) : Prop :=
  ∃ tag executionId before after, event =
    .acted thread tag (.stage (.markSucceeded stageKey executionId output)) true before after

def Called (events : List PlatformEvent) (thread : Nat) (input : Json)
    (idempotencyKey : Option String) : Prop :=
  ∃ context toolName tag before after,
    .launched (.toolCall context toolName input idempotencyKey) (some (thread, tag)) before after ∈
      events

section

variable (digest : Digest)

def Produced (past : List PlatformEvent) (stored : AgentStage) : Prop :=
  ∃ thread tool identity input,
    (∃ event ∈ past, Invokes thread tool (some identity) input event) ∧
    (∃ event ∈ past, Commits thread stored.stageKey stored.output event) ∧
    stored.stageKey = sideEffectStageKey digest tool identity ∧
    stored.inputHash = digest.stableHash input

/-- A stage row of an operation is found with the requested input hash, or it is one that
the gateway refuses; and no application stage takes the key of an operation. -/
def Matched : PlatformEvent → Prop
  | .acted _ _ (.stage (.getOrCreate row)) _ before _ =>
      ∀ tool identity, row.stageKey = sideEffectStageKey digest tool identity →
      ∀ stored, before.stages.find row.stageKey = some stored →
        stored.inputHash = row.inputHash ∨ refused stored
  | .launched (.runStage _ stageKey _ _ _ _) _ _ _ =>
      ∀ tool identity, stageKey ≠ sideEffectStageKey digest tool identity
  | .launched (.saveCheckpoint _ stageKey _ _) _ _ _ =>
      ∀ tool identity, stageKey ≠ sideEffectStageKey digest tool identity
  | _ => True

structure SameCall (events : List PlatformEvent) (final : PlatformConfig) : Prop where
  replayed : ∀ thread input idempotencyKey tag output,
    Called events thread input idempotencyKey →
    final.threads[thread]? = some ⟨tag, .ret (.ok output)⟩ →
    (∃ row stored, ∃ event ∈ events, Asks thread row stored event) →
    (∀ event ∈ events, ∀ tool carried given, ¬ Invokes thread tool carried given event) →
    ∃ context tool producer made identity given,
      (∃ stored, ∃ event ∈ events,
        Asks thread (requested digest input idempotencyKey context tool) stored event) ∧
      (∃ event ∈ events, Invokes producer made (some identity) given event) ∧
      (∃ event ∈ events, Commits producer
        (requested digest input idempotencyKey context tool).stageKey output event) ∧
      made.name = tool.name ∧ digest.stableHash given = digest.stableHash input
  refused : ∀ thread input idempotencyKey row stored,
    Called events thread input idempotencyKey →
    (∃ event ∈ events, Asks thread row stored event) → stored.inputHash ≠ row.inputHash →
    (∀ event ∈ events, ∀ tool carried given, ¬ Invokes thread tool carried given event) ∧
    ∀ tag outcome, final.threads[thread]? = some ⟨tag, .ret outcome⟩ →
      ∃ error, outcome = .error error

end

section Rows

variable {digest : Digest} {state : State} {stageKey : String}

theorem Produced.mono {past later : List PlatformEvent} {stored : AgentStage}
    (produced : Produced digest past stored) (kept : ∀ event ∈ past, event ∈ later) :
    Produced digest later stored := by
  obtain ⟨thread, tool, identity, input, ⟨event, member, invokes⟩, ⟨last, stored, commits⟩,
    key, hash⟩ := produced
  exact ⟨thread, tool, identity, input, ⟨event, kept event member, invokes⟩,
    ⟨last, kept last stored, commits⟩, key, hash⟩

theorem perform_inputHash (op : Op) (oracle : op.Answer) {stage : AgentStage}
    (found : state.stages.find stageKey = some stage) :
    ∃ after, (Op.perform op oracle state).2.stages.find stageKey = some after ∧
      after.inputHash = stage.inputHash := by
  rcases perform_stages op oracle state with
    same | ⟨row, rfl, same⟩ | ⟨stageOp, rfl, same⟩
  · rw [same]
    exact ⟨stage, found, rfl⟩
  · rw [same, find_resetFailed, found, Option.map_some]
    by_cases failed : stage.status = .failed
    · rw [if_pos failed]
      exact ⟨_, rfl, rfl⟩
    · rw [if_neg failed]
      exact ⟨_, rfl, rfl⟩
  · obtain ⟨set, _, rows⟩ := stageOp.find_perform state
    rw [same, rows, StageOp.inserted_kept found, Option.map_some]
    by_cases hit : stageOp.hits stage = true
    · rw [if_pos hit]
      exact ⟨_, rfl, rfl⟩
    · rw [if_neg hit]
      exact ⟨_, rfl, rfl⟩

theorem stageKey_tool (lengths : ∀ text, (digest.sha256 text).length = 64) {tool other : ToolSpec}
    {identity carried : String}
    (same : sideEffectStageKey digest tool identity = sideEffectStageKey digest other carried) :
    tool.name = other.name := by
  have parts := congrArg String.toList same
  simp only [sideEffectStageKey, String.toList_append, List.append_assoc,
    String.toList_ofList] at parts
  have tails := List.append_cancel_left parts
  have first : ((digest.sha256 identity).toList.take 32).length = 32 := by
    simp [String.length_toList, lengths]
  have second : ((digest.sha256 carried).toList.take 32).length = 32 := by
    simp [String.length_toList, lengths]
  simp only [← List.append_assoc] at tails
  obtain ⟨names, _⟩ := List.append_inj' tails (first.trans second.symm)
  obtain ⟨names, _⟩ := List.append_inj' names rfl
  exact String.toList_injective names

end Rows

section Calls

variable {digest : Digest} {past : List PlatformEvent} {state after : State} {thread : Nat}
  {input : Json} {idempotencyKey : Option String} {standing : Standing} {event : PlatformEvent}

def Stored (state : State) (row : AgentStage) : Prop :=
  ∃ current, state.stages.find row.stageKey = some current ∧ current.inputHash = row.inputHash

structure Elsewhere (thread : Nat) (event : PlatformEvent) : Prop where
  unasked : ∀ row stored, ¬ Asks thread row stored event
  silent : ∀ tool carried given, ¬ Invokes thread tool carried given event

theorem elsewhere_launched {entry : Entry} {spawned : Option (Nat × Tag)} {before after : State} :
    Elsewhere thread (.launched entry spawned before after) := by
  refine ⟨?_, ?_⟩
  · rintro row stored ⟨_, _, _, same⟩
    cases same
  · rintro tool carried given ⟨_, _, _, _, same⟩
    cases same

theorem elsewhere_performed {deployment : Deployment} {admitted : Entry → Bool} {index : Nat}
    {tag : Tag} {op : Op} {oracle : op.Answer} (aside : index ≠ thread ∨ watched op = false) :
    Elsewhere index
      ((platformSystem deployment admitted).performed thread tag op oracle state) := by
  refine ⟨?_, ?_⟩
  · rintro row stored ⟨_, _, _, same⟩
    cases same
    rcases aside with other | silent
    · exact other rfl
    · cases silent
  · rintro tool carried given ⟨_, _, _, _, same⟩
    cases same
    rcases aside with other | silent
    · exact other rfl
    · cases silent

theorem grown {holds : PlatformEvent → Prop} (old : ∀ other ∈ past, holds other)
    (new : holds event) : ∀ other ∈ past ++ [event], holds other := by
  intro other member
  rcases List.mem_append.mp member with before | last
  · exact old other before
  · rw [List.mem_singleton.mp last]
    exact new

inductive Holds (digest : Digest) (past : List PlatformEvent) (state : State) (thread : Nat)
    (input : Json) (idempotencyKey : Option String) : Standing → Prop
  | sought (quiet : ∀ event ∈ past, Elsewhere thread event) :
      Holds digest past state thread input idempotencyKey .sought
  | free (unasked : ∀ event ∈ past, ∀ row stored, ¬ Asks thread row stored event) :
      Holds digest past state thread input idempotencyKey .free
  | found {stored} (context tool)
      (asked : ∃ event ∈ past,
        Asks thread (requested digest input idempotencyKey context tool) stored event)
      (once : ∀ event ∈ past, ∀ row seen, Asks thread row seen event →
        row = requested digest input idempotencyKey context tool ∧ seen = stored)
      (silent : ∀ event ∈ past, ∀ tool carried given, ¬ Invokes thread tool carried given event)
      (key : stored.stageKey = (requested digest input idempotencyKey context tool).stageKey)
      (accepted : ¬ refused stored → stored.inputHash = digest.stableHash input ∧
        Stored state (requested digest input idempotencyKey context tool))
      (produced : stored.status = .succeeded → Produced digest past stored) :
      Holds digest past state thread input idempotencyKey
        (.found (requested digest input idempotencyKey context tool) stored)
  | invoked {row} (tool)
      (invokes : ∃ event ∈ past, Invokes thread tool
        (some (operationIdentity digest tool input idempotencyKey)) input event)
      (key : row.stageKey = sideEffectStageKey digest tool
        (operationIdentity digest tool input idempotencyKey))
      (hash : row.inputHash = digest.stableHash input)
      (matched : ∀ event ∈ past, ∀ row seen, Asks thread row seen event →
        seen.inputHash = row.inputHash)
      (stored : Stored state row) :
      Holds digest past state thread input idempotencyKey (.invoked row)

theorem newest {holds : PlatformEvent → Prop} (new : holds event) :
    ∃ other ∈ past ++ [event], holds other :=
  ⟨event, List.mem_append_right past (List.mem_singleton_self event), new⟩

theorem Holds.next (holds : Holds digest past state thread input idempotencyKey standing)
    (elsewhere : Elsewhere thread event) (kept : ∀ row, Stored state row → Stored after row) :
    Holds digest (past ++ [event]) after thread input idempotencyKey standing := by
  have still {holds : PlatformEvent → Prop} (old : ∃ other ∈ past, holds other) :
      ∃ other ∈ past ++ [event], holds other := by
    obtain ⟨other, member, found⟩ := old
    exact ⟨other, List.mem_append_left _ member, found⟩
  cases holds with
  | sought quiet => exact .sought (grown quiet elsewhere)
  | free unasked => exact .free (grown unasked elsewhere.unasked)
  | found context tool asked once silent key accepted produced =>
      refine .found context tool (still asked) ?_ (grown silent elsewhere.silent) key ?_ ?_
      · exact grown once fun row seen asks => absurd asks (elsewhere.unasked row seen)
      · intro proceeds
        exact ⟨(accepted proceeds).1, kept _ (accepted proceeds).2⟩
      · intro succeeded
        exact (produced succeeded).mono fun _ => List.mem_append_left _
  | invoked tool invokes key hash matched stored =>
      refine .invoked tool (still invokes) key hash ?_ (kept _ stored)
      exact grown matched fun row seen asks => absurd asks (elsewhere.unasked row seen)

end Calls

/-- What holds of a run whose calls find matching rows: the outputs of the operations were
produced by invocations with their input hashes, and every call stands as its events say. -/
structure Inv (digest : Digest) (past : List PlatformEvent) (state : State)
    (phases : List (Phase × CallPhase)) : Prop where
  outputs : ∀ tool identity stage,
    state.stages.find (sideEffectStageKey digest tool identity) = some stage →
    stage.status = .succeeded → Produced digest past stage
  foreign : ∀ (thread : Nat) phase call, phases[thread]? = some (phase, call) →
    ∀ index context stageKey progress, phase = .stage index context stageKey progress ∨
      phase = .checkpoint index context stageKey progress →
    ∀ tool identity, stageKey ≠ sideEffectStageKey digest tool identity
  calls : ∀ (thread : Nat) context progress call,
    phases[thread]? = some (.tool context progress, call) → call ≠ .other
  called : ∀ thread input idempotencyKey, Called past thread input idempotencyKey →
    ∃ phase standing, phases[thread]? = some (phase, .call input idempotencyKey standing)
  standing : ∀ (thread : Nat) phase input idempotencyKey standing,
    phases[thread]? = some (phase, .call input idempotencyKey standing) →
    Holds digest past state thread input idempotencyKey standing
  later : ∀ thread : Nat, phases[thread]? = none → ∀ event ∈ past, Elsewhere thread event

section Steps

variable {deployment : Deployment} {admitted : Entry → Bool} {past : List PlatformEvent}
  {state : State} {phases : List (Phase × CallPhase)} {thread index : Nat} {tag : Tag} {op : Op}
  {oracle : op.Answer} {phase : Phase} {call : CallPhase} {input : Json}
  {idempotencyKey : Option String} {standing : Standing}

theorem stored_step (op : Op) (oracle : op.Answer) (row : AgentStage)
    (stored : Stored state row) : Stored (Op.perform op oracle state).2 row := by
  obtain ⟨current, found, hash⟩ := stored
  obtain ⟨after, later, same⟩ := perform_inputHash op oracle found
  exact ⟨after, later, same.trans hash⟩

theorem holds_aside (holds : Holds deployment.digest past state index input idempotencyKey standing)
    (aside : index ≠ thread ∨ watched op = false) :
    Holds deployment.digest
      (past ++ [(platformSystem deployment admitted).performed thread tag op oracle state])
      (Op.perform op oracle state).2 index input idempotencyKey standing :=
  holds.next (elsewhere_performed aside) (stored_step op oracle)

theorem getOrCreate_stored (row : AgentStage) (state : State) :
    state.stages.find row.stageKey = some ((StageOp.getOrCreate row).perform state).1 ∨
      ((StageOp.getOrCreate row).perform state).1 = row := by
  have answered : (StageOp.inserted state.stages (.getOrCreate row)).find row.stageKey =
      some ((StageOp.getOrCreate row).perform state).1 := StageOp.getOrCreate_answer row state
  rcases StageOp.inserted_found answered with old | ⟨_, same, _⟩
  · exact Or.inl old
  · injection same with same
    exact Or.inr same.symm

theorem asks_step (inv : Inv deployment.digest past state phases) {context : AgentContext}
    {tool : ToolSpec} {row stored : AgentStage} (oracle : AgentStage)
    (named : row = requested deployment.digest input idempotencyKey context tool)
    (answered : stored = ((StageOp.getOrCreate row).perform state).1)
    (holds : Holds deployment.digest past state thread input idempotencyKey .sought)
    (matched : Matched deployment.digest ((platformSystem deployment admitted).performed thread tag
      (.stage (.getOrCreate row)) oracle state)) :
    Holds deployment.digest (past ++ [(platformSystem deployment admitted).performed thread tag
        (.stage (.getOrCreate row)) oracle state])
      (Op.perform (.stage (.getOrCreate row)) oracle state).2 thread input idempotencyKey
      (.found row stored) := by
  have key : row.stageKey = sideEffectStageKey deployment.digest tool
      (operationIdentity deployment.digest tool input idempotencyKey) := by rw [named]; rfl
  have hash : row.inputHash = deployment.digest.stableHash input := by rw [named]; rfl
  have present : (Op.perform (.stage (.getOrCreate row)) oracle state).2.stages.find row.stageKey =
      some stored := by
    rw [answered]
    exact StageOp.getOrCreate_answer row state
  have asks : Asks thread row stored ((platformSystem deployment admitted).performed thread tag
      (.stage (.getOrCreate row)) oracle state) := by
    refine ⟨tag, state, (Op.perform (.stage (.getOrCreate row)) oracle state).2, ?_⟩
    rw [answered]
    rfl
  cases holds with
  | sought quiet =>
      subst named
      refine .found context tool ?_ ?_ ?_ (Table.find_key present) ?_ ?_
      · exact newest asks
      · apply grown
        · intro event member row seen asks
          exact absurd asks ((quiet event member).unasked row seen)
        · rintro row seen ⟨_, _, _, same⟩
          cases same
          exact ⟨rfl, answered.symm⟩
      · apply grown
        · intro event member
          exact (quiet event member).silent
        · rintro tool carried given ⟨_, _, _, _, same⟩
          cases same
      · intro proceeds
        have equal : stored.inputHash = deployment.digest.stableHash input := by
          rcases getOrCreate_stored _ state with found | fresh
          · rw [← answered] at found
            rcases matched tool _ key stored found with same | refuses
            · exact same.trans hash
            · exact absurd refuses proceeds
          · rw [answered, fresh]
            exact hash
        exact ⟨equal, stored, present, equal.trans hash.symm⟩
      · intro succeeded
        rcases getOrCreate_stored _ state with found | fresh
        · rw [← answered, key] at found
          exact (inv.outputs tool _ stored found succeeded).mono fun _ =>
            List.mem_append_left _
        · rw [answered, fresh] at succeeded
          cases succeeded

theorem own_step (inv : Inv deployment.digest past state phases)
    (holds : Holds deployment.digest past state thread input idempotencyKey standing)
    (permitted : CallProtocol.Permitted deployment.digest input idempotencyKey standing op)
    (matched : Matched deployment.digest
      ((platformSystem deployment admitted).performed thread tag op oracle state)) :
    Holds deployment.digest
      (past ++ [(platformSystem deployment admitted).performed thread tag op oracle state])
      (Op.perform op oracle state).2 thread input idempotencyKey
      (standing.after op (Op.perform op oracle state).1) := by
  cases permitted with
  | unwatched op silent =>
      rw [Standing.after_unwatched standing _ silent]
      exact holds_aside holds (Or.inr silent)
  | getOrCreate context tool _ => exact asks_step inv oracle rfl rfl holds matched
  | invokeFreely tool which =>
      have unasked : ∀ event ∈ past, ∀ row stored, ¬ Asks thread row stored event := by
        rcases which with rfl | rfl
        · cases holds with
          | sought quiet => exact fun event member => (quiet event member).unasked
        · cases holds with
          | free unasked => exact unasked
      have next : Holds deployment.digest (past ++
          [(platformSystem deployment admitted).performed thread tag
            (.external (.invoke tool none input)) oracle state])
          (Op.perform (.external (.invoke tool none input)) oracle state).2 thread input
          idempotencyKey .free := by
        apply Holds.free
        apply grown unasked
        rintro row stored ⟨_, _, _, same⟩
        cases same
      rcases which with rfl | rfl <;> exact next
  | @invoke row stored tool key proceeds =>
      cases holds with
      | found context requester asked once silent same accepted produced =>
          obtain ⟨equal, present⟩ := accepted proceeds
          refine .invoked tool ?_ key rfl ?_ (stored_step _ oracle _ present)
          · exact newest ⟨tag, _, state, _, rfl⟩
          · apply grown
            · intro event member row seen asks
              obtain ⟨rfl, rfl⟩ := once event member row seen asks
              exact equal
            · rintro row seen ⟨_, _, _, same⟩
              cases same
  | @markSucceeded row executionId output =>
      apply holds.next ⟨?_, ?_⟩ (stored_step _ oracle)
      · rintro row stored ⟨_, _, _, same⟩
        cases same
      · rintro tool carried given ⟨_, _, _, _, same⟩
        cases same

/-- A row comes to its output by the commit of a call that invoked its tool with the input
of the row. -/
theorem outputs_step (inv : Inv deployment.digest past state phases)
    (present : phases[thread]? = some (phase, call))
    (permitted : phase.permits deployment.digest op)
    (requested : call.permits deployment.digest op) {tool : ToolSpec} {identity : String}
    {stage : AgentStage}
    (found : (Op.perform op oracle state).2.stages.find
      (sideEffectStageKey deployment.digest tool identity) = some stage)
    (succeeded : stage.status = .succeeded) :
    Produced deployment.digest
      (past ++ [(platformSystem deployment admitted).performed thread tag op oracle state]) stage := by
  have fresh : ∀ stage, op = .stage (.getOrCreate stage) → stage.status = .pending := by
    rintro stage rfl
    exact (Phase.inserted_new permitted).1
  rcases SideEffects.perform_result found succeeded fresh with old | ⟨executionId, rfl, commits⟩
  · exact (inv.outputs tool identity stage old succeeded).mono fun _ => List.mem_append_left _
  · cases call with
    | other =>
        exfalso
        cases phase with
        | execution process worker progress => cases permitted
        | tool context progress => exact inv.calls thread context progress .other present rfl
        | stage index context stageKey progress =>
            cases permitted with
            | succeed output _ =>
                exact inv.foreign thread _ _ present index context _ progress (Or.inl rfl) tool
                  identity rfl
        | checkpoint index context stageKey progress =>
            cases permitted with
            | succeed output _ =>
                exact inv.foreign thread _ _ present index context _ progress (Or.inr rfl) tool
                  identity rfl
        | manager process job progress => cases permitted
    | call input idempotencyKey standing =>
        have holds := inv.standing thread phase input idempotencyKey standing present
        generalize key : sideEffectStageKey deployment.digest tool identity = stageKey at *
        cases requested with
        | unwatched op silent => cases silent
        | @markSucceeded row executionId output =>
            cases holds with
            | invoked made invokes rowKey hash matched stored =>
                obtain ⟨current, before, same⟩ := stored
                obtain ⟨after, later, kept⟩ := perform_inputHash
                  (.stage (.markSucceeded row.stageKey executionId stage.output)) oracle before
                rw [found] at later
                cases later
                obtain ⟨event, member, invokes⟩ := invokes
                refine ⟨thread, made, _, input, ⟨event, List.mem_append_left _ member, invokes⟩,
                  newest ⟨tag, executionId, state, (Op.perform (.stage (.markSucceeded
                    row.stageKey executionId stage.output)) oracle state).2, ?_⟩, ?_, ?_⟩
                · rw [Table.find_key found]
                  simp only [System.performed]
                  congr 1
                · rw [Table.find_key found]
                  exact rowKey
                · exact kept.trans (same.trans hash)

end Steps

section Starts

variable {digest : Digest} {state : State} {entry : Entry}

theorem start_foreign {phase : Phase} {index : Nat} {context : AgentContext} {stageKey : String}
    {progress : StageProtocol.Progress} {spawned : Option (Nat × Tag)} {before after : State}
    (matched : Matched digest (.launched entry spawned before after))
    (start : entry.phase state = some phase)
    (named : phase = .stage index context stageKey progress ∨
      phase = .checkpoint index context stageKey progress)
    (tool : ToolSpec) (identity : String) : stageKey ≠ sideEffectStageKey digest tool identity := by
  cases entry with
  | runStage _ key _ _ _ _ =>
      obtain ⟨_, _, rfl⟩ := Option.map_eq_some_iff.mp start
      rcases named with same | same <;> cases same
      exact matched tool identity
  | saveCheckpoint _ key _ _ =>
      obtain ⟨_, _, rfl⟩ := Option.map_eq_some_iff.mp start
      rcases named with same | same <;> cases same
      exact matched tool identity
  | renewal _ =>
      obtain ⟨_, _, rfl⟩ := Option.map_eq_some_iff.mp start
      rcases named with same | same <;> cases same
  | dispatchDelivery _ =>
      obtain ⟨_, _, rfl⟩ := Option.map_eq_some_iff.mp start
      rcases named with same | same <;> cases same
  | toolCall _ _ _ _ =>
      obtain ⟨_, _, rfl⟩ := Option.map_eq_some_iff.mp start
      rcases named with same | same <;> cases same
  | _ => cases start <;> rcases named with same | same <;> cases same

theorem start_call {context : AgentContext} {progress : ToolProtocol.Progress}
    (start : entry.phase state = some (.tool context progress)) :
    CallPhase.start entry ≠ .other := by
  cases entry with
  | toolCall _ _ _ _ => exact nofun
  | renewal _ =>
      obtain ⟨_, _, same⟩ := Option.map_eq_some_iff.mp start
      cases same
  | dispatchDelivery _ =>
      obtain ⟨_, _, same⟩ := Option.map_eq_some_iff.mp start
      cases same
  | runStage _ _ _ _ _ _ =>
      obtain ⟨_, _, same⟩ := Option.map_eq_some_iff.mp start
      cases same
  | saveCheckpoint _ _ _ _ =>
      obtain ⟨_, _, same⟩ := Option.map_eq_some_iff.mp start
      cases same
  | _ => cases start

theorem start_sought {input : Json} {idempotencyKey : Option String} {standing : Standing}
    (start : CallPhase.call input idempotencyKey standing = CallPhase.start entry) :
    standing = .sought := by
  cases entry <;> cases start
  rfl

end Starts

section Runs

variable (deployment : Deployment) (admitted : Entry → Bool)

def tracked : Discipline (platformSystem deployment admitted) (Phase × CallPhase) :=
  (companion deployment admitted).discipline (discipline deployment admitted)

theorem inv_inductive : (tracked deployment admitted).Inductive
    (fun _ event => Matched deployment.digest event) (Inv deployment.digest) where
  acts := by
    rintro past state phases thread tag op oracle ⟨phase, mine⟩ inv present _
      ⟨permitted, requested⟩ matched
    have moved {index : Nat} {later : Phase} {call : CallPhase}
        (found : ((tracked deployment admitted).observe phases
          ((platformSystem deployment admitted).performed thread tag op oracle state))[index]? =
            some (later, call)) :
        (index = thread ∧ later = phase.after op (Op.perform op oracle state).1 ∧
          call = mine.after op (Op.perform op oracle state).1) ∨
        (index ≠ thread ∧ phases[index]? = some (later, call)) := by
      rcases Discipline.performed_phase present found with ⟨same, pair⟩ | ⟨apart, kept⟩
      · cases pair
        exact Or.inl ⟨same, rfl, rfl⟩
      · exact Or.inr ⟨apart, kept⟩
    refine ⟨?_, ?_, ?_, ?_, ?_, ?_⟩
    · intro tool identity stage found succeeded
      exact outputs_step inv present permitted requested found succeeded
    · intro index later call found position context stageKey progress named
      rcases moved found with ⟨rfl, rfl, _⟩ | ⟨_, kept⟩
      · cases phase with
        | stage _ _ _ earlier =>
            rcases named with same | same <;> cases same
            exact inv.foreign index _ _ present _ _ _ earlier (Or.inl rfl)
        | checkpoint _ _ _ earlier =>
            rcases named with same | same <;> cases same
            exact inv.foreign index _ _ present _ _ _ earlier (Or.inr rfl)
        | _ => rcases named with same | same <;> cases same
      · exact inv.foreign index later call kept position context stageKey progress named
    · intro index context progress call found
      rcases moved found with ⟨rfl, same, rfl⟩ | ⟨_, kept⟩
      · obtain ⟨earlier, rfl, _⟩ := SideEffects.tool_after same
        cases mine with
        | other => exact absurd rfl (inv.calls index context earlier .other present)
        | call input idempotencyKey standing => exact nofun
      · exact inv.calls index context progress call kept
    · intro index input idempotencyKey called
      have before : Called past index input idempotencyKey := by
        obtain ⟨context, toolName, own, first, last, member⟩ := called
        rcases List.mem_append.mp member with old | new
        · exact ⟨context, toolName, own, first, last, old⟩
        · cases List.mem_singleton.mp new
      obtain ⟨later, standing, known⟩ := inv.called index input idempotencyKey before
      by_cases same : index = thread
      · subst same
        rw [present] at known
        cases known
        exact ⟨phase.after op (Op.perform op oracle state).1,
          standing.after op (Op.perform op oracle state).1, Discipline.performed_self present⟩
      · refine ⟨later, standing, ?_⟩
        rw [Discipline.performed_other same]
        exact known
    · intro index later input idempotencyKey standing found
      rcases moved found with ⟨rfl, _, same⟩ | ⟨apart, kept⟩
      · cases mine with
        | other => cases same
        | call input idempotencyKey earlier =>
            cases same
            exact own_step inv (inv.standing index phase _ _ earlier present) requested matched
      · exact holds_aside (inv.standing index later _ _ standing kept) (Or.inl apart)
    · intro index absent
      have apart : index ≠ thread := by
        rintro rfl
        rw [Discipline.performed_self present] at absent
        cases absent
      rw [Discipline.performed_other apart] at absent
      exact grown (inv.later index absent) (elsewhere_performed (Or.inl apart))
  launches := by
    intro past config phases entry state spawned followed inv launched matched
    have stages : state.stages = config.state.stages := launch_stages launched
    refine ⟨?_, ?_, ?_, ?_, ?_, ?_⟩
    · intro tool identity stage found succeeded
      rw [stages] at found
      exact (inv.outputs tool identity stage found succeeded).mono fun _ => List.mem_append_left _
    · intro index phase call found position context stageKey progress named
      rcases Companion.launched_phases found with old | ⟨_, start, _⟩
      · exact inv.foreign index phase call old position context stageKey progress named
      · exact start_foreign matched start named
    · intro index context progress call found
      rcases Companion.launched_phases found with old | ⟨_, start, rfl⟩
      · exact inv.calls index context progress call old
      · exact start_call start
    · intro thread input idempotencyKey called
      obtain ⟨context, toolName, tag, first, last, member⟩ := called
      rcases List.mem_append.mp member with old | new
      · obtain ⟨phase, standing, known⟩ := inv.called thread input idempotencyKey
          ⟨context, toolName, tag, first, last, old⟩
        exact ⟨phase, standing, Discipline.launched_kept known⟩
      · have same := List.mem_singleton.mp new
        injection same with entry named _ _
        obtain ⟨phase, known⟩ := Companion.spawned_phases followed launched named.symm
        rw [← entry] at known
        exact ⟨phase, .sought, by rw [← entry]; exact known⟩
    · intro index phase input idempotencyKey standing found
      rcases Companion.launched_phases found with old | ⟨position, _, start⟩
      · apply (inv.standing index phase input idempotencyKey standing old).next elsewhere_launched
        intro row stored
        unfold Stored
        rw [stages]
        exact stored
      · cases start_sought start
        have absent : phases[index]? = none := by simp [position]
        exact .sought (grown (inv.later index absent) elsewhere_launched)
    · intro index absent
      have before : phases[index]? = none := by
        cases known : phases[index]? with
        | none => rfl
        | some old =>
            rw [Discipline.launched_kept known] at absent
            cases absent
      exact grown (inv.later index before) elsewhere_launched

theorem inv_initial {state : State} (blank : state.stages = Table.empty) :
    Inv deployment.digest [] state [] := by
  refine ⟨?_, ?_, ?_, ?_, ?_, ?_⟩
  · intro tool identity stage found
    rw [blank] at found
    cases found
  · intro thread phase call found
    cases found
  · intro thread context progress call found
    cases found
  · rintro thread input idempotencyKey ⟨_, _, _, _, _, member⟩
    cases member
  · intro thread phase input idempotencyKey standing found
    cases found
  · intro thread _ event member
    cases member

theorem called_concludes {deployment : Deployment} {run : AgentRun} {clock : Nat}
    {conversation : Option String} {events : List PlatformEvent} {final : PlatformConfig}
    (ran : (platformSystem deployment fun _ => true).Run
      (atRest (State.initial run clock conversation)) events final)
    (matched : ∀ event ∈ events, Matched deployment.digest event) {thread : Nat} {input : Json}
    {idempotencyKey : Option String} (called : Called events thread input idempotencyKey) :
    ∃ standing,
      Holds deployment.digest events final.state thread input idempotencyKey standing ∧
      ∀ tag outcome, final.threads[thread]? = some ⟨tag, .ret outcome⟩ →
        Concluded outcome standing := by
  have reached := (inv_inductive deployment fun _ => true).run ran rfl
    (fun left event right split => matched event (by simp [split]))
    (inv_initial deployment rfl)
  have followed := Discipline.run_tracked (D := tracked deployment fun _ => true) ran
    (Discipline.tracked_empty rfl)
  obtain ⟨phase, standing, known⟩ := reached.called thread input idempotencyKey called
  refine ⟨standing, reached.standing thread phase input idempotencyKey standing known, ?_⟩
  intro tag outcome finished
  exact (followed.follows thread _ _ finished known).2.2

end Runs

def orderInput : Json := .object [("amount", .number 2)]

def orderDigest : Digest where
  stableHash
    | .object [] => "44136fa355b3678a1146ad16f7e8649e94fb4fc21fe77e8310c060f61caaff8a"
    | _ => "a2879a37ea1e0b8938f44d782c2ff3887f30554da489efc8634d658a95a1094d"
  sha256
    | "order-7" => "df8cf80227ec3237922df0ecd88385c546e4a31bdb8127b033f01e6f21f175df"
    | _ => "a2879a37ea1e0b8938f44d782c2ff3887f30554da489efc8634d658a95a1094d"

def orderDeployment : Deployment := { sampleDeployment with digest := orderDigest }

def reusedKey : List (Move platform Entry) :=
  [.launch (.runBackground "api")] ++ steps 13 0 SideEffects.paying ++
    [SideEffects.payOrder] ++ steps 19 1 SideEffects.paying ++
    [.launch (.toolCall 0 "pay" orderInput (some "order-7"))] ++
    steps 10 2 SideEffects.paying

def secondOrder (events : List PlatformEvent) : Bool :=
  events.any fun
    | .launched (.toolCall _ _ (.object [("amount", .number 2)]) (some "order-7"))
        (some (2, _)) _ _ => true
    | _ => false

def secondAsked (events : List PlatformEvent) : Bool :=
  events.any fun
    | .acted 2 _ (.stage (.getOrCreate _)) _ _ _ => true
    | _ => false

def secondAnswered (final : PlatformConfig) : Bool :=
  match (final.threads[2]? : Option Activity) with
  | some ⟨_, .ret (.ok _)⟩ => true
  | _ => false

def notSecond : PlatformEvent → Bool
  | .acted thread _ (.external (.invoke _ _ given)) _ _ _ =>
      thread != 2 && orderDigest.stableHash given != orderDigest.stableHash orderInput
  | _ => true

theorem secondOrder_spec {events : List PlatformEvent} (launched : secondOrder events = true) :
    Called events 2 orderInput (some "order-7") := by
  obtain ⟨event, member, shape⟩ := List.any_eq_true.mp launched
  split at shape
  · exact ⟨_, _, _, _, _, member⟩
  · cases shape

theorem secondAsked_spec {events : List PlatformEvent} (asked : secondAsked events = true) :
    ∃ row stored, ∃ event ∈ events, Asks 2 row stored event := by
  obtain ⟨event, member, shape⟩ := List.any_eq_true.mp asked
  split at shape
  · exact ⟨_, _, _, member, _, _, _, rfl⟩
  · cases shape

theorem secondAnswered_spec {final : PlatformConfig} (answered : secondAnswered final = true) :
    ∃ tag output, final.threads[2]? = some ⟨tag, .ret (.ok output)⟩ := by
  unfold secondAnswered at answered
  split at answered
  · next tag output found => exact ⟨tag, output, found⟩
  · cases answered

theorem reused_key_replays_other_input : ∃ events final,
    (platformSystem orderDeployment fun _ => true).Run
      (atRest (State.initial sampleRun 0 none)) events final ∧
    ¬ SameCall orderDeployment.digest events final := by
  have passed : ((platformSystem orderDeployment fun _ => true).replay
      (atRest (State.initial sampleRun 0 none)) reusedKey).any (fun outcome =>
        secondOrder outcome.1 && secondAnswered outcome.2 && secondAsked outcome.1 &&
          outcome.1.all notSecond) = true := rfl
  obtain ⟨events, final, run, checked⟩ := System.replay_checked passed
  refine ⟨events, final, run, ?_⟩
  intro same
  simp only [Bool.and_eq_true] at checked
  obtain ⟨⟨⟨launched, answered⟩, asked⟩, others⟩ := checked
  obtain ⟨tag, output, finished⟩ := secondAnswered_spec answered
  have silent : ∀ event ∈ events, ∀ tool carried given,
      ¬ Invokes 2 tool carried given event := by
    rintro event member tool carried given ⟨_, _, _, _, rfl⟩
    have other := List.all_eq_true.mp others _ member
    simp [notSecond] at other
  obtain ⟨_, _, producer, made, identity, given, _, ⟨event, member, invokes⟩, _, _, hash⟩ :=
    same.replayed 2 orderInput (some "order-7") tag output (secondOrder_spec launched) finished
      (secondAsked_spec asked) silent
  obtain ⟨_, _, _, _, rfl⟩ := invokes
  have other := List.all_eq_true.mp others _ member
  simp only [notSecond, Bool.and_eq_true, bne_iff_ne] at other
  exact other.2 hash

/-- In a run in which every call finds its own input hash in a row it does not refuse, and
no application stage takes the key of an operation, a replayed output was produced by an
invocation of the same tool with the same input hash, and a call that finds another input
hash is refused. -/
theorem replayed_effects_same_call {deployment : Deployment}
    (lengths : ∀ text, (deployment.digest.sha256 text).length = 64) {run : AgentRun} {clock : Nat}
    {conversation : Option String} {events : List PlatformEvent} {final : PlatformConfig}
    (ran : (platformSystem deployment fun _ => true).Run
      (atRest (State.initial run clock conversation)) events final)
    (matched : ∀ event ∈ events, Matched deployment.digest event) :
    SameCall deployment.digest events final := by
  refine ⟨?_, ?_⟩
  · intro thread input idempotencyKey tag output called finished asked silent
    obtain ⟨standing, holds, concludes⟩ := called_concludes ran matched called
    have concluded := concludes tag (.ok output) finished
    obtain ⟨row, stored, event, member, asks⟩ := asked
    cases holds with
    | sought quiet => exact absurd asks ((quiet event member).unasked row stored)
    | free unasked => exact absurd asks (unasked event member row stored)
    | invoked tool invokes _ _ _ _ =>
        obtain ⟨event, member, invokes⟩ := invokes
        exact absurd invokes (silent event member tool _ input)
    | @found answer context tool asked _ _ key accepted produced =>
        obtain ⟨succeeded, rfl⟩ := concluded output rfl
        have proceeds : ¬ refused answer := by
          rintro (status | status) <;> rw [succeeded] at status <;> cases status
        obtain ⟨producer, made, identity, given, invokes, commits, madeKey, hash⟩ :=
          produced succeeded
        refine ⟨context, tool, producer, made, identity, given, ⟨answer, asked⟩, invokes, ?_, ?_,
          hash.symm.trans (accepted proceeds).1⟩
        · rw [← key]
          exact commits
        · exact stageKey_tool lengths (madeKey.symm.trans key)
  · intro thread input idempotencyKey row stored called asked differs
    obtain ⟨standing, holds, concludes⟩ := called_concludes ran matched called
    obtain ⟨event, member, asks⟩ := asked
    cases holds with
    | sought quiet => exact absurd asks ((quiet event member).unasked row stored)
    | free unasked => exact absurd asks (unasked event member row stored)
    | invoked _ _ _ _ same _ => exact absurd (same event member row stored asks) differs
    | @found answer context tool asked once silent key accepted produced =>
        obtain ⟨rfl, rfl⟩ := once event member row stored asks
        have refuses : refused stored := by
          by_contra proceeds
          exact differs (accepted proceeds).1
        refine ⟨silent, ?_⟩
        intro tag outcome finished
        cases outcome with
        | error error => exact ⟨error, rfl⟩
        | ok output =>
            obtain ⟨succeeded, _⟩ := concludes tag (.ok output) finished output rfl
            rcases refuses with status | status <;> rw [succeeded] at status <;> cases status

def matchedCheck : PlatformEvent → Bool
  | .acted _ _ (.stage (.getOrCreate row)) _ before _ =>
      (before.stages.find row.stageKey).all fun stored => stored.inputHash == row.inputHash
  | .launched (.runStage _ _ _ _ _ _) _ _ _ => false
  | .launched (.saveCheckpoint _ _ _ _) _ _ _ => false
  | _ => true

theorem matched_of_check {digest : Digest} {event : PlatformEvent}
    (checked : matchedCheck event = true) : Matched digest event := by
  unfold matchedCheck at checked
  split at checked
  · intro tool identity key stored found
    rw [found] at checked
    exact Or.inl (beq_iff_eq.mp checked)
  · cases checked
  · cases checked
  · next asked staged saved =>
      unfold Matched
      split
      · exact (asked _ _ _ _ _ _ rfl).elim
      · exact (staged _ _ _ _ _ _ _ _ _ rfl).elim
      · exact (saved _ _ _ _ _ _ _ rfl).elim
      · trivial

/-- The same order is requested twice. -/
theorem replayed_effects_same_call_paid_once : ∃ events final,
    (platformSystem orderDeployment fun _ => true).Run
      (atRest (State.initial sampleRun 0 none)) events final ∧
    secondAnswered final = true ∧ secondAsked events = true ∧
    SameCall orderDeployment.digest events final := by
  have passed : ((platformSystem orderDeployment fun _ => true).replay
      (atRest (State.initial sampleRun 0 none)) SideEffects.paidOnce).any (fun outcome =>
        secondAnswered outcome.2 && secondAsked outcome.1 && outcome.1.all matchedCheck) =
      true := rfl
  obtain ⟨events, final, run, checked⟩ := System.replay_checked passed
  simp only [Bool.and_eq_true] at checked
  obtain ⟨⟨answered, asked⟩, matched⟩ := checked
  have lengths : ∀ text, (orderDeployment.digest.sha256 text).length = 64 := by
    intro text
    simp only [orderDeployment, orderDigest]
    split <;> rfl
  refine ⟨events, final, run, answered, asked, ?_⟩
  exact replayed_effects_same_call lengths run
    fun event member => matched_of_check (List.all_eq_true.mp matched event member)

end AgentTaskPlatform.ReplayedCalls
