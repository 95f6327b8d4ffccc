import AgentTaskPlatform.PiTurns
import AgentTaskPlatform.Transitions
import Mathlib.Data.List.Range

/-!
The protocol of the model turns. The calls and the tools each have an invariant: a turn is
opened when nothing is open, a tool runs only for a turn that waits for its tools, and what
an exit finds unfinished it closes.
-/

namespace AgentTaskPlatform.PiTurns

open JsonText JsonNumbers PiFraming KeyedTable Semaphores StatefulCalls Transitions
open PiBridge (text)

variable {config : Config} {record : Record} {around : Surroundings}

section Completions

theorem complete_identity (call : ModelCall) (completion : Completion) (record : Record)
    (now : Nat) :
    (call.complete completion record now).callId = call.callId ∧
      (call.complete completion record now).turn = call.turn ∧
      (call.complete completion record now).status ≠ .started := by
  refine ⟨rfl, rfl, ?_⟩
  change completion.reason.status ≠ .started
  cases completion.reason <;> decide

structure Finished (call : ModelCall) (outcome : Except Exc Unit) (after : ModelCall) : Prop where
  callId : after.callId = call.callId
  turn : after.turn = call.turn
  status : ∀ value, outcome = .ok value → after.status ≠ .started

theorem finishCall_spec (record : Record) (now : Nat) (call : ModelCall) :
    Finished call (finishCall config record now call).1 (finishCall config record now call).2 := by
  simp only [finishCall, bind_run, lift_run, modify_run]
  cases readCompletion config record with
  | error error => exact ⟨rfl, rfl, nofun⟩
  | ok completion =>
      obtain ⟨callId, turn, status⟩ := complete_identity call completion record now
      cases metric (get record "latency_ms") "latency" with
      | error error => exact ⟨callId, turn, nofun⟩
      | ok latency =>
          cases metric (getOr (.number (.int 0)) record "http_attempts") "http_attempts" with
          | error error => exact ⟨callId, turn, nofun⟩
          | ok attempts =>
              cases metric (getOr (.number (.int 0)) record "request_bytes") "request_bytes" with
              | error error => exact ⟨callId, turn, nofun⟩
              | ok requested =>
                  cases metric (getOr (.number (.int 0)) record "response_bytes")
                    "response_bytes" with
                  | error error => exact ⟨callId, turn, nofun⟩
                  | ok responded => exact ⟨callId, turn, fun _ _ => status⟩

end Completions

section Handle

def Turns.opening (turns : Turns) (call : ModelCall) : Turns :=
  { (turns.setCall call).save call with
    unfinished := turns.unfinished ++ [call.turn]
    accepted := turns.accepted ++ [call.turn] }

def Turns.closing (turns : Turns) (call : ModelCall) : Turns :=
  { (turns.setCall call).save call with
    unfinished := turns.unfinished.filter (· ≠ call.turn) }

inductive Handled (config : Config) (around : Surroundings) (before : Turns) : Turns → Prop
  | refused : Handled config around before before
  | counted (key : ToolKey) (fresh : key ∉ before.identities)
      (room : before.identities.length < config.maxToolCalls) :
      Handled config around before { before with identities := before.identities ++ [key] }
  | requested (key : ToolKey) (awaited : before.awaitsTools key.1 = true)
      (fresh : key ∉ before.identities)
      (room : before.identities.length < config.maxToolCalls) :
      Handled config around before { before with
        identities := before.identities ++ [key]
        running := before.running ++ [key] }
  | opened (call : ModelCall) (identity : call.callId = around.callId)
      (next : call.turn = before.opened + 1) (bounded : call.turn ≤ config.maxTurns)
      (finished : before.unfinished = []) (idle : before.running = []) :
      Handled config around before (before.opening call)
  | marked (call changed : ModelCall) (pending : call.turn ∈ before.unfinished)
      (found : before.active.find call.turn = some call)
      (same : changed.callId = call.callId ∧ changed.turn = call.turn) :
      Handled config around before (before.setCall changed)
  | completed (call changed : ModelCall) (pending : call.turn ∈ before.unfinished)
      (found : before.active.find call.turn = some call)
      (same : changed.callId = call.callId ∧ changed.turn = call.turn)
      (settled : changed.status ≠ .started) :
      Handled config around before (before.closing changed)

variable (turns : Turns)

theorem toolCall_cases (turn : Nat) (record : Record) :
    Handled config around turns (toolCall config turn record turns).2 := by
  simp only [toolCall, bind_run, get_run]
  cases toolIdentity record with
  | none => exact .refused
  | some identity =>
      obtain ⟨name, callId⟩ := identity
      by_cases valid : (turns.awaitsTools turn && config.toolNames.contains name &&
          !callId.isEmpty) = true
      · simp only [valid, if_true]
        by_cases known : (turn, callId) ∈ turns.identities ∨
            turns.identities.length ≥ config.maxToolCalls
        · simp only [known, if_true, throw_run]
          exact .refused
        · simp only [known, if_false, modify_run, bind_run]
          rw [not_or] at known
          have room := Nat.lt_of_not_le known.2
          cases encodeUtf8 callId with
          | none => exact .counted (turn, callId) known.1 room
          | some encoded =>
              have awaited : turns.awaitsTools turn = true := by
                simp only [Bool.and_eq_true] at valid
                exact valid.1.1
              exact .requested (turn, callId) awaited known.1 room
      · simp only [valid]
        exact .refused

theorem validTurn_bounded {value : Value PyNumber} {turn : Nat}
    (valid : validTurn config value = .ok turn) : turn ≤ config.maxTurns := by
  unfold validTurn at valid
  split at valid
  · split at valid
    · next bounded =>
        cases valid
        omega
    · cases valid
  · cases valid

theorem prepareRequest_cases {turn : Nat} (bounded : turn ≤ config.maxTurns) (record : Record) :
    Handled config around turns (prepareRequest turn record around turns).2 := by
  simp only [prepareRequest, bind_run, get_run]
  by_cases blocked : turn ≠ turns.opened + 1 ∨ turns.unfinished ≠ [] ∨ turns.running ≠ []
  · simp only [blocked, if_true, throw_run]
    exact .refused
  · simp only [blocked, if_false, bind_run, lift_run]
    simp only [not_or, not_not] at blocked
    obtain ⟨next, finished, idle⟩ := blocked
    cases metric (get record "message_count") "message count" with
    | error error => exact .refused
    | ok messageCount =>
        cases around.composed with
        | error error => exact .refused
        | ok instructions =>
            have opened : Handled config around turns
                (turns.opening { callId := around.callId, turn, messageCount }) :=
              .opened _ rfl next bounded finished idle
            cases logged : around.logged with
            | error error => exact opened
            | ok value => exact opened

theorem modelEnd_cases (turn : Nat) (record : Record) :
    Handled config around turns (modelEnd config turn record around turns).2 := by
  simp only [modelEnd, bind_run, get_run]
  by_cases pending : turn ∈ turns.unfinished
  · simp only [pending, not_true, if_false]
    cases found : turns.active.find turn with
    | none => exact .refused
    | some call =>
        obtain rfl := Table.find_key found
        by_cases started : call.status = .started
        · simp only [started, ne_eq, not_true, if_false, bind_run, modify_run, lift_run]
          have spec : Finished call (finishCall config record around.now call).1
              (finishCall config record around.now call).2 :=
            finishCall_spec record around.now call
          cases outcome : (finishCall config record around.now call).1 with
          | error error => exact .marked call _ pending found ⟨spec.callId, spec.turn⟩
          | ok value =>
              have completed : Handled config around turns
                  (turns.closing (finishCall config record around.now call).2) :=
                .completed call _ pending found ⟨spec.callId, spec.turn⟩ (spec.status value outcome)
              rw [Turns.closing, spec.turn] at completed
              cases logged : around.logged with
              | error error => exact completed
              | ok value => exact completed
        · simp only [started, ne_eq, not_false_eq_true, if_true, throw_run]
          exact .refused
  · simp only [pending]
    exact .refused

theorem handle_cases (record : Record) :
    Handled config around turns (handle config record around turns).2 := by
  simp only [handle, bind_run, lift_run]
  cases valid : validTurn config (get record "turn") with
  | error error => exact .refused
  | ok turn =>
      cases get record "kind" with
      | string kind =>
          simp only []
          split
          · exact toolCall_cases turns turn record
          · split
            · exact prepareRequest_cases turns (validTurn_bounded valid) record
            · split
              · exact modelEnd_cases turns turn record
              · exact .refused
      | _ => exact .refused

end Handle

section Calls

def Turns.Settled (turns : Turns) (among : Nat → Prop) : Prop :=
  ∀ call ∈ turns.active.rows, among call.turn →
    call.status ≠ .started ∧ turns.stored.find call.callId = some call

/-- The turns are counted from one on, only the latest can be open, and what is not open is
stored as it is, with its final status. -/
structure Calls (config : Config) (turns : Turns) : Prop where
  accepted : turns.accepted = List.range' 1 turns.opened
  keys : turns.active.rows.map ModelCall.turn = turns.accepted
  bounded : turns.opened ≤ config.maxTurns
  pending : ∀ turn ∈ turns.unfinished, turn = turns.opened ∧ turn ∈ turns.accepted
  finished : turns.Settled (· ∉ turns.unfinished)
  owned : ∀ row ∈ turns.stored.rows, ∃ call ∈ turns.active.rows,
    call.callId = row.callId ∧ call.turn = row.turn
  distinct : (turns.active.rows.map ModelCall.callId).Nodup

theorem calls_initial : Calls config config.initial where
  accepted := rfl
  keys := rfl
  bounded := Nat.zero_le config.maxTurns
  pending := by simp [Config.initial]
  finished := by simp [Turns.Settled, Config.initial, Table.empty]
  owned := by simp [Config.initial, Table.empty]
  distinct := List.nodup_nil

theorem Calls.frame {before after : Turns} (calls : Calls config before)
    (active : after.active = before.active) (unfinished : after.unfinished = before.unfinished)
    (stored : after.stored = before.stored) (accepted : after.accepted = before.accepted) :
    Calls config after := by
  have opened : after.opened = before.opened := by rw [Turns.opened, Turns.opened, active]
  constructor
  · rw [accepted, opened, calls.accepted]
  · rw [active, accepted, calls.keys]
  · rw [opened]
    exact calls.bounded
  · rw [unfinished, opened, accepted]
    exact calls.pending
  · rw [Turns.Settled, active, unfinished, stored]
    exact calls.finished
  · rw [stored, active]
    exact calls.owned
  · rw [active]
    exact calls.distinct

theorem Calls.open {before : Turns} (calls : Calls config before) {call : ModelCall}
    (next : call.turn = before.opened + 1) (bounded : call.turn ≤ config.maxTurns)
    (finished : before.unfinished = [])
    (fresh : call.callId ∉ before.stored.rows.map ModelCall.callId) :
    Calls config (before.opening call) := by
  have stored : ∀ row ∈ before.active.rows, before.stored.find row.callId = some row := by
    intro row member
    exact (calls.finished row member (by simp [finished])).2
  have unused : call.turn ∉ before.active.rows.map ModelCall.turn := by
    rw [calls.keys, calls.accepted, next]
    intro member
    have small := (List.mem_range'_1.mp member).2
    omega
  have rows : (before.opening call).active.rows = before.active.rows ++ [call] :=
    Table.upsert_fresh unused
  have opened : (before.opening call).opened = before.opened + 1 := by
    rw [Turns.opened, rows, List.length_append]
    rfl
  have accepted : (before.opening call).accepted = before.accepted ++ [call.turn] := rfl
  have counted : (before.opening call).accepted = List.range' 1 (before.opening call).opened := by
    rw [accepted, opened, List.range'_1_concat, calls.accepted, next, Nat.add_comm]
  have added : (before.opening call).stored.rows = before.stored.rows ++ [call] :=
    Table.upsert_fresh fresh
  constructor
  · exact counted
  · rw [rows, List.map_append, calls.keys, accepted]
    rfl
  · omega
  · intro turn member
    have same : turn = call.turn := by simpa [Turns.opening, finished] using member
    subst same
    exact ⟨by omega, by simp [accepted]⟩
  · intro row member waiting
    rw [rows] at member
    rcases List.mem_append.mp member with old | new
    · obtain ⟨settled, saved⟩ := calls.finished row old (by simp [finished])
      have other : row.callId ≠ call.callId := by
        intro same
        exact fresh (same ▸ List.mem_map_of_mem (Table.find_mem saved))
      exact ⟨settled, (Table.find_upsert_other before.stored other).trans saved⟩
    · rw [List.mem_singleton.mp new] at waiting
      exact absurd (by simp [Turns.opening]) waiting
  · intro row member
    rw [rows]
    rw [added] at member
    rcases List.mem_append.mp member with old | new
    · obtain ⟨owner, inside, same⟩ := calls.owned row old
      exact ⟨owner, List.mem_append_left _ inside, same⟩
    · exact ⟨call, by simp, by rw [List.mem_singleton.mp new]; exact ⟨rfl, rfl⟩⟩
  · rw [rows, List.map_append]
    apply List.Nodup.append calls.distinct (List.nodup_singleton call.callId)
    intro callId old new
    obtain ⟨row, member, rfl⟩ := List.mem_map.mp old
    apply fresh
    rw [← List.mem_singleton.mp new]
    exact List.mem_map_of_mem (Table.find_mem (stored row member))

section Changes

variable {before : Turns} {call changed : ModelCall}

theorem Calls.set (calls : Calls config before) (pending : call.turn ∈ before.unfinished)
    (found : before.active.find call.turn = some call)
    (same : changed.callId = call.callId ∧ changed.turn = call.turn) :
    Calls config (before.setCall changed) := by
  rw [← same.2] at found
  have turns : (before.setCall changed).active.rows.map ModelCall.turn =
      before.active.rows.map ModelCall.turn := Table.upsert_column found _ same.2
  have ids : (before.setCall changed).active.rows.map ModelCall.callId =
      before.active.rows.map ModelCall.callId := Table.upsert_column found _ same.1
  have opened : (before.setCall changed).opened = before.opened := by
    rw [Turns.opened, Turns.opened, ← List.length_map ModelCall.turn, turns, List.length_map]
  constructor
  · rw [opened]
    exact calls.accepted
  · rw [turns]
    exact calls.keys
  · rw [opened]
    exact calls.bounded
  · rw [opened]
    exact calls.pending
  · intro row member waiting
    rcases Table.mem_upsert_iff.mp member with rfl | ⟨old, _⟩
    · exact absurd (same.2 ▸ pending) waiting
    · exact calls.finished row old waiting
  · intro row member
    obtain ⟨owner, inside, identity⟩ := calls.owned row member
    by_cases hit : owner.turn = changed.turn
    · have equal : owner = call := List.inj_on_of_nodup_map before.active.unique inside
        (Table.find_mem found) (hit.trans same.2)
      subst equal
      exact ⟨changed, Table.mem_upsert _ _, same.1.trans identity.1, same.2.trans identity.2⟩
    · exact ⟨owner, Table.mem_upsert_iff.mpr (Or.inr ⟨inside, hit⟩), identity⟩
  · rw [ids]
    exact calls.distinct

theorem Calls.save (calls : Calls config before) (pending : call.turn ∈ before.unfinished)
    (found : before.active.find call.turn = some call) : Calls config (before.save call) := by
  constructor
  · exact calls.accepted
  · exact calls.keys
  · exact calls.bounded
  · exact calls.pending
  · intro row member waiting
    obtain ⟨settled, saved⟩ := calls.finished row member waiting
    have other : row.callId ≠ call.callId := by
      intro same
      have equal : row = call :=
        List.inj_on_of_nodup_map calls.distinct member (Table.find_mem found) same
      rw [equal] at waiting
      exact waiting pending
    exact ⟨settled, (Table.find_upsert_other before.stored other).trans saved⟩
  · intro row member
    rcases Table.mem_of_upsert member with rfl | old
    · exact ⟨row, Table.find_mem found, rfl, rfl⟩
    · exact calls.owned row old
  · exact calls.distinct

theorem Calls.rewrite (calls : Calls config before) (pending : call.turn ∈ before.unfinished)
    (found : before.active.find call.turn = some call)
    (same : changed.callId = call.callId ∧ changed.turn = call.turn) :
    Calls config ((before.setCall changed).save changed) := by
  have set := calls.set pending found same
  apply set.save
  · rw [same.2]
    exact pending
  · exact Table.find_upsert_self before.active changed

theorem Calls.close (calls : Calls config before) (pending : call.turn ∈ before.unfinished)
    (found : before.active.find call.turn = some call)
    (same : changed.callId = call.callId ∧ changed.turn = call.turn)
    (settled : changed.status ≠ .started) : Calls config (before.closing changed) := by
  have rewritten := calls.rewrite pending found same
  constructor
  · exact rewritten.accepted
  · exact rewritten.keys
  · exact rewritten.bounded
  · intro turn member
    exact rewritten.pending turn (List.mem_filter.mp member).1
  · intro row member waiting
    by_cases own : row.turn = changed.turn
    · have found := Table.mem_find member
      rw [own, Turns.closing] at found
      have equal : changed = row :=
        Option.some.inj ((Table.find_upsert_self before.active changed).symm.trans found)
      subst equal
      exact ⟨settled, Table.find_upsert_self before.stored changed⟩
    · apply rewritten.finished row member
      intro inside
      exact waiting (List.mem_filter.mpr ⟨inside, by simpa using own⟩)
  · exact rewritten.owned
  · exact rewritten.distinct

theorem Calls.settle (calls : Calls config before) (found : before.active.find call.turn = some call)
    (same : changed.callId = call.callId ∧ changed.turn = call.turn)
    (settled : changed.status ≠ .started) {among : Nat → Prop} (others : before.Settled among) :
    ((before.setCall changed).save changed).Settled fun turn => turn = call.turn ∨ among turn := by
  intro row member inside
  rcases Table.mem_upsert_iff.mp member with rfl | ⟨old, other⟩
  · exact ⟨settled, Table.find_upsert_self before.stored row⟩
  · rw [same.2] at other
    obtain ⟨final, saved⟩ := others row old (inside.resolve_left other)
    have distinct : row.callId ≠ changed.callId := by
      intro equal
      rw [same.1] at equal
      apply other
      rw [List.inj_on_of_nodup_map calls.distinct old (Table.find_mem found) equal]
    exact ⟨final, (Table.find_upsert_other before.stored distinct).trans saved⟩

end Changes

end Calls

section Exits

structure Interrupted (config : Config) (before after : Turns) : Prop where
  calls : Calls config after
  accepted : after.accepted = before.accepted
  identities : after.identities = before.identities
  running : after.running = before.running
  executing : after.executing = before.executing
  slots : after.slots = before.slots

theorem interrupt_spec (error : Exc) (now : Nat) {rest : List Nat} {turns : Turns}
    (calls : Calls config turns) (pending : ∀ turn ∈ rest, turn ∈ turns.unfinished)
    {among : Nat → Prop} (others : turns.Settled among) :
    Interrupted config turns (interrupt error now rest turns) ∧
      (interrupt error now rest turns).Settled fun turn => turn ∈ rest ∨ among turn := by
  induction rest generalizing turns among with
  | nil =>
      refine ⟨⟨calls, rfl, rfl, rfl, rfl, rfl⟩, ?_⟩
      simpa [interrupt] using others
  | cons turn rest ih =>
      have inside := pending turn List.mem_cons_self
      have later : ∀ turn ∈ rest, turn ∈ turns.unfinished :=
        fun turn member => pending turn (List.mem_cons_of_mem _ member)
      rw [interrupt]
      cases found : turns.active.find turn with
      | none =>
          -- `active` has every turn that is unfinished.
          have known := (calls.pending turn inside).2
          rw [← calls.keys] at known
          exact absurd known (Table.find_none.mp found)
      | some call =>
          obtain rfl := Table.find_key found
          have closed : (call.interrupted error now).callId = call.callId ∧
              (call.interrupted error now).turn = call.turn := ⟨rfl, rfl⟩
          have final : (call.interrupted error now).status ≠ .started := nofun
          have rewritten := calls.rewrite inside found closed
          have settled := calls.settle found closed final others
          obtain ⟨spec, all⟩ := ih rewritten later settled
          refine ⟨⟨spec.calls, spec.accepted, spec.identities, spec.running, spec.executing,
            spec.slots⟩, ?_⟩
          intro row member chosen
          apply all row member
          rcases chosen with listed | old
          · rcases List.mem_cons.mp listed with same | listed
            · exact Or.inr (Or.inl same)
            · exact Or.inl listed
          · exact Or.inr (Or.inr old)

end Exits

section Tools

structure Tools (config : Config) (turns : Turns) : Prop where
  once : turns.identities.Nodup
  budget : turns.identities.length ≤ config.maxToolCalls
  awaited : ∀ key ∈ turns.running, turns.awaitsTools key.1 = true
  known : ∀ key ∈ turns.running, key ∈ turns.identities
  inside : ∀ key ∈ turns.executing, key ∈ turns.running
  distinct : turns.executing.Nodup
  slots : turns.executing.length + turns.slots.value = config.maxParallelTools

theorem tools_initial : Tools config config.initial where
  once := List.nodup_nil
  budget := Nat.zero_le config.maxToolCalls
  awaited := by simp [Config.initial]
  known := by simp [Config.initial]
  inside := by simp [Config.initial]
  distinct := List.nodup_nil
  slots := Nat.zero_add config.maxParallelTools

theorem awaitsTools_latest {turns : Turns} {turn : Nat}
    (awaited : turns.awaitsTools turn = true) :
    turn = turns.opened ∧ turn ∉ turns.unfinished ∧ ∃ call, turns.active.find turn = some call ∧
      call.status = .succeeded ∧ call.stopReason = some .toolUse := by
  simpa [Turns.awaitsTools, Option.any_eq_true, and_assoc] using awaited

theorem idle_of_pending {turns : Turns} (calls : Calls config turns) (tools : Tools config turns)
    {turn : Nat} (pending : turn ∈ turns.unfinished) : turns.running = [] := by
  cases running : turns.running with
  | nil => rfl
  | cons key rest =>
      have awaited := tools.awaited key (by simp [running])
      obtain ⟨latest, finished, _⟩ := awaitsTools_latest awaited
      rw [(calls.pending turn pending).1, ← latest] at pending
      exact absurd pending finished

theorem Tools.frame {before after : Turns} (tools : Tools config before)
    (idle : before.running = []) (identities : after.identities = before.identities)
    (running : after.running = before.running) (executing : after.executing = before.executing)
    (slots : after.slots = before.slots) : Tools config after where
  once := by rw [identities]; exact tools.once
  budget := by rw [identities]; exact tools.budget
  awaited := by simp [running, idle]
  known := by simp [running, idle]
  inside := by rw [executing, running]; exact tools.inside
  distinct := by rw [executing]; exact tools.distinct
  slots := by rw [executing, slots]; exact tools.slots

variable {before after : Turns} {key : ToolKey}

theorem Tools.count (tools : Tools config before) (fresh : key ∉ before.identities)
    (room : before.identities.length < config.maxToolCalls) :
    (before.identities ++ [key]).Nodup ∧
      (before.identities ++ [key]).length ≤ config.maxToolCalls := by
  constructor
  · apply List.Nodup.append tools.once (List.nodup_singleton key)
    simpa using fresh
  · rw [List.length_append, List.length_singleton]
    omega

theorem start_cases (started : before.start key = some after) :
    key ∈ before.running ∧ key ∉ before.executing ∧ ∃ slots : Semaphore,
      before.slots.value = slots.value + 1 ∧
      after = { before with slots, executing := before.executing ++ [key] } := by
  unfold Turns.start at started
  split at started
  · next waiting =>
      obtain ⟨slots, acquired, same⟩ := Option.map_eq_some_iff.mp started
      exact ⟨waiting.1, waiting.2, slots, Semaphore.acquire_value acquired, same.symm⟩
  · cases started

theorem Tools.start (tools : Tools config before) (started : before.start key = some after) :
    Tools config after := by
  obtain ⟨waiting, fresh, slots, value, rfl⟩ := start_cases started
  have total := tools.slots
  constructor
  · exact tools.once
  · exact tools.budget
  · exact tools.awaited
  · exact tools.known
  · intro other member
    rcases List.mem_append.mp member with old | new
    · exact tools.inside other old
    · exact (List.mem_singleton.mp new).symm ▸ waiting
  · apply List.Nodup.append tools.distinct (List.nodup_singleton key)
    simpa using fresh
  · simp only [List.length_append, List.length_singleton]
    omega

theorem removed_length (distinct : before.executing.Nodup) (member : key ∈ before.executing) :
    (before.executing.filter (· ≠ key)).length + 1 = before.executing.length := by
  have positive := List.length_pos_of_mem member
  have erased := List.length_erase_of_mem member
  rw [distinct.erase_eq_filter] at erased
  have same : before.executing.filter (· ≠ key) = before.executing.filter (· != key) := by
    apply List.filter_congr
    intro other _
    by_cases equal : other = key <;> simp [equal]
  rw [same]
  omega

theorem Tools.finish (tools : Tools config before) (finished : before.finish key = some after) :
    Tools config after := by
  unfold Turns.finish at finished
  split at finished
  · cases finished
    have total := tools.slots
    constructor
    · exact tools.once
    · exact tools.budget
    · exact fun other member => tools.awaited other (List.mem_filter.mp member).1
    · exact fun other member => tools.known other (List.mem_filter.mp member).1
    · intro other member
      obtain ⟨inside, distinct⟩ := List.mem_filter.mp member
      exact List.mem_filter.mpr ⟨tools.inside other inside, distinct⟩
    · exact tools.distinct.filter _
    · by_cases holds : key ∈ before.executing
      · have removed := removed_length tools.distinct holds
        simp only [holds, if_true, Semaphore.release]
        omega
      · have kept : before.executing.filter (· ≠ key) = before.executing := by
          apply List.filter_eq_self.mpr
          intro other member
          apply decide_eq_true
          rintro rfl
          exact holds member
        simp only [holds, if_false, kept]
        exact total
  · cases finished

end Tools

section Steps

structure Orderly (config : Config) (turns : Turns) : Prop where
  calls : Calls config turns
  tools : Tools config turns
  /-- An exit leaves no call open. -/
  closed : ∀ outcome, turns.phase = .ended outcome → turns.Settled fun _ => True

theorem orderly_initial : Orderly config config.initial :=
  ⟨calls_initial, tools_initial, nofun⟩

variable {before after : Turns}

theorem Handled.phase (handled : Handled config around before after) :
    after.phase = before.phase := by
  cases handled <;> rfl

theorem Handled.orderly (handled : Handled config around before after)
    (calls : Calls config before) (tools : Tools config before)
    (fresh : around.callId ∉ before.stored.rows.map ModelCall.callId) :
    Calls config after ∧ Tools config after := by
  cases handled with
  | refused => exact ⟨calls, tools⟩
  | counted key fresh room =>
      obtain ⟨once, budget⟩ := tools.count fresh room
      refine ⟨calls.frame rfl rfl rfl rfl, { tools with once, budget, known := ?_ }⟩
      exact fun other member => List.mem_append_left _ (tools.known other member)
  | requested key awaited fresh room =>
      obtain ⟨once, budget⟩ := tools.count fresh room
      refine ⟨calls.frame rfl rfl rfl rfl,
        { tools with once, budget, awaited := ?_, known := ?_, inside := ?_ }⟩
      · intro other member
        rcases List.mem_append.mp member with old | new
        · exact tools.awaited other old
        · exact (List.mem_singleton.mp new).symm ▸ awaited
      · intro other member
        rcases List.mem_append.mp member with old | new
        · exact List.mem_append_left _ (tools.known other old)
        · exact List.mem_append_right _ new
      · exact fun other member => List.mem_append_left _ (tools.inside other member)
  | opened call identity next bounded finished idle =>
      rw [← identity] at fresh
      exact ⟨calls.open next bounded finished fresh, tools.frame idle rfl rfl rfl rfl⟩
  | marked call changed pending found same =>
      exact ⟨calls.set pending found same,
        tools.frame (idle_of_pending calls tools pending) rfl rfl rfl rfl⟩
  | completed call changed pending found same settled =>
      exact ⟨calls.close pending found same settled,
        tools.frame (idle_of_pending calls tools pending) rfl rfl rfl rfl⟩

/-- An exit without an error has found nothing unfinished. -/
theorem outcome_finished {ending : Except Exc Result} {decoded : Except Exc Unit} {value : Unit}
    (returned : before.outcome ending decoded = .ok value) : before.unfinished = [] := by
  unfold Turns.outcome at returned
  cases ending with
  | error error => cases returned
  | ok result =>
      cases accepted : before.conclude result with
      | error error => simp [Bind.bind, Except.bind, accepted] at returned
      | ok value =>
          simp only [Turns.conclude] at accepted
          split at accepted
          · cases accepted
          · next sound =>
              simp only [not_or, not_not] at sound
              exact sound.2.1

structure Exited (config : Config) (before after : Turns) : Prop where
  spec : Interrupted config before after
  settled : after.Settled fun _ => True

theorem exit_spec (calls : Calls config before) (ending : Except Exc Result)
    (decoded : Except Exc Unit) (now : Nat) :
    Exited config before (before.exit ending decoded now) := by
  unfold Turns.exit
  cases outcome : before.outcome ending decoded with
  | ok value =>
      have finished := outcome_finished outcome
      constructor
      · exact ⟨calls.frame rfl rfl rfl rfl, rfl, rfl, rfl, rfl, rfl⟩
      · exact fun call member _ => calls.finished call member (by simp [finished])
  | error error =>
      obtain ⟨spec, settled⟩ := interrupt_spec error now calls (fun turn member => member)
        calls.finished
      constructor
      · exact ⟨spec.calls.frame rfl rfl rfl rfl, spec.accepted, spec.identities, spec.running,
          spec.executing, spec.slots⟩
      · exact fun call member _ =>
          settled call member (Classical.em (call.turn ∈ before.unfinished))

inductive Moved (config : Config) (before : Turns) : Action → Turns → Prop
  | handled {record : Record} {around : Surroundings} {after : Turns}
      (serving : before.phase = .serving)
      (fresh : around.callId ∉ before.stored.rows.map ModelCall.callId)
      (handled : Handled config around before after) :
      Moved config before (.handle record around) after
  | started {key : ToolKey} {after : Turns} (running : ∀ outcome, before.phase ≠ .ended outcome)
      (started : before.start key = some after) : Moved config before (.start key) after
  | finished {key : ToolKey} {after : Turns} (running : ∀ outcome, before.phase ≠ .ended outcome)
      (finished : before.finish key = some after) : Moved config before (.finish key) after
  | left {given kept : Except Exc Result} :
      Moved config before (.leave given) { before with phase := .leaving kept }
  | exited {ending : Except Exc Result} {decoded : Except Exc Unit} {now : Nat}
      (idle : before.running = []) :
      Moved config before (.exit decoded now) (before.exit ending decoded now)

theorem step_cases {action : Action} (moved : step config before action = some after) :
    Moved config before action after := by
  cases action with
  | handle record around =>
      simp only [step] at moved
      split at moved
      · next serving =>
          split at moved
          · cases moved
          · next fresh =>
              cases moved
              exact .handled serving fresh (handle_cases before record)
      · cases moved
  | start key =>
      simp only [step] at moved
      split at moved
      · cases moved
      · next running => exact .started running moved
  | finish key =>
      simp only [step] at moved
      split at moved
      · cases moved
      · next running => exact .finished running moved
  | leave ending =>
      simp only [step] at moved
      split at moved
      · cases moved
        exact .left
      · cases moved
  | exit decoded now =>
      simp only [step] at moved
      split at moved
      · split at moved
        · next idle =>
            cases moved
            exact .exited idle
        · cases moved
      · cases moved

theorem finish_cases {key : ToolKey} (finished : before.finish key = some after) :
    ∃ slots, after = { before with
      slots
      executing := before.executing.filter (· ≠ key)
      running := before.running.filter (· ≠ key) } := by
  unfold Turns.finish at finished
  split at finished
  · cases finished
    exact ⟨_, rfl⟩
  · cases finished

theorem step_orderly {action : Action} (orderly : Orderly config before)
    (moved : step config before action = some after) : Orderly config after := by
  obtain ⟨calls, tools, closed⟩ := orderly
  cases step_cases moved with
  | handled serving fresh handled =>
      obtain ⟨keptCalls, keptTools⟩ := handled.orderly calls tools fresh
      refine ⟨keptCalls, keptTools, ?_⟩
      rw [handled.phase, serving]
      exact nofun
  | started running started =>
      have kept := tools.start started
      obtain ⟨_, _, slots, _, rfl⟩ := start_cases started
      exact ⟨calls.frame rfl rfl rfl rfl, kept, fun outcome ended =>
        absurd ended (running outcome)⟩
  | finished running finished =>
      have kept := tools.finish finished
      obtain ⟨slots, rfl⟩ := finish_cases finished
      exact ⟨calls.frame rfl rfl rfl rfl, kept, fun outcome ended =>
        absurd ended (running outcome)⟩
  | left => exact ⟨calls.frame rfl rfl rfl rfl, { tools with }, nofun⟩
  | exited idle =>
      obtain ⟨spec, settled⟩ := exit_spec calls _ _ _
      exact ⟨spec.calls, tools.frame idle spec.identities spec.running spec.executing spec.slots,
        fun _ _ => settled⟩

theorem orderly_inductive : Inductive (step config) (fun _ _ => True) (Orderly config) :=
  ⟨fun orderly _ moved => step_orderly orderly moved⟩

theorem opens_idle {action : Action} (orderly : Orderly config before)
    (moved : step config before action = some after) (opened : after.accepted ≠ before.accepted) :
    before.running = [] ∧ before.unfinished = [] := by
  cases step_cases moved with
  | handled serving fresh handled =>
      cases handled with
      | opened call identity next bounded finished idle => exact ⟨idle, finished⟩
      | _ => exact absurd rfl opened
  | started running started =>
      obtain ⟨_, _, slots, _, rfl⟩ := start_cases started
      exact absurd rfl opened
  | finished running finished =>
      obtain ⟨slots, rfl⟩ := finish_cases finished
      exact absurd rfl opened
  | left => exact absurd rfl opened
  | exited idle => exact absurd (exit_spec orderly.calls _ _ _).spec.accepted opened

theorem starts_running {action : Action} {key : ToolKey} (orderly : Orderly config before)
    (moved : step config before action = some after) (fresh : key ∉ before.executing)
    (started : key ∈ after.executing) : key ∈ before.running := by
  cases step_cases moved with
  | handled serving _ handled =>
      cases handled <;> exact absurd started fresh
  | started running granted =>
      obtain ⟨waiting, _, slots, _, rfl⟩ := start_cases granted
      rcases List.mem_append.mp started with old | new
      · exact absurd old fresh
      · exact (List.mem_singleton.mp new).symm ▸ waiting
  | finished running finished =>
      obtain ⟨slots, rfl⟩ := finish_cases finished
      exact absurd (List.mem_filter.mp started).1 fresh
  | left => exact absurd started fresh
  | exited idle =>
      rw [(exit_spec orderly.calls _ _ _).spec.executing] at started
      exact absurd started fresh

end Steps

section Runs

def Turns.latest (turns : Turns) : Option Nat := turns.accepted.getLast?

def Turns.hasEnded (turns : Turns) : Bool :=
  match turns.phase with
  | .ended _ => true
  | _ => false

structure Protocol (config : Config) (events : List (Turns × Action)) (final : Turns) : Prop where
  turns : final.accepted = List.range' 1 final.accepted.length ∧
    final.accepted.length ≤ config.maxTurns
  opened : ∀ event ∈ events, ∀ after, step config event.1 event.2 = some after →
    after.accepted ≠ event.1.accepted →
      event.1.running = [] ∧ event.1.executing = [] ∧
        ∀ turn ∈ event.1.accepted, ∃ row ∈ event.1.stored.rows,
          row.turn = turn ∧ row.status ≠ .started
  started : ∀ event ∈ events, ∀ after key, step config event.1 event.2 = some after →
    key ∉ event.1.executing → key ∈ after.executing →
      key ∈ event.1.identities ∧ event.1.latest = some key.1 ∧
        ∃ row ∈ event.1.stored.rows, row.turn = key.1 ∧ row.status = .succeeded ∧
          row.stopReason = some .toolUse
  budget : final.identities.Nodup ∧ final.identities.length ≤ config.maxToolCalls
  parallel : final.executing.Nodup ∧ final.executing.length ≤ config.maxParallelTools
  ended : final.hasEnded = true →
    (∀ turn ∈ final.accepted, ∃ row ∈ final.stored.rows, row.turn = turn) ∧
      ∀ row ∈ final.stored.rows, row.status = .succeeded ∨ row.status = .failed

variable {turns : Turns}

theorem Calls.length (calls : Calls config turns) : turns.accepted.length = turns.opened := by
  rw [← calls.keys, List.length_map, Turns.opened]

theorem Calls.call (calls : Calls config turns) {turn : Nat} (accepted : turn ∈ turns.accepted) :
    ∃ call ∈ turns.active.rows, call.turn = turn := by
  rw [← calls.keys] at accepted
  exact List.mem_map.mp accepted

theorem Calls.settled_row (calls : Calls config turns) {among : Nat → Prop}
    (settled : turns.Settled among) {turn : Nat} (accepted : turn ∈ turns.accepted)
    (chosen : among turn) : ∃ row ∈ turns.stored.rows, row.turn = turn ∧ row.status ≠ .started := by
  obtain ⟨call, member, rfl⟩ := calls.call accepted
  obtain ⟨final, saved⟩ := settled call member chosen
  exact ⟨call, Table.find_mem saved, rfl, final⟩

theorem Calls.settled_rows (calls : Calls config turns) (settled : turns.Settled fun _ => True)
    {row : ModelCall} (member : row ∈ turns.stored.rows) : row.status ≠ .started := by
  obtain ⟨call, inside, identity, _⟩ := calls.owned row member
  obtain ⟨final, saved⟩ := settled call inside trivial
  have found := Table.mem_find member
  rw [← identity, saved] at found
  cases found
  exact final

theorem Orderly.latest (orderly : Orderly config turns) {key : ToolKey}
    (running : key ∈ turns.running) :
    turns.latest = some key.1 ∧ ∃ row ∈ turns.stored.rows, row.turn = key.1 ∧
      row.status = .succeeded ∧ row.stopReason = some .toolUse := by
  obtain ⟨latest, finished, call, found, status, reason⟩ :=
    awaitsTools_latest (orderly.tools.awaited key running)
  obtain ⟨_, saved⟩ := orderly.calls.finished call (Table.find_mem found)
    ((Table.find_key found).symm ▸ finished)
  have positive : turns.opened ≠ 0 := by
    have inside := List.length_pos_of_mem (Table.find_mem found)
    rw [Turns.opened]
    omega
  constructor
  · rw [Turns.latest, orderly.calls.accepted, latest, List.getLast?_range', if_neg positive]
    congr 1
    omega
  · exact ⟨call, Table.find_mem saved, Table.find_key found, status, reason⟩

theorem turn_protocol {events : List (Turns × Action)} {final : Turns}
    (run : Run (step config) config.initial events final) : Protocol config events final := by
  have last := orderly_inductive.run run orderly_initial fun _ _ => trivial
  have met := orderly_inductive.met run orderly_initial fun _ _ => trivial
  constructor
  · rw [last.calls.length]
    exact ⟨last.calls.accepted, last.calls.bounded⟩
  · intro event member after moved opened
    have orderly := met event member
    obtain ⟨idle, finished⟩ := opens_idle orderly moved opened
    refine ⟨idle, ?_, ?_⟩
    · apply List.eq_nil_iff_forall_not_mem.mpr
      intro key executing
      have inside := orderly.tools.inside key executing
      simp [idle] at inside
    · intro turn accepted
      exact orderly.calls.settled_row orderly.calls.finished accepted (by simp [finished])
  · intro event member after key moved fresh started
    have orderly := met event member
    have running := starts_running orderly moved fresh started
    exact ⟨orderly.tools.known key running, orderly.latest running⟩
  · exact ⟨last.tools.once, last.tools.budget⟩
  · have slots := last.tools.slots
    exact ⟨last.tools.distinct, by omega⟩
  · intro ended
    unfold Turns.hasEnded at ended
    split at ended
    · next outcome phase =>
        have settled := last.closed outcome phase
        constructor
        · intro turn accepted
          obtain ⟨row, member, same, _⟩ := last.calls.settled_row settled accepted trivial
          exact ⟨row, member, same⟩
        · intro row member
          have final := last.calls.settled_rows settled member
          cases status : row.status with
          | started => exact absurd status final
          | succeeded => exact Or.inl rfl
          | failed => exact Or.inr rfl
    · cases ended

def sampleConfig : Config where
  maxTurns := 2
  maxToolCalls := 1
  maxParallelTools := 1
  costPer1kTokens := ⟨0, by simp [Exact, nearest, roundEven]⟩
  toolNames := [text "search"]

def sampleRecord (kind : String) (turn : ℤ) (data : Record) : Record :=
  [(text "kind", .string (text kind)), (text "turn", .number (.int turn))] ++ data

def sampleAround (callId : Nat) : Surroundings := ⟨callId, .ok (text "Answer."), .ok (), 0⟩

def sampleActions : List Action :=
  let count : Record := [(text "message_count", .number (.int 1))]
  let ended : Record := [(text "stop_reason", .string (text "toolUse")),
    (text "latency_ms", .number (.int 5))]
  let call : Record := [(text "name", .string (text "search")),
    (text "tool_call_id", .string (text "call-1"))]
  [.handle (sampleRecord "prepare_request" 1 count) (sampleAround 1),
    .handle (sampleRecord "model_end" 1 ended) (sampleAround 2),
    .handle (sampleRecord "tool_call" 1 call) (sampleAround 3),
    .start (1, text "call-1"),
    .finish (1, text "call-1"),
    .handle (sampleRecord "prepare_request" 2 count) (sampleAround 4),
    .leave (.error (protocolError "Pi worker failed (worker_error)")),
    .exit (.ok ()) 9]

theorem turn_protocol_interrupted :
    ∃ events final, Run (step sampleConfig) sampleConfig.initial events final ∧
      (final.accepted = [1, 2] ∧ final.hasEnded = true ∧
        final.stored.rows.map ModelCall.status = [.succeeded, .failed]) ∧
      Protocol sampleConfig events final := by
  have passed : (replay (step sampleConfig) sampleConfig.initial sampleActions).any (fun outcome =>
      outcome.2.accepted = [1, 2] ∧ outcome.2.hasEnded = true ∧
        outcome.2.stored.rows.map ModelCall.status = [.succeeded, .failed]) = true := by
    decide +kernel
  obtain ⟨events, final, run, checked⟩ := replay_checked passed
  exact ⟨events, final, run, of_decide_eq_true checked, turn_protocol run⟩

end Runs

end AgentTaskPlatform.PiTurns
