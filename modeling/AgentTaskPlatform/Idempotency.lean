import AgentTaskPlatform.Submission

/-!
Submissions of one request. The unique constraint lets one call of a request store
its run, and a call that loses finds the winner's row: a conflict with a run of the
request shows it at once, and a conflict with the conversation alone cannot happen to
the second transaction, because conversations are never removed.
-/

namespace AgentTaskPlatform.Submission

open Interleaving KeyedTable RunService

def Stored (database : Database) (key : RequestKey) : Prop :=
  ∃ row ∈ database.runs.rows, row.requestKey = key

def Known (database : Database) (key : ExternalKey) : Prop :=
  ∃ conversation ∈ database.conversations.rows, conversation.externalKey = key

structure Grows (before after : Database) : Prop where
  runs : ∀ row ∈ before.runs.rows, ∃ later ∈ after.runs.rows,
    later.runId = row.runId ∧ later.requestKey = row.requestKey
  conversations : ∀ conversation ∈ before.conversations.rows,
    conversation ∈ after.conversations.rows

theorem Grows.refl (database : Database) : Grows database database :=
  ⟨fun row member => ⟨row, member, rfl, rfl⟩, fun _ member => member⟩

theorem Grows.trans {first second third : Database} (one : Grows first second)
    (two : Grows second third) : Grows first third where
  runs row member := by
    obtain ⟨later, inside, sameId, sameKey⟩ := one.runs row member
    obtain ⟨last, stored, lastId, lastKey⟩ := two.runs later inside
    exact ⟨last, stored, lastId.trans sameId, lastKey.trans sameKey⟩
  conversations conversation member := two.conversations conversation (one.conversations conversation member)

theorem Grows.stored {before after : Database} (grows : Grows before after) {key : RequestKey}
    (stored : Stored before key) : Stored after key := by
  obtain ⟨row, member, same⟩ := stored
  obtain ⟨later, inside, _, kept⟩ := grows.runs row member
  exact ⟨later, inside, kept.trans same⟩

theorem Grows.known {before after : Database} (grows : Grows before after) {key : ExternalKey}
    (known : Known before key) : Known after key := by
  obtain ⟨conversation, member, same⟩ := known
  exact ⟨conversation, grows.conversations conversation member, same⟩

theorem create_grows {database after : Database} {conversation : Option Conversation}
    {run : AgentRun} (stored : database.create conversation run = some after) :
    Grows database after := by
  obtain ⟨inserted, _, conversations⟩ := create_stored stored
  refine ⟨?_, ?_⟩
  · intro row member
    exact ⟨row, (Relation.mem_insert inserted).mpr (Or.inl member), rfl, rfl⟩
  · intro present member
    rcases conversations with ⟨_, same⟩ | ⟨new, _, added⟩
    · rw [same]
      exact member
    · exact (Relation.mem_insert added).mpr (Or.inl member)

theorem progress_grows (database : Database) (run : AgentRun) :
    Grows database (database.progress run) where
  runs _ member := Relation.replace_mem member
  conversations _ member := member

namespace Phase

def won (phase : Phase) : Prop := ∃ run, phase.step = .returned (.ok (run, true))

end Phase

section Steps

variable {call : Call} {step : Step} {op : Query} {database : Database}

/-- A call reads, or its unit of work stores its rows. -/
theorem performed_cases (permitted : call.Permitted step op) (oracle : op.Answer) :
    ((op.perform oracle database).2 = database ∧
      ¬ Phase.won ⟨call, call.after step op (op.perform oracle database).1⟩) ∨
    ∃ round run conversation pending,
      step = .storing round run conversation pending ∧
      database.create pending (placed run conversation) = some (op.perform oracle database).2 ∧
      call.after step op (op.perform oracle database).1 =
        .returned (.ok (placed run conversation, true)) := by
  cases permitted with
  | look =>
      left
      refine ⟨rfl, ?_⟩
      rintro ⟨run, same⟩
      simp only [Query.perform] at same
      cases found : database.runs.lookup call.key <;> rw [found] at same <;> cases same
  | route =>
      left
      refine ⟨rfl, ?_⟩
      rintro ⟨run, same⟩
      cases same
  | stamp routed =>
      left
      refine ⟨rfl, ?_⟩
      rintro ⟨run, same⟩
      simp only [Query.perform, Call.after, Call.enter] at same
      split at same
      · split at same <;> cases same
      · cases same
  | @name round run conversationId named =>
      left
      refine ⟨rfl, ?_⟩
      rintro ⟨stored, same⟩
      simp only [Query.perform] at same
      cases found : database.conversations.find conversationId <;> rw [found] at same <;> cases same
  | search round run =>
      left
      refine ⟨rfl, ?_⟩
      rintro ⟨stored, same⟩
      simp only [Query.perform] at same
      cases found : database.conversations.lookup call.externalKey <;> rw [found] at same <;>
        cases same
  | store round run conversation pending =>
      simp only [Query.perform]
      cases created : database.create pending (placed run conversation) with
      | none =>
          left
          refine ⟨rfl, ?_⟩
          rintro ⟨stored, same⟩
          cases same
      | some after => exact Or.inr ⟨round, run, conversation, pending, rfl, created, rfl⟩
  | reread round run =>
      left
      refine ⟨rfl, ?_⟩
      rintro ⟨stored, same⟩
      simp only [Query.perform] at same
      cases found : database.runs.lookup call.key with
      | some existing =>
          rw [found] at same
          cases same
      | none =>
          rw [found] at same
          cases round with
          | first =>
              simp only [Call.after, Call.retried, Call.enter] at same
              split at same <;> cases same
          | second => cases same

theorem permitted_waits (permitted : call.Permitted step op) : ¬ Phase.won ⟨call, step⟩ := by
  rintro ⟨run, same⟩
  rw [show step = _ from same] at permitted
  cases permitted

end Steps

structure Own (call : Call) (run : AgentRun) : Prop where
  runId : run.runId = call.runId
  key : run.requestKey = call.key

def Sound (database : Database) (call : Call) : Step → Prop
  | .naming round run => Own call run ∧ (round = .second → Known database call.externalKey)
  | .searching round run => Own call run ∧ (round = .second → Known database call.externalKey)
  | .storing round run _ pending =>
      Own call run ∧ (round = .second → pending = none) ∧
        ∀ new, pending = some new → new = call.conversation (call.drawnFor round)
  | .conflicted round run =>
      Own call run ∧
        (Stored database call.key ∨ (round = .first ∧ Known database call.externalKey))
  | .returned (.ok (run, _)) =>
      ∃ row ∈ database.runs.rows, row.requestKey = call.key ∧ row.runId = run.runId
  | _ => True

theorem Sound.grows {before after : Database} {call : Call} {step : Step}
    (sound : Sound before call step) (grows : Grows before after) : Sound after call step := by
  cases step with
  | naming round run => exact ⟨sound.1, fun second => grows.known (sound.2 second)⟩
  | searching round run => exact ⟨sound.1, fun second => grows.known (sound.2 second)⟩
  | storing round run conversation pending => exact sound
  | conflicted round run =>
      exact ⟨sound.1, sound.2.imp grows.stored (And.imp_right grows.known)⟩
  | returned outcome =>
      cases outcome with
      | ok result =>
          obtain ⟨row, member, sameKey, sameId⟩ := sound
          obtain ⟨later, inside, keptId, keptKey⟩ := grows.runs row member
          exact ⟨later, inside, keptKey.trans sameKey, keptId.trans sameId⟩
      | error error => trivial
  | _ => trivial

theorem newRun_own (call : Call) : Own call (newRun call.submission call.runId) := ⟨rfl, rfl⟩

theorem routed_own {call : Call} {run routed : AgentRun} {outcome : Except Exc AgentSpec}
    {now : Nat} (own : Own call run) (ok : routedRun run outcome now = .ok routed) :
    Own call routed := by
  unfold routedRun at ok
  split at ok
  · cases ok
    exact ⟨own.runId, own.key⟩
  · split at ok
    · cases ok
      exact ⟨own.runId, own.key⟩
    · cases ok

theorem enter_sound {database : Database} {call : Call} {run : AgentRun} {round : Round}
    (own : Own call run) (known : round = .second → Known database call.externalKey) :
    Sound database call (call.enter round run) := by
  unfold Call.enter
  split
  · exact ⟨own, known⟩
  · exact ⟨own, known⟩

structure Unused (database : Database) (call : Call) : Prop where
  run : ∀ row ∈ database.runs.rows, row.runId ≠ call.runId
  conversation : ∀ present ∈ database.conversations.rows, ∀ round,
    present.conversationId ≠ call.drawnFor round

section Sound

variable {call : Call} {step : Step} {op : Query} {database : Database}

/-- A refused unit of work has met a run of the request, or a conversation of the same
external id in the first round. -/
theorem refused_sound {round : Round} {run : AgentRun} {conversation : Conversation}
    {pending : Option Conversation} (unused : Unused database call)
    (sound : Sound database call (.storing round run conversation pending))
    (refused : database.create pending (placed run conversation) = none) :
    Sound database call (.conflicted round run) := by
  obtain ⟨own, second, built⟩ := sound
  refine ⟨own, ?_⟩
  rcases create_refused refused with taken | ⟨new, some, taken⟩
  · left
    obtain ⟨present, member, sameId | sameKey⟩ := Relation.insert_none taken
    · exact absurd (sameId.trans own.runId) (unused.run present member)
    · exact ⟨present, member, sameKey.trans own.key⟩
  · right
    rw [built new some] at taken
    obtain ⟨present, member, sameId | sameKey⟩ := Relation.insert_none taken
    · exact absurd sameId (unused.conversation present member round)
    · refine ⟨?_, present, member, sameKey⟩
      cases round with
      | first => rfl
      | second =>
          rw [second rfl] at some
          cases some

theorem performed_sound (permitted : call.Permitted step op) (oracle : op.Answer)
    (sound : Sound database call step) (unused : Unused database call) :
    Sound (op.perform oracle database).2 call
      (call.after step op (op.perform oracle database).1) := by
  cases permitted with
  | look =>
      simp only [Query.perform]
      cases found : database.runs.lookup call.key with
      | none => trivial
      | some existing =>
          obtain ⟨member, same⟩ := Relation.lookup_some found
          exact ⟨existing, member, same, rfl⟩
  | route => trivial
  | stamp routed =>
      simp only [Query.perform, Call.after]
      cases routing : routedRun (newRun call.submission call.runId) routed oracle with
      | error error => trivial
      | ok run => exact enter_sound (routed_own (newRun_own call) routing) (fun second => by cases second)
  | @name round run conversationId named =>
      simp only [Query.perform]
      cases found : database.conversations.find conversationId with
      | none => exact sound
      | some existing => exact ⟨sound.1, fun _ => rfl, fun _ other => by cases other⟩
  | search round run =>
      simp only [Query.perform]
      cases found : database.conversations.lookup call.externalKey with
      | some existing => exact ⟨sound.1, fun _ => rfl, fun _ other => by cases other⟩
      | none =>
          refine ⟨sound.1, ?_, ?_⟩
          · intro second
            obtain ⟨present, member, same⟩ := sound.2 second
            exact absurd same (Relation.lookup_none found present member)
          · intro new same
            cases same
            rfl
  | store round run conversation pending =>
      simp only [Query.perform]
      cases created : database.create pending (placed run conversation) with
      | none => exact refused_sound unused sound created
      | some after =>
          obtain ⟨inserted, _⟩ := create_stored created
          exact ⟨placed run conversation, (Relation.mem_insert inserted).mpr (Or.inr rfl),
            sound.1.key, rfl⟩
  | reread round run =>
      simp only [Query.perform]
      cases found : database.runs.lookup call.key with
      | some existing =>
          obtain ⟨member, same⟩ := Relation.lookup_some found
          exact ⟨existing, member, same, rfl⟩
      | none =>
          rcases sound.2 with ⟨row, member, same⟩ | ⟨rfl, known⟩
          · exact absurd same (Relation.lookup_none found row member)
          · exact enter_sound sound.1 fun _ => known

end Sound

structure Drawn (database : Database) : Prop where
  runs : ∀ row ∈ database.runs.rows, row.runId ∈ database.issued
  conversations : ∀ present ∈ database.conversations.rows,
    present.conversationId ∈ database.issued

def Step.raises : Step → Option Exc
  | .stamping (.error error) => some error
  | .returned (.error error) => some error
  | _ => none

def actor : SubmissionEvent → Option Nat
  | .acted thread _ _ _ _ _ => some thread
  | .launched _ _ _ _ => none

def Raised (past : List SubmissionEvent) (thread : Nat) (error : Exc) : Prop :=
  ∃ call before after,
    .acted thread call (.route call.submission) (.error error) before after ∈ past

def Quiet (event : SubmissionEvent) : Prop :=
  event.after.runs = event.before.runs ∧ event.after.conversations = event.before.conversations

structure Inv (start : Database) (past : List SubmissionEvent) (database : Database)
    (phases : List Phase) : Prop where
  grown : Grows start database
  drawn : Drawn database
  issued : ∀ (thread : Nat) phase, phases[thread]? = some phase →
    ∀ id ∈ phase.call.ids, id ∈ database.issued
  apart : ∀ (thread other : Nat) phase second, phases[thread]? = some phase →
    phases[other]? = some second → thread ≠ other → ∀ id ∈ phase.call.ids, id ∉ second.call.ids
  unused : ∀ (thread : Nat) phase, phases[thread]? = some phase → ¬ phase.won →
    Unused database phase.call
  sound : ∀ (thread : Nat) phase, phases[thread]? = some phase →
    Sound database phase.call phase.step
  raised : ∀ (thread : Nat) phase error, phases[thread]? = some phase →
    phase.step.raises = some error → Raised past thread error
  /-- A row is from the start, or a call has stored it. -/
  winner : ∀ row ∈ database.runs.rows, Stored start row.requestKey ∨
    ∃ (thread : Nat) (phase : Phase), phases[thread]? = some phase ∧ phase.won ∧
      phase.call.key = row.requestKey
  fresh : ∀ (thread : Nat) phase, phases[thread]? = some phase → phase.won →
    ¬ Stored start phase.call.key
  once : ∀ (thread other : Nat) phase second, phases[thread]? = some phase →
    phases[other]? = some second → phase.won → second.won →
    phase.call.key = second.call.key → thread = other
  quiet : ∀ event ∈ past, ∀ thread, actor event = some thread → Quiet event ∨
    ∃ phase, phases[thread]? = some phase ∧ phase.won

theorem inv_initial {start : Database} (drawn : Drawn start) : Inv start [] start [] where
  grown := .refl start
  drawn := drawn
  issued _ _ found := by cases found
  apart _ _ _ _ found := by cases found
  unused _ _ found := by cases found
  sound _ _ found := by cases found
  raised _ _ _ found := by cases found
  winner row member := Or.inl ⟨row, member, rfl⟩
  fresh _ _ found := by cases found
  once _ _ _ _ found := by cases found
  quiet _ member := by cases member

theorem raises_after {call : Call} {step : Step} {op : Query} {database : Database}
    {error : Exc} (thread : Nat) (permitted : call.Permitted step op) (oracle : op.Answer)
    (sound : Sound database call step)
    (raises : (call.after step op (op.perform oracle database).1).raises = some error) :
    step.raises = some error ∨ ∃ before after,
      (submissionSystem.performed thread call op oracle database : SubmissionEvent) =
        .acted thread call (.route call.submission) (.error error) before after := by
  cases permitted with
  | look =>
      simp only [Query.perform] at raises
      cases found : database.runs.lookup call.key <;> rw [found] at raises <;> cases raises
  | route =>
      cases oracle with
      | ok agent => cases raises
      | error raised =>
          cases raises
          exact Or.inr ⟨_, _, rfl⟩
  | stamp routed =>
      simp only [Query.perform, Call.after] at raises
      cases routed with
      | ok agent =>
          simp only [routedRun, Call.enter] at raises
          split at raises <;> cases raises
      | error raised =>
          left
          simp only [routedRun] at raises
          split at raises
          · next same =>
              split at same
              · simp only [Call.enter] at raises
                split at raises <;> cases raises
              · cases same
          · next same =>
              split at same
              · cases same
              · cases same
                exact raises
  | @name round run conversationId named =>
      simp only [Query.perform] at raises
      cases found : database.conversations.find conversationId <;> rw [found] at raises <;>
        cases raises
  | search round run =>
      simp only [Query.perform] at raises
      cases found : database.conversations.lookup call.externalKey <;> rw [found] at raises <;>
        cases raises
  | store round run conversation pending =>
      simp only [Query.perform] at raises
      cases created : database.create pending (placed run conversation) <;>
        rw [created] at raises <;> cases raises
  | reread round run =>
      simp only [Query.perform] at raises
      cases found : database.runs.lookup call.key with
      | some existing =>
          rw [found] at raises
          cases raises
      | none =>
          rw [found] at raises
          rcases sound.2 with ⟨row, member, same⟩ | ⟨rfl, known⟩
          · exact absurd same (Relation.lookup_none found row member)
          · simp only [Call.after, Call.retried, Call.enter] at raises
            split at raises <;> cases raises

section Acts

variable {start database : Database} {past : List SubmissionEvent} {phases : List Phase}
  {thread : Nat} {phase : Phase} {call : Call} {op : Query}

theorem performed_grows (op : Query) (oracle : op.Answer) (database : Database) :
    Grows database (op.perform oracle database).2 := by
  cases op with
  | create conversation run =>
      simp only [Query.perform]
      cases created : database.create conversation run with
      | none => exact .refl database
      | some after => exact create_grows created
  | _ => exact .refl database

theorem performed_issued (op : Query) (oracle : op.Answer) (database : Database) :
    (op.perform oracle database).2.issued = database.issued := by
  cases op with
  | create conversation run =>
      simp only [Query.perform]
      cases created : database.create conversation run with
      | none => rfl
      | some after => exact (create_stored created).2.1
  | _ => rfl

theorem call_kept {oracle : op.Answer} {index : Nat} {later : Phase}
    (present : phases[thread]? = some phase)
    (found : (discipline.observe phases
      (submissionSystem.performed thread call op oracle database))[index]? = some later) :
    ∃ earlier, phases[index]? = some earlier ∧ later.call = earlier.call := by
  rcases Discipline.performed_phase present found with ⟨rfl, rfl⟩ | ⟨_, kept⟩
  · exact ⟨phase, present, rfl⟩
  · exact ⟨later, kept, rfl⟩

theorem won_kept {oracle : op.Answer} {index : Nat} {winner : Phase}
    (present : phases[thread]? = some phase) (permitted : phase.call.Permitted phase.step op)
    (named : phases[index]? = some winner) (won : winner.won) :
    (discipline.observe phases
      (submissionSystem.performed thread call op oracle database))[index]? = some winner := by
  have other : index ≠ thread := by
    rintro rfl
    rw [present] at named
    cases named
    exact permitted_waits permitted won
  rw [Discipline.performed_other other]
  exact named

structure Stores (database after : Database) (phase later : Phase) : Prop where
  call : later.call = phase.call
  won : later.won
  rows : ∃ run, after.runs.rows = database.runs.rows ++ [run] ∧
    run.runId = phase.call.runId ∧ run.requestKey = phase.call.key
  free : ¬ Stored database phase.call.key
  conversations : ∀ present ∈ after.conversations.rows,
    present ∈ database.conversations.rows ∨ ∃ round,
      present.conversationId = phase.call.drawnFor round

theorem performed_stores (oracle : op.Answer) (permitted : phase.call.Permitted phase.step op)
    (sound : Sound database phase.call phase.step) :
    ((op.perform oracle database).2 = database ∧
      ¬ (discipline.protocol.after phase op (op.perform oracle database).1).won) ∨
    Stores database (op.perform oracle database).2 phase
      (discipline.protocol.after phase op (op.perform oracle database).1) := by
  rcases @performed_cases _ _ op database permitted oracle with
    ⟨same, lost⟩ | ⟨round, run, conversation, pending, storing, created, returned⟩
  · exact Or.inl ⟨same, lost⟩
  · right
    rw [storing] at sound
    obtain ⟨own, _, built⟩ := sound
    obtain ⟨inserted, _, conversations⟩ := create_stored created
    have key : (placed run conversation).requestKey = phase.call.key := own.key
    refine ⟨rfl, ⟨_, returned⟩, ⟨_, Relation.insert_rows inserted, own.runId, key⟩, ?_, ?_⟩
    · rintro ⟨row, member, same⟩
      exact (Relation.insert_fresh inserted row member).2 (same.trans key.symm)
    · intro present member
      rcases conversations with ⟨_, same⟩ | ⟨new, some, added⟩
      · rw [same] at member
        exact Or.inl member
      · rcases (Relation.mem_insert added).mp member with old | rfl
        · exact Or.inl old
        · refine Or.inr ⟨round, ?_⟩
          rw [built _ some]
          rfl

theorem drawnFor_mem (call : Call) (round : Round) : call.drawnFor round ∈ call.ids := by
  cases round <;> simp [Call.drawnFor, Call.ids]

theorem runId_mem (call : Call) : call.runId ∈ call.ids := by
  simp [Call.ids]

namespace Inv

variable {oracle : op.Answer}

theorem own_unused (inv : Inv start past database phases) (present : phases[thread]? = some phase)
    (permitted : phase.call.Permitted phase.step op) : Unused database phase.call :=
  inv.unused thread phase present (permitted_waits permitted)

theorem drawn_after (inv : Inv start past database phases)
    (present : phases[thread]? = some phase) (permitted : phase.call.Permitted phase.step op) :
    Drawn (op.perform oracle database).2 := by
  rcases performed_stores oracle permitted (inv.sound thread phase present) with
    ⟨same, _⟩ | stores
  · rw [same]
    exact inv.drawn
  · obtain ⟨run, rows, runId, _⟩ := stores.rows
    refine ⟨?_, ?_⟩
    · intro row member
      rw [performed_issued]
      rw [rows] at member
      rcases List.mem_append.mp member with old | new
      · exact inv.drawn.runs row old
      · rw [List.mem_singleton.mp new, runId]
        exact inv.issued thread phase present _ (runId_mem phase.call)
    · intro other member
      rw [performed_issued]
      rcases stores.conversations other member with old | ⟨round, same⟩
      · exact inv.drawn.conversations other old
      · rw [same]
        exact inv.issued thread phase present _ (drawnFor_mem phase.call round)

theorem unused_after (inv : Inv start past database phases)
    (present : phases[thread]? = some phase) (permitted : phase.call.Permitted phase.step op)
    {index : Nat} {later : Phase}
    (found : (discipline.observe phases
      (submissionSystem.performed thread call op oracle database))[index]? = some later)
    (lost : ¬ later.won) : Unused (op.perform oracle database).2 later.call := by
  rcases performed_stores oracle permitted (inv.sound thread phase present) with
    ⟨same, _⟩ | stores
  · rw [same]
    rcases Discipline.performed_phase present found with ⟨rfl, rfl⟩ | ⟨_, kept⟩
    · have unused : Unused database phase.call := inv.own_unused present permitted
      exact unused
    · exact inv.unused index later kept lost
  · rcases Discipline.performed_phase present found with ⟨rfl, rfl⟩ | ⟨other, kept⟩
    · exact absurd stores.won lost
    · have unused := inv.unused index later kept lost
      have apart := inv.apart index thread later phase kept present other
      obtain ⟨run, rows, runId, _⟩ := stores.rows
      refine ⟨?_, ?_⟩
      · intro row member same
        rw [rows] at member
        rcases List.mem_append.mp member with old | new
        · exact unused.run row old same
        · rw [List.mem_singleton.mp new, runId] at same
          exact apart _ (runId_mem later.call) (same ▸ runId_mem phase.call)
      · intro row member round same
        rcases stores.conversations row member with old | ⟨own, drawn⟩
        · exact unused.conversation row old round same
        · rw [drawn] at same
          exact apart _ (drawnFor_mem later.call round) (same ▸ drawnFor_mem phase.call own)

theorem sound_after (inv : Inv start past database phases)
    (present : phases[thread]? = some phase) (permitted : phase.call.Permitted phase.step op)
    {index : Nat} {later : Phase}
    (found : (discipline.observe phases
      (submissionSystem.performed thread call op oracle database))[index]? = some later) :
    Sound (op.perform oracle database).2 later.call later.step := by
  rcases Discipline.performed_phase present found with ⟨rfl, rfl⟩ | ⟨_, kept⟩
  · exact performed_sound permitted oracle (inv.sound index phase present)
      (inv.own_unused present permitted)
  · exact (inv.sound index later kept).grows (performed_grows op oracle database)

theorem winner_after (inv : Inv start past database phases)
    (present : phases[thread]? = some phase) (permitted : phase.call.Permitted phase.step op) :
    ∀ row ∈ (op.perform oracle database).2.runs.rows, Stored start row.requestKey ∨
      ∃ (index : Nat) (winner : Phase), (discipline.observe phases
        (submissionSystem.performed thread call op oracle database))[index]? = some winner ∧
        winner.won ∧ winner.call.key = row.requestKey := by
  have before : ∀ row ∈ database.runs.rows, Stored start row.requestKey ∨
      ∃ (index : Nat) (winner : Phase), (discipline.observe phases
        (submissionSystem.performed thread call op oracle database))[index]? = some winner ∧
        winner.won ∧ winner.call.key = row.requestKey := by
    intro row member
    rcases inv.winner row member with old | ⟨index, winner, named, won, key⟩
    · exact Or.inl old
    · exact Or.inr ⟨index, winner, won_kept present permitted named won, won, key⟩
  intro row member
  rcases performed_stores oracle permitted (inv.sound thread phase present) with
    ⟨same, _⟩ | stores
  · rw [same] at member
    exact before row member
  · obtain ⟨run, rows, _, key⟩ := stores.rows
    rw [rows] at member
    rcases List.mem_append.mp member with old | new
    · exact before row old
    · refine Or.inr ⟨thread, _, Discipline.performed_self present, stores.won, ?_⟩
      rw [List.mem_singleton.mp new, key]
      exact congrArg Call.key stores.call

theorem fresh_after (inv : Inv start past database phases)
    (present : phases[thread]? = some phase) (permitted : phase.call.Permitted phase.step op)
    {index : Nat} {later : Phase}
    (found : (discipline.observe phases
      (submissionSystem.performed thread call op oracle database))[index]? = some later)
    (won : later.won) : ¬ Stored start later.call.key := by
  rcases Discipline.performed_phase present found with ⟨rfl, rfl⟩ | ⟨_, kept⟩
  · rcases performed_stores oracle permitted (inv.sound index phase present) with
      ⟨_, lost⟩ | stores
    · exact absurd won lost
    · intro old
      exact stores.free (inv.grown.stored old)
  · exact inv.fresh index later kept won

/-- A second winner of the request would have met the row of the first. -/
theorem new_winner (inv : Inv start past database phases)
    (present : phases[thread]? = some phase) (permitted : phase.call.Permitted phase.step op)
    {index : Nat} {winner : Phase} (named : phases[index]? = some winner) (won : winner.won)
    (key : winner.call.key = phase.call.key) :
    ¬ (discipline.protocol.after phase op (op.perform oracle database).1).won := by
  rcases performed_stores oracle permitted (inv.sound thread phase present) with
    ⟨_, lost⟩ | stores
  · exact lost
  · obtain ⟨run, returned⟩ := won
    have sound := inv.sound index winner named
    rw [returned] at sound
    obtain ⟨row, member, same, _⟩ := sound
    exact absurd ⟨row, member, same.trans key⟩ stores.free

theorem once_after (inv : Inv start past database phases)
    (present : phases[thread]? = some phase) (permitted : phase.call.Permitted phase.step op)
    {index other : Nat} {later second : Phase}
    (found : (discipline.observe phases
      (submissionSystem.performed thread call op oracle database))[index]? = some later)
    (found' : (discipline.observe phases
      (submissionSystem.performed thread call op oracle database))[other]? = some second)
    (won : later.won) (won' : second.won) (key : later.call.key = second.call.key) :
    index = other := by
  rcases Discipline.performed_phase present found with ⟨rfl, rfl⟩ | ⟨_, kept⟩
  · rcases Discipline.performed_phase present found' with ⟨rfl, rfl⟩ | ⟨_, kept'⟩
    · rfl
    · exact absurd won (inv.new_winner present permitted kept' won' key.symm)
  · rcases Discipline.performed_phase present found' with ⟨rfl, rfl⟩ | ⟨_, kept'⟩
    · exact absurd won' (inv.new_winner present permitted kept won key)
    · exact inv.once index other later second kept kept' won won' key

theorem quiet_after (inv : Inv start past database phases)
    (present : phases[thread]? = some phase) (permitted : phase.call.Permitted phase.step op) :
    ∀ event ∈ past ++ [submissionSystem.performed thread call op oracle database],
      ∀ index, actor event = some index → Quiet event ∨ ∃ winner : Phase,
        (discipline.observe phases
          (submissionSystem.performed thread call op oracle database))[index]? = some winner ∧
        winner.won := by
  intro event member index acts
  rcases List.mem_append.mp member with earlier | now
  · rcases inv.quiet event earlier index acts with quiet | ⟨winner, named, won⟩
    · exact Or.inl quiet
    · exact Or.inr ⟨winner, won_kept present permitted named won, won⟩
  · rw [List.mem_singleton.mp now] at acts ⊢
    cases acts
    rcases performed_stores oracle permitted (inv.sound thread phase present) with
      ⟨same, _⟩ | stores
    · left
      have unchanged : (op.perform oracle database).2 = database := same
      exact ⟨congrArg Database.runs unchanged, congrArg Database.conversations unchanged⟩
    · exact Or.inr ⟨_, Discipline.performed_self present, stores.won⟩

theorem raised_after (inv : Inv start past database phases)
    (present : phases[thread]? = some phase) (permitted : phase.call.Permitted phase.step op)
    {index : Nat} {later : Phase} {error : Exc}
    (found : (discipline.observe phases
      (submissionSystem.performed thread phase.call op oracle database))[index]? = some later)
    (raises : later.step.raises = some error) :
    Raised (past ++ [submissionSystem.performed thread phase.call op oracle database]) index
      error := by
  have earlier : ∀ index, Raised past index error →
      Raised (past ++ [submissionSystem.performed thread phase.call op oracle database]) index
        error := by
    rintro index ⟨call, before, after, member⟩
    exact ⟨call, before, after, List.mem_append_left _ member⟩
  rcases Discipline.performed_phase present found with ⟨rfl, rfl⟩ | ⟨_, kept⟩
  · rcases raises_after index permitted oracle (inv.sound index phase present) raises with
      old | ⟨before, after, same⟩
    · exact earlier index (inv.raised index phase error present old)
    · exact ⟨phase.call, before, after, List.mem_append_right _ (List.mem_singleton.mpr same.symm)⟩
  · exact earlier index (inv.raised index later error kept raises)

end Inv

end Acts

section Launches

variable {start database : Database} {past : List SubmissionEvent} {phases : List Phase}
  {config : SubmissionConfig} {entry : Entry} {after : Database}
  {spawned : Option (Thread queries Call Outcome)}

theorem launch_grows
    (launched : submissionSystem.launch entry config = some (after, spawned)) :
    Grows config.state after := by
  rcases launch_cases launched with ⟨call, _, _, rfl, _⟩ | ⟨run, _, _, rfl, _⟩
  · exact ⟨fun row member => ⟨row, member, rfl, rfl⟩, fun _ member => member⟩
  · exact progress_grows config.state run

theorem launch_issued
    (launched : submissionSystem.launch entry config = some (after, spawned)) :
    ∀ id ∈ config.state.issued, id ∈ after.issued := by
  intro id member
  rcases launch_cases launched with ⟨call, _, _, rfl, _⟩ | ⟨run, _, _, rfl, _⟩
  · exact List.mem_append_left _ member
  · exact member

/-- A launch brings no new unique values into the tables. -/
theorem launch_rows (launched : submissionSystem.launch entry config = some (after, spawned)) :
    (∀ row ∈ after.runs.rows, ∃ old ∈ config.state.runs.rows,
      old.runId = row.runId ∧ old.requestKey = row.requestKey) ∧
    after.conversations = config.state.conversations := by
  rcases launch_cases launched with ⟨call, _, _, rfl, _⟩ | ⟨run, _, _, rfl, _⟩
  · exact ⟨fun row member => ⟨row, member, rfl, rfl⟩, rfl⟩
  · refine ⟨?_, rfl⟩
    intro row member
    rcases Relation.mem_replace member with old | ⟨rfl, old, inside, same⟩
    · exact ⟨row, old, rfl, rfl⟩
    · exact ⟨old, inside, same⟩

theorem launch_unused {call : Call}
    (launched : submissionSystem.launch entry config = some (after, spawned))
    (unused : Unused config.state call) : Unused after call := by
  obtain ⟨runs, conversations⟩ := launch_rows launched
  refine ⟨?_, ?_⟩
  · intro row member same
    obtain ⟨old, inside, runId, _⟩ := runs row member
    exact unused.run old inside (runId.trans same)
  · rw [conversations]
    exact unused.conversation

theorem launch_new {phase : Phase}
    (launched : submissionSystem.launch entry config = some (after, spawned))
    (started : entry.phase = some phase) : phase.step = .looking ∧
      (∀ id ∈ phase.call.ids, id ∉ config.state.issued) ∧
      ∀ id ∈ phase.call.ids, id ∈ after.issued := by
  rcases launch_cases launched with ⟨call, rfl, drawn, rfl, _⟩ | ⟨run, rfl, _, _, _⟩
  · cases started
    simp only [Call.drawn, Bool.and_eq_true, List.all_eq_true] at drawn
    refine ⟨rfl, ?_, fun id member => List.mem_append_right _ member⟩
    intro id member
    simpa using drawn.1 id member
  · cases started

theorem drawn_unused {call : Call} (drawn : Drawn database)
    (new : ∀ id ∈ call.ids, id ∉ database.issued) : Unused database call := by
  refine ⟨?_, ?_⟩
  · intro row member same
    exact new _ (runId_mem call) (same ▸ drawn.runs row member)
  · intro present member round same
    exact new _ (drawnFor_mem call round) (same ▸ drawn.conversations present member)

theorem looking_lost {phase : Phase} (looking : phase.step = .looking) : ¬ phase.won := by
  rintro ⟨run, returned⟩
  rw [looking] at returned
  cases returned

end Launches

theorem inv_inductive (start : Database) : discipline.Inductive (fun _ _ => True) (Inv start) where
  acts past database phases thread tag op oracle phase inv present belongs permitted _ := by
    rw [← show phase.call = tag from belongs]
    exact
      { grown := inv.grown.trans (performed_grows op oracle database)
        drawn := inv.drawn_after present permitted
        issued := by
          intro index later found id member
          obtain ⟨earlier, named, same⟩ := call_kept present found
          rw [same] at member
          have known := inv.issued index earlier named id member
          rwa [← performed_issued op oracle database] at known
        apart := by
          intro index other later second found found' different id member
          obtain ⟨earlier, named, same⟩ := call_kept present found
          obtain ⟨earlier', named', same'⟩ := call_kept present found'
          rw [same] at member
          rw [same']
          exact inv.apart index other earlier earlier' named named' different id member
        unused := fun index later found lost => inv.unused_after present permitted found lost
        sound := fun index later found => inv.sound_after present permitted found
        raised := fun index later error found raises => inv.raised_after present permitted found raises
        winner := inv.winner_after present permitted
        fresh := fun index later found won => inv.fresh_after present permitted found won
        once := fun index other later second found found' won won' key =>
          inv.once_after present permitted found found' won won' key
        quiet := inv.quiet_after present permitted }
  launches past config phases entry after spawned tracked inv launched _ := by
    have kept : ∀ (index : Nat) phase, phases[index]? = some phase →
        (discipline.observe phases
          (.launched entry (System.spawnedThread config spawned) config.state after))[index]? =
            some phase := fun index phase present => Discipline.launched_kept present
    exact
      { grown := inv.grown.trans (launch_grows launched)
        drawn := by
          obtain ⟨runs, conversations⟩ := launch_rows launched
          refine ⟨?_, ?_⟩
          · intro row member
            obtain ⟨old, inside, same, _⟩ := runs row member
            exact same ▸ launch_issued launched _ (inv.drawn.runs old inside)
          · intro present member
            rw [conversations] at member
            exact launch_issued launched _ (inv.drawn.conversations present member)
        issued := by
          intro index phase found id member
          rcases Discipline.launched_phase found with old | ⟨_, _, started⟩
          · exact launch_issued launched id (inv.issued index phase old id member)
          · exact (launch_new launched started).2.2 id member
        apart := by
          intro index other phase second found found' different id member
          rcases Discipline.launched_phase found with old | ⟨position, _, started⟩
          · rcases Discipline.launched_phase found' with old' | ⟨_, _, started'⟩
            · exact inv.apart index other phase second old old' different id member
            · intro again
              exact (launch_new launched started').2.1 id again
                (inv.issued index phase old id member)
          · rcases Discipline.launched_phase found' with old' | ⟨position', _, _⟩
            · intro again
              exact (launch_new launched started).2.1 id member
                (inv.issued other second old' id again)
            · exact absurd (position.trans position'.symm) different
        unused := by
          intro index phase found lost
          rcases Discipline.launched_phase found with old | ⟨_, _, started⟩
          · exact launch_unused launched (inv.unused index phase old lost)
          · exact launch_unused launched
              (drawn_unused inv.drawn (launch_new launched started).2.1)
        sound := by
          intro index phase found
          rcases Discipline.launched_phase found with old | ⟨_, _, started⟩
          · exact (inv.sound index phase old).grows (launch_grows launched)
          · rw [(launch_new launched started).1]
            trivial
        raised := by
          intro index phase error found raises
          rcases Discipline.launched_phase found with old | ⟨_, _, started⟩
          · obtain ⟨call, before, later, member⟩ := inv.raised index phase error old raises
            exact ⟨call, before, later, List.mem_append_left _ member⟩
          · rw [(launch_new launched started).1] at raises
            cases raises
        winner := by
          intro row member
          obtain ⟨old, inside, _, same⟩ := (launch_rows launched).1 row member
          rw [← same]
          rcases inv.winner old inside with stored | ⟨index, winner, named, won, key⟩
          · exact Or.inl stored
          · exact Or.inr ⟨index, winner, kept index winner named, won, key⟩
        fresh := by
          intro index phase found won
          rcases Discipline.launched_phase found with old | ⟨_, _, started⟩
          · exact inv.fresh index phase old won
          · exact absurd won (looking_lost (launch_new launched started).1)
        once := by
          intro index other phase second found found' won won' key
          rcases Discipline.launched_phase found with old | ⟨_, _, started⟩
          · rcases Discipline.launched_phase found' with old' | ⟨_, _, started'⟩
            · exact inv.once index other phase second old old' won won' key
            · exact absurd won' (looking_lost (launch_new launched started').1)
          · exact absurd won (looking_lost (launch_new launched started).1)
        quiet := by
          intro event member thread acts
          rcases List.mem_append.mp member with earlier | now
          · rcases inv.quiet event earlier thread acts with quiet | ⟨winner, named, won⟩
            · exact Or.inl quiet
            · exact Or.inr ⟨winner, kept thread winner named, won⟩
          · rw [List.mem_singleton.mp now] at acts
            cases acts }

def Returned (config : SubmissionConfig) (key : RequestKey) (thread : Nat) (run : AgentRun)
    (isNew : Bool) : Prop :=
  ∃ call, config.threads[thread]? = some ⟨call, .ret (.ok (run, isNew))⟩ ∧ call.key = key

def Settled (config : SubmissionConfig) (key : RequestKey) : Prop :=
  ∀ thread ∈ config.threads, thread.tag.key = key → thread.program.finished = true

structure Converges (events : List SubmissionEvent) (final : SubmissionConfig)
    (key : RequestKey) : Prop where
  single : ∀ row ∈ final.state.runs.rows, ∀ other ∈ final.state.runs.rows,
    row.requestKey = key → other.requestKey = key → row = other
  returned : ∀ thread run isNew, Returned final key thread run isNew →
    ∃ row ∈ final.state.runs.rows, row.requestKey = key ∧ row.runId = run.runId
  once : ∀ thread other run second, Returned final key thread run true →
    Returned final key other second true → thread = other
  /-- Where all calls have ended and routing has let one of them through, one is new. -/
  new : Settled final key → (∃ thread run isNew, Returned final key thread run isNew) →
    ∃ thread run, Returned final key thread run true
  /-- A call that has not returned a new run has left both tables as they were. -/
  losing : ∀ (thread : Nat) call outcome,
    final.threads[thread]? = some ⟨call, .ret outcome⟩ →
    (∀ run, outcome ≠ .ok (run, true)) → ∀ event ∈ events, actor event = some thread → Quiet event
  /-- A call raises what its routing has raised, and never a conflict of its own. -/
  raised : ∀ (thread : Nat) call error,
    final.threads[thread]? = some ⟨call, .ret (.error error)⟩ → Raised events thread error

section Runs

variable {start : Database} {events : List SubmissionEvent} {final : SubmissionConfig}
  {phases : List Phase} {key : RequestKey}

theorem winner_returned (inv : Inv start events final.state phases)
    (tracked : discipline.Tracked final phases) (settled : Settled final key)
    (unseen : ¬ Stored start key) (stored : Stored final.state key) :
    ∃ thread run, Returned final key thread run true := by
  obtain ⟨row, member, rfl⟩ := stored
  rcases inv.winner row member with old | ⟨index, winner, named, won, same⟩
  · exact absurd old unseen
  · obtain ⟨run, returned⟩ := won
    have inside : index < final.threads.length := by
      rw [← tracked.length]
      exact (List.getElem?_eq_some_iff.mp named).1
    have found : final.threads[index]? = some final.threads[index] :=
      List.getElem?_eq_getElem inside
    obtain ⟨belongs, _⟩ := tracked.follows index _ winner found named
    have own : winner.call = final.threads[index].tag := belongs
    have done := settled _ (List.getElem_mem inside) (by rw [← own, same])
    cases thread : final.threads[index] with
    | mk tag program =>
        rw [thread] at done own found
        cases program with
        | act op next => cases done
        | ret outcome =>
            have ended := ended_phase tracked found
            rw [named] at ended
            have phase : winner.step = .returned outcome := congrArg Phase.step (Option.some.inj ended)
            have told : outcome = .ok (run, true) := Step.returned.inj (phase.symm.trans returned)
            refine ⟨index, run, tag, ?_, ?_⟩
            · rw [found, told]
            · exact (congrArg Call.key own).symm.trans same

/-- Every run of concurrent and repeated submissions agrees on one run for each request
that was not there before. -/
theorem submissions_converge (drawn : Drawn start)
    (ran : submissionSystem.Run (atRest start) events final) (unseen : ¬ Stored start key) :
    Converges events final key := by
  have inv := (inv_inductive start).run ran rfl (fun _ _ _ _ => trivial) (inv_initial drawn)
  have tracked : discipline.Tracked final (discipline.phases events) :=
    Discipline.run_tracked ran (Discipline.tracked_empty rfl)
  have won : ∀ {thread : Nat} {run : AgentRun}, Returned final key thread run true →
      ∃ winner : Phase, (discipline.phases events)[thread]? = some winner ∧ winner.won ∧
        winner.call.key = key := by
    rintro thread run ⟨call, found, same⟩
    exact ⟨_, ended_phase tracked found, ⟨run, rfl⟩, same⟩
  have returned : ∀ thread run isNew, Returned final key thread run isNew →
      ∃ row ∈ final.state.runs.rows, row.requestKey = key ∧ row.runId = run.runId := by
    rintro thread run isNew ⟨call, found, rfl⟩
    exact inv.sound thread _ (ended_phase tracked found)
  refine ⟨?_, returned, ?_, ?_, ?_, ?_⟩
  · intro row member other inside same same'
    exact Relation.same_row member inside (same.trans same'.symm)
  · intro thread other run second first last
    obtain ⟨winner, named, wins, same⟩ := won first
    obtain ⟨rival, named', wins', same'⟩ := won last
    exact inv.once thread other winner rival named named' wins wins' (same.trans same'.symm)
  · rintro settled ⟨thread, run, isNew, ended⟩
    obtain ⟨row, member, same, _⟩ := returned thread run isNew ended
    exact winner_returned inv tracked settled unseen ⟨row, member, same⟩
  · intro thread call outcome found lost event member acts
    rcases inv.quiet event member thread acts with quiet | ⟨winner, named, run, wins⟩
    · exact quiet
    · rw [ended_phase tracked found] at named
      cases named
      exact absurd (Step.returned.inj wins) (lost run)
  · intro thread call error found
    exact inv.raised thread _ error (ended_phase tracked found) rfl

end Runs

/-- Answers of routing and of the clock; the other queries are answered by the tables. -/
def answering : (op : Query) → op.Answer
  | .getByRequestId _ => none
  | .route _ => .ok sampleAgent
  | .utcNow => 0
  | .getConversation _ => none
  | .getByExternalId _ => none
  | .create _ _ => false

def turn (thread : Nat) : Move queries Entry := .act thread answering

def sampleSubmission (requestId : String) : RunSubmission :=
  { routeTag := "echo", requestId := requestId, externalId := some "case" }

def sampleCall (requestId : String) (number : String) : Call :=
  { submission := sampleSubmission requestId
    runId := "RUN-" ++ number
    first := "CONV-" ++ number
    second := "CONV-again-" ++ number }

/-- Two calls of one request and one of another create the same conversation at the same
time. The other request wins the conversation. -/
def threeAtOnce : List (Move queries Entry) :=
  [.launch (.submit (sampleCall "REQ-1" "1")), .launch (.submit (sampleCall "REQ-1" "2")),
    .launch (.submit (sampleCall "REQ-2" "3"))] ++
    [turn 0, turn 1, turn 2, turn 0, turn 1, turn 2, turn 0, turn 1, turn 2, turn 0, turn 1, turn 2] ++
    [turn 2, turn 0, turn 0, turn 1, turn 1, turn 0, turn 1, turn 1, turn 0, turn 0]

def outcomes (config : SubmissionConfig) : List (Option (String × Bool)) :=
  config.threads.map fun thread =>
    match thread.program with
    | .ret (.ok (run, isNew)) => some (run.runId, isNew)
    | _ => none

theorem threeAtOnce_replays : (submissionSystem.replay (atRest Database.empty) threeAtOnce).any
    (fun outcome => outcomes outcome.2 ==
      [some ("RUN-2", false), some ("RUN-2", true), some ("RUN-3", true)]) = true := by
  decide

theorem drawn_empty : Drawn Database.empty where
  runs _ member := by cases member
  conversations _ member := by cases member

theorem unseen_empty (key : RequestKey) : ¬ Stored Database.empty key := by
  rintro ⟨_, member, _⟩
  cases member

theorem submissions_converge_threeAtOnce : ∃ events final,
    submissionSystem.Run (atRest Database.empty) events final ∧
      outcomes final = [some ("RUN-2", false), some ("RUN-2", true), some ("RUN-3", true)] ∧
      Converges events final ⟨"default", "echo", "REQ-1"⟩ := by
  obtain ⟨events, final, ran, checked⟩ := System.replay_checked threeAtOnce_replays
  exact ⟨events, final, ran, by simpa using checked,
    submissions_converge drawn_empty ran (unseen_empty _)⟩

end AgentTaskPlatform.Submission
