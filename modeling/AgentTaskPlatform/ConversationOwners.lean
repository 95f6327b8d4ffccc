import AgentTaskPlatform.Idempotency

/-!
Whose conversation a run belongs to. A conversation that is found by its external id
or created carries the caller of the submission; one that is found by an explicit id
carries whatever caller has created it, and `get_or_create` does not look.
-/

namespace AgentTaskPlatform.Submission

open Interleaving KeyedTable RunService

def Owned (database : Database) : Prop :=
  ∀ run ∈ database.runs.rows, ∀ conversationId, run.conversationId = some conversationId →
    ∃ conversation ∈ database.conversations.rows,
      conversation.conversationId = conversationId ∧ conversation.caller = run.caller

def Database.listByConversation (database : Database) (conversationId : String) :
    List AgentRun :=
  database.runs.rows.filter (·.conversationId = some conversationId)

def Database.externalIdOf (database : Database) (run : AgentRun) : Option String :=
  match run.conversationId with
  | none => none
  | some conversationId =>
      if conversationId = "" then none
      else (database.conversations.find conversationId).map Conversation.externalId

def Database.payloadExternalId (database : Database) (run : AgentRun) : String :=
  (database.externalIdOf run).getD run.requestId

structure Isolated (database : Database) : Prop where
  owned : ∀ run ∈ database.runs.rows, ∀ conversation ∈ database.conversations.rows,
    run.conversationId = some conversation.conversationId → conversation.caller = run.caller
  listed : ∀ conversation ∈ database.conversations.rows,
    ∀ run ∈ database.listByConversation conversation.conversationId,
      run.caller = conversation.caller
  told : ∀ run ∈ database.runs.rows, database.payloadExternalId run = run.requestId ∨
    ∃ conversation ∈ database.conversations.rows, conversation.caller = run.caller ∧
      database.payloadExternalId run = conversation.externalId

theorem owned_isolated {database : Database} (owned : Owned database) : Isolated database := by
  have same : ∀ run ∈ database.runs.rows, ∀ conversation ∈ database.conversations.rows,
      run.conversationId = some conversation.conversationId →
        conversation.caller = run.caller := by
    intro run member conversation present refers
    obtain ⟨own, inside, sameId, caller⟩ := owned run member _ refers
    have one : own = conversation :=
      List.inj_on_of_nodup_map database.conversations.unique inside present sameId
    rw [← one]
    exact caller
  refine ⟨same, ?_, ?_⟩
  · intro conversation present run listed
    obtain ⟨member, refers⟩ := List.mem_filter.mp listed
    exact (same run member conversation present (of_decide_eq_true refers)).symm
  · intro run member
    unfold Database.payloadExternalId Database.externalIdOf
    cases refers : run.conversationId with
    | none => exact Or.inl rfl
    | some conversationId =>
        by_cases blank : conversationId = ""
        · simp [blank]
        · cases found : database.conversations.find conversationId with
          | none => simp [found]
          | some conversation =>
              right
              have present := Table.find_mem found
              rw [← Table.find_key found] at refers
              exact ⟨conversation, present, same run member conversation present refers,
                by simp [blank, found]⟩

/-- An explicit `conversation_id` that is looked up does not name the conversation of
another caller. -/
def Respects : SubmissionEvent → Prop
  | .acted _ call (.getConversation conversationId) _ before _ =>
      ∀ conversation ∈ before.conversations.rows,
        conversation.conversationId = conversationId →
          conversation.caller = call.submission.caller
  | _ => True

instance (event : SubmissionEvent) : Decidable (Respects event) := by
  unfold Respects
  split
  · exact inferInstance
  · exact inferInstance

def Grounded (database : Database) (call : Call) : Step → Prop
  | .naming _ run => run.caller = call.submission.caller
  | .searching _ run => run.caller = call.submission.caller
  | .storing _ run conversation pending =>
      run.caller = call.submission.caller ∧ conversation.caller = call.submission.caller ∧
        (conversation ∈ database.conversations.rows ∨ pending = some conversation)
  | .conflicted _ run => run.caller = call.submission.caller
  | _ => True

structure Owners (database : Database) (phases : List Phase) : Prop where
  owned : Owned database
  grounded : ∀ (thread : Nat) phase, phases[thread]? = some phase →
    Grounded database phase.call phase.step

section Steps

variable {call : Call} {step : Step} {op : Query} {database : Database}

theorem Grounded.grows {after : Database} (grounded : Grounded database call step)
    (grows : Grows database after) : Grounded after call step := by
  cases step with
  | storing round run conversation pending =>
      exact ⟨grounded.1, grounded.2.1, grounded.2.2.imp_left (grows.conversations conversation)⟩
  | _ => exact grounded

theorem routed_caller {run routed : AgentRun} {outcome : Except Exc AgentSpec} {now : Nat}
    (ok : routedRun run outcome now = .ok routed) : routed.caller = run.caller := by
  unfold routedRun at ok
  split at ok
  · cases ok
    rfl
  · split at ok
    · cases ok
      rfl
    · cases ok

theorem enter_grounded {run : AgentRun} {round : Round}
    (own : run.caller = call.submission.caller) :
    Grounded database call (call.enter round run) := by
  unfold Call.enter
  split
  · exact own
  · exact own

/-- One step of a call that respects the other callers keeps what it has in hand. -/
theorem performed_grounded (thread : Nat) (permitted : call.Permitted step op)
    (oracle : op.Answer) (grounded : Grounded database call step)
    (respects : Respects (submissionSystem.performed thread call op oracle database)) :
    Grounded (op.perform oracle database).2 call
      (call.after step op (op.perform oracle database).1) := by
  cases permitted with
  | look =>
      simp only [Query.perform]
      cases database.runs.lookup call.key <;> trivial
  | route => trivial
  | stamp routed =>
      simp only [Query.perform, Call.after]
      cases routing : routedRun (newRun call.submission call.runId) routed oracle with
      | error error => trivial
      | ok run => exact enter_grounded (routed_caller routing)
  | @name round run conversationId named =>
      simp only [Query.perform]
      cases found : database.conversations.find conversationId with
      | none => exact grounded
      | some existing =>
          have present := Table.find_mem found
          exact ⟨grounded, respects existing present (Table.find_key found), Or.inl present⟩
  | search round run =>
      simp only [Query.perform]
      cases found : database.conversations.lookup call.externalKey with
      | none => exact ⟨grounded, rfl, Or.inr rfl⟩
      | some existing =>
          obtain ⟨present, key⟩ := Relation.lookup_some found
          exact ⟨grounded, congrArg ExternalKey.caller key, Or.inl present⟩
  | store round run conversation pending =>
      simp only [Query.perform]
      cases database.create pending (placed run conversation) with
      | none => exact grounded.1
      | some after => trivial
  | reread round run =>
      simp only [Query.perform]
      cases database.runs.lookup call.key with
      | some existing => trivial
      | none =>
          cases round with
          | first => exact enter_grounded grounded
          | second => trivial

/-- A unit of work whose run and conversation have one caller keeps the owners. -/
theorem created_owned {after : Database} {run : AgentRun} {conversation : Conversation}
    {pending : Option Conversation} (owned : Owned database)
    (caller : conversation.caller = run.caller)
    (known : conversation ∈ database.conversations.rows ∨ pending = some conversation)
    (created : database.create pending (placed run conversation) = some after) : Owned after := by
  have grows := create_grows created
  obtain ⟨inserted, _, conversations⟩ := create_stored created
  have stored : conversation ∈ after.conversations.rows := by
    rcases known with present | pending
    · exact grows.conversations conversation present
    · rcases conversations with ⟨none, _⟩ | ⟨new, some, added⟩
      · rw [none] at pending
        cases pending
      · rw [pending] at some
        cases some
        exact (Relation.mem_insert added).mpr (Or.inr rfl)
  intro row member conversationId refers
  rcases (Relation.mem_insert inserted).mp member with old | rfl
  · obtain ⟨own, inside, sameId, sameCaller⟩ := owned row old conversationId refers
    exact ⟨own, grows.conversations own inside, sameId, sameCaller⟩
  · exact ⟨conversation, stored, Option.some.inj refers, caller⟩

theorem performed_owned (permitted : call.Permitted step op) (oracle : op.Answer)
    (owned : Owned database) (grounded : Grounded database call step) :
    Owned (op.perform oracle database).2 := by
  cases permitted with
  | store round run conversation pending =>
      simp only [Query.perform]
      cases created : database.create pending (placed run conversation) with
      | none => exact owned
      | some after =>
          obtain ⟨own, caller, known⟩ := grounded
          exact created_owned owned (caller.trans own.symm) known created
  | _ => exact owned

theorem progress_owned {run : AgentRun} (owned : Owned database)
    (continues : database.continues run = true) : Owned (database.progress run) := by
  obtain ⟨stored, inside, same⟩ := List.any_eq_true.mp continues
  simp only [Bool.and_eq_true, decide_eq_true_eq] at same
  obtain ⟨⟨_, key⟩, conversation⟩ := same
  intro row member conversationId refers
  rcases Relation.mem_replace member with old | ⟨rfl, _⟩
  · exact owned row old conversationId refers
  · rw [conversation] at refers
    rw [show row.caller = stored.caller from congrArg RequestKey.caller key]
    exact owned stored inside conversationId refers

end Steps

theorem platform_continues {deployment : Deployment} {admitted : AgentTaskPlatform.Entry → Bool}
    {database : Database} {row : AgentRun} {clock : Nat} {events : List PlatformEvent}
    {final : PlatformConfig} (stored : row ∈ database.runs.rows)
    (ran : (platformSystem deployment admitted).Run
      (AgentTaskPlatform.atRest (State.initial row clock (database.externalIdOf row)))
      events final) : database.continues final.state.run = true := by
  have same : final.state.run.identity = row.identity := Identity.identity_kept ran
  refine List.any_eq_true.mpr ⟨row, stored, ?_⟩
  simp only [Bool.and_eq_true, decide_eq_true_eq]
  exact ⟨⟨AgentRun.identity_runId same, AgentRun.identity_requestKey same⟩,
    congrArg RunIdentity.conversationId same⟩

theorem owners_inductive : discipline.Inductive (fun _ event => Respects event)
    fun _ database phases => Owners database phases where
  acts past database phases thread call op oracle phase owners present belongs permitted respects := by
    rw [← show phase.call = call from belongs] at respects ⊢
    have grounded := owners.grounded thread phase present
    refine ⟨performed_owned permitted oracle owners.owned grounded, ?_⟩
    intro index later found
    rcases Discipline.performed_phase present found with ⟨rfl, rfl⟩ | ⟨_, kept⟩
    · exact performed_grounded index permitted oracle grounded respects
    · exact (owners.grounded index later kept).grows (performed_grows op oracle database)
  launches past config phases entry after spawned _ owners launched _ := by
    refine ⟨?_, ?_⟩
    · rcases launch_cases launched with ⟨call, _, _, rfl, _⟩ | ⟨run, _, continues, rfl, _⟩
      · exact owners.owned
      · exact progress_owned owners.owned continues
    · intro index phase found
      rcases Discipline.launched_phase found with old | ⟨_, _, started⟩
      · exact (owners.grounded index phase old).grows (launch_grows launched)
      · rw [(launch_new launched started).1]
        trivial

/-- Where no submission names another caller's conversation, callers stay isolated. -/
theorem callers_isolated {start : Database} {events : List SubmissionEvent}
    {final : SubmissionConfig} (owned : Owned start)
    (ran : submissionSystem.Run (atRest start) events final)
    (respectful : ∀ event ∈ events, Respects event) : Isolated final.state := by
  have owners := owners_inductive.run ran rfl
    (fun left event right split => respectful event (by rw [split]; simp))
    ⟨owned, fun _ _ found => by cases found⟩
  exact owned_isolated owners.owned

def callerSubmission (caller : String) (conversationId : Option String) : Call :=
  { submission :=
      { routeTag := "echo"
        requestId := "REQ-" ++ caller
        externalId := some ("case of " ++ caller)
        conversationId := conversationId
        caller := caller }
    runId := "RUN-" ++ caller
    first := "CONV-" ++ caller
    second := "CONV-again-" ++ caller }

def oneAfterAnother (second : Call) : List (Move queries Entry) :=
  .launch (.submit (callerSubmission "alice" none)) :: List.replicate 5 (turn 0) ++
    .launch (.submit second) :: List.replicate 5 (turn 1)

def told (database : Database) (conversationId : String) : List (String × String) :=
  (database.listByConversation conversationId).map fun run =>
    (run.caller, database.payloadExternalId run)

theorem namesAnother_replays : (submissionSystem.replay (atRest Database.empty)
    (oneAfterAnother (callerSubmission "bob" (some "CONV-alice")))).any
      (fun outcome => told outcome.2.state "CONV-alice" ==
          [("alice", "case of alice"), ("bob", "case of alice")] &&
        outcome.2.state.conversations.rows.any fun conversation =>
          conversation.conversationId == "CONV-alice" && conversation.caller == "alice") = true := by
  decide

/-- Bob's run is stored in Alice's conversation. -/
theorem named_conversation_shared : ∃ events final,
    submissionSystem.Run (atRest Database.empty) events final ∧ ¬ Isolated final.state := by
  obtain ⟨events, final, ran, checked⟩ := System.replay_checked namesAnother_replays
  refine ⟨events, final, ran, ?_⟩
  intro isolated
  simp only [Bool.and_eq_true, beq_iff_eq, List.any_eq_true] at checked
  obtain ⟨listing, conversation, present, name, caller⟩ := checked
  have member : ("bob", "case of alice") ∈ told final.state "CONV-alice" := by
    rw [listing]
    simp
  obtain ⟨run, listed, same⟩ := List.mem_map.mp member
  rw [← name] at listed
  have one := isolated.listed conversation present run listed
  have bob : run.caller = "bob" := congrArg Prod.fst same
  rw [bob, caller] at one
  simp at one

theorem ownConversation_replays : (submissionSystem.replay (atRest Database.empty)
    (oneAfterAnother { callerSubmission "alice" (some "CONV-alice") with
      submission := { (callerSubmission "alice" (some "CONV-alice")).submission with
        requestId := "REQ-2" }
      runId := "RUN-2", first := "CONV-2", second := "CONV-3" })).any
      (fun outcome => (outcome.1.all fun event => decide (Respects event)) &&
        (outcome.2.state.listByConversation "CONV-alice").length == 2) = true := by
  decide

theorem callers_isolated_ownConversation : ∃ events final,
    submissionSystem.Run (atRest Database.empty) events final ∧
      (final.state.listByConversation "CONV-alice").length = 2 ∧ Isolated final.state := by
  obtain ⟨events, final, ran, checked⟩ := System.replay_checked ownConversation_replays
  simp only [Bool.and_eq_true, List.all_eq_true, decide_eq_true_eq, beq_iff_eq] at checked
  exact ⟨events, final, ran, checked.2,
    callers_isolated (fun _ member => by cases member) ran checked.1⟩

end AgentTaskPlatform.Submission
