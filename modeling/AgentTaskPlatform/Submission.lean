import AgentTaskPlatform.CoroutineRules
import AgentTaskPlatform.Identity
import AgentTaskPlatform.Relations
import AgentTaskPlatform.RunService
import AgentTaskPlatform.Tracking

/-!
Concurrent submissions. Every call of `RunService.submit` is a program whose steps
are its sessions: each lookup reads what is committed when it runs, and one
transaction stores a conversation and a run together or neither. Between two steps of
a call anything else may happen to the tables.
-/

namespace AgentTaskPlatform

open Interleaving KeyedTable

structure Conversation where
  conversationId : String
  caller : String := "default"
  externalId : String
  taskType : Option String := none
  source : Option String := none
  routeTag : String
  deriving DecidableEq, Repr

/-- The columns of `uk_ai_conversation_external_id`. -/
structure ExternalKey where
  caller : String
  externalId : String
  deriving DecidableEq, Repr

/-- The columns of `uk_ai_agent_run_request`. -/
structure RequestKey where
  caller : String
  routeTag : String
  requestId : String
  deriving DecidableEq, Repr

def Conversation.externalKey (conversation : Conversation) : ExternalKey :=
  ⟨conversation.caller, conversation.externalId⟩

def AgentRun.requestKey (run : AgentRun) : RequestKey :=
  ⟨run.caller, run.routeTag, run.requestId⟩

theorem AgentRun.identity_runId {run other : AgentRun} (same : run.identity = other.identity) :
    run.runId = other.runId :=
  congrArg RunIdentity.runId same

theorem AgentRun.identity_requestKey {run other : AgentRun}
    (same : run.identity = other.identity) : run.requestKey = other.requestKey := by
  have caller : run.caller = other.caller := congrArg RunIdentity.caller same
  have routeTag : run.routeTag = other.routeTag := congrArg RunIdentity.routeTag same
  have requestId : run.requestId = other.requestId := congrArg RunIdentity.requestId same
  simp only [AgentRun.requestKey, caller, routeTag, requestId]

def Exc.uniqueConstraintConflict : Exc :=
  ⟨.exception, "UniqueConstraintConflictError", "A unique persistence key already exists"⟩

namespace Submission

open RunService

abbrev Conversations :=
  Relation Conversation String ExternalKey Conversation.conversationId Conversation.externalKey

abbrev Runs := Relation AgentRun String RequestKey AgentRun.runId AgentRun.requestKey

structure Database where
  conversations : Conversations
  runs : Runs
  /-- The ids that `uuid4` has drawn so far. -/
  issued : List String

def Database.empty : Database := ⟨Relation.empty, Relation.empty, []⟩

/-- The unit of work of `submit`: both rows or none. -/
def Database.create (database : Database) (conversation : Option Conversation)
    (run : AgentRun) : Option Database :=
  match conversation with
  | none =>
      match database.runs.insert run with
      | none => none
      | some runs => some { database with runs := runs }
  | some conversation =>
      match database.conversations.insert conversation, database.runs.insert run with
      | some conversations, some runs =>
          some { database with conversations := conversations, runs := runs }
      | _, _ => none

inductive Query where
  | getByRequestId (key : RequestKey)
  /-- `resolve`, `validate_input` and `snapshots_for_agent`. -/
  | route (submission : RunSubmission)
  | utcNow
  | getConversation (conversationId : String)
  | getByExternalId (key : ExternalKey)
  | create (conversation : Option Conversation) (run : AgentRun)

abbrev Query.Answer : Query → Type
  | .getByRequestId _ => Option AgentRun
  | .route _ => Except Exc AgentSpec
  | .utcNow => Nat
  | .getConversation _ => Option Conversation
  | .getByExternalId _ => Option Conversation
  | .create _ _ => Bool

def Query.perform : (op : Query) → op.Answer → Database → op.Answer × Database
  | .getByRequestId key, _, database => (database.runs.lookup key, database)
  | .route _, oracle, database => (oracle, database)
  | .utcNow, oracle, database => (oracle, database)
  | .getConversation conversationId, _, database =>
      (database.conversations.find conversationId, database)
  | .getByExternalId key, _, database => (database.conversations.lookup key, database)
  | .create conversation run, _, database =>
      match database.create conversation run with
      | none => (false, database)
      | some after => (true, after)

abbrev queries : Interface := { Op := Query, Answer := Query.Answer }

abbrev SubmitM (α : Type) : Type := Fallible queries Exc α

def perform (op : Query) : SubmitM op.Answer := (Fallible.call op : Fallible queries Exc _)

/-- One call of `submit`, with the ids that `uuid4` draws for it: one for the run and
one for the conversation of each transaction. -/
structure Call where
  submission : RunSubmission
  runId : String
  first : String
  second : String

namespace Call

def key (call : Call) : RequestKey :=
  ⟨call.submission.caller, call.submission.routeTag, call.submission.requestId⟩

def externalId (call : Call) : String :=
  match call.submission.externalId with
  | none => call.submission.requestId
  | some externalId => if externalId = "" then call.submission.requestId else externalId

def externalKey (call : Call) : ExternalKey := ⟨call.submission.caller, call.externalId⟩

def named (call : Call) : Option String :=
  match call.submission.conversationId with
  | none => none
  | some conversationId => if conversationId = "" then none else some conversationId

def ids (call : Call) : List String := [call.runId, call.first, call.second]

def conversation (call : Call) (drawn : String) : Conversation where
  conversationId := drawn
  caller := call.submission.caller
  externalId := call.externalId
  taskType := call.submission.taskType
  source := call.submission.source
  routeTag := call.submission.routeTag

end Call

/-- The last lines of `get_or_create`: the conversation of the external id, or a new one
for the transaction to store. -/
def getByExternalId (call : Call) (drawn : String) :
    SubmitM (Conversation × Option Conversation) := do
  match ← perform (.getByExternalId call.externalKey) with
  | some existing => return (existing, none)
  | none => return (call.conversation drawn, some (call.conversation drawn))

def getOrCreate (call : Call) (drawn : String) :
    SubmitM (Conversation × Option Conversation) :=
  match call.named with
  | none => getByExternalId call drawn
  | some conversationId => do
      match ← perform (.getConversation conversationId) with
      | some existing => return (existing, none)
      | none => getByExternalId call drawn

def transaction (call : Call) (run : AgentRun) (drawn : String) : SubmitM Transaction := do
  let found ← getOrCreate call drawn
  let stored ← perform
    (.create found.2 { run with conversationId := some found.1.conversationId })
  if stored then return .created found.1.conversationId
  else
    let existing ← perform (.getByRequestId call.key)
    return .conflict Exc.uniqueConstraintConflict existing

/-- The second round is left out unless the first has found neither its own rows stored
nor those of another call. -/
def again (call : Call) (run : AgentRun) : Transaction → SubmitM Transaction
  | .conflict _ none => transaction call run call.second
  | first => return first

def attempts (call : Call) (run : AgentRun) : SubmitM (AgentRun × Bool) := do
  let first ← transaction call run call.first
  let second ← again call run first
  Fallible.ofExcept (create run first second)

def submit (call : Call) : SubmitM (AgentRun × Bool) := do
  match ← perform (.getByRequestId call.key) with
  | some existing => return (existing, false)
  | none =>
      let routed ← perform (.route call.submission)
      let now ← perform .utcNow
      let run ← Fallible.ofExcept (routedRun (newRun call.submission call.runId) routed now)
      attempts call run

inductive Entry where
  | submit (call : Call)
  /-- Other code of the platform stores a later state of a run. -/
  | progress (run : AgentRun)

abbrev Outcome := Except Exc (AgentRun × Bool)

abbrev SubmissionConfig := Config queries Database Call Outcome

abbrev SubmissionEvent := Event queries Database Call Entry

/-- `uuid4` draws no id twice. -/
def Call.drawn (call : Call) (issued : List String) : Bool :=
  call.ids.all (!issued.contains ·) && decide call.ids.Nodup

def Database.continues (database : Database) (run : AgentRun) : Bool :=
  database.runs.rows.any fun stored =>
    run.runId = stored.runId && run.requestKey = stored.requestKey &&
      run.conversationId = stored.conversationId

def Database.progress (database : Database) (run : AgentRun) : Database :=
  { database with runs := database.runs.replace run }

def Entry.launch : Entry → SubmissionConfig →
    Option (Database × Option (Thread queries Call Outcome))
  | .submit call, config =>
      if call.drawn config.state.issued then
        some ({ config.state with issued := config.state.issued ++ call.ids },
          some { tag := call, program := Submission.submit call })
      else none
  | .progress run, config =>
      if config.state.continues run then some (config.state.progress run, none) else none

/-- Calls run in threads of any process, so every session may be followed by anything. -/
def submissionSystem : System queries Database Call Entry Unit Outcome where
  perform _ op oracle database := op.perform oracle database
  yields _ := true
  loop _ := ()
  launch := Entry.launch

def atRest (database : Database) : SubmissionConfig := { state := database, threads := [] }

inductive Round where
  | first
  | second
  deriving DecidableEq, Repr

def Call.drawnFor (call : Call) : Round → String
  | .first => call.first
  | .second => call.second

/-- Where a call stands between two of its sessions. -/
inductive Step where
  | looking
  | routing
  | stamping (routed : Except Exc AgentSpec)
  | naming (round : Round) (run : AgentRun)
  | searching (round : Round) (run : AgentRun)
  | storing (round : Round) (run : AgentRun) (conversation : Conversation)
      (pending : Option Conversation)
  | conflicted (round : Round) (run : AgentRun)
  | returned (outcome : Outcome)

structure Phase where
  call : Call
  step : Step

def placed (run : AgentRun) (conversation : Conversation) : AgentRun :=
  { run with conversationId := some conversation.conversationId }

namespace Call

def enter (call : Call) (round : Round) (run : AgentRun) : Step :=
  match call.named with
  | none => .searching round run
  | some _ => .naming round run

def retried (call : Call) (run : AgentRun) : Round → Step
  | .first => call.enter .second run
  | .second => .returned (.error Exc.uniqueConstraintConflict)

inductive Permitted (call : Call) : Step → Query → Prop where
  | look : Permitted call .looking (.getByRequestId call.key)
  | route : Permitted call .routing (.route call.submission)
  | stamp (routed : Except Exc AgentSpec) : Permitted call (.stamping routed) .utcNow
  | name (round : Round) (run : AgentRun) {conversationId : String}
      (named : call.named = some conversationId) :
      Permitted call (.naming round run) (.getConversation conversationId)
  | search (round : Round) (run : AgentRun) :
      Permitted call (.searching round run) (.getByExternalId call.externalKey)
  | store (round : Round) (run : AgentRun) (conversation : Conversation)
      (pending : Option Conversation) :
      Permitted call (.storing round run conversation pending)
        (.create pending (placed run conversation))
  | reread (round : Round) (run : AgentRun) :
      Permitted call (.conflicted round run) (.getByRequestId call.key)

def after (call : Call) : Step → (op : Query) → op.Answer → Step
  | .looking, .getByRequestId _, some existing => .returned (.ok (existing, false))
  | .looking, .getByRequestId _, none => .routing
  | .routing, .route _, routed => .stamping routed
  | .stamping routed, .utcNow, now =>
      match routedRun (newRun call.submission call.runId) routed now with
      | .ok run => call.enter .first run
      | .error error => .returned (.error error)
  | .naming round run, .getConversation _, some existing => .storing round run existing none
  | .naming round run, .getConversation _, none => .searching round run
  | .searching round run, .getByExternalId _, some existing => .storing round run existing none
  | .searching round run, .getByExternalId _, none =>
      .storing round run (call.conversation (call.drawnFor round))
        (some (call.conversation (call.drawnFor round)))
  | .storing _ run conversation _, .create _ _, true =>
      .returned (.ok (placed run conversation, true))
  | .storing round run _ _, .create _ _, false => .conflicted round run
  | .conflicted _ _, .getByRequestId _, some existing => .returned (.ok (existing, false))
  | .conflicted round run, .getByRequestId _, none => call.retried run round
  | step, _, _ => step

end Call

def calls : Protocol queries Phase where
  permits phase op := phase.call.Permitted phase.step op
  after phase op answer := { phase with step := phase.call.after phase.step op answer }

section Walk

variable {call : Call} {run : AgentRun}

theorem getByExternalId_follows (round : Round) :
    calls.Follows ⟨call, .searching round run⟩ (getByExternalId call (call.drawnFor round))
      fun outcome phase => ∃ conversation pending, outcome = .ok (conversation, pending) ∧
        phase = ⟨call, .storing round run conversation pending⟩ := by
  refine ⟨.search round run, ?_⟩
  intro found
  cases found with
  | some existing => exact ⟨existing, none, rfl, rfl⟩
  | none => exact ⟨_, _, rfl, rfl⟩

theorem getOrCreate_follows (round : Round) :
    calls.Follows ⟨call, call.enter round run⟩ (getOrCreate call (call.drawnFor round))
      fun outcome phase => ∃ conversation pending, outcome = .ok (conversation, pending) ∧
        phase = ⟨call, .storing round run conversation pending⟩ := by
  unfold getOrCreate Call.enter
  cases named : call.named with
  | none => exact getByExternalId_follows round
  | some conversationId =>
      refine ⟨.name round run named, ?_⟩
      intro found
      cases found with
      | some existing => exact ⟨existing, none, rfl, rfl⟩
      | none => exact getByExternalId_follows round

def ended (call : Call) (run : AgentRun) (round : Round) : Transaction → Step
  | .created conversationId =>
      .returned (.ok ({ run with conversationId := some conversationId }, true))
  | .conflict _ (some existing) => .returned (.ok (existing, false))
  | .conflict _ none => call.retried run round

theorem transaction_follows (round : Round) :
    calls.Follows ⟨call, call.enter round run⟩
      (transaction call run (call.drawnFor round)) fun outcome phase =>
        ∃ result, outcome = .ok result ∧ phase = ⟨call, ended call run round result⟩ ∧
          ∀ error existing, result = .conflict error existing →
            error = Exc.uniqueConstraintConflict := by
  refine Protocol.Follows.next (getOrCreate_follows round) ?_ ?_
  · rintro found middle ⟨conversation, pending, same, rfl⟩
    cases same
    refine ⟨.store round run conversation pending, ?_⟩
    intro stored
    cases stored with
    | true => exact ⟨_, rfl, rfl, fun _ _ other => by cases other⟩
    | false =>
        refine ⟨.reread round run, ?_⟩
        intro existing
        refine ⟨_, rfl, ?_, fun _ _ same => by cases same; rfl⟩
        cases existing <;> rfl
  · rintro error middle ⟨_, _, same, _⟩
    cases same

theorem attempts_follows : calls.Follows ⟨call, call.enter .first run⟩ (attempts call run)
    fun outcome phase => phase = ⟨call, .returned outcome⟩ := by
  refine Protocol.Follows.next (transaction_follows .first) ?_ ?_
  · rintro first middle ⟨result, same, rfl, _⟩
    cases same
    cases first with
    | created conversationId => exact rfl
    | conflict error existing =>
        cases existing with
        | some existing => exact rfl
        | none =>
            refine Protocol.Follows.next (transaction_follows .second) ?_ ?_
            · rintro second middle ⟨result, same, rfl, raised⟩
              cases same
              cases second with
              | created conversationId => exact rfl
              | conflict error existing =>
                  cases existing with
                  | some existing => exact rfl
                  | none =>
                      rw [raised error none rfl]
                      exact rfl
            · rintro error middle ⟨_, same, _⟩
              cases same
  · rintro error middle ⟨_, same, _⟩
    cases same

theorem submit_follows : calls.Follows ⟨call, .looking⟩ (submit call) fun outcome phase =>
    phase = ⟨call, .returned outcome⟩ := by
  refine ⟨.look, ?_⟩
  intro existing
  cases existing with
  | some existing => exact rfl
  | none =>
      refine ⟨.route, ?_⟩
      intro routed
      refine ⟨.stamp routed, ?_⟩
      intro now
      show calls.Follows
        ⟨call, match routedRun (newRun call.submission call.runId) routed now with
          | .ok run => call.enter .first run
          | .error error => .returned (.error error)⟩
        (Fallible.bind (Fallible.ofExcept (routedRun (newRun call.submission call.runId) routed now))
          (attempts call)) _
      cases routedRun (newRun call.submission call.runId) routed now with
      | error error => exact rfl
      | ok run => exact attempts_follows

end Walk

def Entry.phase : Entry → Option Phase
  | .submit call => some ⟨call, .looking⟩
  | .progress _ => none

theorem launch_cases {entry : Entry} {config : SubmissionConfig} {database : Database}
    {spawned : Option (Thread queries Call Outcome)}
    (launched : submissionSystem.launch entry config = some (database, spawned)) :
    (∃ call, entry = .submit call ∧ call.drawn config.state.issued = true ∧
      database = { config.state with issued := config.state.issued ++ call.ids } ∧
      spawned = some { tag := call, program := submit call }) ∨
    (∃ run, entry = .progress run ∧ config.state.continues run = true ∧
      database = config.state.progress run ∧ spawned = none) := by
  cases entry with
  | submit call =>
      simp only [submissionSystem, Entry.launch] at launched
      split at launched
      · next drawn =>
          cases launched
          exact Or.inl ⟨call, rfl, drawn, rfl, rfl⟩
      · cases launched
  | progress run =>
      simp only [submissionSystem, Entry.launch] at launched
      split at launched
      · next continues =>
          cases launched
          exact Or.inr ⟨run, rfl, continues, rfl, rfl⟩
      · cases launched

def discipline : Discipline submissionSystem Phase where
  protocol := calls
  start entry _ := entry.phase
  concludes outcome phase := phase.step = .returned outcome
  belongs call phase := phase.call = call
  belongs_after _ _ _ _ belongs := belongs
  launched entry config database thread launched := by
    rcases launch_cases launched with ⟨call, rfl, _, _, same⟩ | ⟨_, _, _, _, other⟩
    · cases same
      refine ⟨⟨call, .looking⟩, rfl, rfl, submit_follows.mono ?_⟩
      rintro outcome phase rfl
      rfl
    · cases other

theorem ended_phase {config : SubmissionConfig} {phases : List Phase}
    (tracked : discipline.Tracked config phases) {thread : Nat} {call : Call} {outcome : Outcome}
    (found : config.threads[thread]? = some ⟨call, .ret outcome⟩) :
    phases[thread]? = some ⟨call, .returned outcome⟩ := by
  obtain ⟨phase, named, belongs, follows⟩ := tracked.phase found
  have same : phase = ⟨call, .returned outcome⟩ := by
    cases phase with
    | mk own step =>
        rw [show own = call from belongs, show step = .returned outcome from follows]
  rw [named, same]

/-- Both rows of a unit of work, or neither. -/
theorem create_stored {database after : Database} {conversation : Option Conversation}
    {run : AgentRun} (stored : database.create conversation run = some after) :
    database.runs.insert run = some after.runs ∧ after.issued = database.issued ∧
      ((conversation = none ∧ after.conversations = database.conversations) ∨
        ∃ new, conversation = some new ∧
          database.conversations.insert new = some after.conversations) := by
  cases conversation with
  | none =>
      simp only [Database.create] at stored
      split at stored
      · cases stored
      · next runs inserted =>
          cases stored
          exact ⟨inserted, rfl, Or.inl ⟨rfl, rfl⟩⟩
  | some new =>
      simp only [Database.create] at stored
      split at stored
      · next conversations runs one other =>
          cases stored
          exact ⟨other, rfl, Or.inr ⟨new, rfl, one⟩⟩
      · cases stored

/-- A conflict names the table that has one of the keys already. -/
theorem create_refused {database : Database} {conversation : Option Conversation}
    {run : AgentRun} (refused : database.create conversation run = none) :
    database.runs.insert run = none ∨
      ∃ new, conversation = some new ∧ database.conversations.insert new = none := by
  cases conversation with
  | none =>
      simp only [Database.create] at refused
      split at refused
      · next missing => exact Or.inl missing
      · cases refused
  | some new =>
      simp only [Database.create] at refused
      cases inserted : database.conversations.insert new with
      | none => exact Or.inr ⟨new, rfl, inserted⟩
      | some conversations =>
          cases other : database.runs.insert run with
          | none => exact Or.inl rfl
          | some runs => simp [inserted, other] at refused

end Submission

end AgentTaskPlatform
