import AgentTaskPlatform.Identity
import AgentTaskPlatform.Payloads
import AgentTaskPlatform.Trails

/-!
What leaves the platform as a callback. Every post goes to the URL that the run was
submitted with, right after the outbound policy has let this URL pass in the same dispatch,
and its payload names the run, whatever else happens to the run and its deliveries.
-/

namespace AgentTaskPlatform.CallbackPosts

open Interleaving KeyedTable CallbackService Trails
open Payloads (delivers performed_rows performed_claimed hand_after started_hand)

variable {subject run : AgentRun} {delivery : CallbackDelivery} {body : CallbackPayload}

structure Addressed (subject : AgentRun) (delivery : CallbackDelivery) : Prop where
  url : subject.callbackUrl = some delivery.url
  payload : ∀ body, delivery.payload = some body → Describes body subject

theorem same_url (same : run.identity = subject.identity) :
    run.callbackUrl = subject.callbackUrl := by
  have callback : run.callback = subject.callback := congrArg RunIdentity.callback same
  unfold AgentRun.callbackUrl
  rw [callback]

theorem Describes.same (describes : Describes body run) (same : run.identity = subject.identity) :
    Describes body subject where
  requestId := describes.requestId.trans (congrArg RunIdentity.requestId same)
  conversationId := describes.conversationId.trans (congrArg RunIdentity.conversationId same)
  runId := describes.runId.trans (congrArg RunIdentity.runId same)
  routeTag := describes.routeTag.trans (congrArg RunIdentity.routeTag same)
  agentName := by
    have agent : run.agent = subject.agent := congrArg RunIdentity.agent same
    rw [describes.agentName, agent]
  agentVersion := by
    have agent : run.agent = subject.agent := congrArg RunIdentity.agent same
    rw [describes.agentVersion, agent]

theorem Addressed.changed {next : CallbackDelivery} (addressed : Addressed subject delivery)
    (url : next.url = delivery.url) (payload : next.payload = delivery.payload) :
    Addressed subject next where
  url := url ▸ addressed.url
  payload body same := addressed.payload body (payload ▸ same)

theorem addressed_prepared {existing : Option CallbackDelivery} {eventId : Uuid} {url : String}
    {now : Nat} (target : run.callbackUrl = some url) (describes : Describes body run)
    (same : run.identity = subject.identity)
    (known : ∀ delivery, existing = some delivery → Addressed subject delivery) :
    Addressed subject (deliveryFor existing eventId url body now) := by
  have own := Describes.same describes same
  have there := (same_url same).symm.trans target
  cases existing with
  | none =>
      refine ⟨there, fun other equal => ?_⟩
      cases equal
      exact own
  | some delivery =>
      refine ⟨there, fun other equal => ?_⟩
      cases payload : delivery.payload with
      | none =>
          simp only [deliveryFor, payload, Option.getD_none, Option.some.injEq] at equal
          exact equal ▸ own
      | some frozen =>
          simp only [deliveryFor, payload, Option.getD_some, Option.some.injEq] at equal
          exact equal ▸ (known delivery rfl).payload frozen payload

def inHand (phase : Phase) (delivery : CallbackDelivery) : Prop :=
  phase.hand = some delivery ∨ ∃ eventId, phase.lookUp = some (eventId, some delivery)

/-- The URL the last operation of the thread has let pass, if it was such a check. -/
def passing (thread : Nat) : PlatformEvent → Option (Option String)
  | .acted own _ (.external (.validateUrl url)) (.ok _) _ _ =>
      if own = thread then some (some url) else none
  | .acted own _ _ _ _ _ => if own = thread then some none else none
  | .launched _ _ _ _ => none

structure Kept (subject : AgentRun) (past : List PlatformEvent) (state : State)
    (phases : List (Phase × Trail)) : Prop where
  stored : ∀ delivery ∈ state.callbacks.rows, Addressed subject delivery
  claimed : ∀ claim ∈ state.claimed, Addressed subject claim.2
  held : ∀ (thread : Nat) phase trail delivery, phases[thread]? = some (phase, trail) →
    inHand phase delivery → Addressed subject delivery
  looked : ∀ (thread : Nat) phase trail delivery, phases[thread]? = some (phase, trail) →
    trail.looked = some (some delivery) → Addressed subject delivery
  read : ∀ (thread : Nat) phase trail run, phases[thread]? = some (phase, trail) →
    trail.read = some run → run.identity = subject.identity
  validated : ∀ (thread : Nat) phase trail url, phases[thread]? = some (phase, trail) →
    trail.validated = some url → latest (passing thread) past = some (some url)

section Steps

variable {thread index : Nat} {digest : Digest} {phase : Phase} {trail : Trail} {op : Op}
  {state : State} {past : List PlatformEvent}

theorem delivers_addressed (permitted : phase.permits digest op)
    (supported : Trails.permits trail op)
    (held : ∀ delivery, inHand phase delivery → Addressed subject delivery)
    (looked : ∀ delivery, trail.looked = some (some delivery) → Addressed subject delivery)
    (own : ∀ expected row delivery,
      op = .run (.updateRunWithCallback .prepareCallback expected row delivery) →
        row.identity = subject.identity)
    (writes : delivers op = some delivery) : Addressed subject delivery := by
  cases op with
  | run op =>
      cases op with
      | updateRunWithCallback site expected row written =>
          cases writes
          cases site with
          | prepareCallback =>
              obtain ⟨run, url, eventId, existing, body, now, target, found, describes, rfl, rfl⟩ :=
                supported
              have same : run.identity = subject.identity :=
                own expected (announced run eventId) _ rfl
              exact addressed_prepared target describes same fun delivery equal =>
                looked delivery (found.trans (congrArg some equal))
          | delivered =>
              cases phase with
              | manager process job progress =>
                  cases permitted with
                  | delivered now attempt _ _ hand _ => exact (held _ (Or.inl hand)).changed rfl rfl
              | _ => cases permitted
          | _ => cases phase <;> cases permitted
      | _ => cases writes
  | callback op =>
      cases op with
      | get eventId => cases writes
      | save written =>
          cases writes
          cases phase with
          | manager process job progress =>
              cases permitted with
              | @saveResent eventId delivery now _ known =>
                  exact (held delivery (Or.inr ⟨eventId, known⟩)).changed rfl rfl
              | @saveFailed delivery settings attempt error now _ hand _ =>
                  exact (held delivery (Or.inl hand)).changed rfl rfl
              | saveDelivered _ hand _ _ _ => exact held delivery (Or.inl hand)
              | @saveExhausted delivery _ hand _ =>
                  exact (held delivery (Or.inl hand)).changed rfl rfl
          | _ => cases permitted
  | _ => cases writes

theorem inHand_after {oracle : op.Answer} (permitted : phase.permits digest op)
    (held : inHand (phase.after op (Op.perform op oracle state).1) delivery) :
    inHand phase delivery ∨ delivery ∈ state.callbacks.rows ∨ (delivers op = some delivery ∧
      ∀ expected, op.updates .prepareCallback expected → expected.admits state.run = true) := by
  rcases held with hand | ⟨eventId, known⟩
  · rcases hand_after permitted hand with before | written
    · exact Or.inl (Or.inl before)
    · exact Or.inr (Or.inr written)
  · rcases Preparations.lookUp_after permitted known with ⟨rfl, same⟩ | ⟨_, before⟩
    · exact Or.inr (Or.inl (Table.find_mem same.symm))
    · exact Or.inl (Or.inr ⟨eventId, before⟩)

theorem after_external (op : External) (answer : Except Exc op.Result) :
    (trail.after (.external op) answer).looked = trail.looked ∧
      (trail.after (.external op) answer).read = trail.read := by
  cases op with
  | errorHandler kind error run =>
      cases answer with
      | error error => exact ⟨rfl, rfl⟩
      | ok result => cases result <;> exact ⟨rfl, rfl⟩
  | _ => cases answer <;> exact ⟨rfl, rfl⟩

theorem looked_after {oracle : op.Answer}
    (looked : (trail.after op (Op.perform op oracle state).1).looked = some (some delivery)) :
    trail.looked = some (some delivery) ∨ delivery ∈ state.callbacks.rows := by
  cases op with
  | callback op =>
      cases op with
      | get eventId => exact Or.inr (Table.find_mem (Option.some.inj looked))
      | save other => exact Or.inl looked
  | run op => cases op <;> exact Or.inl looked
  | external op => exact Or.inl ((after_external op _).1.symm.trans looked)
  | _ => exact Or.inl looked

theorem read_after {oracle : op.Answer}
    (read : (trail.after op (Op.perform op oracle state).1).read = some run) :
    trail.read = some run ∨ op = .run .get ∧ run = state.run := by
  cases op with
  | run op =>
      cases op with
      | get => exact Or.inr ⟨rfl, (Option.some.inj read).symm⟩
      | _ => exact Or.inl read
  | callback op => cases op <;> exact Or.inl read
  | external op => exact Or.inl ((after_external op _).2.symm.trans read)
  | _ => exact Or.inl read

/-- A URL stands as let pass right after its check. -/
theorem validated_after {answer : op.Answer} {url : String} {tag : Tag} {before after : State}
    (validated : (trail.after op answer).validated = some url) :
    passing thread (.acted thread tag op answer before after) = some (some url) := by
  cases op with
  | external op =>
      cases op with
      | validateUrl target =>
          cases answer with
          | ok _ =>
              cases validated
              simp [passing]
          | error error => cases validated
      | agentRun agent context => cases answer <;> cases validated
      | validateAgentOutput agent output => cases answer <;> cases validated
      | errorHandler kind error run =>
          cases answer with
          | error error => cases validated
          | ok result => cases result <;> cases validated
      | _ => cases validated
  | run op => cases op <;> cases validated
  | callback op => cases op <;> cases validated
  | _ => cases validated

theorem passing_other {tag : Tag} {answer : op.Answer} {before after : State}
    (other : index ≠ thread) :
    passing index (.acted thread tag op answer before after) = none := by
  unfold passing
  split
  · next same => cases same; simp [Ne.symm other]
  · next same => cases same; simp [Ne.symm other]
  · next same => cases same

end Steps

section Runs

variable {deployment : Deployment} {admitted : Entry → Bool}

theorem launch_deliveries {config : PlatformConfig} {entry : Entry} {state : State}
    {spawned : Option Activity}
    (launched : (platformSystem deployment admitted).launch entry config = some (state, spawned))
    (stored : ∀ delivery ∈ config.state.callbacks.rows, Addressed subject delivery)
    (claimed : ∀ claim ∈ config.state.claimed, Addressed subject claim.2) :
    (∀ delivery ∈ state.callbacks.rows, Addressed subject delivery) ∧
      ∀ claim ∈ state.claimed, Addressed subject claim.2 := by
  have effect := launch_effect launched
  cases entry with
  | dispatchPending process workerId leaseSeconds =>
      subst effect
      constructor
      · intro delivery member
        obtain ⟨row, present, rfl⟩ := List.mem_map.mp member
        split
        · exact (stored row present).changed rfl rfl
        · exact stored row present
      · intro claim member
        rcases List.mem_append.mp member with before | new
        · exact claimed claim before
        · obtain ⟨row, due, rfl⟩ := List.mem_map.mp new
          exact (stored row (List.mem_of_mem_filter due)).changed rfl rfl
  | prune eventIds =>
      subst effect
      exact ⟨fun delivery member => stored delivery (List.mem_of_mem_filter member), claimed⟩
  | dispatchDelivery index =>
      subst effect
      exact ⟨stored, fun claim member => claimed claim (List.mem_of_mem_eraseIdx member)⟩
  | shutdown process =>
      subst effect
      simp only [Entry.effect, State.shutdown]
      split <;> exact ⟨stored, claimed⟩
  | _ =>
      subst effect
      exact ⟨stored, claimed⟩

theorem opening_inHand {state : State} {entry : Entry} {phase : Phase}
    (start : entry.phase state = some phase) (held : inHand phase delivery) :
    ∃ process, (process, delivery) ∈ state.claimed := by
  rcases held with hand | ⟨eventId, known⟩
  · exact started_hand start hand
  · rw [Preparations.opening_lookUp (Entry.phase_opening start)] at known
    cases known

theorem kept_inductive :
    ((companion deployment admitted).discipline (discipline deployment admitted)).Inductive
      (fun _ event => event.after.run.identity = subject.identity)
      fun past state phases => Kept subject past state phases where
  acts past state phases thread tag op oracle phases' kept present _ permitted now := by
    obtain ⟨phase, trail⟩ := phases'
    obtain ⟨allowed, supported⟩ := permitted
    have row : (Op.perform op oracle state).2.run.identity = subject.identity := now
    have written : ∀ delivery, delivers op = some delivery →
        (∀ expected, op.updates .prepareCallback expected → expected.admits state.run = true) →
        Addressed subject delivery := by
      intro delivery writes admits
      apply delivers_addressed allowed supported
        (fun delivery => kept.held thread phase trail delivery present)
        (fun delivery => kept.looked thread phase trail delivery present) _ writes
      rintro expected stored delivery rfl
      have hit : (Op.perform (.run (.updateRunWithCallback .prepareCallback expected stored
          delivery)) oracle state).2.run = stored :=
        stores_run (show Op.stores _ _ expected stored from ⟨rfl, rfl, rfl⟩)
          (admits expected ⟨rfl, rfl⟩)
      rw [← row, hit]
    refine ⟨?_, ?_, ?_, ?_, ?_, ?_⟩
    · show ∀ delivery ∈ (Op.perform op oracle state).2.callbacks.rows, Addressed subject delivery
      intro delivery member
      rcases performed_rows member with before | ⟨writes, admits⟩
      · exact kept.stored delivery before
      · exact written delivery writes admits
    · show ∀ claim ∈ (Op.perform op oracle state).2.claimed, Addressed subject claim.2
      rw [performed_claimed]
      exact kept.claimed
    · intro index later after delivery found held
      rcases Discipline.performed_phase present found with ⟨_, moved⟩ | ⟨_, before⟩
      · cases moved
        rcases inHand_after allowed held with own | listed | ⟨writes, admits⟩
        · exact kept.held thread phase trail delivery present own
        · exact kept.stored delivery listed
        · exact written delivery writes admits
      · exact kept.held index later after delivery before held
    · intro index later after delivery found looked
      rcases Discipline.performed_phase present found with ⟨_, moved⟩ | ⟨_, before⟩
      · cases moved
        rcases looked_after looked with own | listed
        · exact kept.looked thread phase trail delivery present own
        · exact kept.stored delivery listed
      · exact kept.looked index later after delivery before looked
    · intro index later after run found read
      rcases Discipline.performed_phase present found with ⟨_, moved⟩ | ⟨_, before⟩
      · cases moved
        rcases read_after read with own | ⟨rfl, rfl⟩
        · exact kept.read thread phase trail run present own
        · exact row
      · exact kept.read index later after run before read
    · intro index later after url found validated
      rw [latest_snoc]
      rcases Discipline.performed_phase present found with ⟨rfl, moved⟩ | ⟨other, before⟩
      · cases moved
        rw [System.performed, validated_after validated]
        rfl
      · rw [System.performed, passing_other other]
        exact kept.validated index later after url before validated
  launches past config phases entry state spawned _ kept launched _ := by
    obtain ⟨stored, claimed⟩ := launch_deliveries launched kept.stored kept.claimed
    refine ⟨stored, claimed, ?_, ?_, ?_, ?_⟩
    · intro index later after delivery found held
      rcases Companion.launched_phases found with old | ⟨_, start, _⟩
      · exact kept.held index later after delivery old held
      · obtain ⟨process, member⟩ := opening_inHand start held
        exact kept.claimed (process, delivery) member
    · intro index later after delivery found looked
      rcases Companion.launched_phases found with old | ⟨_, _, rfl⟩
      · exact kept.looked index later after delivery old looked
      · cases looked
    · intro index later after run found read
      rcases Companion.launched_phases found with old | ⟨_, _, rfl⟩
      · exact kept.read index later after run old read
      · cases read
    · intro index later after url found validated
      rcases Companion.launched_phases found with old | ⟨_, _, rfl⟩
      · rw [latest_snoc]
        exact kept.validated index later after url old validated
      · cases validated

/-- Every post goes to the URL of the submission, which the dispatch has just checked, and its
payload names the run. -/
theorem posts_follow_submission {start : State} {left right : List PlatformEvent}
    {final : PlatformConfig} {thread : Nat} {tag : Tag} {answer : Except Exc Unit}
    {before after : State}
    (run : (platformSystem deployment admitted).Run (atRest start)
      (left ++ .acted thread tag (.external (.post delivery body)) answer before after :: right)
      final)
    (unsent : start.callbacks.rows = []) (unclaimed : start.claimed = []) :
    start.run.callbackUrl = some delivery.url ∧ Describes body start.run ∧
      latest (passing thread) left = some (some delivery.url) := by
  have initial : Kept start.run [] start [] :=
    ⟨fun delivery member => (by rw [unsent] at member; cases member),
      fun claim member => (by rw [unclaimed] at member; cases member),
      fun _ _ _ _ found => (by cases found), fun _ _ _ _ found => (by cases found),
      fun _ _ _ _ found => (by cases found), fun _ _ _ _ found => (by cases found)⟩
  have fixed : ∀ past event later, left = past ++ event :: later →
      event.after.run.identity = start.run.identity := by
    rintro past event later rfl
    rw [List.append_assoc] at run
    exact Identity.identity_after run
  have kept := (kept_inductive).before_event run rfl fixed initial
  obtain ⟨⟨phase, trail⟩, oracle, present, _, ⟨allowed, supported⟩, _⟩ :=
    Discipline.run_permits
      (D := (companion deployment admitted).discipline (discipline deployment admitted)) run rfl
  obtain ⟨validated, frozen, fresh⟩ := supported
  have addressed : Addressed start.run delivery := by
    cases phase with
    | manager process job progress =>
        cases allowed with
        | external op free _ => cases free
        | post _ _ hand _ _ => exact kept.held thread _ trail delivery present (Or.inl hand)
    | execution process worker progress =>
        cases allowed with
        | external op free _ => cases free
    | tool context progress =>
        cases allowed with
        | external op free => cases free
    | stage index context stageKey progress =>
        cases allowed with
        | external op free => cases free
    | checkpoint index context stageKey progress =>
        cases allowed with
        | external op free => cases free
  refine ⟨addressed.url, ?_, kept.validated thread phase trail _ present validated⟩
  cases payload : delivery.payload with
  | some body' => exact frozen body' payload ▸ addressed.payload body' payload
  | none =>
      obtain ⟨row, read, describes⟩ := fresh payload
      exact Describes.same describes (kept.read thread phase trail row present read)

end Runs

section Samples

def dispatches : List (Move platform Entry) :=
  [.launch (.prepareForRun "api")] ++ steps 7 0 calm ++
    [.launch (.dispatchPending "api" "callbacks" 30), .launch (.dispatchDelivery 0)] ++
    steps 4 1 calm

def isPost : PlatformEvent → Bool
  | .acted _ _ (.external (.post _ _)) _ _ _ => true
  | _ => false

def announcedState : State :=
  State.initial { subscribedRun with status := .agentSucceeded } 0 none

theorem dispatches_replays : ((platformSystem sampleDeployment fun _ => true).replay
    (atRest announcedState) dispatches).any (fun outcome => outcome.1.any isPost) = true := rfl

theorem posts_follow_submission_dispatched : ∃ left right final thread tag delivery body answer
    before after, (platformSystem sampleDeployment fun _ => true).Run (atRest announcedState)
      (left ++ .acted thread tag (.external (.post delivery body)) answer before after :: right)
      final ∧ announcedState.run.callbackUrl = some delivery.url ∧
        Describes body announcedState.run ∧
        latest (passing thread) left = some (some delivery.url) := by
  obtain ⟨events, final, ran, posted⟩ := System.replay_checked dispatches_replays
  obtain ⟨event, member, post⟩ := List.any_eq_true.mp posted
  obtain ⟨left, right, rfl⟩ := List.append_of_mem member
  unfold isPost at post
  split at post
  · exact ⟨left, right, final, _, _, _, _, _, _, _, ran, posts_follow_submission ran rfl rfl⟩
  · cases post

end Samples

end AgentTaskPlatform.CallbackPosts
