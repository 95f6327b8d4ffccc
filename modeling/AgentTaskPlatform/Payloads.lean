import AgentTaskPlatform.Preparations

/-!
What a notification says. The preparation that creates a delivery row freezes
the payload; every copy of the delivery, in the table, claimed, or in the hands
of a dispatcher, carries that payload from then on, whatever becomes of the run.
-/

namespace AgentTaskPlatform

open Interleaving CallbackService Preparations

def Phase.hand : Phase → Option CallbackDelivery
  | .manager _ _ progress => progress.hand
  | _ => none

namespace Payloads

def told (event : PlatformEvent) : String × Option Json :=
  (runEvent { event.after.run with status := event.before.run.status }, event.after.run.output)

def toldOf (eventId : Uuid) (event : PlatformEvent) : Option (String × Option Json) :=
  match event with
  | .acted _ _ (.run (.updateRunWithCallback .prepareCallback _ _ delivery)) answer _ _ =>
      if answer && delivery.eventId = eventId then some (told event) else none
  | _ => none

def lastTold (eventId : Uuid) (past : List PlatformEvent) : Option (String × Option Json) :=
  latest (toldOf eventId) past

def Creates (past : List PlatformEvent) (event : PlatformEvent) (eventId : Uuid)
    (body : CallbackPayload) : Prop :=
  ∃ thread, Prepares thread event ∧ lastFound thread past = some none ∧
    event.after.run.callbackEventId = some eventId ∧
    ∃ stored, event.after.callbacks.find eventId = some stored ∧ stored.payload = some body

def Posts (delivery : CallbackDelivery) (body : CallbackPayload) : PlatformEvent → Prop
  | .acted _ _ (.external (.post posted payload)) _ _ _ => posted = delivery ∧ payload = body
  | _ => False

def Truthful (past : List PlatformEvent) (delivery : CallbackDelivery)
    (body : CallbackPayload) : Prop :=
  lastTold delivery.eventId past = some (body.status, body.output)

/-- Since the preparation that froze the payload, the delivery was prepared for no
other event or output. -/
def SameStory (past : List PlatformEvent) (delivery : CallbackDelivery)
    (body : CallbackPayload) : Prop :=
  ∀ left creation right, past = left ++ creation :: right →
    Creates left creation delivery.eventId body →
    lastTold delivery.eventId past = some (told creation)

inductive Around (state : State) (phases : List Phase) (delivery : CallbackDelivery) : Prop
  | stored (member : delivery ∈ state.callbacks.rows)
  | claimed {process : Process} (member : (process, delivery) ∈ state.claimed)
  | known {thread : Nat} {phase : Phase} {eventId : Uuid} (present : phases[thread]? = some phase)
      (found : phase.lookUp = some (eventId, some delivery))
  | held {thread : Nat} {phase : Phase} (present : phases[thread]? = some phase)
      (hand : phase.hand = some delivery)

structure Carries (old delivery : CallbackDelivery) : Prop where
  eventId : delivery.eventId = old.eventId
  payload : ∀ body, old.payload = some body → delivery.payload = some body

theorem carries_self (delivery : CallbackDelivery) : Carries delivery delivery :=
  ⟨rfl, fun _ same => same⟩

def delivers : Op → Option CallbackDelivery
  | .run (.updateRunWithCallback _ _ _ delivery) => some delivery
  | .callback (.save delivery) => some delivery
  | _ => none

section Steps

variable {digest : Digest} {phase : Phase} {op : Op} {oracle : op.Answer} {state : State}
  {delivery : CallbackDelivery}

/-- What a thread writes is a version of what it has in hand or looked up, or the
first version of a delivery it did not find. -/
theorem written_carries (permitted : phase.permits digest op)
    (writes : delivers op = some delivery) :
    (∃ old, (phase.hand = some old ∨ ∃ eventId, phase.lookUp = some (eventId, some old)) ∧
      Carries old delivery) ∨
    ∃ expected row eventId, op = .run (.updateRunWithCallback .prepareCallback expected row
      delivery) ∧ phase.lookUp = some (eventId, none) := by
  have reused : ∀ {existing : Option CallbackDelivery} {eventId url body now},
      deliveryFor existing eventId url body now = delivery →
      ∀ old, existing = some old → Carries old delivery := by
    rintro existing eventId url body now rfl old rfl
    refine ⟨rfl, fun frozen same => ?_⟩
    simp [deliveryFor, same]
  cases phase with
  | execution process worker progress =>
      cases permitted with
      | @prepareCallback run eventId existing url body now _ _ known _ _ _ =>
          cases writes
          cases existing with
          | none => exact Or.inr ⟨_, _, eventId, rfl, known⟩
          | some old => exact Or.inl ⟨old, Or.inr ⟨eventId, known⟩, reused rfl old rfl⟩
      | _ => cases writes
  | manager process job progress =>
      cases permitted with
      | @prepareCallback run eventId existing url body now _ _ _ known _ _ =>
          cases writes
          cases existing with
          | none => exact Or.inr ⟨_, _, eventId, rfl, known⟩
          | some old => exact Or.inl ⟨old, Or.inr ⟨eventId, known⟩, reused rfl old rfl⟩
      | @saveResent eventId old now _ known =>
          cases writes
          exact Or.inl ⟨old, Or.inr ⟨eventId, known⟩, rfl, fun _ same => same⟩
      | @saveFailed old settings attempt error now _ hand _ =>
          cases writes
          exact Or.inl ⟨old, Or.inl hand, rfl, fun _ same => same⟩
      | saveDelivered _ hand _ _ _ =>
          cases writes
          exact Or.inl ⟨delivery, Or.inl hand, carries_self delivery⟩
      | @saveExhausted old _ hand _ =>
          cases writes
          exact Or.inl ⟨old, Or.inl hand, rfl, fun _ same => same⟩
      | @delivered run old now attempt _ _ hand _ =>
          cases writes
          exact Or.inl ⟨old, Or.inl hand, rfl, fun _ same => same⟩
      | _ => cases writes
  | tool context progress => cases permitted <;> cases writes
  | stage index context stageKey progress => cases permitted <;> cases writes
  | checkpoint index context stageKey progress => cases permitted <;> cases writes

/-- The rows after an operation are rows from before, and the one it wrote. -/
theorem performed_rows (member : delivery ∈ (Op.perform op oracle state).2.callbacks.rows) :
    delivery ∈ state.callbacks.rows ∨ (delivers op = some delivery ∧
      ∀ expected, op.updates .prepareCallback expected → expected.admits state.run = true) := by
  cases op with
  | run op =>
      cases op with
      | updateRunWithCallback site expected row written =>
          simp only [Op.perform, RunOp.perform] at member
          split at member
          · next hit =>
              rcases KeyedTable.Table.mem_of_upsert member with rfl | old
              · refine Or.inr ⟨rfl, ?_⟩
                rintro _ ⟨_, rfl⟩
                exact hit
              · exact Or.inl old
          · exact Or.inl member
      | updateIfCurrent site expected row =>
          left
          simp only [Op.perform, RunOp.perform, State.updateIfCurrent] at member
          split at member <;> exact member
      | _ => exact Or.inl member
  | callback op =>
      cases op with
      | get eventId => exact Or.inl member
      | save written =>
          rcases KeyedTable.Table.mem_of_upsert member with rfl | old
          · exact Or.inr ⟨rfl, fun _ updates => updates.elim⟩
          · exact Or.inl old
  | stage op =>
      obtain ⟨_, same⟩ := op.perform_frame state
      simp only [Op.perform, same] at member
      exact Or.inl member
  | process op =>
      obtain ⟨_, _, _, _, same⟩ := op.perform_frame state
      simp only [Op.perform, same] at member
      exact Or.inl member
  | external op => exact Or.inl member

theorem performed_claimed : (Op.perform op oracle state).2.claimed = state.claimed := by
  cases op with
  | run op =>
      obtain ⟨_, _, _, same⟩ := op.perform_frame state
      simp only [Op.perform, same]
  | stage op =>
      obtain ⟨_, same⟩ := op.perform_frame state
      simp only [Op.perform, same]
  | callback op =>
      obtain ⟨_, same⟩ := op.perform_frame state
      simp only [Op.perform, same]
  | process op =>
      obtain ⟨_, _, _, _, same⟩ := op.perform_frame state
      simp only [Op.perform, same]
  | external op => rfl

theorem hand_after (permitted : phase.permits digest op)
    (hand : (phase.after op (Op.perform op oracle state).1).hand = some delivery) :
    phase.hand = some delivery ∨ (delivers op = some delivery ∧
      ∀ expected, op.updates .prepareCallback expected → expected.admits state.run = true) := by
  cases phase with
  | manager process job progress =>
      cases permitted with
      | @prepareCallback run eventId existing url body now _ _ _ _ _ _ =>
          by_cases hit : Expected.admits
              { statuses := [run.status], worker := some run.worker } state.run = true
          · simp only [Phase.after, Phase.hand, ManagerProtocol.Progress.after, Op.perform,
              RunOp.perform, hit, if_true] at hand
            refine Or.inr ⟨hand, ?_⟩
            rintro _ ⟨_, rfl⟩
            exact hit
          · simp only [Phase.after, Phase.hand, ManagerProtocol.Progress.after, Op.perform,
              RunOp.perform, hit] at hand
            exact Or.inl hand
      | delivered now attempt _ _ _ _ =>
          refine Or.inr ⟨hand, ?_⟩
          rintro _ ⟨other, _⟩
          cases other
      | saveResent now _ _ => exact Or.inr ⟨hand, fun _ updates => updates.elim⟩
      | saveFailed settings attempt error now _ _ _ =>
          exact Or.inr ⟨hand, fun _ updates => updates.elim⟩
      | saveDelivered _ _ _ _ _ => exact Or.inr ⟨hand, fun _ updates => updates.elim⟩
      | saveExhausted _ _ _ => exact Or.inr ⟨hand, fun _ updates => updates.elim⟩
      | _ => exact Or.inl hand
  | _ => cases hand

end Steps

def Frozen (past : List PlatformEvent) (delivery : CallbackDelivery) : Prop :=
  ∃ body left creation right, delivery.payload = some body ∧
    past = left ++ creation :: right ∧ Creates left creation delivery.eventId body

theorem Frozen.carried {past : List PlatformEvent} {old delivery : CallbackDelivery}
    (frozen : Frozen past old) (carries : Carries old delivery) : Frozen past delivery := by
  obtain ⟨body, left, creation, right, payload, split, creates⟩ := frozen
  refine ⟨body, left, creation, right, carries.payload body payload, split, ?_⟩
  rw [carries.eventId]
  exact creates

theorem Frozen.later {past : List PlatformEvent} {delivery : CallbackDelivery}
    (event : PlatformEvent) (frozen : Frozen past delivery) :
    Frozen (past ++ [event]) delivery := by
  obtain ⟨body, left, creation, right, payload, split, creates⟩ := frozen
  exact ⟨body, left, creation, right ++ [event], payload, by simp [split], creates⟩

structure Inv (past : List PlatformEvent) (state : State) (phases : List Phase) : Prop where
  found : Found past phases
  frozen : ∀ delivery, Around state phases delivery → Frozen past delivery

section Runs

variable {deployment : Deployment} {admitted : Entry → Bool} {past : List PlatformEvent}
  {phases : List Phase} {thread : Nat} {tag : Tag} {op : Op} {oracle : op.Answer}
  {state : State} {phase : Phase} {delivery : CallbackDelivery}

theorem creates_delivery {eventId : Uuid} {expected : Expected} {row : AgentRun}
    {oracle : Bool} (found : Found past phases) (present : phases[thread]? = some phase)
    (permitted : phase.permits deployment.digest
      (.run (.updateRunWithCallback .prepareCallback expected row delivery)))
    (missing : phase.lookUp = some (eventId, none))
    (admits : expected.admits state.run = true) :
    Frozen (past ++ [(platformSystem deployment admitted).performed thread tag
      (.run (.updateRunWithCallback .prepareCallback expected row delivery)) oracle state])
      delivery := by
  obtain ⟨run, _, existing, url, body, now, known, _, _, rfl, rfl, rfl⟩ := prepared permitted
  rw [missing] at known
  cases known
  refine ⟨body, past, _, [], rfl, rfl, thread, ?_, ?_, ?_⟩
  · exact ⟨rfl, by simp [platformSystem, Op.perform, RunOp.perform, admits]⟩
  · exact (found thread phase eventId none present missing).1
  · simp only [System.performed, Event.after, platformSystem, Op.perform, RunOp.perform, admits,
      if_true]
    exact ⟨rfl, _, state.callbacks.find_upsert_self (deliveryFor none eventId url body now), rfl⟩

/-- A delivery object after an operation is one from before, or newly created. -/
theorem around_acts (inv : Inv past state phases) (present : phases[thread]? = some phase)
    (permitted : phase.permits deployment.digest op)
    (around : Around (Op.perform op oracle state).2
      ((discipline deployment admitted).observe phases
        ((platformSystem deployment admitted).performed thread tag op oracle state)) delivery) :
    Frozen (past ++ [(platformSystem deployment admitted).performed thread tag op oracle state])
      delivery := by
  have old : Around state phases delivery → Frozen (past ++
      [(platformSystem deployment admitted).performed thread tag op oracle state]) delivery :=
    fun known => (inv.frozen delivery known).later _
  have written : delivers op = some delivery →
      (∀ expected, op.updates .prepareCallback expected → expected.admits state.run = true) →
      Frozen (past ++
        [(platformSystem deployment admitted).performed thread tag op oracle state]) delivery := by
    intro writes admits
    rcases written_carries permitted writes with
      ⟨earlier, hand | ⟨eventId, known⟩, carries⟩ | ⟨expected, row, eventId, rfl, missing⟩
    · exact ((inv.frozen earlier (.held present hand)).carried carries).later _
    · exact ((inv.frozen earlier (.known present known)).carried carries).later _
    · exact creates_delivery inv.found present permitted missing (admits expected ⟨rfl, rfl⟩)
  cases around with
  | stored member =>
      rcases performed_rows member with before | ⟨writes, admits⟩
      · exact old (.stored before)
      · exact written writes admits
  | claimed member =>
      rw [performed_claimed] at member
      exact old (.claimed member)
  | known named looked =>
      rcases observe_phase present named with ⟨rfl, rfl⟩ | ⟨_, kept⟩
      · rcases lookUp_after permitted looked with ⟨rfl, same⟩ | ⟨_, before⟩
        · exact old (.stored (KeyedTable.Table.find_mem same.symm))
        · exact old (.known present before)
      · exact old (.known kept looked)
  | held named hand =>
      rcases observe_phase present named with ⟨rfl, rfl⟩ | ⟨_, kept⟩
      · rcases hand_after permitted hand with before | ⟨writes, admits⟩
        · exact old (.held present before)
        · exact written writes admits
      · exact old (.held kept hand)

theorem effect_rows {entry : Entry}
    (member : delivery ∈ (entry.effect deployment state).callbacks.rows) :
    ∃ old ∈ state.callbacks.rows, Carries old delivery := by
  have kept : delivery ∈ state.callbacks.rows → ∃ old ∈ state.callbacks.rows, Carries old delivery :=
    fun here => ⟨delivery, here, carries_self delivery⟩
  cases entry with
  | dispatchPending process workerId leaseSeconds =>
      simp only [Entry.effect, State.claimPending, KeyedTable.Table.updateWhere] at member
      obtain ⟨old, here, same⟩ := List.mem_map.mp member
      refine ⟨old, here, ?_⟩
      split at same
      · rw [← same]
        exact ⟨rfl, fun _ payload => payload⟩
      · rw [← same]
        exact carries_self old
  | prune eventIds => exact kept (List.mem_filter.mp member).1
  | shutdown process =>
      simp only [Entry.effect, State.shutdown] at member
      split at member <;> exact kept member
  | _ => exact kept member

theorem effect_claimed {entry : Entry} {process : Process}
    (member : (process, delivery) ∈ (entry.effect deployment state).claimed) :
    (process, delivery) ∈ state.claimed ∨
      ∃ old ∈ state.callbacks.rows, Carries old delivery := by
  cases entry with
  | dispatchPending owner workerId leaseSeconds =>
      simp only [Entry.effect, State.claimPending, List.mem_append] at member
      rcases member with old | new
      · exact Or.inl old
      · obtain ⟨old, here, same⟩ := List.mem_map.mp new
        cases same
        exact Or.inr ⟨old, (List.mem_filter.mp here).1, rfl, fun _ payload => payload⟩
  | dispatchDelivery index => exact Or.inl (List.mem_of_mem_eraseIdx member)
  | shutdown owner =>
      simp only [Entry.effect, State.shutdown] at member
      split at member <;> exact Or.inl member
  | _ => exact Or.inl member

theorem started_hand {entry : Entry} {started : Phase} (start : entry.phase state = some started)
    (hand : started.hand = some delivery) :
    ∃ process, (process, delivery) ∈ state.claimed := by
  cases entry with
  | dispatchDelivery index =>
      obtain ⟨claim, here, rfl⟩ := Option.map_eq_some_iff.mp start
      cases hand
      exact ⟨claim.1, List.mem_of_getElem? here⟩
  | renewal process =>
      obtain ⟨_, _, rfl⟩ := Option.map_eq_some_iff.mp start
      cases hand
  | toolCall index toolName input idempotencyKey =>
      obtain ⟨_, _, rfl⟩ := Option.map_eq_some_iff.mp start
      cases hand
  | runStage index stageKey stageInput definitionVersion maxAttempts idempotencyKey =>
      obtain ⟨_, _, rfl⟩ := Option.map_eq_some_iff.mp start
      cases hand
  | saveCheckpoint index stageKey executionId checkpoint =>
      obtain ⟨_, _, rfl⟩ := Option.map_eq_some_iff.mp start
      cases hand
  | _ =>
      cases start
      try cases hand

theorem around_launches {config : PlatformConfig} {entry : Entry} {spawned : Option Activity}
    (launched : (platformSystem deployment admitted).launch entry config = some (state, spawned))
    (around : Around state ((discipline deployment admitted).observe phases
      (.launched entry (System.spawnedThread config spawned) config.state state)) delivery) :
    ∃ old, Around config.state phases old ∧ Carries old delivery := by
  cases around with
  | stored member =>
      rw [launch_effect launched] at member
      obtain ⟨old, here, carries⟩ := effect_rows member
      exact ⟨old, .stored here, carries⟩
  | claimed member =>
      rw [launch_effect launched] at member
      rcases effect_claimed member with old | ⟨old, here, carries⟩
      · exact ⟨delivery, .claimed old, carries_self delivery⟩
      · exact ⟨old, .stored here, carries⟩
  | known named looked =>
      rcases launch_phase launched named with old | ⟨_, start⟩
      · exact ⟨delivery, .known old looked, carries_self delivery⟩
      · rw [opening_lookUp (Entry.phase_opening start)] at looked
        cases looked
  | held named hand =>
      rcases launch_phase launched named with old | ⟨_, start⟩
      · exact ⟨delivery, .held old hand, carries_self delivery⟩
      · obtain ⟨process, here⟩ := started_hand start hand
        exact ⟨delivery, .claimed here, carries_self delivery⟩

theorem inv_inductive : (discipline deployment admitted).Inductive (fun _ _ => True) Inv where
  acts past state phases thread tag op oracle phase inv present belongs permitted allowed := by
    refine ⟨?_, fun delivery around => around_acts inv present permitted around⟩
    exact found_inductive.acts past state phases thread tag op oracle phase inv.found present
      belongs permitted allowed
  launches past config phases entry state spawned tracked inv launched allowed := by
    refine ⟨?_, ?_⟩
    · exact found_inductive.launches past config phases entry state spawned tracked inv.found
        launched allowed
    · intro delivery around
      obtain ⟨old, known, carries⟩ := around_launches launched around
      exact ((inv.frozen old known).carried carries).later _

theorem inv_initial {run : AgentRun} {clock : Nat} {conversation : Option String} :
    Inv [] (State.initial run clock conversation) [] := by
  refine ⟨found_initial, ?_⟩
  intro delivery around
  cases around with
  | stored member => cases member
  | claimed member => cases member
  | known present looked => cases present
  | held present hand => cases present

theorem creates_told {left right : List PlatformEvent} {creation : PlatformEvent} {start : State}
    {final : PlatformConfig} {eventId : Uuid} {body : CallbackPayload}
    (run : (platformSystem deployment admitted).Run (atRest start) (left ++ creation :: right)
      final) (creates : Creates left creation eventId body) :
    told creation = (body.status, body.output) := by
  obtain ⟨thread, prepares, missing, named, stored, here, payload⟩ := creates
  obtain ⟨announcing, other, existing, url, frozen, now, last, _, _, told, status, _, row, _,
    table⟩ := prepares_spec run prepares
  rw [missing] at last
  cases last
  rw [row] at named
  cases named
  rw [table] at here
  have own := creation.before.callbacks.find_upsert_self (deliveryFor none eventId url frozen now)
  have same := Option.some.inj (own.symm.trans here)
  rw [← same] at payload
  cases payload
  unfold Payloads.told
  rw [row, status, told.1, told.2]
  rfl

theorem posted_frozen {run : AgentRun} {clock : Nat} {conversation : Option String}
    {later : List PlatformEvent} {post : PlatformEvent} {final : PlatformConfig}
    {body : CallbackPayload}
    (ran : (platformSystem deployment admitted).Run (atRest (State.initial run clock conversation))
      (past ++ post :: later) final) (posts : Posts delivery body post) :
    ∃ left creation right, past = left ++ creation :: right ∧
      Creates left creation delivery.eventId body := by
  have inv := inv_inductive.before_event ran rfl (fun _ _ _ _ => trivial) inv_initial
  unfold Posts at posts
  split at posts
  · obtain ⟨rfl, rfl⟩ := posts
    obtain ⟨phase, oracle, present, _, permitted, _⟩ :=
      Discipline.run_permits (D := discipline deployment admitted) ran rfl
    cases phase with
    | manager process job progress =>
        cases permitted with
        | post body _ hand _ agrees =>
            obtain ⟨frozen, left, creation, right, payload, split, creates⟩ :=
              inv.frozen _ (.held present hand)
            rw [← agrees frozen payload] at creates
            exact ⟨left, creation, right, split, creates⟩
        | external _ other => cases other
    | execution process worker progress => cases permitted; contradiction
    | tool context progress => cases permitted; contradiction
    | stage index context stageKey progress => cases permitted; contradiction
    | checkpoint index context stageKey progress => cases permitted; contradiction
  · exact posts.elim

end Runs

/-- Notifications tell the truth in exactly the runs in which, whenever a payload is
posted, the preparation that froze it was handed the event and the output that
the last preparation of the delivery was handed. -/
theorem truthful_iff {deployment : Deployment} {admitted : Entry → Bool} {run : AgentRun}
    {clock : Nat} {conversation : Option String} {events : List PlatformEvent}
    {final : PlatformConfig}
    (ran : (platformSystem deployment admitted).Run (atRest (State.initial run clock conversation))
      events final) :
    (∀ past post later delivery body, events = past ++ post :: later →
      Posts delivery body post → Truthful past delivery body) ↔
      ∀ past post later delivery body, events = past ++ post :: later →
        Posts delivery body post → SameStory past delivery body := by
  apply forall₃_congr
  intro past post later
  apply forall₂_congr
  intro delivery body
  apply forall₂_congr
  rintro rfl posts
  constructor
  · intro truthful left creation right split creates
    subst split
    have same := creates_told (by simpa using ran) creates
    rw [same]
    exact truthful
  · intro steady
    obtain ⟨left, creation, right, split, creates⟩ := posted_frozen ran posts
    have known := steady left creation right split creates
    subst split
    have same := creates_told (by simpa using ran) creates
    rw [same] at known
    exact known

/-- A failure is announced, the run is retried and succeeds, and then the pending
delivery is posted. -/
def retriedBeforeDelivery : List (Move platform Entry) :=
  [.launch (.dispatchReady "worker" 30)] ++ steps 28 0 failing ++
    [.launch (.retry "api")] ++ steps 4 1 calm ++
    [.launch (.dispatchReady "worker" 30)] ++ steps 22 2 calm ++
    [.launch (.dispatchPending "api" "callbacks" 30), .launch (.dispatchDelivery 0)] ++
    steps 4 3 calm

def lies (past : List PlatformEvent) : PlatformEvent → Bool
  | .acted _ _ (.external (.post delivery body)) _ _ _ =>
      body.status == "failed" &&
        (lastTold delivery.eventId past).any fun last => last.1 == "succeeded"
  | _ => false

theorem lies_spec {past : List PlatformEvent} {event : PlatformEvent}
    (lie : lies past event = true) :
    ∃ delivery body, Posts delivery body event ∧ body.status = "failed" ∧
      ¬ Truthful past delivery body := by
  unfold lies at lie
  split at lie
  · next own tag delivery body answer before after =>
      simp only [Bool.and_eq_true, beq_iff_eq, Option.any_eq_true] at lie
      obtain ⟨failed, last, known, succeeded⟩ := lie
      refine ⟨delivery, body, ⟨rfl, rfl⟩, failed, ?_⟩
      intro truthful
      rw [Truthful, known] at truthful
      cases truthful
      have both : "failed" = "succeeded" := failed.symm.trans succeeded
      simp at both
  · cases lie

theorem retriedBeforeDelivery_replays : ((platformSystem sampleDeployment fun _ => true).replay
    (atRest (State.initial subscribedRun 0 none)) retriedBeforeDelivery).any (fun outcome =>
      (outcome.1[62]?).any (lies (outcome.1.take 62))) = true := rfl

/-- The run that has succeeded is reported with the frozen payload of its failure. -/
theorem succeeded_run_reported_failed : ∃ past post later delivery body final,
    (platformSystem sampleDeployment fun _ => true).Run
      (atRest (State.initial subscribedRun 0 none)) (past ++ post :: later) final ∧
    Posts delivery body post ∧ body.status = "failed" ∧ ¬ Truthful past delivery body := by
  obtain ⟨events, final, ran, checked⟩ := System.replay_checked retriedBeforeDelivery_replays
  simp only [Option.any_eq_true] at checked
  obtain ⟨post, here, lie⟩ := checked
  obtain ⟨delivery, body, posts, failed, untrue⟩ := lies_spec lie
  rw [split_at here] at ran
  exact ⟨_, post, _, delivery, body, final, ran, posts, failed, untrue⟩

/-- In the schedule above the story changes between the two preparations. -/
theorem truthful_iff_retried : ∃ events final,
    (platformSystem sampleDeployment fun _ => true).Run
      (atRest (State.initial subscribedRun 0 none)) events final ∧
    ∃ past post later delivery body, events = past ++ post :: later ∧
      Posts delivery body post ∧ ¬ SameStory past delivery body := by
  obtain ⟨events, final, ran, checked⟩ := System.replay_checked retriedBeforeDelivery_replays
  simp only [Option.any_eq_true] at checked
  obtain ⟨post, here, lie⟩ := checked
  obtain ⟨delivery, body, posts, _, untrue⟩ := lies_spec lie
  refine ⟨events, final, ran, ?_⟩
  by_contra steady
  push Not at steady
  exact untrue ((truthful_iff ran).mpr steady _ post _ delivery body (split_at here) posts)

end Payloads

end AgentTaskPlatform
