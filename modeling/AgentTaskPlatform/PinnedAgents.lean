import AgentTaskPlatform.ExecutorParts
import AgentTaskPlatform.Fleet
import AgentTaskPlatform.RouteTable

/-!
Which agent an execution runs. The row names the agent that its submission resolved, but
every execution resolves again, by tag and version: it runs the named agent as long as
the first agent that serves the tag in that version has the name of the row.
-/

namespace AgentTaskPlatform.PinnedAgents

open Interleaving Coroutine Registry Fleet

inductive Aim where
  | opening
  | read (run : AgentRun)
  | resolved (agent : AgentSpec)
  | executing (agent : AgentSpec)
  /-- A thread that is no execution. -/
  | other

namespace Aim

def permits : Aim → Op → Prop
  | .other, _ => True
  | aim, .external (.resolveAgent routeTag version) =>
      ∃ run, aim = .read run ∧ routeTag = run.routeTag ∧ version = run.agent.map AgentRef.version
  | aim, .external (.getAgent name version) =>
      ∃ agent, aim = .resolved agent ∧ name = agent.name ∧ version = agent.version
  | aim, .external (.agentRun agent _) => aim = .executing agent
  | _, _ => True

def after : Aim → (op : Op) → op.Answer → Aim
  | .opening, .run .get, run => .read run
  | .read _, .external (.resolveAgent _ _), .ok agent => .resolved agent
  | .resolved _, .external (.getAgent _ _), .ok agent => .executing agent
  | aim, _, _ => aim

end Aim

def aims : Protocol platform Aim where
  permits := Aim.permits
  after := Aim.after

def Calm (agent : AgentSpec) : Op → Prop
  | .external (.resolveAgent _ _) => False
  | .external (.getAgent _ _) => False
  | .external (.agentRun own _) => own = agent
  | _ => True

section Calm

open Fallible RunExecutor ExecutorParts

variable {agent : AgentSpec} {run : AgentRun} {process : Process} {worker : Option Process}

theorem within_perform {op : Op} (calm : Calm agent op) :
    Within (Calm agent) (perform op : Coroutine op.Answer) := ⟨calm, fun _ => trivial⟩

theorem within_external {op : External} (calm : Calm agent (.external op)) :
    Within (Calm agent) (external op) :=
  within_next (within_perform calm) fun _ => within_ofExcept _

theorem perform_next {α : Type} {op : Op} {rest : op.Answer → Coroutine α} (calm : Calm agent op)
    (later : ∀ answer, Within (Calm agent) (rest answer)) :
    Within (Calm agent) (perform op >>= rest : Coroutine α) :=
  within_next (within_perform calm) later

theorem external_next {α : Type} {op : External} {rest : op.Result → Coroutine α}
    (calm : Calm agent (.external op)) (later : ∀ answer, Within (Calm agent) (rest answer)) :
    Within (Calm agent) (external op >>= rest : Coroutine α) :=
  within_next (within_external calm) later

theorem within_built {α : Type} {program : Coroutine α}
    (built : Built (Routine agent) program) : Within (Calm agent) program := by
  apply built.within
  intro op routine
  unfold Routine at routine
  unfold Calm
  split at routine
  · exact routine
  · exact routine
  · exact routine
  · exact routine.elim
  · exact routine.elim
  · split <;> simp_all

theorem within_attemptFrom (cancelEvent attempts timeout remaining : Nat) (run : AgentRun) :
    Within (Calm agent)
      (attemptFrom process worker agent cancelEvent attempts timeout remaining run) := by
  induction remaining generalizing run with
  | zero => exact within_built built_finishRun
  | succ remaining ih =>
      have reread : Within (Calm agent) requireRun := within_perform trivial
      unfold attemptFrom
      apply within_next reread
      intro current
      refine perform_next trivial ?_
      intro canceled
      split
      · exact trivial
      · refine perform_next trivial ?_
        intro now
        refine perform_next trivial ?_
        intro stored
        split
        · exact reread
        · refine external_next trivial ?_
          intro _
          apply within_next (within_attempt (within_built built_runAgent))
          intro outcome
          cases outcome with
          | ok output => exact within_built (built_completeRun output)
          | error error =>
              simp only
              split
              · exact reread
              · split
                · exact trivial
                · apply within_next (within_built (built_tryErrorHandler error))
                  intro recovery
                  cases recovery with
                  | some result => exact within_built (built_finalizeRunWithResult result)
                  | none =>
                      refine perform_next trivial ?_
                      intro recorded
                      split
                      · exact reread
                      · split
                        · exact within_built built_finishRun
                        · exact within_next (within_built (built_backOff _ _)) fun _ => ih _

end Calm

def Plain : Op → Prop
  | .external (.resolveAgent _ _) => False
  | .external (.getAgent _ _) => False
  | .external (.agentRun _ _) => False
  | _ => True

section Walk

variable {aim : Aim} {agent : AgentSpec} {process : Process} {worker : Option Process}

theorem permits_plain {op : Op} (plain : Plain op) : aims.permits aim op := by
  cases op with
  | external op => cases op <;> first | exact plain.elim | cases aim <;> exact trivial
  | _ => cases aim <;> exact trivial

theorem permits_calm {op : Op} (calm : Calm agent op) : (Aim.executing agent).permits op := by
  cases op with
  | external op =>
      cases op with
      | agentRun own context =>
          rw [show own = agent from calm]
          exact rfl
      | _ => first | exact calm.elim | exact trivial
  | _ => exact trivial

theorem executing_after (op : Op) (answer : op.Answer) :
    (Aim.executing agent).after op answer = .executing agent := rfl

theorem executing_follows {α : Type} {program : Coroutine α}
    (within : Fallible.Within (Calm agent) program) :
    aims.Follows (.executing agent) program fun _ later => later = .executing agent :=
  Protocol.follows_within within (fun _ calm => permits_calm calm) fun op answer _ =>
    executing_after op answer

theorem other_follows {Result : Type} (program : Program platform Result) :
    aims.Follows .other program fun _ later => later = .other := by
  induction program with
  | ret value => exact rfl
  | act op next ih => exact ⟨trivial, fun answer => ih answer⟩

theorem execute_follows :
    aims.Follows (.resolved agent) (RunExecutor.execute process worker agent.name agent.version)
      fun _ _ => True := by
  unfold RunExecutor.execute
  rw [CoroutineRules.follows_requireRun]
  refine ⟨permits_plain trivial, ?_⟩
  intro run
  rw [CoroutineRules.follows_external]
  refine ⟨⟨agent, rfl, rfl, rfl⟩, ?_⟩
  intro answer
  cases answer with
  | error error => exact trivial
  | ok found =>
      have loop (cancelEvent : Nat) : Fallible.Within (Calm found)
          (RunExecutor.executeWithCancel process worker run found cancelEvent) :=
        within_attemptFrom _ _ _ _ _
      have closed : Fallible.Within (Calm found) (do
          let cancelEvent ← perform (.process (.registerEvent process))
          Fallible.finallyDo (RunExecutor.executeWithCancel process worker run found cancelEvent)
            (perform (.process (.dropEvent process cancelEvent)))) := by
        refine perform_next trivial ?_
        intro cancelEvent
        exact Fallible.within_finallyDo (loop cancelEvent) (within_perform trivial)
      exact (executing_follows closed).mono fun _ _ _ => trivial

theorem runNow_follows :
    aims.Follows .opening (RunManager.runNow process worker) fun _ _ => True := by
  unfold RunManager.runNow
  rw [CoroutineRules.follows_requireRun]
  refine ⟨permits_plain trivial, ?_⟩
  intro run
  split
  · exact trivial
  · rw [CoroutineRules.follows_external]
    refine ⟨⟨run, rfl, rfl, rfl⟩, ?_⟩
    intro answer
    cases answer with
    | error error => exact trivial
    | ok agent =>
        simp only [Protocol.continued]
        rw [CoroutineRules.follows_external]
        refine ⟨permits_plain trivial, ?_⟩
        intro admitted
        cases admitted with
        | error error => exact trivial
        | ok _ => exact execute_follows

theorem runBackground_follows :
    aims.Follows .opening (RunManager.runBackground process worker) fun _ _ => True := by
  unfold RunManager.runBackground
  rw [CoroutineRules.follows_attempt_next]
  apply runNow_follows.mono
  intro outcome aim _
  cases outcome with
  | ok _ => exact trivial
  | error error =>
      simp only
      split
      · rw [CoroutineRules.follows_requireRun]
        refine ⟨permits_plain trivial, ?_⟩
        intro run
        rw [CoroutineRules.follows_updateIfCurrent]
        exact ⟨permits_plain trivial, fun _ => trivial⟩
      · exact trivial

theorem directRun_follows :
    aims.Follows .opening
      (do
        let _ ← RunManager.runNow process worker
        return .null : Coroutine Json) fun _ _ => True :=
  runNow_follows.next (fun _ _ _ => trivial) fun _ _ _ => trivial

end Walk

def executes (tag : Tag) : Bool :=
  match tag.role with
  | .background _ => true
  | .direct => true
  | _ => false

def entryAim : FleetEntry → Aim
  | .platform (.dispatchReady _ _) => .opening
  | .platform (.runBackground _) => .opening
  | .platform (.runNow _) => .opening
  | _ => .other

theorem after_other {aim : Aim} (op : Op) (answer : op.Answer) :
    aim.after op answer ≠ .other ↔ aim ≠ .other := by
  cases aim with
  | other => exact Iff.rfl
  | _ =>
      refine ⟨fun _ => Aim.noConfusion, fun _ => ?_⟩
      unfold Aim.after
      split <;> exact Aim.noConfusion

section Launch

variable {versioning : Versioning} {deployment : Deployment} {admitted : Entry → Bool}

theorem other_launch {thread : Activity} (tagged : executes thread.tag = false) :
    (executes thread.tag = true ↔ Aim.other ≠ .other) ∧
      aims.Follows .other thread.program fun _ _ => True := by
  refine ⟨?_, (other_follows _).mono fun _ _ _ => trivial⟩
  simp [tagged]

theorem launch_aims {entry : Entry} {config : PlatformConfig} {state : State} {thread : Activity}
    (launched : (platformSystem deployment admitted).launch entry config =
      some (state, some thread)) :
    (executes thread.tag = true ↔ entryAim (.platform entry) ≠ .other) ∧
      aims.Follows (entryAim (.platform entry)) thread.program fun _ _ => True := by
  have started := (launch_start launched).2.2
  have phased := Entry.start_phase started
  cases entry with
  | dispatchReady process leaseSeconds =>
      simp only [Entry.start] at started
      split at started
      · cases started
      · cases started
        exact ⟨⟨fun _ => Aim.noConfusion, fun _ => rfl⟩, runBackground_follows⟩
  | runBackground process =>
      simp only [Entry.start] at started
      split at started
      · cases started
      · cases started
        exact ⟨⟨fun _ => Aim.noConfusion, fun _ => rfl⟩, runBackground_follows⟩
  | runNow process =>
      cases started
      exact ⟨⟨fun _ => Aim.noConfusion, fun _ => rfl⟩, directRun_follows⟩
  | tick elapsed => cases started
  | shutdown process => cases started
  | dispatchPending process workerId leaseSeconds => cases started
  | prune eventIds => cases started
  | toolCall index toolName input idempotencyKey =>
      obtain ⟨phase, start, belongs, _⟩ := phased
      obtain ⟨context, _, rfl⟩ := Option.map_eq_some_iff.mp start
      obtain ⟨_, same⟩ := belongs
      exact other_launch (by rw [same]; rfl)
  | dispatchDelivery index =>
      obtain ⟨phase, start, belongs, _⟩ := phased
      obtain ⟨claim, _, rfl⟩ := Option.map_eq_some_iff.mp start
      exact other_launch (by rw [show thread.tag = _ from belongs]; rfl)
  | renewal process =>
      obtain ⟨phase, start, belongs, _⟩ := phased
      obtain ⟨seconds, _, rfl⟩ := Option.map_eq_some_iff.mp start
      exact other_launch (by rw [show thread.tag = _ from belongs]; rfl)
  | runStage index stageKey stageInput definitionVersion maxAttempts idempotencyKey =>
      obtain ⟨phase, start, belongs, _⟩ := phased
      obtain ⟨context, _, rfl⟩ := Option.map_eq_some_iff.mp start
      exact other_launch (by rw [show thread.tag = _ from belongs]; rfl)
  | saveCheckpoint index stageKey executionId checkpoint =>
      obtain ⟨phase, start, belongs, _⟩ := phased
      obtain ⟨context, _, rfl⟩ := Option.map_eq_some_iff.mp start
      exact other_launch (by rw [show thread.tag = _ from belongs]; rfl)
  | _ =>
      cases started
      exact other_launch rfl

end Launch

def discipline (versioning : Versioning) (deployment : Deployment) (admitted : Entry → Bool) :
    Discipline (fleetSystem versioning deployment admitted) Aim where
  protocol := aims
  start entry _ := some (entryAim entry)
  concludes _ _ := True
  belongs tag aim := executes tag = true ↔ aim ≠ .other
  belongs_after _ _ op answer belongs := belongs.trans (after_other op answer).symm
  launched entry config fleet thread launched := by
    rcases launch_cases launched with
      ⟨own, state, rfl, started, _⟩ | ⟨process, operation, rfl, none, _⟩
    · exact ⟨_, rfl, launch_aims started⟩
    · cases none

/-- The first agent that serves the tag in the version of the row has the name of the row.
A row without a version resolves the default of the tag, so there must be none. -/
def unshadowed (registry : AgentRegistry) (run : AgentRun) : Bool :=
  match run.agent with
  | none => (registry.route run.routeTag).isNone
  | some ref =>
      if ref.version = "" then (registry.route run.routeTag).isNone
      else (registry.agents.rows.find? (serves run.routeTag ref.version)).all (·.name = ref.name)

def faithful : FleetEvent → Bool
  | .acted _ tag (.external (.resolveAgent _ _)) _ before _ =>
      !executes tag || unshadowed (before.registries tag.process) before.shared.run
  | _ => true

def Pinned (pair : Option AgentRef) : FleetEvent → Prop
  | .acted _ tag (.external (.getAgent name version)) found before _ =>
      executes tag = true → pair = some ⟨name, version⟩ ∧ ∀ agent, found = .ok agent →
        agent.ref = ⟨name, version⟩ ∧ agent ∈ (before.registries tag.process).agents.rows
  | .acted _ tag (.external (.agentRun agent _)) _ _ _ =>
      executes tag = true → pair = some agent.ref
  | _ => True

section Lookups

variable {versioning : Versioning} {registry : AgentRegistry} {agent : AgentSpec}

theorem resolve_pinned {run : AgentRun} (clear : unshadowed registry run = true)
    (found : resolve registry run.routeTag (run.agent.map AgentRef.version) = .ok agent) :
    some agent.ref = run.agent ∧ agent.version ≠ "" := by
  unfold unshadowed at clear
  cases pinned : run.agent with
  | none =>
      simp only [pinned, Option.isNone_iff_eq_none] at clear
      simp [resolve, pinned, clear] at found
  | some ref =>
    by_cases given : ref.version = ""
    · simp only [pinned, given, if_true, Option.isNone_iff_eq_none] at clear
      simp [resolve, pinned, given, clear, Option.filter] at found
    · simp only [pinned, given, if_false, Option.all_eq_true, decide_eq_true_eq] at clear
      simp only [resolve, pinned, Option.map_some, Option.filter_some, ne_eq, given,
        not_false_eq_true, decide_true, if_true] at found
      split at found
      · next first present =>
          cases found
          have serving := List.find?_some present
          simp only [serves, Bool.and_eq_true, decide_eq_true_eq] at serving
          have version : agent.version = ref.version := serving.1.2
          refine ⟨?_, by rw [version]; exact given⟩
          have name : agent.name = ref.name := clear agent present
          simp only [AgentSpec.ref, name, version]
      · cases found

theorem getAgent_found {name version : String} (given : version ≠ "")
    (found : getAgent versioning registry name (some version) = .ok agent) :
    agent.ref = ⟨name, version⟩ ∧ agent ∈ registry.agents.rows := by
  unfold getAgent at found
  cases best : maxVersion versioning
      (preferEnabled (matchingAgents registry name (some version))) with
  | error error =>
      rw [best] at found
      cases found
  | ok chosen =>
      rw [best] at found
      cases chosen with
      | none => cases found
      | some first =>
          cases found
          have member := RouteTable.maxVersion_mem best
          have matching : agent ∈ matchingAgents registry name (some version) := by
            unfold preferEnabled at member
            split at member
            · exact member
            · exact (List.mem_filter.mp member).1
          obtain ⟨registered, named⟩ := List.mem_filter.mp matching
          simp only [versionGiven, Bool.and_eq_true, decide_eq_true_eq, Bool.or_eq_true,
            given, false_or] at named
          refine ⟨?_, registered⟩
          simp only [AgentSpec.ref, named.1, named.2]

end Lookups

def Sound (identity : RunIdentity) : Aim → Prop
  | .read run => run.identity = identity
  | .resolved agent => some agent.ref = identity.agent ∧ agent.version ≠ ""
  | .executing agent => some agent.ref = identity.agent
  | _ => True

section Runs

variable {versioning : Versioning} {deployment : Deployment} {admitted : Entry → Bool}
  {identity : RunIdentity}

theorem sound_after {thread : Nat} {tag : Tag} {op : Op} {oracle answer : op.Answer}
    {fleet next : Fleet} {aim : Aim} (sound : Sound identity aim)
    (row : fleet.shared.run.identity = identity) (belongs : executes tag = true ↔ aim ≠ .other)
    (permitted : aim.permits op) (clear : faithful (.acted thread tag op answer fleet next) = true) :
    Sound identity (aim.after op (Fleet.perform versioning tag op oracle fleet).1) := by
  cases aim with
  | opening =>
      cases op with
      | run op =>
          cases op with
          | get => exact row
          | _ => exact trivial
      | _ => exact trivial
  | read run =>
      cases op with
      | external op =>
          cases op with
          | resolveAgent routeTag version =>
              obtain ⟨own, same, rfl, rfl⟩ := permitted
              cases same
              have execution : executes tag = true := belongs.mpr Aim.noConfusion
              have unshadowed : unshadowed (fleet.registries tag.process) fleet.shared.run =
                  true := by simpa [faithful, execution] using clear
              have alike : fleet.shared.run.identity = run.identity := row.trans sound.symm
              have tags : fleet.shared.run.routeTag = run.routeTag :=
                congrArg RunIdentity.routeTag alike
              have pairs : fleet.shared.run.agent = run.agent := congrArg RunIdentity.agent alike
              simp only [Fleet.perform, Op.perform, Fleet.answer]
              cases found : resolve (fleet.registries tag.process) run.routeTag
                  (run.agent.map AgentRef.version) with
              | error error => exact sound
              | ok agent =>
                  rw [← tags, ← pairs] at found
                  obtain ⟨ref, given⟩ := resolve_pinned unshadowed found
                  refine ⟨?_, given⟩
                  rw [ref, ← row]
                  rfl
          | _ => exact sound
      | _ => exact sound
  | resolved agent =>
      cases op with
      | external op =>
          cases op with
          | getAgent name version =>
              obtain ⟨own, same, rfl, rfl⟩ := permitted
              cases same
              simp only [Fleet.perform, Op.perform, Fleet.answer]
              cases found : getAgent versioning (fleet.registries tag.process) agent.name
                  (some agent.version) with
              | error error => exact sound
              | ok chosen =>
                  have ref := (getAgent_found sound.2 found).1
                  show some chosen.ref = identity.agent
                  rw [ref]
                  exact sound.1
          | _ => exact sound
      | _ => exact sound
  | executing agent => exact sound
  | other => exact trivial

theorem sound_inductive : (discipline versioning deployment admitted).Inductive
    (fun _ event => faithful event = true ∧ event.before.shared.run.identity = identity)
    fun _ _ phases => ∀ (thread : Nat) aim, phases[thread]? = some aim → Sound identity aim where
  acts past fleet phases thread tag op oracle aim sound present belongs permitted allowed := by
    intro index later found
    rcases Discipline.performed_phase present found with ⟨_, rfl⟩ | ⟨_, kept⟩
    · exact sound_after (sound thread aim present) allowed.2 belongs permitted allowed.1
    · exact sound index later kept
  launches past config phases entry fleet spawned _ sound _ _ := by
    intro index aim found
    rcases Discipline.launched_phase found with old | ⟨_, _, started⟩
    · exact sound index aim old
    · cases started
      unfold entryAim
      split <;> exact trivial

theorem pinned_event {thread : Nat} {tag : Tag} {op : Op} {oracle : op.Answer} {fleet : Fleet}
    {aim : Aim} (sound : Sound identity aim) (belongs : executes tag = true ↔ aim ≠ .other)
    (permitted : aim.permits op) : Pinned identity.agent
      ((fleetSystem versioning deployment admitted).performed thread tag op oracle fleet) := by
  cases op with
  | external op =>
      cases op with
      | getAgent name version =>
          intro execution
          have executing := belongs.mp execution
          have aimed : ∃ agent, aim = .resolved agent ∧ name = agent.name ∧
              version = agent.version := by
            cases aim with
            | other => exact absurd rfl executing
            | _ => exact permitted
          obtain ⟨agent, rfl, rfl, rfl⟩ := aimed
          exact ⟨sound.1.symm, fun found same => getAgent_found sound.2 same⟩
      | agentRun agent context =>
          intro execution
          have executing := belongs.mp execution
          have aimed : aim = .executing agent := by
            cases aim with
            | other => exact absurd rfl executing
            | _ => exact permitted
          subst aimed
          exact Eq.symm sound
      | _ => exact trivial
  | _ => exact trivial

/-- Under every history of the registries, a run that is resolved unshadowed executes
only the agent that it was pinned to. -/
theorem pinned_agent_executed {start : Fleet} {events : List FleetEvent} {final : FleetConfig}
    (ran : (fleetSystem versioning deployment admitted).Run (Fleet.atRest start) events final)
    (clear : ∀ event ∈ events, faithful event = true) :
    ∀ event ∈ events, Pinned start.shared.run.agent event := by
  intro event member
  obtain ⟨left, right, rfl⟩ := List.append_of_mem member
  have allowed : ∀ past other later, left = past ++ other :: later →
      faithful other = true ∧ other.before.shared.run.identity = start.shared.run.identity := by
    rintro past other later rfl
    refine ⟨clear other (by simp), ?_⟩
    have grouped : past ++ other :: later ++ event :: right =
        past ++ other :: (later ++ event :: right) := by simp
    rw [grouped] at ran
    exact Fleet.identity_kept ran
  have sound : ∀ (thread : Nat) aim,
      ((discipline versioning deployment admitted).phases left)[thread]? = some aim →
        Sound start.shared.run.identity aim :=
    sound_inductive.before_event ran rfl allowed fun _ _ found => by cases found
  cases event with
  | launched entry spawned before after => exact trivial
  | acted thread tag op answer before after =>
      obtain ⟨aim, oracle, named, belongs, permitted, same⟩ :=
        Discipline.run_permits (D := discipline versioning deployment admitted) ran rfl
      rw [same]
      exact pinned_event (sound thread aim named) belongs permitted

end Runs

section Replay

def versioned (name version : String) : AgentSpec :=
  { name := name, version := version, routeTags := ["support"] }

def pinnedRun : AgentRun :=
  { sampleRun with routeTag := "support", agent := some ⟨"echo", "1.0.0"⟩ }

def sampleFleet : Fleet where
  shared := State.initial pinnedRun 0 none
  registries := fun _ => (Registry.perform RouteTable.asciiVersioning
    (.register (versioned "echo" "1.0.0") true) AgentRegistry.empty).2

abbrev sampleSystem : System platform Fleet Tag FleetEntry Process (Except Exc Json) :=
  fleetSystem RouteTable.asciiVersioning sampleDeployment fun _ => true

def executedAfter (operations : List Registry.Operation) (count : Nat) :
    List (Move platform FleetEntry) :=
  operations.map (fun operation => .launch (.registry "api" operation)) ++
    .launch (.platform (.runNow "api")) ::
      List.replicate count (.act 0 (answering (State.initial pinnedRun 0 none) calm))

def calledName : FleetEvent → Option String
  | .acted _ tag (.external (.getAgent name _)) _ _ _ => if executes tag then some name else none
  | _ => none

def ranAgent : FleetEvent → Option AgentRef
  | .acted _ tag (.external (.agentRun agent _)) _ _ _ =>
      if executes tag then some agent.ref else none
  | _ => none

theorem pinned_name {ref : AgentRef} {event : FleetEvent} {name : String}
    (pinned : Pinned (some ref) event) (called : calledName event = some name) :
    ref.name = name := by
  unfold calledName at called
  split at called
  · next own version found before after =>
      split at called
      · next execution =>
          cases called
          have same := (pinned execution).1
          cases same
          rfl
      · cases called
  · cases called

def replaced : List Registry.Operation :=
  [.disable "echo" none, .register (versioned "parrot" "1.0.0") true]

theorem replaced_replays : (sampleSystem.replay (Fleet.atRest sampleFleet)
    (executedAfter replaced 5)).any
      (fun outcome => outcome.1.any fun event => calledName event == some "parrot") = true := by
  decide +kernel

/-- The run is executed by the agent that has taken the tag over. -/
theorem other_agent_executed : ∃ events final,
    sampleSystem.Run (Fleet.atRest sampleFleet) events final ∧
      ¬ ∀ event ∈ events, Pinned sampleFleet.shared.run.agent event := by
  obtain ⟨events, final, ran, checked⟩ := System.replay_checked replaced_replays
  obtain ⟨event, member, called⟩ := List.any_eq_true.mp checked
  refine ⟨events, final, ran, ?_⟩
  intro pinned
  have named := pinned_name (pinned event member) (beq_iff_eq.mp called)
  simp at named

theorem newerVersion_replays : (sampleSystem.replay (Fleet.atRest sampleFleet)
    (executedAfter [.register (versioned "echo" "2.0.0") true] 14)).any
      (fun outcome => outcome.1.all faithful &&
        outcome.1.any fun event => ranAgent event == some ⟨"echo", "1.0.0"⟩) = true := by
  decide +kernel

theorem pinned_agent_executed_newerVersion : ∃ events final,
    sampleSystem.Run (Fleet.atRest sampleFleet) events final ∧
      (∃ event ∈ events, ranAgent event = some ⟨"echo", "1.0.0"⟩) ∧
      ∀ event ∈ events, Pinned sampleFleet.shared.run.agent event := by
  obtain ⟨events, final, ran, checked⟩ := System.replay_checked newerVersion_replays
  obtain ⟨clear, executed⟩ := (Bool.and_eq_true _ _).mp checked
  obtain ⟨event, member, found⟩ := List.any_eq_true.mp executed
  refine ⟨events, final, ran, ⟨event, member, beq_iff_eq.mp found⟩, ?_⟩
  exact pinned_agent_executed ran (List.all_eq_true.mp clear)

end Replay

end AgentTaskPlatform.PinnedAgents
