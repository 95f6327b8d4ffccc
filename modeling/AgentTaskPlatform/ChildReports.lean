import AgentTaskPlatform.ChildRun
import AgentTaskPlatform.ExecutorParts

/-!
What a parent's stage stores about its child. A call of `run_child_agent` returns what it
was told last: the row that `run_now` read last, an exception, or the refusal of the agent.
This news was right or wrong of the child's row when it came, and the commits since then may
have turned that.
-/

namespace AgentTaskPlatform.ChildRun

open Interleaving Coroutine RunExecutor ExecutorParts

inductive Report where
  | succeeded
  | timeout
  | failed
  deriving DecidableEq

def Report.text : Report → String
  | .succeeded => "SUCCEEDED"
  | .timeout => "TIMEOUT"
  | .failed => "FAILED"

def Report.fits : Report → RunStatus → Bool
  | .succeeded, status => status ∈ [RunStatus.succeeded, .agentSucceeded, .waitingCallback]
  | .timeout, status => status = .timeout
  | .failed, status => status ∈ [RunStatus.failed, .canceled]

def reported : RunStatus → Report
  | .succeeded | .agentSucceeded => .succeeded
  | .timeout => .timeout
  | _ => .failed

inductive Told where
  | nothing
  | news (report : Report)
  /-- The thread is no such call. -/
  | other
  deriving DecidableEq

namespace Told

def hears (told news : Told) : Told :=
  match told with
  | .other => .other
  | _ => news

def after (told : Told) : (op : Op) → op.Answer → Told
  | .run .get, row => told.hears (.news (reported row.status))
  | .external _, .error _ => told.hears (.news .failed)
  | _, _ => told

end Told

def telling : Protocol platform Told where
  permits _ _ := True
  after := Told.after

def Ended (outcome : Except Exc AgentRun) (told : Told) : Prop :=
  match outcome with
  | .ok run => told = .news (reported run.status)
  | .error _ => told = .news .failed

section Coroutines

variable {α β : Type} {told : Told}

def Tells (program : Coroutine α) : Prop :=
  ∀ told, told ≠ .other → telling.Follows told program fun outcome later =>
    later ≠ .other ∧ ∀ error, outcome = .error error → later = .news .failed

def Ends (program : Coroutine AgentRun) : Prop :=
  ∀ told, told ≠ .other → telling.Follows told program Ended

theorem after_live (live : told ≠ .other) (op : Op) (answer : op.Answer) :
    told.after op answer ≠ .other := by
  unfold Told.after
  split
  · unfold Told.hears
    split
    · next same => exact absurd rfl live
    · exact Told.noConfusion
  · unfold Told.hears
    split
    · next same => exact absurd rfl live
    · exact Told.noConfusion
  · exact live

theorem hears_live (live : told ≠ .other) (news : Told) : told.hears news = news := by
  cases told with
  | other => exact absurd rfl live
  | _ => rfl

theorem tells_return (value : α) : Tells (pure value : Coroutine α) := by
  intro told live
  exact ⟨live, fun error same => by cases same⟩

theorem tells_perform (op : Op) : Tells (perform op) := by
  intro told live
  refine ⟨trivial, fun answer => ⟨after_live live op answer, ?_⟩⟩
  intro error same
  cases same

theorem tells_external (op : External) : Tells (external op) := by
  intro told live
  rw [CoroutineRules.follows_external_last]
  refine ⟨trivial, fun answer => ⟨after_live live (.external op) answer, ?_⟩⟩
  rintro error rfl
  exact hears_live live (.news .failed)

theorem tells_next {program : Coroutine β} {rest : β → Coroutine α} (first : Tells program)
    (later : ∀ value, Tells (rest value)) : Tells (program >>= rest) := by
  intro told live
  apply (first told live).next
  · intro value middle holds
    exact later value middle holds.1
  · intro error middle holds
    exact ⟨holds.1, fun _ _ => holds.2 error rfl⟩

theorem tells_built {program : Coroutine α} (agent : AgentSpec)
    (built : Built (Routine agent) program) : Tells program := by
  induction built with
  | pure value => exact tells_return value
  | perform op _ => exact tells_perform op
  | external op _ => exact tells_external op
  | next _ _ ih ihs => exact tells_next ih ihs

theorem ends_next {program : Coroutine β} {rest : β → Coroutine AgentRun} (first : Tells program)
    (later : ∀ value, Ends (rest value)) : Ends (program >>= rest) := by
  intro told live
  apply (first told live).next
  · intro value middle holds
    exact later value middle holds.1
  · intro error middle holds
    exact holds.2 error rfl

theorem ends_requireRun : Ends requireRun := by
  intro told live
  exact ⟨trivial, fun run => hears_live live (.news (reported run.status))⟩

theorem ends_read {rest : AgentRun → Coroutine AgentRun}
    (later : ∀ run, telling.Follows (.news (reported run.status)) (rest run) Ended) :
    Ends (requireRun >>= rest) := by
  intro told live
  rw [CoroutineRules.follows_requireRun]
  refine ⟨trivial, ?_⟩
  intro run
  have heard : telling.after told (.run .get) run = .news (reported run.status) :=
    hears_live live (.news (reported run.status))
  rw [heard]
  exact later run

end Coroutines

section Executor

variable {process : Process} {worker : Option Process} {agent : AgentSpec} {run : AgentRun}

theorem ends_finalizeRunWithResult (agent : AgentSpec) (result : RunErrorResult) :
    Ends (finalizeRunWithResult worker run result) := by
  apply ends_next (tells_perform _)
  intro now
  apply ends_next (tells_perform _)
  intro stored
  split
  · apply ends_next (tells_built agent built_notify)
    intro _
    exact ends_next (tells_built agent built_markQueueCompleted) fun _ => ends_requireRun
  · exact ends_requireRun

theorem ends_completeRun (agent : AgentSpec) (output : Json) : Ends (completeRun worker output) := by
  apply ends_next (tells_perform _)
  intro run
  apply ends_next (tells_perform _)
  intro now
  apply ends_next (tells_perform _)
  intro stored
  split
  · apply ends_next (tells_built agent built_prepareForRun)
    intro _
    exact ends_next (tells_built agent built_markQueueCompleted) fun _ => ends_requireRun
  · exact ends_requireRun

theorem ends_finishRun (agent : AgentSpec) : Ends (finishRun worker run) := by
  apply ends_next (tells_perform _)
  intro now
  apply ends_next (tells_perform _)
  intro stored
  split
  · apply ends_next (tells_external _)
    intro _
    apply ends_next (tells_built agent built_notify)
    intro notified
    split
    · exact ends_next (tells_built agent (built_markQueueDead _)) fun _ => ends_requireRun
    · exact ends_next (tells_built agent built_markQueueCompleted) fun _ => ends_requireRun
  · exact ends_requireRun

theorem ends_attemptFrom (cancelEvent attempts timeout remaining : Nat) (run : AgentRun) :
    Ends (attemptFrom process worker agent cancelEvent attempts timeout remaining run) := by
  induction remaining generalizing run with
  | zero => exact ends_finishRun agent
  | succ remaining ih =>
      unfold attemptFrom
      apply ends_read
      intro current
      rw [CoroutineRules.follows_perform]
      refine ⟨trivial, ?_⟩
      intro canceled
      split
      · exact rfl
      · refine ends_next (tells_perform _) ?_ _ Told.noConfusion
        intro now
        apply ends_next (tells_perform _)
        intro stored
        split
        · exact ends_requireRun
        · apply ends_next (tells_external _)
          intro _ told live
          rw [CoroutineRules.follows_attempt_next]
          apply (tells_built agent built_runAgent told live).mono
          intro outcome middle holds
          cases outcome with
          | ok output => exact ends_completeRun agent output middle holds.1
          | error error =>
              simp only
              split
              · exact ends_requireRun middle holds.1
              · split
                · exact holds.2 error rfl
                · refine ends_next (tells_built agent (built_tryErrorHandler error)) ?_ middle holds.1
                  intro recovery
                  cases recovery with
                  | some result => exact ends_finalizeRunWithResult agent result
                  | none =>
                      apply ends_next (tells_perform _)
                      intro recorded
                      split
                      · exact ends_requireRun
                      · split
                        · exact ends_finishRun agent
                        · exact ends_next (tells_built agent (built_backOff _ _)) fun _ => ih _

theorem ends_execute (agentName agentVersion : String) :
    Ends (execute process worker agentName agentVersion) := by
  apply ends_next (tells_perform _)
  intro run
  apply ends_next (tells_external _)
  intro agent
  apply ends_next (tells_perform _)
  intro cancelEvent told live
  rw [CoroutineRules.follows_finallyDo]
  apply (ends_attemptFrom _ _ _ _ _ told live).mono
  intro outcome middle ended
  rw [CoroutineRules.follows_perform]
  refine ⟨trivial, ?_⟩
  intro _
  exact Protocol.follows_ofExcept.mpr ended

theorem ends_runNow : Ends (RunManager.runNow process worker) := by
  apply ends_read
  intro run
  split
  · exact rfl
  · refine ends_next (tells_external _) ?_ _ Told.noConfusion
    intro agent
    apply ends_next (tells_external _)
    intro _
    exact ends_execute _ _

end Executor

def reportStatus : Json → Option String
  | .object fields =>
      match fields.lookup "status" with
      | some (.string status) => some status
      | _ => none
  | _ => none

theorem completedResult_status (child : Submitted) (run : AgentRun) :
    reportStatus (completedResult child run) = some (reported run.status).text := by
  unfold completedResult
  cases run.status <;> rfl

theorem findTarget_refused {outside : Outside} {call : ChildCall} {result : Json}
    (refused : findTarget outside call = .ok (.error result)) :
    reportStatus result = some Report.failed.text := by
  unfold findTarget at refused
  split at refused
  · next unresolved =>
      cases refused
      unfold resolveTarget at unresolved
      split at unresolved
      · cases unresolved
      · next registry _ _ =>
          cases found : Registry.getAgent outside.versioning registry call.agentName call.version with
          | ok target =>
              rw [found] at unresolved
              cases unresolved
          | error error =>
              rw [found] at unresolved
              cases unresolved
              rfl
      · cases unresolved
        rfl
  · next target _ =>
      split at refused
      · cases checked : outside.validate target call.inputData with
        | error error =>
            rw [checked] at refused
            cases refused
        | ok message =>
            rw [checked] at refused
            cases message with
            | none => cases refused
            | some message =>
                cases refused
                rfl
      · cases refused
        rfl

def Concludes (result : Except Exc Json) (told : Told) : Prop :=
  told ≠ .other → ∀ report, result = .ok report →
    ∃ news, told = .news news ∧ reportStatus report = some news.text

section Threads

variable {told : Told} {process : Process}

theorem other_follows {Result : Type} (program : Program platform Result) :
    telling.Follows .other program fun _ later => later = .other := by
  induction program with
  | ret value => exact rfl
  | act op next ih =>
      refine ⟨trivial, fun answer => ?_⟩
      have still : telling.after .other op answer = .other := by
        simp only [telling, Told.after]
        split <;> rfl
      rw [still]
      exact ih answer

theorem any_follows {Result : Type} (program : Program platform Result) :
    telling.Follows told program fun _ _ => True := by
  induction program generalizing told with
  | ret value => exact trivial
  | act op next ih => exact ⟨trivial, fun answer => ih answer⟩

theorem driveChild_follows (live : told ≠ .other) (child : Submitted) :
    telling.Follows told (driveChild process child) Concludes := by
  unfold driveChild
  rw [CoroutineRules.follows_attempt_next]
  apply (ends_runNow told live).mono
  intro outcome middle ended
  cases outcome with
  | ok run =>
      intro _ report same
      cases same
      exact ⟨reported run.status, ended, completedResult_status child run⟩
  | error error =>
      simp only
      split
      · apply (any_follows (RunManager.cancel process)).next
        · intro _ later _ _ report same
          cases same
        · intro _ later _ _ report same
          cases same
      · intro _ report same
        cases same
        exact ⟨.failed, ended, rfl⟩

def Refuses (outside : Outside) (call : ChildCall) : Bool :=
  match findTarget outside call with
  | .ok (.error _) => true
  | _ => false

def startTold (outside : Outside) (call : ChildCall) : Told :=
  if Refuses outside call then .news .failed else .nothing

theorem startTold_live (outside : Outside) (call : ChildCall) :
    startTold outside call ≠ .other := by
  unfold startTold
  split <;> exact Told.noConfusion

theorem runChildAgent_follows (outside : Outside) (call : ChildCall) :
    telling.Follows (startTold outside call) (runChildAgent outside process call) Concludes := by
  have live := startTold_live outside call
  unfold runChildAgent
  split
  · intro _ report same
    cases same
  · next result refused =>
      intro _ report same
      cases same
      exact ⟨.failed, by simp [startTold, Refuses, refused], findTarget_refused refused⟩
  · rw [CoroutineRules.follows_requireRun]
    exact ⟨trivial, fun run => driveChild_follows (after_live live (.run .get) run) _⟩

theorem after_other (op : Op) (answer : op.Answer) :
    told.after op answer ≠ .other ↔ told ≠ .other := by
  constructor
  · rintro heard rfl
    apply heard
    unfold Told.after
    split <;> rfl
  · exact fun live => after_live live op answer

end Threads

def entryTold (outside : Outside) : NestEntry → Told
  | .runChildAgent _ call => startTold outside call
  | _ => .other

def discipline (outside : Outside) (deployment : Deployment) (admitted : Entry → Bool) :
    Discipline (Nest.nestSystem outside deployment admitted) Told where
  protocol := telling
  start entry _ := some (entryTold outside entry)
  concludes := Concludes
  belongs tag told := tag.child = true ↔ told ≠ .other
  belongs_after _ _ op answer belongs := belongs.trans (after_other op answer).symm
  launched entry config nest thread launched := by
    refine ⟨_, rfl, ?_⟩
    cases entry with
    | platform entry =>
        have plain := Nest.launch_platform launched
        refine ⟨by simp [plain, entryTold], ?_⟩
        apply (other_follows thread.program).mono
        intro result later same live
        exact absurd same live
    | runChildAgent process call =>
        obtain ⟨own, program⟩ := Nest.launch_child launched
        refine ⟨by simp [own, entryTold, startTold_live], ?_⟩
        rw [program]
        exact runChildAgent_follows outside call
    | record index =>
        obtain ⟨_, _, _, _, none⟩ := Nest.launch_record launched
        cases none

structure Truthful (status : RunStatus) (report : Json) : Prop where
  succeeded : reportStatus report = some "SUCCEEDED" →
    status = .succeeded ∨ status = .agentSucceeded ∨ status = .waitingCallback
  timeout : reportStatus report = some "TIMEOUT" → status = .timeout
  failed : reportStatus report = some "FAILED" → status = .failed ∨ status = .canceled

section News

structure News where
  report : Report
  status : RunStatus

def News.right (news : News) : Bool := news.report.fits news.status

end News

section Runs

variable {outside : Outside} {deployment : Deployment} {admitted : Entry → Bool}

end Runs

section Replay

def sampleCall : ChildCall where
  runId := "RUN-parent"
  effectiveStageKey := "child"
  agentName := "agent"
  version := none
  inputData := .null
  agentSpec := some sampleAgent
  upfront := none
  registry := none
  timeout := "300.0"

def hears (count thread : Nat) : List (Move platform NestEntry) :=
  List.replicate count (.act thread (answering (State.initial sampleRun 0 none) calm))

end Replay

end AgentTaskPlatform.ChildRun
