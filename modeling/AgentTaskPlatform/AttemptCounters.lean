import AgentTaskPlatform.Companions
import AgentTaskPlatform.ExecutorParts
import AgentTaskPlatform.FinishedRuns
import AgentTaskPlatform.Hands

/-!
The counters of the attempts. An execution counts on from the counter that it has read
before it registers its cancellation event, whatever the row holds by then; every other
write stores the counter of a row object that its thread has read or stored before.
-/

namespace AgentTaskPlatform.AttemptCounters

open Interleaving Coroutine CoroutineRules CallbackService RunExecutor ExecutorParts

structure Tally where
  read : Option Nat := none
  /-- The counter that the execution counts on from. -/
  counter : Option Nat := none

def Tally.after (tally : Tally) : (op : Op) → op.Answer → Tally
  | .run .get, run => { tally with read := some run.attempts }
  | .process (.registerEvent _), _ => { tally with counter := tally.read }
  | .run (.updateIfCurrent (.attemptStart attempt) _ _), true =>
      { tally with counter := some attempt }
  | _, _ => tally

def permits (tally : Tally) : Op → Prop
  | .run (.updateIfCurrent (.attemptStart attempt) _ _) =>
      ∃ counter, tally.counter = some counter ∧ attempt = counter + 1
  | _ => True

def protocol : Protocol platform Tally where
  permits := permits
  after := Tally.after

def counterOf (thread : Nat) (past : List PlatformEvent) : Option Nat :=
  (past.foldl (learn (fun _ _ => ({} : Tally)) Tally.after thread) none).bind Tally.counter

def counts : Op → Bool
  | .process (.registerEvent _) => true
  | .run (.updateIfCurrent (.attemptStart _) _ _) => true
  | _ => false

section Rules

variable {α : Type}

abbrev Steady (program : Coroutine α) : Prop := Keeps protocol Tally.counter program

variable {op : Op}

theorem permits_uncounted (other : counts op = false) (tally : Tally) : permits tally op := by
  unfold permits
  split
  · cases other
  · trivial

theorem after_uncounted (other : counts op = false) (tally : Tally) (answer : op.Answer) :
    (tally.after op answer).counter = tally.counter := by
  unfold Tally.after
  split <;> first | rfl | cases other

theorem steady_perform (other : counts op = false) : Steady (perform op) :=
  keeps_perform (permits_uncounted other) (after_uncounted other)

theorem steady_external {op : External} : Steady (external op) := by
  have other : counts (.external op) = false := rfl
  exact keeps_external (permits_uncounted other) (after_uncounted other)

theorem steady_within {program : Coroutine α}
    (within : Fallible.Within (fun op => counts op = false) program) : Steady program := by
  induction program with
  | ret value => exact fun _ => rfl
  | act op next ih =>
      intro tally
      refine ⟨permits_uncounted within.1 tally, fun answer => ?_⟩
      apply (ih answer (within.2 answer) _).mono
      exact fun _ _ same => same.trans (after_uncounted within.1 tally answer)

theorem steady_built {program : Coroutine α} (agent : AgentSpec)
    (built : Built (Routine agent) program) : Steady program := by
  apply steady_within
  apply built.within
  intro op routine
  unfold counts
  split
  · exact routine.elim
  · exact routine.elim
  · rfl

end Rules

section Execution

variable (process : Process) (workerId : Option Process)

theorem steady_requireRun : Steady requireRun := steady_perform rfl

/-- The attempt loop starts the attempts that its counter leaves, one after the other. -/
theorem attemptFrom_follows (agent : AgentSpec) (cancelEvent attempts timeout remaining : Nat)
    (run : AgentRun) {tally : Tally} {counter : Nat} (counted : tally.counter = some counter)
    (left : remaining = attempts - counter) : protocol.Follows tally
      (attemptFrom process workerId agent cancelEvent attempts timeout remaining run)
      fun _ _ => True := by
  induction remaining generalizing run tally counter with
  | zero => exact (steady_built agent built_finishRun).ends tally
  | succ remaining ih =>
      have next : attempts - remaining = counter + 1 := by omega
      have rest : remaining = attempts - (counter + 1) := by omega
      unfold attemptFrom
      apply steady_requireRun.next counted
      intro fresh entered counted
      apply (steady_perform rfl).next counted
      intro canceled asked counted
      split
      · trivial
      · apply (steady_perform rfl).next counted
        intro now timed counted
        unfold updateOwned
        simp only
        rw [follows_updateIfCurrent]
        refine ⟨⟨counter, counted, next⟩, fun stored => ?_⟩
        cases stored with
        | false => exact steady_requireRun.ends _
        | true =>
            simp only [Bool.not_true, Bool.false_eq_true, if_false]
            rw [next]
            apply steady_external.next rfl
            intro _ started counted
            apply (steady_built agent built_runAgent).attempt.next counted
            intro outcome ended counted
            cases outcome with
            | ok output => exact (steady_built agent (built_completeRun output)).ends ended
            | error error =>
                simp only
                split
                · exact steady_requireRun.ends ended
                · split
                  · trivial
                  · apply (steady_built agent (built_tryErrorHandler error)).next counted
                    intro recovery handled counted
                    cases recovery with
                    | some result =>
                        exact (steady_built agent (built_finalizeRunWithResult result)).ends handled
                    | none =>
                        simp only
                        apply (steady_perform rfl).next counted
                        intro recorded failed counted
                        split
                        · exact steady_requireRun.ends failed
                        · split
                          · exact (steady_built agent built_finishRun).ends failed
                          · apply (steady_built agent (built_backOff _ attempts)).next counted
                            intro _ waited counted
                            exact ih _ counted rest

theorem execute_follows (agentName agentVersion : String) (tally : Tally) :
    protocol.Follows tally (execute process workerId agentName agentVersion)
      fun _ _ => True := by
  unfold execute
  rw [follows_requireRun]
  refine ⟨trivial, fun run => ?_⟩
  rw [follows_external]
  refine ⟨trivial, fun resolved => ?_⟩
  cases resolved with
  | error error => trivial
  | ok agent =>
      simp only [Protocol.continued]
      rw [follows_perform]
      refine ⟨trivial, fun cancelEvent => ?_⟩
      rw [follows_finallyDo]
      apply Protocol.Follows.mono
      · exact attemptFrom_follows process workerId agent cancelEvent _ _ _ run rfl rfl
      · intro outcome after _
        have dropped : Steady (perform (.process (.dropEvent process cancelEvent))) :=
          steady_perform rfl
        exact (dropped.bind fun _ => keeps_ofExcept outcome).ends after

theorem runNow_follows (tally : Tally) :
    protocol.Follows tally (RunManager.runNow process workerId) fun _ _ => True := by
  unfold RunManager.runNow
  apply steady_requireRun.next rfl
  intro run entered _
  split
  · trivial
  · apply steady_external.next rfl
    intro agent resolved _
    apply steady_external.next rfl
    intro _ placed _
    exact execute_follows process workerId _ _ placed

theorem runBackground_follows (tally : Tally) :
    protocol.Follows tally (RunManager.runBackground process workerId) fun _ _ => True := by
  unfold RunManager.runBackground
  rw [follows_attempt_next]
  apply (runNow_follows process workerId tally).mono
  intro outcome after _
  cases outcome with
  | ok run => trivial
  | error error =>
      simp only
      split
      · apply steady_requireRun.next rfl
        intro run fresh _
        have stored : Steady (updateIfCurrent .backgroundFailure
          { statuses := executingRunStatuses ++ [.queued], worker := some workerId }
          (RunManager.brokenRun run error)) := steady_perform rfl
        exact (stored.bind fun _ => keeps_pure _).ends fresh
      · trivial

end Execution

section Runs

variable {deployment : Deployment} {admitted : Entry → Bool}

def executes : Phase → Bool
  | .execution _ _ _ => true
  | _ => false

theorem executes_after (phase : Phase) (op : Op) (answer : op.Answer) :
    executes (phase.after op answer) = executes phase := by
  cases phase <;> rfl

/-- Only an execution starts attempts. -/
theorem permits_covered {phase : Phase} {op : Op} (other : executes phase = false)
    (permitted : phase.permits deployment.digest op) (tally : Tally) : permits tally op := by
  unfold permits
  split
  · obtain ⟨process, worker, progress, rfl⟩ :=
      FinishedRuns.loop_writes permitted (Or.inl ⟨_, rfl⟩)
    cases other
  · trivial

variable (deployment admitted) in
def companion : Companion (platformSystem deployment admitted) Tally where
  protocol := protocol
  start _ _ := {}
  concludes _ _ := True
  launched := by
    intro entry config state thread launched
    obtain ⟨_, _, started⟩ := launch_start launched
    cases entry with
    | dispatchReady process leaseSeconds =>
        simp only [Entry.start] at started
        split at started
        · cases started
        · cases started
          exact runBackground_follows process (some process) {}
    | runBackground process =>
        simp only [Entry.start] at started
        split at started
        · cases started
        · cases started
          exact runBackground_follows process none {}
    | runNow process =>
        cases started
        exact (runNow_follows process none {}).next (fun _ _ _ => trivial) fun _ _ _ => trivial
    | _ =>
        obtain ⟨phase, start, _, follows⟩ := Entry.start_phase started
        have other : executes phase = false := by
          simp only [Entry.phase, Option.map_eq_some_iff] at start
          grind [executes]
        exact follows.covered (fun phase => executes phase = false)
          (fun phase op answer own => (executes_after phase op answer).trans own)
          (fun phase op own permitted tally => permits_covered own permitted tally) other

end Runs

def held (thread : Nat) (role : Role) (site : Site) (past : List PlatformEvent) : Option Nat :=
  if Hands.starts site then counterOf thread past
  else (Hands.inHand thread role site past).map AgentRun.attempts

/-- Every write carries the counter that its thread has in hand. -/
theorem stored_counter {deployment : Deployment} {admitted : Entry → Bool} {start : State}
    {left right : List PlatformEvent} {final : PlatformConfig} {thread : Nat} {tag : Tag} {op : Op}
    {answer : op.Answer} {before after : State} {site : Site} {expected : Expected} {row : AgentRun}
    (ran : (platformSystem deployment admitted).Run (atRest start)
      (left ++ .acted thread tag op answer before after :: right) final)
    (stores : op.stores site expected row) : ∃ counter,
      held thread tag.role site left = some counter ∧
        Hands.Carries site expected counter row := by
  cases starts : Hands.starts site with
  | false =>
      obtain ⟨object, known, derived⟩ := Hands.stored_object ran stores
      refine ⟨object.attempts, ?_, derived.counter starts⟩
      unfold held
      rw [starts, known]
      rfl
  | true =>
      obtain ⟨phase, tally, _, present, recalled, belongs, permitted, counted⟩ :=
        (companion deployment admitted).run_permits (D := discipline deployment admitted) ran rfl
      have same : counterOf thread left = tally.counter :=
        congrArg (Option.bind · Tally.counter) recalled
      cases site with
      | attemptStart attempt =>
          cases op with
          | run op =>
              cases op with
              | updateIfCurrent site expected row =>
                  obtain ⟨rfl, rfl, rfl⟩ := stores
                  obtain ⟨counter, known, rfl⟩ := counted
                  refine ⟨counter, same.trans known, ?_⟩
                  obtain ⟨process, worker, progress, rfl⟩ :=
                    FinishedRuns.loop_writes permitted (Or.inl ⟨_, rfl⟩)
                  cases permitted
                  rfl
              | updateRunWithCallback site expected row delivery =>
                  obtain ⟨rfl, rfl, rfl⟩ := stores
                  cases phase <;> cases permitted
              | _ => exact stores.elim
          | _ => exact stores.elim
      | _ => cases starts

end AgentTaskPlatform.AttemptCounters
