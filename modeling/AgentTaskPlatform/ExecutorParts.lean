import AgentTaskPlatform.CoroutineRules
import AgentTaskPlatform.Footprint
import AgentTaskPlatform.RunExecutor

/-!
What an execution does around the start of its attempts: the run of the agent, the results
and the errors that it stores, the delivery that it prepares and the queue entry that it
closes are put together from operations that start nothing and look up no agent.
-/

namespace AgentTaskPlatform.ExecutorParts

open Interleaving Coroutine CoroutineRules CallbackService RunExecutor

/-- Put together from operations of a kind. -/
inductive Built (allowed : Op → Prop) : {α : Type} → Coroutine α → Prop
  | pure {α : Type} (value : α) : Built allowed (pure value : Coroutine α)
  | perform (op : Op) (permitted : allowed op) : Built allowed (perform op)
  | external (op : External) (permitted : allowed (.external op)) : Built allowed (external op)
  | next {α β : Type} {program : Coroutine β} {rest : β → Coroutine α}
      (first : Built allowed program) (later : ∀ value, Built allowed (rest value)) :
      Built allowed (program >>= rest)

section Rules

variable {allowed : Op → Prop} {α β : Type}

theorem Built.within {wider : Op → Prop} {program : Coroutine α} (built : Built allowed program)
    (widens : ∀ op, allowed op → wider op) : Fallible.Within wider program := by
  induction built with
  | pure value => exact trivial
  | perform op permitted => exact ⟨widens op permitted, fun _ => trivial⟩
  | external op permitted =>
      exact Fallible.within_next ⟨widens _ permitted, fun _ => trivial⟩
        fun _ => Fallible.within_ofExcept _
  | next first later ih ihs => exact Fallible.within_next ih ihs

theorem Built.ite {condition : Prop} [Decidable condition] {first last : Coroutine α}
    (yes : Built allowed first) (no : Built allowed last) :
    Built allowed (if condition then first else last) := by
  split
  · exact yes
  · exact no

/-- The coroutine ends with the value of its last step. -/
theorem Built.returns {program : Coroutine β} (built : Built allowed program) (value : β → α) :
    Built allowed (program >>= fun result => Pure.pure (value result)) :=
  built.next fun _ => .pure _

end Rules

/-- The operation looks up no agent, runs no other one than the given, and neither begins an
execution nor starts an attempt. -/
def Routine (agent : AgentSpec) : Op → Prop
  | .external (.resolveAgent _ _) => False
  | .external (.getAgent _ _) => False
  | .external (.agentRun own _) => own = agent
  | .process (.registerEvent _) => False
  | .run (.updateIfCurrent (.attemptStart _) _ _) => False
  | _ => True

section Parts

variable {agent : AgentSpec} {run : AgentRun} {process : Process} {worker : Option Process}

theorem built_requireRun : Built (Routine agent) requireRun := .perform _ trivial

theorem built_utcNow : Built (Routine agent) utcNow := .perform _ trivial

theorem built_payload (eventId : Uuid) : Built (Routine agent) (payload run eventId) := by
  refine .next (.perform _ trivial) fun conversation => .returns ?_ _
  unfold finishedAt
  split
  · exact .pure _
  · exact built_utcNow.returns _

theorem built_prepareForRun : Built (Routine agent) (prepareForRun run) := by
  have skipped : Built (Routine agent) (skipCallback run) := .returns (.perform _ trivial) _
  unfold prepareForRun
  split
  · exact skipped.returns _
  · refine .ite (.next ?_ fun eventId => ?_) (skipped.returns _)
    · unfold eventIdFor
      split
      · exact .pure _
      · exact .perform _ trivial
    · refine (built_payload eventId).next fun body => ?_
      refine .next (.perform _ trivial) fun existing => built_utcNow.next fun now => ?_
      exact .returns (.perform _ trivial) _

theorem built_notify : Built (Routine agent) (notify run) :=
  .ite (built_prepareForRun.returns _) (.pure _)

theorem built_markQueueCompleted : Built (Routine agent) (markQueueCompleted worker) :=
  built_requireRun.next fun _ => .ite (.pure _) (.returns (.perform _ trivial) _)

theorem built_markQueueDead (reason : String) :
    Built (Routine agent) (markQueueDead worker reason) :=
  built_requireRun.next fun _ => .returns (.perform _ trivial) _

theorem built_finalizeRunWithResult (result : RunErrorResult) :
    Built (Routine agent) (finalizeRunWithResult worker run result) :=
  built_utcNow.next fun _ => .next (.perform _ trivial) fun _ => .ite
    (built_notify.next fun _ => built_markQueueCompleted.next fun _ => built_requireRun)
    built_requireRun

theorem built_completeRun (output : Json) : Built (Routine agent) (completeRun worker output) :=
  built_requireRun.next fun _ => built_utcNow.next fun _ => .next (.perform _ trivial) fun _ =>
    .ite (built_prepareForRun.next fun _ =>
      built_markQueueCompleted.next fun _ => built_requireRun) built_requireRun

theorem built_finishRun : Built (Routine agent) (finishRun worker run) := by
  refine built_utcNow.next fun _ => .next (.perform _ trivial) fun _ => .ite ?_ built_requireRun
  refine .next (.external _ trivial) fun _ => built_notify.next fun _ => .ite ?_ ?_
  · exact (built_markQueueDead _).next fun _ => built_requireRun
  · exact built_markQueueCompleted.next fun _ => built_requireRun

theorem built_runAgent : Built (Routine agent) (runAgent process agent run) :=
  .next (.perform _ trivial) fun _ => .next (.perform _ trivial) fun _ =>
    .next (.external _ rfl) fun _ => .returns (.external _ trivial) _

theorem built_tryErrorHandler (error : Exc) :
    Built (Routine agent) (tryErrorHandler error run) := by
  unfold tryErrorHandler
  split
  · exact .pure _
  · exact .external _ trivial

theorem built_backOff (attempt attempts : Nat) :
    Built (Routine agent) (backOff agent attempt attempts) :=
  .ite (.external _ trivial) (.pure _)

end Parts

end AgentTaskPlatform.ExecutorParts
