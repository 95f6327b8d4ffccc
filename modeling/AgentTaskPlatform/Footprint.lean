import AgentTaskPlatform.Protocol

/-!
The operations that a program may perform, whatever the answers. A program whose
operations leave the phase of a protocol alone stays in that phase.
-/

namespace AgentTaskPlatform.Interleaving

variable {I : Interface} {Phase ε α β : Type} {allowed : I.Op → Prop}

namespace Program

def Within (allowed : I.Op → Prop) : Program I α → Prop
  | .ret _ => True
  | .act op next => allowed op ∧ ∀ answer, (next answer).Within allowed

theorem Within.bind {program : Program I α} {rest : α → Program I β}
    (first : program.Within allowed) (later : ∀ value, (rest value).Within allowed) :
    (program.bind rest).Within allowed := by
  induction program with
  | ret value => exact later value
  | act op next ih => exact ⟨first.1, fun answer => ih answer (first.2 answer)⟩

end Program

namespace Fallible

abbrev Within (allowed : I.Op → Prop) (program : Fallible I ε α) : Prop :=
  Program.Within allowed program

theorem within_ofExcept (outcome : Except ε α) :
    Within allowed (ofExcept outcome : Fallible I ε α) := by
  cases outcome <;> exact trivial

theorem within_next {program : Fallible I ε β} {rest : β → Fallible I ε α}
    (first : Within allowed program) (later : ∀ value, Within allowed (rest value)) :
    Within allowed (program >>= rest : Fallible I ε α) := by
  apply Program.Within.bind first
  intro outcome
  cases outcome with
  | ok value => exact later value
  | error error => exact trivial

theorem within_attempt {program : Fallible I ε α} (first : Within allowed program) :
    Within allowed (attempt program) :=
  Program.Within.bind first fun _ => trivial

theorem within_finallyDo {program : Fallible I ε α} {cleanup : Fallible I ε Unit}
    (first : Within allowed program) (last : Within allowed cleanup) :
    Within allowed (finallyDo program cleanup) :=
  within_next (within_attempt first) fun outcome =>
    within_next last fun _ => within_ofExcept outcome

end Fallible

/-- A program that performs only what leaves the phase alone stays in it. -/
theorem Protocol.follows_within {P : Protocol I Phase} {phase : Phase} {program : Program I α}
    (within : program.Within allowed) (permits : ∀ op, allowed op → P.permits phase op)
    (still : ∀ op answer, allowed op → P.after phase op answer = phase) :
    P.Follows phase program fun _ later => later = phase := by
  induction program with
  | ret value => exact rfl
  | act op next ih =>
      refine ⟨permits op within.1, ?_⟩
      intro answer
      rw [still op answer within.1]
      exact ih answer (within.2 answer)

end AgentTaskPlatform.Interleaving
