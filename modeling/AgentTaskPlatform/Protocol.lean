import AgentTaskPlatform.Program

/-!
Protocols of one thread. A protocol says which operation may come next, given
the phase the thread is in, and how an answer moves the phase. A program that
follows a protocol is walked once; every later argument about the thread is a
case analysis over the operations a phase permits.
-/

namespace AgentTaskPlatform.Interleaving

structure Protocol (I : Interface) (Phase : Type) where
  permits : Phase → I.Op → Prop
  after : Phase → (op : I.Op) → I.Answer op → Phase

variable {I : Interface} {Phase : Type} {ε α β : Type}

namespace Protocol

variable (P : Protocol I Phase)

def Follows : Phase → Program I α → (α → Phase → Prop) → Prop
  | phase, .ret value, post => post value phase
  | phase, .act op next, post =>
      P.permits phase op ∧ ∀ answer, Follows (P.after phase op answer) (next answer) post

def continued (rest : β → Fallible I ε α) (post : Except ε α → Phase → Prop) :
    Except ε β → Phase → Prop
  | .ok value, phase => P.Follows phase (rest value) post
  | .error error, phase => post (.error error) phase

variable {P} {phase : Phase}

theorem Follows.mono {post weaker : α → Phase → Prop} {program : Program I α}
    (follows : P.Follows phase program post)
    (implies : ∀ value phase, post value phase → weaker value phase) :
    P.Follows phase program weaker := by
  induction program generalizing phase with
  | ret value => exact implies value phase follows
  | act op next ih => exact ⟨follows.1, fun answer => ih answer (follows.2 answer)⟩

theorem follows_bind {program : Program I α} {rest : α → Program I β}
    {post : β → Phase → Prop} :
    P.Follows phase (program.bind rest) post ↔
      P.Follows phase program fun value middle => P.Follows middle (rest value) post := by
  induction program generalizing phase with
  | ret value => exact Iff.rfl
  | act op next ih => simp only [Program.bind, Follows, ih]

section Fallible

variable {post : Except ε α → Phase → Prop}

theorem follows_then {program : Fallible I ε β} {rest : β → Fallible I ε α} :
    P.Follows phase (program >>= rest : Fallible I ε α) post ↔
      P.Follows phase program (P.continued rest post) := by
  have same : P.continued rest post = fun outcome middle =>
      P.Follows middle (Fallible.continueWith rest outcome) post := by
    funext outcome middle
    cases outcome <;> rfl
  rw [same]
  exact follows_bind

/-- The rule of a sequence: what the first part ensures starts the rest. -/
theorem Follows.next {program : Fallible I ε β} {rest : β → Fallible I ε α}
    {between : Except ε β → Phase → Prop} (first : P.Follows phase program between)
    (later : ∀ value middle, between (.ok value) middle → P.Follows middle (rest value) post)
    (fails : ∀ error middle, between (.error error) middle → post (.error error) middle) :
    P.Follows phase (program >>= rest : Fallible I ε α) post := by
  rw [follows_then]
  apply first.mono
  intro outcome middle holds
  cases outcome with
  | ok value => exact later value middle holds
  | error error => exact fails error middle holds

theorem follows_attempt {program : Fallible I ε β}
    {post : Except ε (Except ε β) → Phase → Prop} :
    P.Follows phase (Fallible.attempt program) post ↔
      P.Follows phase program fun outcome middle => post (.ok outcome) middle :=
  follows_bind

theorem follows_ofExcept {outcome : Except ε α} :
    P.Follows phase (Fallible.ofExcept outcome : Fallible I ε α) post ↔ post outcome phase := by
  cases outcome <;> exact Iff.rfl

theorem follows_attempt_next {program : Fallible I ε β} {rest : Except ε β → Fallible I ε α} :
    P.Follows phase (Fallible.attempt program >>= rest : Fallible I ε α) post ↔
      P.Follows phase program fun outcome middle => P.Follows middle (rest outcome) post := by
  rw [follows_then, follows_attempt]
  exact Iff.rfl

theorem follows_finallyDo {program : Fallible I ε α} {cleanup : Fallible I ε Unit} :
    P.Follows phase (Fallible.finallyDo program cleanup) post ↔
      P.Follows phase program fun outcome middle =>
        P.Follows middle (cleanup >>= fun _ => Fallible.ofExcept outcome : Fallible I ε α) post :=
  follows_attempt_next

end Fallible

end Protocol

end AgentTaskPlatform.Interleaving
