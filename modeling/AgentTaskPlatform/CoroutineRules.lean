import AgentTaskPlatform.Protocol
import AgentTaskPlatform.Store

/-!
Rules for coroutines that follow a protocol, one for each way a coroutine of
the platform takes a step. A rule with a continuation describes a step followed
by the rest of a sequence, the other form a last step.
-/

namespace AgentTaskPlatform.CoroutineRules

open Interleaving Coroutine

variable {Phase α β : Type} {P : Protocol platform Phase} {phase : Phase}
  {post : Except Exc α → Phase → Prop}

theorem follows_perform {op : Op} {rest : op.Answer → Coroutine α} :
    P.Follows phase (perform op >>= rest : Coroutine α) post ↔
      P.permits phase op ∧ ∀ answer, P.Follows (P.after phase op answer) (rest answer) post :=
  Iff.rfl

theorem follows_perform_last {op : Op} {post : Except Exc op.Answer → Phase → Prop} :
    P.Follows phase (perform op) post ↔
      P.permits phase op ∧ ∀ answer, post (.ok answer) (P.after phase op answer) :=
  Iff.rfl

theorem follows_requireRun {rest : AgentRun → Coroutine α} :
    P.Follows phase (requireRun >>= rest : Coroutine α) post ↔
      P.permits phase (.run .get) ∧
        ∀ run, P.Follows (P.after phase (.run .get) run) (rest run) post :=
  Iff.rfl

theorem follows_requireRun_last {post : Except Exc AgentRun → Phase → Prop} :
    P.Follows phase requireRun post ↔
      P.permits phase (.run .get) ∧ ∀ run, post (.ok run) (P.after phase (.run .get) run) :=
  Iff.rfl

theorem follows_utcNow {rest : Nat → Coroutine α} :
    P.Follows phase (utcNow >>= rest : Coroutine α) post ↔
      P.permits phase (.process .utcNow) ∧
        ∀ now, P.Follows (P.after phase (.process .utcNow) now) (rest now) post :=
  Iff.rfl

theorem follows_uuid4 {rest : Uuid → Coroutine α} :
    P.Follows phase (uuid4 >>= rest : Coroutine α) post ↔
      P.permits phase (.process .uuid4) ∧
        ∀ id, P.Follows (P.after phase (.process .uuid4) id) (rest id) post :=
  Iff.rfl

theorem follows_uuid4_last {post : Except Exc Uuid → Phase → Prop} :
    P.Follows phase uuid4 post ↔
      P.permits phase (.process .uuid4) ∧
        ∀ id, post (.ok id) (P.after phase (.process .uuid4) id) :=
  Iff.rfl

theorem follows_updateIfCurrent {site : Site} {expected : Expected} {row : AgentRun}
    {rest : Bool → Coroutine α} :
    P.Follows phase (updateIfCurrent site expected row >>= rest : Coroutine α) post ↔
      P.permits phase (.run (.updateIfCurrent site expected row)) ∧
        ∀ stored, P.Follows (P.after phase (.run (.updateIfCurrent site expected row)) stored)
          (rest stored) post :=
  Iff.rfl

theorem follows_external_last {op : External} {post : Except Exc op.Result → Phase → Prop} :
    P.Follows phase (external op) post ↔
      P.permits phase (.external op) ∧
        ∀ answer, post answer (P.after phase (.external op) answer) := by
  constructor
  · intro follows
    exact ⟨follows.1, fun answer => Protocol.follows_ofExcept.mp (follows.2 answer)⟩
  · intro ⟨permitted, later⟩
    exact ⟨permitted, fun answer => Protocol.follows_ofExcept.mpr (later answer)⟩

theorem follows_external {op : External} {rest : op.Result → Coroutine α} :
    P.Follows phase (external op >>= rest : Coroutine α) post ↔
      P.permits phase (.external op) ∧
        ∀ answer, P.continued rest post answer (P.after phase (.external op) answer) :=
  Protocol.follows_then.trans follows_external_last

theorem follows_ofExcept_next {outcome : Except Exc β} {rest : β → Coroutine α} :
    P.Follows phase (Fallible.ofExcept outcome >>= rest : Coroutine α) post ↔
      P.continued rest post outcome phase := by
  cases outcome <;> exact Iff.rfl

theorem follows_attempt_next {program : Coroutine β} {rest : Except Exc β → Coroutine α} :
    P.Follows phase (Fallible.attempt program >>= rest : Coroutine α) post ↔
      P.Follows phase program fun outcome middle => P.Follows middle (rest outcome) post :=
  Protocol.follows_attempt_next

theorem follows_finallyDo {program : Coroutine α} {cleanup : Coroutine Unit} :
    P.Follows phase (Fallible.finallyDo program cleanup) post ↔
      P.Follows phase program fun outcome middle =>
        P.Follows middle (cleanup >>= fun _ => Fallible.ofExcept outcome : Coroutine α) post :=
  Protocol.follows_finallyDo

/-- Whatever the phase, the coroutine follows the protocol and keeps what the view shows. -/
def Keeps {View : Type} (P : Protocol platform Phase) (view : Phase → View)
    (program : Coroutine α) : Prop :=
  ∀ phase, P.Follows phase program fun _ after => view after = view phase

section Keeps

variable {View : Type} {view : Phase → View}

theorem Keeps.bind {program : Coroutine β} {rest : β → Coroutine α} (first : Keeps P view program)
    (later : ∀ value, Keeps P view (rest value)) : Keeps P view (program >>= rest) := by
  intro phase
  apply (first phase).next
  · intro value middle kept
    exact (later value middle).mono fun _ _ same => same.trans kept
  · exact fun _ _ kept => kept

theorem Keeps.ends {program : Coroutine α} (keeps : Keeps P view program) (phase : Phase) :
    P.Follows phase program fun _ _ => True :=
  (keeps phase).mono fun _ _ _ => trivial

theorem Keeps.next {program : Coroutine β} {rest : β → Coroutine α} {shown : View}
    (keeps : Keeps P view program) (known : view phase = shown)
    (later : ∀ value after, view after = shown → P.Follows after (rest value) fun _ _ => True) :
    P.Follows phase (program >>= rest : Coroutine α) fun _ _ => True := by
  apply (keeps phase).next
  · exact fun value after kept => later value after (kept.trans known)
  · exact fun _ _ _ => trivial

theorem keeps_pure (value : α) : Keeps P view (pure value : Coroutine α) := fun _ => rfl

theorem keeps_ofExcept (outcome : Except Exc α) :
    Keeps P view (Fallible.ofExcept outcome : Coroutine α) := fun _ =>
  Protocol.follows_ofExcept.mpr rfl

theorem keeps_perform {op : Op} (permitted : ∀ phase, P.permits phase op)
    (kept : ∀ phase answer, view (P.after phase op answer) = view phase) :
    Keeps P view (perform op) := fun phase =>
  follows_perform_last.mpr ⟨permitted phase, kept phase⟩

theorem keeps_external {op : External} (permitted : ∀ phase, P.permits phase (.external op))
    (kept : ∀ phase answer, view (P.after phase (.external op) answer) = view phase) :
    Keeps P view (external op) := fun phase =>
  follows_external_last.mpr ⟨permitted phase, kept phase⟩

theorem Keeps.attempt {program : Coroutine α} (first : Keeps P view program) :
    Keeps P view (Fallible.attempt program : Coroutine (Except Exc α)) := fun phase =>
  Protocol.follows_attempt.mpr (first phase)

end Keeps

end AgentTaskPlatform.CoroutineRules
