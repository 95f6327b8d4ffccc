import AgentTaskPlatform.Tracking

/-!
Two protocols for the same threads. A later argument may need to follow a thread more
closely than the protocols of its system do; the second protocol runs beside the first
one, and each program is walked once for each of them.
-/

namespace AgentTaskPlatform.Interleaving

variable {I : Interface} {State Tag Entry Loop Result Phase Other α : Type}

def Protocol.beside (P : Protocol I Phase) (Q : Protocol I Other) : Protocol I (Phase × Other) where
  permits phases op := P.permits phases.1 op ∧ Q.permits phases.2 op
  after phases op answer := (P.after phases.1 op answer, Q.after phases.2 op answer)

theorem Protocol.Follows.beside {P : Protocol I Phase} {Q : Protocol I Other} {phase : Phase}
    {other : Other} {program : Program I α} {post : α → Phase → Prop} {more : α → Other → Prop}
    (first : P.Follows phase program post) (second : Q.Follows other program more) :
    (P.beside Q).Follows (phase, other) program fun value phases =>
      post value phases.1 ∧ more value phases.2 := by
  induction program generalizing phase other with
  | ret value => exact ⟨first, second⟩
  | act op next ih =>
      refine ⟨⟨first.1, second.1⟩, ?_⟩
      intro answer
      exact ih answer (first.2 answer) (second.2 answer)

/-- A program also follows a protocol that permits, in any phase, what its own protocol permits
in the phases that it stays among. -/
theorem Protocol.Follows.covered {P : Protocol I Phase} {Q : Protocol I Other}
    (harmless : Phase → Prop)
    (kept : ∀ phase op answer, harmless phase → harmless (P.after phase op answer))
    (free : ∀ phase op, harmless phase → P.permits phase op → ∀ other, Q.permits other op)
    {phase : Phase} {other : Other} {program : Program I α} {post : α → Phase → Prop}
    (start : harmless phase) (follows : P.Follows phase program post) :
    Q.Follows other program fun _ _ => True := by
  induction program generalizing phase other with
  | ret value => trivial
  | act op next ih =>
      refine ⟨free phase op start follows.1 other, ?_⟩
      intro answer
      exact ih answer (kept phase op answer start) (follows.2 answer)

structure Companion (sys : System I State Tag Entry Loop Result) (Other : Type) where
  protocol : Protocol I Other
  start : Entry → State → Other
  concludes : Result → Other → Prop
  launched : ∀ entry config state thread,
    sys.launch entry config = some (state, some thread) →
    protocol.Follows (start entry config.state) thread.program concludes

namespace Companion

variable {sys : System I State Tag Entry Loop Result}

def discipline (companion : Companion sys Other) (D : Discipline sys Phase) :
    Discipline sys (Phase × Other) where
  protocol := D.protocol.beside companion.protocol
  start entry state := (D.start entry state).map fun phase => (phase, companion.start entry state)
  concludes result phases := D.concludes result phases.1 ∧ companion.concludes result phases.2
  belongs tag phases := D.belongs tag phases.1
  belongs_after tag phases op answer belongs := D.belongs_after tag phases.1 op answer belongs
  launched := by
    intro entry config state thread launched
    obtain ⟨phase, start, belongs, follows⟩ := D.launched entry config state thread launched
    refine ⟨(phase, companion.start entry config.state), by rw [start]; rfl, belongs, ?_⟩
    exact follows.beside (companion.launched entry config state thread launched)

variable {companion : Companion sys Other} {D : Discipline sys Phase}
  {phases : List (Phase × Other)}

theorem launched_phases {index : Nat} {phase : Phase} {other : Other} {entry : Entry}
    {spawned : Option (Nat × Tag)} {before after : State}
    (found : ((companion.discipline D).observe phases
      (.launched entry spawned before after))[index]? = some (phase, other)) :
    phases[index]? = some (phase, other) ∨
      (index = phases.length ∧ D.start entry before = some phase ∧
        other = companion.start entry before) := by
  rcases Discipline.launched_phase found with old | ⟨position, _, start⟩
  · exact Or.inl old
  · obtain ⟨first, known, same⟩ := Option.map_eq_some_iff.mp start
    cases same
    exact Or.inr ⟨position, known, rfl⟩

variable [DecidableEq Loop]

omit [DecidableEq Loop] in
theorem spawned_phases {config : Config I State Tag Result} {entry : Entry} {state : State}
    {spawned : Option (Thread I Tag Result)} {thread : Nat} {tag : Tag}
    (tracked : (companion.discipline D).Tracked config phases)
    (launched : sys.launch entry config = some (state, spawned))
    (named : System.spawnedThread config spawned = some (thread, tag)) :
    ∃ phase, ((companion.discipline D).observe phases
      (.launched entry (System.spawnedThread config spawned) config.state state))[thread]? =
        some (phase, companion.start entry config.state) := by
  cases spawned with
  | none => cases named
  | some activity =>
      cases named
      obtain ⟨phase, start, _⟩ := D.launched entry config state activity launched
      refine ⟨phase, ?_⟩
      simp only [Discipline.observe, System.spawnedThread, discipline, start, Option.map_some,
        Option.toList_some]
      rw [← tracked.length]
      simp

end Companion

def learn (start : Entry → State → Other) (after : Other → (op : I.Op) → I.Answer op → Other)
    (thread : Nat) (known : Option Other) : Event I State Tag Entry → Option Other
  | .launched entry (some (own, _)) before _ =>
      if own = thread then some (start entry before) else known
  | .acted own _ op answer _ _ =>
      if own = thread then known.map fun phase => after phase op answer else known
  | .launched _ none _ _ => known

namespace Companion

variable {sys : System I State Tag Entry Loop Result} (companion : Companion sys Other)
  {D : Discipline sys Phase} {phases : List (Phase × Other)}

def history (thread : Nat) (past : List (Event I State Tag Entry)) : Option Other :=
  past.foldl (learn companion.start companion.protocol.after thread) none

theorem history_snoc (thread : Nat) (past : List (Event I State Tag Entry))
    (event : Event I State Tag Entry) : companion.history thread (past ++ [event]) =
      learn companion.start companion.protocol.after thread (companion.history thread past)
        event := by
  simp [history]

def Recalled (past : List (Event I State Tag Entry)) (phases : List (Phase × Other)) : Prop :=
  ∀ thread phase other, phases[thread]? = some (phase, other) →
    companion.history thread past = some other

theorem recalled_inductive : (companion.discipline D).Inductive (fun _ _ => True)
    fun past _ phases => companion.Recalled past phases where
  acts past state phases thread tag op oracle phase recalled present _ _ _ := by
    intro index later other found
    rw [history_snoc]
    rcases Discipline.performed_phase present found with ⟨rfl, same⟩ | ⟨different, kept⟩
    · rw [recalled index phase.1 phase.2 present]
      cases same
      simp [learn, System.performed]
    · rw [recalled index later other kept]
      simp [learn, System.performed, Ne.symm different]
  launches past config phases entry state spawned tracked recalled launched _ := by
    intro index later other found
    rw [history_snoc]
    cases spawned with
    | none => exact recalled index later other found
    | some activity =>
        simp only [learn, System.spawnedThread]
        rcases launched_phases found with old | ⟨rfl, _, rfl⟩
        · have inside := (List.getElem?_eq_some_iff.mp old).1
          rw [tracked.length] at inside
          rw [if_neg (by omega)]
          exact recalled index later other old
        · rw [tracked.length, if_pos rfl]

variable {companion}

theorem observe_first (event : Event I State Tag Entry) :
    ((companion.discipline D).observe phases event).map Prod.fst =
      D.observe (phases.map Prod.fst) event := by
  cases event with
  | acted thread tag op answer before after =>
      apply List.ext_getElem?
      intro index
      rw [List.getElem?_map, Discipline.observe_acted, Discipline.observe_acted,
        List.getElem?_map]
      split
      · cases phases[index]? <;> rfl
      · rfl
  | launched entry spawned before after =>
      cases spawned with
      | none => rfl
      | some spawned =>
          simp only [Discipline.observe, discipline, List.map_append]
          cases D.start entry before <;> rfl

theorem phases_first (past : List (Event I State Tag Entry)) :
    ((companion.discipline D).phases past).map Prod.fst = D.phases past := by
  induction past using List.reverseRecOn with
  | nil => rfl
  | append_singleton past event ih =>
      rw [Discipline.phases_snoc, Discipline.phases_snoc, observe_first, ih]

variable [DecidableEq Loop]

variable (companion) in
/-- An operation that both protocols of its thread permit, and what the past tells of both. -/
theorem run_permits {config final : Config I State Tag Result}
    {left right : List (Event I State Tag Entry)} {thread : Nat} {tag : Tag} {op : I.Op}
    {answer : I.Answer op} {before after : State}
    (run : sys.Run config (left ++ .acted thread tag op answer before after :: right) final)
    (rest : config.threads = []) :
    ∃ phase other, ((companion.discipline D).phases left)[thread]? = some (phase, other) ∧
      (D.phases left)[thread]? = some phase ∧ companion.history thread left = some other ∧ D.belongs tag phase ∧
      D.protocol.permits phase op ∧ companion.protocol.permits other op := by
  have recalled := (companion.recalled_inductive (D := D)).before_event run rest
    (fun _ _ _ _ => trivial) (fun _ _ _ found => by cases found)
  obtain ⟨phase, oracle, present, belongs, permitted, _⟩ :=
    Discipline.run_permits (D := companion.discipline D) run rest
  have alone : (D.phases left)[thread]? = some phase.1 := by
    have first : ((companion.discipline D).phases left).map Prod.fst = D.phases left :=
      phases_first left
    rw [← first, List.getElem?_map, present]
    rfl
  exact ⟨phase.1, phase.2, present, alone, recalled thread phase.1 phase.2 present, belongs, permitted.1,
    permitted.2⟩

end Companion

end AgentTaskPlatform.Interleaving
