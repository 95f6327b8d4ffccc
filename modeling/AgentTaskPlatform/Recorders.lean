import AgentTaskPlatform.Tracking

/-!
Threads that are judged by their own history. A recorder is a protocol whose phase is the
list of what a thread has done so far, with the answers it got; in a run, this list is what
the events of the thread spell.
-/

namespace AgentTaskPlatform.Interleaving

variable {I : Interface} {State Tag Entry Loop Result Phase Label α : Type}

structure Act (I : Interface) where
  op : I.Op
  answer : I.Answer op

def actsOf (thread : Nat) (events : List (Event I State Tag Entry)) : List (Act I) :=
  events.filterMap fun
    | .acted index _ op answer _ _ => if index = thread then some ⟨op, answer⟩ else none
    | .launched _ _ _ _ => none

section Histories

variable (past : List (Event I State Tag Entry)) {thread index : Nat} {tag : Tag} {op : I.Op}
  {answer : I.Answer op} {before after : State}

theorem actsOf_own : actsOf thread (past ++ [.acted thread tag op answer before after]) =
    actsOf thread past ++ [⟨op, answer⟩] := by
  simp [actsOf]

theorem actsOf_other (other : index ≠ thread) :
    actsOf index (past ++ [.acted thread tag op answer before after]) = actsOf index past := by
  simp [actsOf, Ne.symm other]

theorem actsOf_launched {entry : Entry} {spawned : Option (Nat × Tag)} :
    actsOf thread (past ++ [.launched entry spawned before after]) = actsOf thread past := by
  simp [actsOf]

end Histories

def recorder (allowed : List (Act I) → I.Op → Prop) : Protocol I (List (Act I)) where
  permits := allowed
  after history op answer := history ++ [⟨op, answer⟩]

@[simp] theorem recorder_after (allowed : List (Act I) → I.Op → Prop) (history : List (Act I))
    (op : I.Op) (answer : I.Answer op) :
    (recorder allowed).after history op answer = history ++ [⟨op, answer⟩] :=
  rfl

structure Recording (sys : System I State Tag Entry Loop Result) (Label : Type) where
  label : Entry → State → Option Label
  allowed : Label → List (Act I) → I.Op → Prop
  launched : ∀ entry config state thread,
    sys.launch entry config = some (state, some thread) →
    ∃ known, label entry config.state = some known ∧
      (recorder (allowed known)).Follows [] thread.program fun _ _ => True

namespace Recording

variable {sys : System I State Tag Entry Loop Result} (R : Recording sys Label)

def protocol : Protocol I (Label × List (Act I)) where
  permits phase := R.allowed phase.1 phase.2
  after phase op answer := (phase.1, phase.2 ++ [⟨op, answer⟩])

variable {R} in
theorem protocol_follows {known : Label} {history : List (Act I)} {program : Program I α}
    (follows : (recorder (R.allowed known)).Follows history program fun _ _ => True) :
    R.protocol.Follows (known, history) program fun _ _ => True :=
  follows.embed (Prod.mk known) (fun _ _ permitted => permitted) (fun _ _ _ => rfl)
    fun _ _ _ => trivial

def discipline : Discipline sys (Label × List (Act I)) where
  protocol := R.protocol
  start entry state := (R.label entry state).map fun known => (known, [])
  concludes _ _ := True
  belongs _ _ := True
  belongs_after _ _ _ _ _ := trivial
  launched := by
    intro entry config state thread launched
    obtain ⟨known, labelled, follows⟩ := R.launched entry config state thread launched
    exact ⟨(known, []), by rw [labelled]; rfl, trivial, protocol_follows follows⟩

def Started (past : List (Event I State Tag Entry)) (thread : Nat) (known : Label) : Prop :=
  ∃ entry tag before after, (.launched entry (some (thread, tag)) before after :
    Event I State Tag Entry) ∈ past ∧ R.label entry before = some known

structure Spelled (past : List (Event I State Tag Entry)) (phases : List (Label × List (Act I))) :
    Prop where
  known : ∀ thread phase, phases[thread]? = some phase →
    phase.2 = actsOf thread past ∧ R.Started past thread phase.1
  unborn : ∀ thread, phases.length ≤ thread → actsOf thread past = []

variable {R} in
theorem Started.later {past : List (Event I State Tag Entry)} {thread : Nat} {known : Label}
    (started : R.Started past thread known) (event : Event I State Tag Entry) :
    R.Started (past ++ [event]) thread known := by
  obtain ⟨entry, tag, before, after, member, labelled⟩ := started
  exact ⟨entry, tag, before, after, List.mem_append_left _ member, labelled⟩

theorem spelled_inductive : R.discipline.Inductive (fun _ _ => True)
    fun past _ phases => R.Spelled past phases where
  acts past state phases thread tag op oracle phase spelled present _ _ _ := by
    constructor
    · intro index later found
      rcases Discipline.performed_phase present found with ⟨rfl, moved⟩ | ⟨other, before⟩
      · obtain ⟨history, started⟩ := spelled.known index phase present
        subst moved
        refine ⟨?_, started.later _⟩
        rw [System.performed, actsOf_own, ← history]
        rfl
      · obtain ⟨history, started⟩ := spelled.known index later before
        refine ⟨?_, started.later _⟩
        rw [System.performed, actsOf_other past other]
        exact history
    · intro index late
      have length : (R.discipline.observe phases (sys.performed thread tag op oracle state)).length =
          phases.length := by simp [System.performed, Discipline.observe]
      rw [length] at late
      have inside := (List.getElem?_eq_some_iff.mp present).1
      rw [System.performed, actsOf_other past (by omega)]
      exact spelled.unborn index late
  launches past config phases entry state spawned tracked spelled launched _ := by
    constructor
    · intro index later found
      rw [actsOf_launched]
      rcases Discipline.launched_phase found with old | ⟨rfl, born, start⟩
      · obtain ⟨history, started⟩ := spelled.known index later old
        exact ⟨history, started.later _⟩
      · obtain ⟨known, labelled, rfl⟩ := Option.map_eq_some_iff.mp start
        refine ⟨(spelled.unborn _ (Nat.le_refl _)).symm, ?_⟩
        cases spawned with
        | none => cases born
        | some thread =>
            refine ⟨entry, thread.tag, config.state, state, ?_, labelled⟩
            rw [tracked.length]
            simp [System.spawnedThread]
    · intro index late
      rw [actsOf_launched]
      refine spelled.unborn index (Nat.le_trans ?_ late)
      cases spawned <;> simp [Discipline.observe, System.spawnedThread]

theorem run_allowed [DecidableEq Loop] {config final : Config I State Tag Result}
    {left right : List (Event I State Tag Entry)} {thread : Nat} {tag : Tag} {op : I.Op}
    {answer : I.Answer op} {before after : State}
    (run : sys.Run config (left ++ .acted thread tag op answer before after :: right) final)
    (rest : config.threads = []) :
    ∃ known, R.Started left thread known ∧ R.allowed known (actsOf thread left) op := by
  obtain ⟨phase, oracle, present, _, permitted, _⟩ :=
    Discipline.run_permits (D := R.discipline) run rest
  have spelled : R.Spelled left (R.discipline.phases left) :=
    R.spelled_inductive.before_event run rest (fun _ _ _ _ => trivial)
      ⟨fun _ _ found => (by cases found), fun _ _ => rfl⟩
  obtain ⟨history, started⟩ := spelled.known thread phase present
  exact ⟨phase.1, started, history ▸ permitted⟩

end Recording

end AgentTaskPlatform.Interleaving
