import AgentTaskPlatform.SlotLimits

/-!
The ledger of the slots: what the backends hold against what the live contexts have. An
exception while the session owns the lock of the key, a second return of a connection, a
key that another thread has stored meanwhile and a cancellation around a job each leave
something behind that nobody gives back.
-/

namespace AgentTaskPlatform.Coordination

open Interleaving

def Op.storing : Op → Bool
  | .store _ _ => true
  | _ => false

def Op.returning : Op → Bool
  | .putconn _ => true
  | _ => false

def stores (thread : Nat) : SlotEvent → Bool
  | .acted own _ op _ _ _ => own = thread && op.storing
  | _ => false

def Context.droppable (past : List SlotEvent) (context : Context) : Bool :=
  match context.status with
  | .acquiring _ thread => !past.any (stores thread)
  | .unlocking _ => false
  | _ => true

/-- No attempt finds its key in the dictionary before it takes a connection. In its `finally`
it finds the key there if a call of its `try` has raised, and else only if it has stored it.
No call raises while the session owns the lock, and no cancellation reaches a task between
the entry of its connection and the start of the release, but for the time in the body. -/
def Careful (hashKey : String → Int) (past : List SlotEvent) : SlotEvent → Prop
  | .acted _ job (.known key) _ before _ => before.held job.process key = none
  | .acted _ job (.cursor conn) (.error _) before _ =>
      SessionLocks.owner before.locks (hashKey job.key) ≠ some conn
  | .acted _ job (.fetchone conn) (.error _) before _ =>
      SessionLocks.owner before.locks (hashKey job.key) ≠ some conn
  | .acted _ job (.unlock conn _) (.error _) before _ =>
      SessionLocks.owner before.locks (hashKey job.key) ≠ some conn
  | .acted thread _ (.store _ _) _ before _ =>
      ∀ context ∈ before.contexts, context.status.awaits = some thread → context.cancelled = false
  | .acted thread job (.missing key) _ before _ =>
      -- The `except` has returned the connection of an attempt that has failed.
      if past.any (givesBack thread) = true then before.held job.process key ≠ none
      else before.held job.process key = none ∨ past.any (stores thread) = true
  | .launched (.cancel index) _ before _ =>
      (before.contexts[index]?).all (Context.droppable past) = true
  | _ => True

/-- About to return a connection that the `except` has returned. -/
def Step.doubled : Step → Bool
  | .returning _ (.error _) => true
  | _ => false

def Step.spent : Step → Bool
  | .leaving _ (.error _) => true
  | .returning _ (.error _) => true
  | .done _ => true
  | _ => false

structure History (past : List SlotEvent) (phases : List Phase) : Prop where
  wrote : ∀ (thread : Nat) phase, phases[thread]? = some phase →
    past.any (stores thread) = phase.step.stored
  spent : ∀ (thread : Nat) phase, phases[thread]? = some phase →
    past.any (givesBack thread) = true → phase.step.spent = true
  early : ∀ thread, phases.length ≤ thread →
    past.any (stores thread) = false ∧ past.any (givesBack thread) = false

section History

variable {hashKey : String → Int} {past : List SlotEvent} {state : State} {phases : List Phase}
  {thread : Nat} {phase : Phase} {op : Op} {job : Job} {step : Step}

theorem permitted_doubled {answer : op.Answer} (permitted : Permitted hashKey job step op) :
    (step.after op answer).doubled = false ∨ ∃ conn error, step = .leaving conn (.error error) := by
  cases permitted with
  | missing conn outcome =>
      cases outcome with
      | error error => exact Or.inr ⟨conn, error, rfl⟩
      | ok acquired => cases answer <;> exact Or.inl rfl
  | fetchone conn granted =>
      left
      cases answer with
      | error error => rfl
      | ok _ => cases granted <;> rfl
  | store conn => exact Or.inl rfl
  | _ => cases answer <;> exact Or.inl rfl

theorem History.acted (history : History past phases) {later : List Phase} {after : Step}
    {answer : op.Answer} {next : State} (stepped : Stepped phases later thread phase after)
    (length : later.length = phases.length)
    (stored : after.stored = (phase.step.stored || op.storing))
    (spent : phase.step.spent = true ∨ op.returning = true → after.spent = true) :
    History (past ++ [.acted thread phase.job op answer state next]) later := by
  have inside := (List.getElem?_eq_some_iff.mp stepped.before).1
  refine ⟨?_, ?_, ?_⟩
  · intro index found named
    rw [List.any_append]
    rcases stepped.cases named with ⟨rfl, rfl⟩ | ⟨different, kept⟩
    · rw [history.wrote index phase stepped.before, stored]
      simp [stores]
    · rw [history.wrote index found kept]
      simp [stores, Ne.symm different]
  · intro index found named gave
    rw [List.any_append, Bool.or_eq_true] at gave
    rcases stepped.cases named with ⟨rfl, rfl⟩ | ⟨different, kept⟩
    · apply spent
      rcases gave with before | now
      · exact Or.inl (history.spent index phase stepped.before before)
      · right
        cases op <;> first | rfl | simp [givesBack] at now
    · rcases gave with before | now
      · exact history.spent index found kept before
      · cases op <;> simp [givesBack, Ne.symm different] at now
  · intro index outside
    rw [length] at outside
    obtain ⟨unstored, kept⟩ := history.early index outside
    have different : thread ≠ index := by omega
    rw [List.any_append, List.any_append, unstored, kept]
    constructor
    · simp [stores, different]
    · cases op <;> simp [givesBack, different]

theorem opening_stored (job : Job) : job.opening.stored = false := by
  unfold Job.opening
  split <;> rfl

theorem History.launched (history : History past phases) {later : List Phase} {entry : Entry}
    {spawned : Option (Nat × Job)} {before after : State}
    (length : phases.length ≤ later.length)
    (fresh : ∀ (thread : Nat) phase, later[thread]? = some phase →
      phases[thread]? = some phase ∨
        (phases.length ≤ thread ∧ phase.step = phase.job.opening)) :
    History (past ++ [.launched entry spawned before after]) later := by
  refine ⟨?_, ?_, ?_⟩
  · intro index found named
    have silent : (past ++ [(.launched entry spawned before after : SlotEvent)]).any
        (stores index) = past.any (stores index) := by
      rw [List.any_append]
      exact Bool.or_false _
    rw [silent]
    rcases fresh index found named with old | ⟨outside, opening⟩
    · exact history.wrote index found old
    · rw [opening, opening_stored]
      exact (history.early index outside).1
  · intro index found named gave
    rw [List.any_append, Bool.or_eq_true] at gave
    rcases gave with past | now
    · rcases fresh index found named with old | ⟨outside, _⟩
      · exact history.spent index found old past
      · rw [(history.early index outside).2] at past
        cases past
    · cases now
  · intro index outside
    obtain ⟨unstored, kept⟩ := history.early index (by omega)
    rw [List.any_append, List.any_append, unstored, kept]
    exact ⟨rfl, rfl⟩

end History

def Context.attended (context : Context) : Prop :=
  match context.status with
  | .acquiring _ _ => context.cancelled = false
  | _ => True

def Charged (state : State) (phases : List Phase) : Prop :=
  ∀ process key conn, state.held process key = some conn →
    ∃ (index : Nat) (context : Context) (slot : Nat), state.contexts[index]? = some context ∧
      context.holds phases = some slot ∧ context.process = process ∧ context.slot slot = key ∧
      context.attended

section Charged

variable {hashKey : String → Int} {past : List SlotEvent} {state next : State}
  {phases later : List Phase} {thread : Nat} {phase : Phase} {after : Step}

theorem Charged.steady (charged : Charged state phases)
    (stepped : Stepped phases later thread phase after) (contexts : next.contexts = state.contexts)
    (held : next.held = state.held) (stored : after.stored = phase.step.stored)
    (pops : after.pops = phase.step.pops) : Charged next later := by
  intro process key conn entry
  rw [held] at entry
  obtain ⟨index, context, slot, found, holds, rest⟩ := charged process key conn entry
  refine ⟨index, context, slot, by rw [contexts]; exact found, ?_, rest⟩
  rw [stepped.holds_steady stored pops]
  exact holds

theorem Charged.store {conn : Conn} (charged : Charged state phases) (tasks : Tasks state phases)
    (stepped : Stepped phases later thread phase (.leaving conn (.ok true)))
    (storing : phase.step = .storing conn)
    (alive : ∀ context ∈ state.contexts, context.status.awaits = some thread →
      context.cancelled = false) :
    Charged { state with held := setHeld state.held phase.job.process phase.job.key (some conn) }
      later := by
  have acquires : phase.job.acquires = true := by
    have fits := tasks.fits thread phase stepped.before
    rw [storing] at fits
    exact fits
  obtain ⟨own, context, slot, found, awaits, job, status⟩ :=
    tasks.context stepped.before (by rw [storing]; rfl)
  rw [acquires, if_pos rfl] at status
  intro process key other held
  by_cases same : process = phase.job.process ∧ key = phase.job.key
  · refine ⟨own, context, slot, found, ?_, ?_, ?_, ?_⟩
    · rw [holds_acquiring status stepped.self]
      rfl
    · rw [same.1, job]
    · rw [same.2, job]
    · rw [Context.attended, status]
      exact alive context (List.mem_of_getElem? found) awaits
  · have entry : state.held process key = some other := by
      rw [← held]
      exact (setHeld_other (some conn) same).symm
    obtain ⟨index, second, slot', found', holds, rest⟩ := charged process key other entry
    refine ⟨index, second, slot', found', ?_, rest⟩
    rw [stepped.holds_other]
    · exact holds
    · intro awaits'
      have one := tasks.sole index own second context thread found' found awaits' awaits
      subst one
      rw [found] at found'
      cases found'
      rw [holds_acquiring status stepped.before, storing] at holds
      cases holds

theorem Charged.pop {conn : Conn} (charged : Charged state phases) (tasks : Tasks state phases)
    (stepped : Stepped phases later thread phase (.reopening conn))
    (popping : phase.step = .popping) :
    Charged { state with held := setHeld state.held phase.job.process phase.job.key none }
      later := by
  obtain ⟨own, context, slot, found, awaits, holds, process, key⟩ :=
    tasks.releaser stepped.before popping
  intro other name conn' held
  by_cases same : other = phase.job.process ∧ name = phase.job.key
  · have taken : setHeld state.held phase.job.process phase.job.key none other name = none := by
      rw [same.1, same.2]
      exact setHeld_self _ _ _ _
    rw [show setHeld state.held phase.job.process phase.job.key none other name = some conn'
      from held] at taken
    cases taken
  · have entry : state.held other name = some conn' := by
      rw [← held]
      exact (setHeld_other none same).symm
    obtain ⟨index, second, slot', found', holds', process', key', rest⟩ :=
      charged other name conn' entry
    refine ⟨index, second, slot', found', ?_, process', key', rest⟩
    rw [stepped.holds_other]
    · exact holds'
    · intro awaits'
      have one := tasks.sole index own second context thread found' found awaits' awaits
      subst one
      rw [found] at found'
      cases found'
      rw [holds] at holds'
      cases holds'
      exact same ⟨process'.symm.trans process, key'.symm.trans key⟩

theorem Charged.moved {index : Nat} {context moved : Context} (charged : Charged state phases)
    (tasks : Tasks state phases) (found : state.contexts[index]? = some context)
    (fits : Fits phases later context moved)
    (carries : ∀ slot, context.holds phases = some slot → context.attended →
      moved.holds later = some slot ∧ moved.attended) :
    Charged (state.put index moved) later := by
  have inside := (List.getElem?_eq_some_iff.mp found).1
  intro process key conn entry
  obtain ⟨other, second, slot, present, holds, own, name, attended⟩ := charged process key conn entry
  by_cases same : other = index
  · subst same
    rw [found] at present
    cases present
    obtain ⟨holds', attended'⟩ := carries slot holds attended
    refine ⟨other, moved, slot, ?_, holds', fits.process.trans own, ?_, attended'⟩
    · exact List.getElem?_set_self inside
    · rw [fits.slot]
      exact name
  · refine ⟨other, second, slot, ?_, ?_, own, name, attended⟩
    · exact (List.getElem?_set_ne (Ne.symm same)).trans present
    · rw [tasks.holds_kept fits.keeps present]
      exact holds

end Charged

def Placed (state : State) (phases : List Phase) : Prop :=
  ∀ conn ∈ state.used,
    (∃ (thread : Nat) (phase : Phase), phases[thread]? = some phase ∧
      phase.step.owned = some conn) ∨
    ∃ process key, state.held process key = some conn

def Charted (hashKey : String → Int) (state : State) (phases : List Phase) : Prop :=
  ∀ lock conn extra, state.locks lock = some (conn, extra) → extra = 0 ∧
    ((∃ process key, state.held process key = some conn ∧ hashKey key = lock) ∨
      ∃ (thread : Nat) (phase : Phase), phases[thread]? = some phase ∧
        phase.step.locked = some conn ∧ hashKey phase.job.key = lock)

section Holdings

variable {hashKey : String → Int} {past : List SlotEvent} {state next : State}
  {phases later : List Phase} {thread : Nat} {phase : Phase} {after : Step}

theorem Placed.acted (placed : Placed state phases)
    (stepped : Stepped phases later thread phase after)
    (used : ∀ conn ∈ next.used, conn ∈ state.used ∨ after.owned = some conn)
    (own : ∀ conn ∈ next.used, phase.step.owned = some conn →
      after.owned = some conn ∨ ∃ process key, next.held process key = some conn)
    (entries : ∀ process key conn, state.held process key = some conn →
      next.held process key = some conn ∨ after.owned = some conn) : Placed next later := by
  intro conn member
  have mine : after.owned = some conn → ∃ (thread : Nat) (phase : Phase),
      later[thread]? = some phase ∧ phase.step.owned = some conn := fun owned =>
    ⟨thread, ⟨phase.job, after⟩, stepped.self, owned⟩
  rcases used conn member with old | owned
  · rcases placed conn old with ⟨index, found, named, owned⟩ | ⟨process, key, entry⟩
    · by_cases same : index = thread
      · subst same
        rw [stepped.before] at named
        cases named
        exact (own conn member owned).imp_left mine
      · exact Or.inl ⟨index, found, by rw [stepped.rest index same]; exact named, owned⟩
    · rcases entries process key conn entry with kept | owned
      · exact Or.inr ⟨process, key, kept⟩
      · exact Or.inl (mine owned)
  · exact Or.inl (mine owned)

theorem Charted.acted (charted : Charted hashKey state phases)
    (stepped : Stepped phases later thread phase after)
    (locks : ∀ lock conn extra, next.locks lock = some (conn, extra) →
      state.locks lock = some (conn, extra) ∨
        (extra = 0 ∧ after.locked = some conn ∧ hashKey phase.job.key = lock))
    (own : ∀ conn extra, next.locks (hashKey phase.job.key) = some (conn, extra) →
      phase.step.locked = some conn →
      after.locked = some conn ∨
        ∃ process key, next.held process key = some conn ∧ hashKey key = hashKey phase.job.key)
    (entries : ∀ process key conn, state.held process key = some conn →
      next.held process key = some conn ∨ (after.locked = some conn ∧ key = phase.job.key)) :
    Charted hashKey next later := by
  intro lock conn extra taken
  have mine : after.locked = some conn → hashKey phase.job.key = lock →
      ∃ (thread : Nat) (phase : Phase), later[thread]? = some phase ∧
        phase.step.locked = some conn ∧ hashKey phase.job.key = lock := fun locked name =>
    ⟨thread, ⟨phase.job, after⟩, stepped.self, locked, name⟩
  rcases locks lock conn extra taken with old | ⟨zero, locked, name⟩
  · obtain ⟨zero, owner⟩ := charted lock conn extra old
    refine ⟨zero, ?_⟩
    rcases owner with ⟨process, key, entry, name⟩ | ⟨index, found, named, locked, name⟩
    · rcases entries process key conn entry with kept | ⟨locked, same⟩
      · exact Or.inl ⟨process, key, kept, name⟩
      · exact Or.inr (mine locked (by rw [← same]; exact name))
    · by_cases same : index = thread
      · subst same
        rw [stepped.before] at named
        cases named
        rw [← name] at taken
        rcases own conn extra taken locked with kept | ⟨process, key, entry, alike⟩
        · exact Or.inr (mine kept name)
        · exact Or.inl ⟨process, key, entry, alike.trans name⟩
      · exact Or.inr ⟨index, found, by rw [stepped.rest index same]; exact named, locked, name⟩
  · exact ⟨zero, Or.inr (mine locked name)⟩

/-- Where the dictionaries are left alone and the job keeps what it has. -/
theorem Placed.steady (placed : Placed state phases)
    (stepped : Stepped phases later thread phase after) (used : next.used = state.used)
    (held : next.held = state.held) (owned : after.owned = phase.step.owned) :
    Placed next later :=
  placed.acted stepped (fun conn member => Or.inl (used ▸ member))
    (fun conn _ own => Or.inl (owned.trans own))
    fun process key conn entry => Or.inl (by rw [held]; exact entry)

theorem Charted.steady (charted : Charted hashKey state phases)
    (stepped : Stepped phases later thread phase after) (locks : next.locks = state.locks)
    (held : next.held = state.held) (locked : after.locked = phase.step.locked) :
    Charted hashKey next later :=
  charted.acted stepped (fun lock conn extra taken => Or.inl (by rw [← locks]; exact taken))
    (fun conn _ _ own => Or.inl (locked.trans own))
    fun process key conn entry => Or.inl (by rw [held]; exact entry)

theorem Charted.unowned {conn : Conn} (charted : Charted hashKey state phases)
    (wired : Wired hashKey state phases) (present : phases[thread]? = some phase)
    (owned : phase.step.owned = some conn) (unlocked : phase.step.locked = none) (lock : Int) :
    SessionLocks.owner state.locks lock ≠ some conn := by
  intro owner
  cases taken : state.locks lock with
  | none => simp [SessionLocks.owner, taken] at owner
  | some pair =>
      have same : pair.1 = conn := by simpa [SessionLocks.owner, taken] using owner
      obtain ⟨holder, extra⟩ := pair
      subst same
      rcases (charted lock holder extra taken).2 with
        ⟨process, key, entry, _⟩ | ⟨index, found, named, locked, _⟩
      · exact wired.free thread phase process key holder present owned entry
      · by_cases same : index = thread
        · subst same
          rw [present] at named
          cases named
          rw [unlocked] at locked
          cases locked
        · exact wired.apart index thread found phase holder named present same
            (Step.locked_owned locked) owned

end Holdings

def takes (conn : Conn) : SlotEvent → Bool
  | .acted _ _ .getconn (.ok taken) _ _ => taken = conn
  | _ => false

def returns (conn : Conn) : SlotEvent → Bool
  | .acted _ _ (.putconn returned) _ _ _ => returned = conn
  | _ => false

/-- Every connection has been returned as often as it has been taken, but for its use. -/
def Balanced (past : List SlotEvent) (state : State) : Prop :=
  ∀ conn, past.countP (takes conn) = past.countP (returns conn) + state.used.count conn

section Balance

variable {hashKey : String → Int} {past : List SlotEvent} {state : State} {phases : List Phase}
  {thread : Nat} {phase : Phase} {op : Op} {job : Job} {step : Step}

theorem Balanced.silent {event : SlotEvent} (balanced : Balanced past state) {next : State}
    (used : next.used = state.used) (take : ∀ conn, takes conn event = false)
    (back : ∀ conn, returns conn event = false) : Balanced (past ++ [event]) next := by
  intro conn
  rw [List.countP_append, List.countP_append, used]
  simpa [take conn, back conn] using balanced conn

/-- A connection moves between the pool and the ones in use. -/
theorem Balanced.performed (balanced : Balanced past state) (oracle : op.Answer)
    (inUse : ∀ conn, op = .putconn conn → conn ∈ state.used) :
    Balanced (past ++ [(slotSystem hashKey).performed thread job op oracle state])
      (op.perform job oracle state).2 := by
  cases op with
  | getconn =>
      cases oracle with
      | error error => exact balanced.silent rfl (fun _ => rfl) fun _ => rfl
      | ok taken =>
          by_cases fresh : taken.process = job.process ∧ taken ∉ state.used
          · intro conn
            have before := balanced conn
            rw [List.countP_append, List.countP_append]
            simp only [System.performed, slotSystem, Op.perform, fresh, not_false_eq_true,
              and_self, if_true, List.countP_singleton, takes, returns, decide_eq_true_eq,
              Bool.false_eq_true, if_false, List.count_cons, beq_iff_eq]
            omega
          · refine balanced.silent ?_ ?_ ?_
            · simp [Op.perform, fresh]
            · intro conn
              simp [System.performed, slotSystem, Op.perform, fresh, takes]
            · intro conn
              rfl
  | putconn returned =>
      intro conn
      have before := balanced conn
      have member := inUse returned rfl
      rw [List.countP_append, List.countP_append]
      simp only [System.performed, slotSystem, Op.perform, member, if_true, List.countP_singleton,
        takes, returns, decide_eq_true_eq, Bool.false_eq_true, if_false, List.count_erase,
        beq_iff_eq]
      by_cases same : returned = conn
      · subst same
        have once := List.count_pos_iff.mpr member
        simp only [if_true]
        omega
      · simp only [same, if_false]
        omega
  | tryLock conn lockKey => cases oracle <;> exact balanced.silent rfl (fun _ => rfl) fun _ => rfl
  | unlock conn lockKey => cases oracle <;> exact balanced.silent rfl (fun _ => rfl) fun _ => rfl
  | _ => exact balanced.silent rfl (fun _ => rfl) fun _ => rfl

end Balance

structure Ledger (hashKey : String → Int) (past : List SlotEvent) (state : State)
    (phases : List Phase) : Prop where
  inv : Inv hashKey past state phases
  history : History past phases
  once : ∀ (thread : Nat) phase, phases[thread]? = some phase → phase.step.doubled = false
  charged : Charged state phases
  placed : Placed state phases
  charted : Charted hashKey state phases
  balanced : Balanced past state

section Ledger

variable {hashKey : String → Int} {past : List SlotEvent} {state next : State}
  {phases later : List Phase} {thread : Nat} {phase : Phase} {op : Op} {after : Step}

theorem Ledger.first (ledger : Ledger hashKey past state phases)
    (present : phases[thread]? = some phase) {conn : Conn}
    (permitted : Permitted hashKey phase.job phase.step (.putconn conn)) :
    past.any (givesBack thread) = false := by
  rw [Bool.eq_false_iff]
  intro gave
  have spent := ledger.history.spent thread phase present gave
  have once := ledger.once thread phase present
  generalize phase.step = step at permitted spent once
  cases permitted with
  | putRaised own error => cases spent
  | putMissing own outcome =>
      cases outcome with
      | error error => cases once
      | ok acquired => cases spent
  | putBack own outcome => cases spent

theorem Ledger.proper {oracle : op.Answer} (ledger : Ledger hashKey past state phases)
    (present : phases[thread]? = some phase) (permitted : Permitted hashKey phase.job phase.step op)
    (careful : Careful hashKey past
      ((slotSystem hashKey).performed thread phase.job op oracle state)) :
    Proper past ((slotSystem hashKey).performed thread phase.job op oracle state) := by
  cases op with
  | known key => exact careful
  | putconn conn =>
      intro gave
      rw [ledger.first present permitted] at gave
      cases gave
  | _ => trivial

theorem Ledger.once_after {oracle : op.Answer} (ledger : Ledger hashKey past state phases)
    (present : phases[thread]? = some phase) (permitted : Permitted hashKey phase.job phase.step op)
    (careful : Careful hashKey past
      ((slotSystem hashKey).performed thread phase.job op oracle state)) :
    (phase.step.after op (op.perform phase.job oracle state).1).doubled = false := by
  rcases permitted_doubled permitted with plain | ⟨conn, error, step⟩
  · exact plain
  · have gave := ledger.inv.twice thread phase conn present (by rw [step]; rfl)
    rw [step] at permitted ⊢
    cases permitted with
    | missing =>
        have stored : state.held phase.job.process phase.job.key ≠ none :=
          (if_pos gave).mp careful
        have found : (state.held phase.job.process phase.job.key).isNone = false :=
          Option.isNone_eq_false_iff.mpr (Option.isSome_iff_ne_none.mpr stored)
        simp only [Op.perform, found]
        rfl

theorem Ledger.unshared {oracle : op.Answer} (ledger : Ledger hashKey past state phases)
    (present : phases[thread]? = some phase) (permitted : Permitted hashKey phase.job phase.step op)
    (careful : Careful hashKey past
      ((slotSystem hashKey).performed thread phase.job op oracle state)) {conn : Conn}
    (step : phase.step = .leaving conn (.ok false)) :
    state.held phase.job.process phase.job.key = none := by
  rw [step] at permitted
  cases permitted with
  | missing =>
      have fresh : ¬ past.any (givesBack thread) = true := by
        intro gave
        have spent := ledger.history.spent thread phase present gave
        rw [step] at spent
        cases spent
      rcases (if_neg fresh).mp careful with free | wrote
      · exact free
      · rw [ledger.history.wrote thread phase present, step] at wrote
        cases wrote

theorem Ledger.calm {oracle : op.Answer} (ledger : Ledger hashKey past state phases)
    (present : phases[thread]? = some phase) (permitted : Permitted hashKey phase.job phase.step op)
    (careful : Careful hashKey past
      ((slotSystem hashKey).performed thread phase.job op oracle state)) {conn : Conn}
    (locks : phase.step.locked = some conn) : op.raises oracle = false := by
  have owner := ledger.inv.wired.locked thread phase conn present locks
  generalize now : phase.step = step at permitted locks
  cases permitted with
  | fetchone other granted =>
      cases oracle with
      | ok _ => rfl
      | error error =>
          cases granted with
          | true =>
              cases locks
              exact absurd owner careful
          | false => cases locks
  | reopen other =>
      cases oracle with
      | ok _ => rfl
      | error error =>
          cases locks
          exact absurd owner careful
  | unlock other =>
      cases oracle with
      | ok _ => rfl
      | error error =>
          cases locks
          exact absurd owner careful
  | store other => rfl
  | _ => cases locks

end Ledger

def Context.settled (context : Context) : Bool :=
  match context.status with
  | .queued _ => false
  | .acquiring _ _ => context.cancelled
  | .unlocking _ => false
  | .releasing _ _ => context.cancelled
  | _ => true

def quiet (config : SlotConfig) : Bool :=
  config.threads.all (fun thread => thread.program.finished) &&
    config.state.contexts.all Context.settled

def Context.Live (process : Process) (key : String) (context : Context) : Prop :=
  context.process = process ∧ ∃ slot, context.status = .granted slot ∧ context.slot slot = key

structure Conserved (hashKey : String → Int) (events : List SlotEvent) (state : State) : Prop where
  keys : ∀ process key, state.held process key ≠ none ↔
    ∃ context ∈ state.contexts, context.Live process key
  locks : ∀ lock conn extra, state.locks lock = some (conn, extra) ↔
    extra = 0 ∧ ∃ process key, state.held process key = some conn ∧ hashKey key = lock
  connections : ∀ conn, conn ∈ state.used ↔
    ∃ process key, state.held process key = some conn
  returned : ∀ conn, events.countP (takes conn) =
    events.countP (returns conn) + if conn ∈ state.used then 1 else 0

section Quiescence

variable {hashKey : String → Int} {past : List SlotEvent} {state : State} {phases : List Phase}

theorem ended_owned
    (ended : ∀ (thread : Nat) phase, phases[thread]? = some phase → phase.step.ended = true) :
    ∀ (thread : Nat) phase, phases[thread]? = some phase → phase.step.owned = none := by
  intro thread phase named
  have ceased := ended thread phase named
  cases step : phase.step with
  | done outcome => rfl
  | _ =>
      rw [step] at ceased
      cases ceased

/-- When nothing is under way, the charge of a slot is in a body. -/
theorem live_charge {context : Context} {slot : Nat}
    (ended : ∀ (thread : Nat) phase, phases[thread]? = some phase → phase.step.ended = true)
    (settled : context.settled = true) (attended : context.attended)
    (holds : context.holds phases = some slot) : context.status = .granted slot := by
  unfold Context.holds at holds
  split at holds
  · next index status =>
      cases holds
      exact status
  · next index status => simp [Context.settled, status] at settled
  · next index thread status =>
      simp only [Context.settled, status] at settled
      simp only [Context.attended, status] at attended
      rw [settled] at attended
      cases attended
  · next index thread status =>
      split at holds
      · next pops =>
          obtain ⟨phase, named, popping⟩ := Option.map_eq_some_iff.mp pops
          have ceased := ended thread phase named
          cases step : phase.step <;> simp [step, Step.pops, Step.ended] at popping ceased
      · cases holds
  · cases holds

theorem Ledger.conserved (ledger : Ledger hashKey past state phases)
    (ended : ∀ (thread : Nat) phase, phases[thread]? = some phase → phase.step.ended = true)
    (settled : ∀ context ∈ state.contexts, context.settled = true) :
    Conserved hashKey past state := by
  have idle := ended_owned ended
  refine ⟨?_, ?_, ?_, ?_⟩
  · intro process key
    constructor
    · intro entry
      obtain ⟨conn, held⟩ := Option.ne_none_iff_exists'.mp entry
      obtain ⟨index, context, slot, found, holds, own, name, attended⟩ :=
        ledger.charged process key conn held
      have present := List.mem_of_getElem? found
      have granted := live_charge ended (settled context present) attended holds
      exact ⟨context, present, own, slot, granted, name⟩
    · rintro ⟨context, present, own, slot, granted, name⟩
      obtain ⟨index, found⟩ := List.getElem?_of_mem present
      have holds : context.holds phases = some slot := by simp [Context.holds, granted]
      obtain ⟨conn, held⟩ := ledger.inv.tasks.holding index context slot found holds
      rw [own, name] at held
      rw [held]
      exact Option.some_ne_none conn
  · intro lock conn extra
    constructor
    · intro taken
      obtain ⟨zero, owner⟩ := ledger.charted lock conn extra taken
      refine ⟨zero, ?_⟩
      rcases owner with entry | ⟨thread, phase, named, locked, _⟩
      · exact entry
      · have none := idle thread phase named
        rw [Step.locked_owned locked] at none
        cases none
    · rintro ⟨rfl, process, key, held, rfl⟩
      have owner := (ledger.inv.wired.kept process key conn held).2.2
      cases taken : state.locks (hashKey key) with
      | none => simp [SessionLocks.owner, taken] at owner
      | some pair =>
          have same : pair.1 = conn := by simpa [SessionLocks.owner, taken] using owner
          have zero := (ledger.charted _ pair.1 pair.2 taken).1
          rw [← same, ← zero]
  · intro conn
    constructor
    · intro member
      rcases ledger.placed conn member with ⟨thread, phase, named, owned⟩ | entry
      · rw [idle thread phase named] at owned
        cases owned
      · exact entry
    · rintro ⟨process, key, held⟩
      exact (ledger.inv.wired.kept process key conn held).1
  · intro conn
    rw [ledger.balanced conn]
    rw [ledger.inv.wired.unique.count]

end Quiescence

instance (hashKey : String → Int) (past : List SlotEvent) (event : SlotEvent) :
    Decidable (Careful hashKey past event) :=
  match event with
  | .acted _ job (.known key) _ before _ =>
      inferInstanceAs (Decidable (before.held job.process key = none))
  | .acted _ job (.cursor conn) (.error _) before _ =>
      inferInstanceAs (Decidable (SessionLocks.owner before.locks (hashKey job.key) ≠ some conn))
  | .acted _ job (.fetchone conn) (.error _) before _ =>
      inferInstanceAs (Decidable (SessionLocks.owner before.locks (hashKey job.key) ≠ some conn))
  | .acted _ job (.unlock conn _) (.error _) before _ =>
      inferInstanceAs (Decidable (SessionLocks.owner before.locks (hashKey job.key) ≠ some conn))
  | .acted thread _ (.store _ _) _ before _ =>
      inferInstanceAs (Decidable (∀ context ∈ before.contexts,
        context.status.awaits = some thread → context.cancelled = false))
  | .acted thread job (.missing key) _ before _ =>
      inferInstanceAs (Decidable (if past.any (givesBack thread) = true then
        before.held job.process key ≠ none
      else before.held job.process key = none ∨ past.any (stores thread) = true))
  | .acted _ _ (.putconn _) _ _ _ => isTrue trivial
  | .launched (.cancel index) _ before _ =>
      inferInstanceAs (Decidable ((before.contexts[index]?).all (Context.droppable past) = true))
  | .acted _ _ .getconn _ _ _ => isTrue trivial
  | .acted _ _ (.cursor _) (.ok _) _ _ => isTrue trivial
  | .acted _ _ (.tryLock _ _) _ _ _ => isTrue trivial
  | .acted _ _ (.fetchone _) (.ok _) _ _ => isTrue trivial
  | .acted _ _ (.pop _) _ _ _ => isTrue trivial
  | .acted _ _ (.unlock _ _) (.ok _) _ _ => isTrue trivial
  | .acted _ _ (.commit _) _ _ _ => isTrue trivial
  | .launched (.enter _ _ _) _ _ _ => isTrue trivial
  | .launched (.loop _) _ _ _ => isTrue trivial
  | .launched (.timeUp _) _ _ _ => isTrue trivial
  | .launched (.start _) _ _ _ => isTrue trivial
  | .launched (.resume _) _ _ _ => isTrue trivial
  | .launched (.wake _) _ _ _ => isTrue trivial
  | .launched (.exit _) _ _ _ => isTrue trivial

end AgentTaskPlatform.Coordination
