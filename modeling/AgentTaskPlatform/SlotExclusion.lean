import AgentTaskPlatform.SlotProtocol

/-!
Who holds a slot. The connection of a slot belongs to one job or to one entry of a
backend's dictionary at a time, and the session of an entry owns the lock of its key.
Two contexts can share a slot only where an attempt finds the key of its process in the
dictionary, and so takes the lock of another task for its own.
-/

namespace AgentTaskPlatform.Coordination

open Interleaving

namespace Step

def owned : Step → Option Conn
  | .opening conn => some conn
  | .locking conn => some conn
  | .fetching conn _ => some conn
  | .storing conn => some conn
  | .failing conn _ => some conn
  | .leaving conn (.ok false) => some conn
  | .returning conn (.ok false) => some conn
  | .reopening conn => some conn
  | .unlocking conn => some conn
  | .confirming conn => some conn
  | .committing conn => some conn
  | .putting conn _ => some conn
  | _ => none

def locked : Step → Option Conn
  | .fetching conn true => some conn
  | .storing conn => some conn
  | .reopening conn => some conn
  | .unlocking conn => some conn
  | _ => none

def stored : Step → Bool
  | .leaving _ (.ok true) => true
  | .done (.ok true) => true
  | _ => false

def pops : Step → Bool
  | .popping => true
  | _ => false

def raised : Step → Option Conn
  | .leaving conn (.error _) => some conn
  | .returning conn (.error _) => some conn
  | _ => none

def fits (acquires : Bool) : Step → Prop
  | .popping => acquires = false
  | .reopening _ => acquires = false
  | .unlocking _ => acquires = false
  | .confirming _ => acquires = false
  | .committing _ => acquires = false
  | .putting _ _ => acquires = false
  | .done _ => True
  | _ => acquires = true

def ended : Step → Bool
  | .done _ => true
  | _ => false

def plain : Step → Bool
  | .leaving _ (.ok true) => false
  | .returning _ (.ok true) => false
  | .putting _ (.ok true) => false
  | _ => true

theorem locked_owned {step : Step} {conn : Conn} (locks : step.locked = some conn) :
    step.owned = some conn := by
  unfold locked at locks
  split at locks <;> first | exact locks | cases locks

end Step

/-- What one step of a job does to the backend, where the attempt does not find its key
in the dictionary and a connection that has been returned is not in use again. -/
inductive Effect (hashKey : String → Int) (lossless : Prop) (job : Job) (state : State) :
    Step → State → Step → Prop where
  /-- Nothing the other tasks can see; what the job has in hand it keeps, or may lose. -/
  | silent {step after : Step} (owned : after.owned = step.owned ∨ (¬lossless ∧ after.owned = none))
      (locked : after.locked = step.locked ∨ (¬lossless ∧ after.locked = none))
      (stored : after.stored = step.stored) (waits : step.pops = false)
      (starts : after.pops = false) (plain : after.plain = true) :
      Effect hashKey lossless job state step state after
  | take {conn : Conn} (process : conn.process = job.process) (fresh : conn ∉ state.used) :
      Effect hashKey lossless job state .taking { state with used := conn :: state.used }
        (.opening conn)
  | lock {conn : Conn} : Effect hashKey lossless job state (.locking conn)
      { state with locks := SessionLocks.tryLock state.locks conn (hashKey job.key) }
      (.fetching conn (SessionLocks.Entry.available conn (state.locks (hashKey job.key))))
  | store {conn : Conn} : Effect hashKey lossless job state (.storing conn)
      { state with held := setHeld state.held job.process job.key (some conn) }
      (.leaving conn (.ok true))
  | put {step after : Step} {conn : Conn} (owned : step.owned = some conn)
      (unlocked : step.locked = none) (waits : step.pops = false) (unstored : step.stored = false)
      (left : after.owned = none) (starts : after.pops = false) (lost : after.stored = false)
      (plain : after.plain = true) :
      Effect hashKey lossless job state step { state with used := state.used.erase conn } after
  | pop {conn : Conn} (found : state.held job.process job.key = some conn) :
      Effect hashKey lossless job state .popping
        { state with held := setHeld state.held job.process job.key none } (.reopening conn)
  | popNone (missing : state.held job.process job.key = none) :
      Effect hashKey lossless job state .popping
        { state with held := setHeld state.held job.process job.key none } (.done (.ok false))
  | unlock {conn : Conn} : Effect hashKey lossless job state (.unlocking conn)
      { state with locks := SessionLocks.unlock state.locks conn (hashKey job.key) }
      (.confirming conn)

def Op.raises : (op : Op) → op.Answer → Bool
  | .cursor _, .error _ => true
  | .fetchone _, .error _ => true
  | .unlock _ _, .error _ => true
  | _, _ => false

structure Ready (state : State) (job : Job) (step : Step) : Prop where
  used : ∀ conn, step.owned = some conn → conn ∈ state.used
  stored : ∀ conn, step = .leaving conn (.ok true) → state.held job.process job.key = some conn
  never : ∀ conn, step ≠ .returning conn (.ok true)
  released : ∀ conn, step ≠ .putting conn (.ok true)

theorem performed_effect {hashKey : String → Int} {lossless : Prop} {job : Job} {state : State}
    {step : Step} {op : Op} (oracle : op.Answer) (permitted : Permitted hashKey job step op)
    (ready : Ready state job step)
    (unknown : op = .known job.key → state.held job.process job.key = none)
    (once : ∀ conn error, step = .returning conn (.error error) → op = .putconn conn →
      conn ∉ state.used)
    (unshared : lossless → ∀ conn, step = .leaving conn (.ok false) →
      state.held job.process job.key = none)
    (calm : lossless → ∀ conn, step.locked = some conn → op.raises oracle = false) :
    Effect hashKey lossless job state step (op.perform job oracle state).2
      (step.after op (op.perform job oracle state).1) := by
  have drops : ∀ {after : Step} {conn : Conn}, step.locked = some conn →
      op.raises oracle = true → after.locked = none →
      after.locked = step.locked ∨ (¬lossless ∧ after.locked = none) := by
    intro after conn locks raises none
    refine Or.inr ⟨?_, none⟩
    intro whole
    rw [calm whole conn locks] at raises
    cases raises
  -- One case for each call that the source makes at its step.
  cases permitted with
  | known =>
      simp only [Op.perform, unknown rfl]
      exact .silent (Or.inl rfl) (Or.inl rfl) rfl rfl rfl rfl
  | getconn =>
      cases oracle with
      | error error => exact .silent (Or.inl rfl) (Or.inl rfl) rfl rfl rfl rfl
      | ok conn =>
          simp only [Op.perform]
          split
          · next fresh => exact .take fresh.1 fresh.2
          · exact .silent (Or.inl rfl) (Or.inl rfl) rfl rfl rfl rfl
  | cursor conn =>
      cases oracle <;> exact .silent (Or.inl rfl) (Or.inl rfl) rfl rfl rfl rfl
  | tryLock conn =>
      cases oracle with
      | error error => exact .silent (Or.inl rfl) (Or.inl rfl) rfl rfl rfl rfl
      | ok verdict => exact .lock
  | fetchone conn granted =>
      cases oracle with
      | error error =>
          cases granted with
          | true => exact .silent (Or.inl rfl) (drops rfl rfl rfl) rfl rfl rfl rfl
          | false => exact .silent (Or.inl rfl) (Or.inl rfl) rfl rfl rfl rfl
      | ok _ =>
          cases granted with
          | true => exact .silent (Or.inl rfl) (Or.inl rfl) rfl rfl rfl rfl
          | false => exact .silent (Or.inl rfl) (Or.inl rfl) rfl rfl rfl rfl
  | store conn => exact .store
  | putRaised conn error =>
      simp only [Op.perform, ready.used conn rfl, if_true]
      exact .put rfl rfl rfl rfl rfl rfl rfl rfl
  | missing conn outcome =>
      cases outcome with
      | ok acquired =>
          cases acquired with
          | true =>
              simp only [Op.perform, ready.stored conn rfl]
              exact .silent (Or.inl rfl) (Or.inl rfl) rfl rfl rfl rfl
          | false =>
              simp only [Op.perform]
              cases free : (state.held job.process job.key).isNone with
              | true => exact .silent (Or.inl rfl) (Or.inl rfl) rfl rfl rfl rfl
              | false =>
                  refine .silent (Or.inr ⟨?_, rfl⟩) (Or.inl rfl) rfl rfl rfl rfl
                  intro whole
                  rw [unshared whole conn rfl] at free
                  cases free
      | error error =>
          simp only [Op.perform]
          cases (state.held job.process job.key).isNone <;>
            exact .silent (Or.inl rfl) (Or.inl rfl) rfl rfl rfl rfl
  | putMissing conn outcome =>
      cases outcome with
      | ok acquired =>
          cases acquired with
          | true => exact absurd rfl (ready.never conn)
          | false =>
              simp only [Op.perform, ready.used conn rfl, if_true]
              exact .put rfl rfl rfl rfl rfl rfl rfl rfl
      | error error =>
          simp only [Op.perform, once conn error rfl rfl, if_false]
          exact .silent (Or.inl rfl) (Or.inl rfl) rfl rfl rfl rfl
  | pop =>
      simp only [Op.perform]
      cases found : state.held job.process job.key with
      | none => exact .popNone found
      | some conn => exact .pop found
  | reopen conn =>
      cases oracle with
      | ok _ => exact .silent (Or.inl rfl) (Or.inl rfl) rfl rfl rfl rfl
      | error error => exact .silent (Or.inl rfl) (drops rfl rfl rfl) rfl rfl rfl rfl
  | unlock conn =>
      cases oracle with
      | ok _ => exact .unlock
      | error error => exact .silent (Or.inl rfl) (drops rfl rfl rfl) rfl rfl rfl rfl
  | confirm conn =>
      cases oracle <;> exact .silent (Or.inl rfl) (Or.inl rfl) rfl rfl rfl rfl
  | commit conn =>
      cases oracle <;> exact .silent (Or.inl rfl) (Or.inl rfl) rfl rfl rfl rfl
  | putBack conn outcome =>
      simp only [Op.perform, ready.used conn rfl, if_true]
      cases outcome with
      | error error => exact .put rfl rfl rfl rfl rfl rfl rfl rfl
      | ok released =>
          cases released with
          | true => exact absurd rfl (ready.released conn)
          | false => exact .put rfl rfl rfl rfl rfl rfl rfl rfl

structure Wired (hashKey : String → Int) (state : State) (phases : List Phase) : Prop where
  unique : state.used.Nodup
  taken : ∀ (thread : Nat) phase conn, phases[thread]? = some phase →
    phase.step.owned = some conn → conn ∈ state.used ∧ conn.process = phase.job.process
  kept : ∀ process key conn, state.held process key = some conn →
    conn ∈ state.used ∧ conn.process = process ∧
      SessionLocks.owner state.locks (hashKey key) = some conn
  apart : ∀ (thread other : Nat) phase second conn, phases[thread]? = some phase →
    phases[other]? = some second → thread ≠ other → phase.step.owned = some conn →
    second.step.owned ≠ some conn
  single : ∀ process key other name conn, state.held process key = some conn →
    state.held other name = some conn → process = other ∧ key = name
  free : ∀ (thread : Nat) phase process key conn, phases[thread]? = some phase →
    phase.step.owned = some conn → state.held process key ≠ some conn
  locked : ∀ (thread : Nat) phase conn, phases[thread]? = some phase →
    phase.step.locked = some conn →
    SessionLocks.owner state.locks (hashKey phase.job.key) = some conn
  stored : ∀ (thread : Nat) phase conn, phases[thread]? = some phase →
    phase.step = .leaving conn (.ok true) →
    state.held phase.job.process phase.job.key = some conn
  sane : ∀ (thread : Nat) phase, phases[thread]? = some phase → phase.step.plain = true ∨
    ∃ conn, phase.step = .leaving conn (.ok true)

structure Stepped (phases later : List Phase) (thread : Nat) (phase : Phase) (after : Step) :
    Prop where
  before : phases[thread]? = some phase
  self : later[thread]? = some ⟨phase.job, after⟩
  rest : ∀ index, index ≠ thread → later[index]? = phases[index]?

section Effects

variable {hashKey : String → Int} {state next : State} {phases later : List Phase} {thread : Nat}
  {phase : Phase} {after : Step}

theorem Stepped.cases (stepped : Stepped phases later thread phase after) {index : Nat}
    {found : Phase} (named : later[index]? = some found) :
    (index = thread ∧ found = ⟨phase.job, after⟩) ∨
      (index ≠ thread ∧ phases[index]? = some found) := by
  by_cases same : index = thread
  · subst same
    rw [stepped.self] at named
    cases named
    exact Or.inl ⟨rfl, rfl⟩
  · rw [stepped.rest index same] at named
    exact Or.inr ⟨same, named⟩

theorem setHeld_self (held : Process → String → Option Conn) (process : Process) (key : String)
    (conn : Option Conn) : setHeld held process key conn process key = conn := by
  simp [setHeld]

theorem setHeld_other {held : Process → String → Option Conn} {process other : Process}
    {key name : String} (conn : Option Conn) (different : ¬(other = process ∧ name = key)) :
    setHeld held process key conn other name = held other name := by
  simp [setHeld, different]

structure Sound (hashKey : String → Int) (state : State) (phase : Phase) : Prop where
  taken : ∀ conn, phase.step.owned = some conn →
    conn ∈ state.used ∧ conn.process = phase.job.process
  free : ∀ process key conn, phase.step.owned = some conn → state.held process key ≠ some conn
  locked : ∀ conn, phase.step.locked = some conn →
    SessionLocks.owner state.locks (hashKey phase.job.key) = some conn
  stored : ∀ conn, phase.step = .leaving conn (.ok true) →
    state.held phase.job.process phase.job.key = some conn
  sane : phase.step.plain = true ∨ ∃ conn, phase.step = .leaving conn (.ok true)

theorem Wired.sound (wired : Wired hashKey state phases) {index : Nat} {found : Phase}
    (named : phases[index]? = some found) : Sound hashKey state found where
  taken conn := wired.taken index found conn named
  free process key conn := wired.free index found process key conn named
  locked conn := wired.locked index found conn named
  stored conn := wired.stored index found conn named
  sane := wired.sane index found named

theorem plain_unstored {conn : Conn} (plain : after.plain = true) :
    after ≠ .leaving conn (.ok true) := by
  rintro rfl
  cases plain

/-- It is enough to look at the job that has moved, and at what the others rely on. -/
theorem Wired.stepped (wired : Wired hashKey state phases)
    (stepped : Stepped phases later thread phase after) (unique : next.used.Nodup)
    (kept : ∀ process key conn, next.held process key = some conn →
      conn ∈ next.used ∧ conn.process = process ∧
        SessionLocks.owner next.locks (hashKey key) = some conn)
    (single : ∀ process key other name conn, next.held process key = some conn →
      next.held other name = some conn → process = other ∧ key = name)
    (own : Sound hashKey next ⟨phase.job, after⟩)
    (apart : ∀ (index : Nat) found conn, phases[index]? = some found → index ≠ thread →
      found.step.owned = some conn → after.owned ≠ some conn)
    (others : ∀ (index : Nat) found, phases[index]? = some found → index ≠ thread →
      Sound hashKey next found) : Wired hashKey next later := by
  have sound : ∀ {index : Nat} {found}, later[index]? = some found → Sound hashKey next found := by
    intro index found named
    rcases stepped.cases named with ⟨_, rfl⟩ | ⟨different, old⟩
    · exact own
    · exact others index found old different
  refine ⟨unique, fun _ _ conn named => (sound named).taken conn, kept, ?_, single,
    fun _ _ process key conn named => (sound named).free process key conn,
    fun _ _ conn named => (sound named).locked conn,
    fun _ _ conn named => (sound named).stored conn, fun _ _ named => (sound named).sane⟩
  intro index other found second conn named named' different owns owns'
  rcases stepped.cases named with ⟨rfl, rfl⟩ | ⟨_, old⟩
  · rcases stepped.cases named' with ⟨rfl, rfl⟩ | ⟨away, old'⟩
    · exact different rfl
    · exact apart other second conn old' away owns' owns
  · rcases stepped.cases named' with ⟨rfl, rfl⟩ | ⟨_, old'⟩
    · exact apart index found conn old different owns owns'
    · exact wired.apart index other found second conn old old' different owns owns'

/-- A step that neither takes nor gives anything. -/
theorem Wired.silent (wired : Wired hashKey state phases)
    (stepped : Stepped phases later thread phase after)
    (owned : after.owned = phase.step.owned ∨ after.owned = none)
    (locks : ∀ conn, after.locked = some conn →
      SessionLocks.owner state.locks (hashKey phase.job.key) = some conn)
    (plain : after.plain = true) : Wired hashKey state later := by
  have own : ∀ conn, after.owned = some conn → phase.step.owned = some conn := by
    intro conn some
    rcases owned with same | none
    · rw [← same]
      exact some
    · rw [none] at some
      cases some
  have sound := wired.sound stepped.before
  refine wired.stepped stepped wired.unique wired.kept wired.single ?_ ?_
    fun _ _ named _ => wired.sound named
  · exact ⟨fun conn some => sound.taken conn (own conn some),
      fun process key conn some => sound.free process key conn (own conn some), locks,
      fun conn step => absurd step (plain_unstored plain), Or.inl plain⟩
  · intro index found conn named different owns some
    exact wired.apart index thread found phase conn named stepped.before different owns
      (own conn some)

/-- Taking or giving up a lock leaves the connections where they are. -/
theorem Wired.relock (wired : Wired hashKey state phases) {locks : SessionLocks.Locks Int Conn}
    (entries : ∀ process key conn, state.held process key = some conn →
      SessionLocks.owner locks (hashKey key) = some conn)
    (threads : ∀ (index : Nat) found conn, phases[index]? = some found →
      found.step.locked = some conn →
      SessionLocks.owner locks (hashKey found.job.key) = some conn) :
    Wired hashKey { state with locks := locks } phases where
  unique := wired.unique
  taken := wired.taken
  kept process key conn held :=
    have before := wired.kept process key conn held
    ⟨before.1, before.2.1, entries process key conn held⟩
  apart := wired.apart
  single := wired.single
  free := wired.free
  locked := threads
  stored := wired.stored
  sane := wired.sane

theorem Wired.take {conn : Conn} (wired : Wired hashKey state phases)
    (stepped : Stepped phases later thread phase (.opening conn))
    (process : conn.process = phase.job.process) (fresh : conn ∉ state.used) :
    Wired hashKey { state with used := conn :: state.used } later := by
  -- A connection that is in use nowhere is in no other hand.
  have new : ∀ (index : Nat) found other, phases[index]? = some found →
      found.step.owned = some other → other ≠ conn := by
    rintro index found other named owns rfl
    exact fresh (wired.taken index found other named owns).1
  refine wired.stepped stepped (List.nodup_cons.mpr ⟨fresh, wired.unique⟩) ?_ ?_ ?_ ?_ ?_
  · exact fun process key other held =>
      (wired.kept process key other held).imp_left (List.mem_cons_of_mem _)
  · exact wired.single
  · refine ⟨?_, ?_, (fun _ locks => by cases locks), (fun _ step => by cases step), Or.inl rfl⟩
    · intro other owns
      cases owns
      exact ⟨List.mem_cons_self, process⟩
    · intro process key other owns held
      cases owns
      exact fresh (wired.kept process key conn held).1
  · intro index found other named _ owns own
    cases own
    exact new index found conn named owns rfl
  · intro index found named _
    have sound := wired.sound named
    exact ⟨fun other owns => (sound.taken other owns).imp_left (List.mem_cons_of_mem _),
      sound.free, sound.locked, sound.stored, sound.sane⟩

/-- A connection goes back to its pool. -/
theorem Wired.put {conn : Conn} (wired : Wired hashKey state phases)
    (stepped : Stepped phases later thread phase after)
    (owned : phase.step.owned = some conn) (left : after.owned = none)
    (plain : after.plain = true) :
    Wired hashKey { state with used := state.used.erase conn } later := by
  have unlocked : after.locked = none := by
    cases locks : after.locked with
    | none => rfl
    | some other =>
        rw [Step.locked_owned locks] at left
        cases left
  have others : ∀ other, other ∈ state.used → other ≠ conn → other ∈ state.used.erase conn :=
    fun other member different => (List.mem_erase_of_ne different).mpr member
  refine wired.stepped stepped (wired.unique.erase conn) ?_ ?_ ?_ ?_ ?_
  · intro process key other held
    refine (wired.kept process key other held).imp_left fun member => others other member ?_
    rintro rfl
    exact wired.free thread phase process key other stepped.before owned held
  · exact wired.single
  · refine ⟨fun other owns => ?_, fun _ _ other owns => ?_, fun other locks => ?_,
      fun other step => absurd step (plain_unstored plain), Or.inl plain⟩
    · rw [show after.owned = some other from owns] at left
      cases left
    · rw [show after.owned = some other from owns] at left
      cases left
    · rw [show after.locked = none from unlocked] at locks
      cases locks
  · intro index found other named _ owns own
    rw [left] at own
    cases own
  · intro index found named different
    have sound := wired.sound named
    refine ⟨fun other owns => (sound.taken other owns).imp_left fun member => others other member ?_,
      sound.free, sound.locked, sound.stored, sound.sane⟩
    rintro rfl
    exact wired.apart index thread found phase other named stepped.before different owns owned

theorem Wired.store {conn : Conn} (wired : Wired hashKey state phases)
    (stepped : Stepped phases later thread phase (.leaving conn (.ok true)))
    (owned : phase.step.owned = some conn) (locks : phase.step.locked = some conn) :
    Wired hashKey { state with
      held := setHeld state.held phase.job.process phase.job.key (some conn) } later := by
  have owner := wired.locked thread phase conn stepped.before locks
  -- An entry under the same key would be of the same session, and so of this connection.
  have empty : ∀ other, state.held phase.job.process phase.job.key ≠ some other := by
    intro other held
    have same := (wired.kept _ _ other held).2.2
    rw [owner] at same
    cases same
    exact wired.free thread phase _ _ conn stepped.before owned held
  have entries : ∀ process key other, setHeld state.held phase.job.process phase.job.key
      (some conn) process key = some other →
        (process = phase.job.process ∧ key = phase.job.key ∧ other = conn) ∨
        (¬(process = phase.job.process ∧ key = phase.job.key) ∧
          state.held process key = some other) := by
    intro process key other held
    by_cases same : process = phase.job.process ∧ key = phase.job.key
    · obtain ⟨rfl, rfl⟩ := same
      rw [setHeld_self] at held
      cases held
      exact Or.inl ⟨rfl, rfl, rfl⟩
    · rw [setHeld_other _ same] at held
      exact Or.inr ⟨same, held⟩
  have taken := wired.taken thread phase conn stepped.before owned
  have unheld := fun process key => wired.free thread phase process key conn stepped.before owned
  refine wired.stepped stepped wired.unique ?_ ?_ ?_ ?_ ?_
  · intro process key other held
    rcases entries process key other held with ⟨rfl, rfl, rfl⟩ | ⟨_, old⟩
    · exact ⟨taken.1, taken.2, owner⟩
    · exact wired.kept process key other old
  · intro process key other name held one two
    rcases entries process key held one with ⟨rfl, rfl, rfl⟩ | ⟨_, old⟩
    · rcases entries other name held two with ⟨rfl, rfl, _⟩ | ⟨_, old'⟩
      · exact ⟨rfl, rfl⟩
      · exact absurd old' (unheld other name)
    · rcases entries other name held two with ⟨rfl, rfl, rfl⟩ | ⟨_, old'⟩
      · exact absurd old (unheld process key)
      · exact wired.single process key other name held old old'
  · refine ⟨(fun _ owns => by cases owns), (fun _ _ _ owns => by cases owns),
      (fun _ locks => by cases locks), ?_, Or.inr ⟨conn, rfl⟩⟩
    intro other step
    cases step
    exact setHeld_self _ _ _ _
  · intro index found other _ _ _ own
    cases own
  · intro index found named different
    have sound := wired.sound named
    refine ⟨sound.taken, ?_, sound.locked, ?_, sound.sane⟩
    · intro process key other owns held
      rcases entries process key other held with ⟨_, _, rfl⟩ | ⟨_, old⟩
      · exact wired.apart index thread found phase other named stepped.before different owns owned
      · exact sound.free process key other owns old
    · intro other step
      have old := sound.stored other step
      by_cases same : found.job.process = phase.job.process ∧ found.job.key = phase.job.key
      · rw [same.1, same.2] at old
        exact absurd old (empty other)
      · rw [← old]
        exact setHeld_other _ same

/-- A release takes the connection of its slot out of the dictionary, where nobody else
relies on it. -/
theorem Wired.pop {conn : Conn} (wired : Wired hashKey state phases)
    (stepped : Stepped phases later thread phase (.reopening conn))
    (found : state.held phase.job.process phase.job.key = some conn)
    (lone : ∀ (index : Nat) other conn, phases[index]? = some other →
      other.step = .leaving conn (.ok true) →
      ¬(other.job.process = phase.job.process ∧ other.job.key = phase.job.key)) :
    Wired hashKey { state with
      held := setHeld state.held phase.job.process phase.job.key none } later := by
  have entries : ∀ process key other, setHeld state.held phase.job.process phase.job.key
      none process key = some other →
        ¬(process = phase.job.process ∧ key = phase.job.key) ∧
          state.held process key = some other := by
    intro process key other held
    by_cases same : process = phase.job.process ∧ key = phase.job.key
    · obtain ⟨rfl, rfl⟩ := same
      rw [setHeld_self] at held
      cases held
    · rw [setHeld_other _ same] at held
      exact ⟨same, held⟩
  have before := wired.kept _ _ conn found
  refine wired.stepped stepped wired.unique ?_ ?_ ?_ ?_ ?_
  · intro process key other held
    exact wired.kept process key other (entries process key other held).2
  · intro process key other name held one two
    exact wired.single process key other name held (entries process key held one).2
      (entries other name held two).2
  · refine ⟨?_, ?_, ?_, (fun _ step => by cases step), Or.inl rfl⟩
    · intro other owns
      cases owns
      exact ⟨before.1, before.2.1⟩
    · intro process key other owns held
      cases owns
      obtain ⟨elsewhere, old⟩ := entries process key conn held
      exact elsewhere (wired.single process key _ _ conn old found)
    · intro other locks
      cases locks
      exact before.2.2
  · intro index other held named _ owns own
    cases own
    exact wired.free index other _ _ conn named owns found
  · intro index other named _
    have sound := wired.sound named
    refine ⟨sound.taken, ?_, sound.locked, ?_, sound.sane⟩
    · exact fun process key held owns entry =>
        sound.free process key held owns (entries process key held entry).2
    · intro held step
      rw [← sound.stored held step]
      exact setHeld_other _ (lone index other held named step)

end Effects

def Context.awaitedJob (context : Context) : Option Job :=
  match context.status with
  | .acquiring index _ => some ⟨context.process, context.slot index, true⟩
  | .releasing index _ => some ⟨context.process, context.slot index, false⟩
  | _ => none

/-- The slot that a context is in charge of: from the moment that its job has stored the
connection until the one that its release takes the connection out again. -/
def Context.holds (phases : List Phase) (context : Context) : Option Nat :=
  match context.status with
  | .granted index => some index
  | .unlocking index => some index
  | .acquiring index thread =>
      if (phases[thread]?).map (fun phase => phase.step.stored) = some true then some index
      else none
  | .releasing index thread =>
      if (phases[thread]?).map (fun phase => phase.step.pops) = some true then some index
      else none
  | _ => none

structure Tasks (state : State) (phases : List Phase) : Prop where
  waits : ∀ (index : Nat) context thread, state.contexts[index]? = some context →
    context.status.awaits = some thread →
    ∃ phase, phases[thread]? = some phase ∧ context.awaitedJob = some phase.job
  sole : ∀ (index other : Nat) context second thread, state.contexts[index]? = some context →
    state.contexts[other]? = some second → context.status.awaits = some thread →
    second.status.awaits = some thread → index = other
  served : ∀ (thread : Nat) phase, phases[thread]? = some phase → phase.step.ended = false →
    ∃ (index : Nat) (context : Context), state.contexts[index]? = some context ∧
      context.status.awaits = some thread
  fits : ∀ (thread : Nat) phase, phases[thread]? = some phase →
    phase.step.fits phase.job.acquires
  holding : ∀ (index : Nat) context slot, state.contexts[index]? = some context →
    context.holds phases = some slot →
    ∃ conn, state.held context.process (context.slot slot) = some conn
  alone : ∀ (index other : Nat) context second slot slot', state.contexts[index]? = some context →
    state.contexts[other]? = some second → context.holds phases = some slot →
    second.holds phases = some slot' → context.process = second.process →
    context.slot slot = second.slot slot' → index = other

section Tasks

variable {hashKey : String → Int} {state next : State} {phases later : List Phase} {thread : Nat}
  {phase : Phase} {after : Step}

theorem holds_congr {context : Context}
    (stored : ∀ index, context.status.awaits = some index →
      (later[index]?).map (fun phase => phase.step.stored) =
        (phases[index]?).map fun phase => phase.step.stored)
    (pops : ∀ index, context.status.awaits = some index →
      (later[index]?).map (fun phase => phase.step.pops) =
        (phases[index]?).map fun phase => phase.step.pops) :
    context.holds later = context.holds phases := by
  unfold Context.holds
  cases status : context.status with
  | acquiring slot index =>
      simp only
      rw [stored index (by rw [status]; rfl)]
  | releasing slot index =>
      simp only
      rw [pops index (by rw [status]; rfl)]
  | _ => rfl

theorem Stepped.holds_other (stepped : Stepped phases later thread phase after)
    {context : Context} (other : context.status.awaits ≠ some thread) :
    context.holds later = context.holds phases := by
  have same : ∀ index, context.status.awaits = some index → later[index]? = phases[index]? := by
    intro index awaits
    apply stepped.rest
    rintro rfl
    exact other awaits
  exact holds_congr (fun index awaits => by rw [same index awaits])
    fun index awaits => by rw [same index awaits]

theorem Stepped.holds_steady (stepped : Stepped phases later thread phase after)
    (stored : after.stored = phase.step.stored) (pops : after.pops = phase.step.pops)
    (context : Context) : context.holds later = context.holds phases := by
  by_cases own : context.status.awaits = some thread
  · apply holds_congr
    · intro index awaits
      rw [own] at awaits
      cases awaits
      rw [stepped.self, stepped.before]
      simp [stored]
    · intro index awaits
      rw [own] at awaits
      cases awaits
      rw [stepped.self, stepped.before]
      simp [pops]
  · exact stepped.holds_other own

theorem holds_acquiring {context : Context} {slot : Nat} {found : Phase}
    (status : context.status = .acquiring slot thread) (named : phases[thread]? = some found) :
    context.holds phases = if found.step.stored = true then some slot else none := by
  simp [Context.holds, status, named]

theorem holds_releasing {context : Context} {slot : Nat} {found : Phase}
    (status : context.status = .releasing slot thread) (named : phases[thread]? = some found) :
    context.holds phases = if found.step.pops = true then some slot else none := by
  simp [Context.holds, status, named]

theorem awaited_status {context : Context} {job : Job}
    (awaits : context.status.awaits = some thread) (awaited : context.awaitedJob = some job) :
    ∃ slot, job = ⟨context.process, context.slot slot, job.acquires⟩ ∧
      context.status = if job.acquires then .acquiring slot thread else .releasing slot thread := by
  unfold Context.awaitedJob at awaited
  split at awaited
  · next slot own status =>
      cases awaited
      rw [status] at awaits
      cases awaits
      exact ⟨slot, rfl, status⟩
  · next slot own status =>
      cases awaited
      rw [status] at awaits
      cases awaits
      exact ⟨slot, rfl, status⟩
  · cases awaited

theorem Tasks.context (tasks : Tasks state phases) (named : phases[thread]? = some phase)
    (running : phase.step.ended = false) :
    ∃ (index : Nat) (context : Context) (slot : Nat), state.contexts[index]? = some context ∧
      context.status.awaits = some thread ∧
      phase.job = ⟨context.process, context.slot slot, phase.job.acquires⟩ ∧
      context.status =
        if phase.job.acquires then .acquiring slot thread else .releasing slot thread := by
  obtain ⟨index, context, found, awaits⟩ := tasks.served thread phase named running
  obtain ⟨own, same, awaited⟩ := tasks.waits index context thread found awaits
  rw [named] at same
  cases same
  obtain ⟨slot, job, status⟩ := awaited_status awaits awaited
  exact ⟨index, context, slot, found, awaits, job, status⟩

/-- A step of a job leaves the contexts as they are; what remains is who is in charge. -/
theorem Tasks.acted (tasks : Tasks state phases)
    (stepped : Stepped phases later thread phase after) (running : phase.step.ended = false)
    (fits : after.fits phase.job.acquires) (contexts : next.contexts = state.contexts)
    (holding : ∀ (index : Nat) context slot, state.contexts[index]? = some context →
      context.holds later = some slot →
      ∃ conn, next.held context.process (context.slot slot) = some conn)
    (alone : ∀ (index other : Nat) context second slot slot',
      state.contexts[index]? = some context → state.contexts[other]? = some second →
      context.holds later = some slot → second.holds later = some slot' →
      context.process = second.process → context.slot slot = second.slot slot' →
      index = other) : Tasks next later := by
  rw [← contexts] at holding alone
  refine ⟨?_, ?_, ?_, ?_, holding, alone⟩
  · intro index context awaited found awaits
    rw [contexts] at found
    obtain ⟨own, named, job⟩ := tasks.waits index context awaited found awaits
    by_cases same : awaited = thread
    · subst same
      rw [stepped.before] at named
      cases named
      exact ⟨_, stepped.self, job⟩
    · exact ⟨own, by rw [stepped.rest awaited same, named], job⟩
  · rw [contexts]
    exact tasks.sole
  · rw [contexts]
    intro index found named still
    rcases stepped.cases named with ⟨rfl, rfl⟩ | ⟨_, kept⟩
    · exact tasks.served index phase stepped.before running
    · exact tasks.served index found kept still
  · intro index found named
    rcases stepped.cases named with ⟨rfl, rfl⟩ | ⟨_, kept⟩
    · exact fits
    · exact tasks.fits index found kept

theorem Tasks.steady (tasks : Tasks state phases)
    (stepped : Stepped phases later thread phase after) (running : phase.step.ended = false)
    (fits : after.fits phase.job.acquires) (contexts : next.contexts = state.contexts)
    (held : next.held = state.held) (stored : after.stored = phase.step.stored)
    (pops : after.pops = phase.step.pops) : Tasks next later := by
  have same := stepped.holds_steady stored pops
  refine tasks.acted stepped running fits contexts ?_ ?_
  · intro index context slot found holds
    rw [same] at holds
    rw [held]
    exact tasks.holding index context slot found holds
  · intro index other context second slot slot' found found' holds holds'
    rw [same] at holds holds'
    exact tasks.alone index other context second slot slot' found found' holds holds'

/-- The context of an attempt comes into charge of a slot that nobody has. -/
theorem Tasks.store {conn : Conn} (tasks : Tasks state phases)
    (stepped : Stepped phases later thread phase (.leaving conn (.ok true)))
    (storing : phase.step = .storing conn)
    (empty : ∀ other, state.held phase.job.process phase.job.key ≠ some other) :
    Tasks { state with held := setHeld state.held phase.job.process phase.job.key (some conn) }
      later := by
  have acquires : phase.job.acquires = true := by
    have fits := tasks.fits thread phase stepped.before
    rw [storing] at fits
    exact fits
  have running : phase.step.ended = false := by rw [storing]; rfl
  obtain ⟨index, context, slot, found, awaits, job, status⟩ := tasks.context stepped.before running
  rw [acquires] at status job
  have now : context.holds later = some slot := by
    rw [holds_acquiring status stepped.self]
    rfl
  have process : phase.job.process = context.process := congrArg Job.process job
  have key : phase.job.key = context.slot slot := congrArg Job.key job
  have others : ∀ (other : Nat) (second : Context) slot', state.contexts[other]? = some second →
      second.holds later = some slot' → other ≠ index → second.holds phases = some slot' := by
    intro other second slot' found' holds different
    rwa [stepped.holds_other] at holds
    intro awaits'
    exact different (tasks.sole other index second context thread found' found awaits' awaits)
  have elsewhere : ∀ (other : Nat) (second : Context) slot', state.contexts[other]? = some second →
      second.holds later = some slot' → other ≠ index →
      ¬(second.process = phase.job.process ∧ second.slot slot' = phase.job.key) := by
    rintro other second slot' found' holds different ⟨sameProcess, sameKey⟩
    obtain ⟨held, entry⟩ := tasks.holding other second slot' found'
      (others other second slot' found' holds different)
    rw [sameProcess, sameKey] at entry
    exact empty held entry
  refine tasks.acted stepped running acquires rfl ?_ ?_
  · intro other second slot' found' holds
    by_cases same : other = index
    · subst same
      rw [found] at found'
      cases found'
      rw [now] at holds
      cases holds
      exact ⟨conn, by rw [← process, ← key]; exact setHeld_self _ _ _ _⟩
    · obtain ⟨held, entry⟩ := tasks.holding other second slot' found'
        (others other second slot' found' holds same)
      refine ⟨held, ?_⟩
      rw [← entry]
      exact setHeld_other _ (elsewhere other second slot' found' holds same)
  · intro one two first second slot' slot'' found' found'' holds holds' sameProcess sameSlot
    by_cases own : one = index
    · by_cases own' : two = index
      · rw [own, own']
      · subst own
        rw [found] at found'
        cases found'
        rw [now] at holds
        cases holds
        exact absurd ⟨sameProcess.symm.trans process.symm, sameSlot.symm.trans key.symm⟩
          (elsewhere two second slot'' found'' holds' own')
    · by_cases own' : two = index
      · subst own'
        rw [found] at found''
        cases found''
        rw [now] at holds'
        cases holds'
        exact absurd ⟨sameProcess.trans process.symm, sameSlot.trans key.symm⟩
          (elsewhere one first slot' found' holds own)
      · exact tasks.alone one two first second slot' slot'' found' found''
          (others one first slot' found' holds own) (others two second slot'' found'' holds' own')
          sameProcess sameSlot

/-- Who is in charge of the slot that a release takes out. -/
theorem Tasks.releaser (tasks : Tasks state phases) (named : phases[thread]? = some phase)
    (popping : phase.step = .popping) :
    ∃ (index : Nat) (context : Context) (slot : Nat), state.contexts[index]? = some context ∧
      context.status.awaits = some thread ∧ context.holds phases = some slot ∧
      context.process = phase.job.process ∧ context.slot slot = phase.job.key := by
  have running : phase.step.ended = false := by rw [popping]; rfl
  have releases : phase.job.acquires = false := by
    have fits := tasks.fits thread phase named
    rw [popping] at fits
    exact fits
  obtain ⟨index, context, slot, found, awaits, job, status⟩ := tasks.context named running
  rw [releases] at status
  refine ⟨index, context, slot, found, awaits, ?_, (congrArg Job.process job).symm,
    (congrArg Job.key job).symm⟩
  rw [holds_releasing status named, popping]
  rfl

theorem Tasks.entry (tasks : Tasks state phases) (named : phases[thread]? = some phase)
    (popping : phase.step = .popping) : state.held phase.job.process phase.job.key ≠ none := by
  obtain ⟨index, context, slot, found, _, holds, process, key⟩ := tasks.releaser named popping
  obtain ⟨conn, held⟩ := tasks.holding index context slot found holds
  rw [process, key] at held
  rw [held]
  exact Option.some_ne_none conn

/-- No attempt has just stored a connection for the slot of a release. -/
theorem Tasks.lone (tasks : Tasks state phases) (named : phases[thread]? = some phase)
    (popping : phase.step = .popping) {index : Nat} {other : Phase} {conn : Conn}
    (found : phases[index]? = some other) (step : other.step = .leaving conn (.ok true)) :
    ¬(other.job.process = phase.job.process ∧ other.job.key = phase.job.key) := by
  rintro ⟨sameProcess, sameKey⟩
  obtain ⟨own, releaser, slot, present, awaits, holds, process, key⟩ :=
    tasks.releaser named popping
  have acquires : other.job.acquires = true := by
    have fits := tasks.fits index other found
    rw [step] at fits
    exact fits
  obtain ⟨rival, context, slot', present', awaits', job, status⟩ :=
    tasks.context found (by rw [step]; rfl)
  rw [acquires] at status
  have charge : context.holds phases = some slot' := by
    rw [holds_acquiring status found, step]
    rfl
  have one : own = rival := tasks.alone own rival releaser context slot slot' present present'
    holds charge (process.trans (sameProcess.symm.trans (congrArg Job.process job)))
    (key.trans (sameKey.symm.trans (congrArg Job.key job)))
  subst one
  rw [present] at present'
  cases present'
  rw [awaits] at awaits'
  cases awaits'
  rw [named] at found
  cases found
  rw [popping] at step
  cases step

theorem Tasks.pop {conn : Conn} (tasks : Tasks state phases)
    (stepped : Stepped phases later thread phase (.reopening conn))
    (popping : phase.step = .popping) :
    Tasks { state with held := setHeld state.held phase.job.process phase.job.key none } later := by
  obtain ⟨index, context, slot, found, awaits, holds, process, key⟩ :=
    tasks.releaser stepped.before popping
  have releases : phase.job.acquires = false := by
    have fits := tasks.fits thread phase stepped.before
    rw [popping] at fits
    exact fits
  have now : context.holds later = none := by
    have running : phase.step.ended = false := by rw [popping]; rfl
    obtain ⟨own, same, slot', present, awaits', job, status⟩ := tasks.context stepped.before running
    have one := tasks.sole index own context same thread found present awaits awaits'
    subst one
    rw [found] at present
    cases present
    rw [releases] at status
    rw [holds_releasing status stepped.self]
    rfl
  have before : ∀ (other : Nat) (second : Context) slot', state.contexts[other]? = some second →
      second.holds later = some slot' → second.holds phases = some slot' ∧ other ≠ index := by
    intro other second slot' found' holds'
    have different : other ≠ index := by
      rintro rfl
      rw [found] at found'
      cases found'
      rw [now] at holds'
      cases holds'
    refine ⟨?_, different⟩
    rwa [stepped.holds_other] at holds'
    intro awaits'
    exact different (tasks.sole other index second context thread found' found awaits' awaits)
  refine tasks.acted stepped (by rw [popping]; rfl) releases rfl ?_ ?_
  · intro other second slot' found' holds'
    obtain ⟨old, different⟩ := before other second slot' found' holds'
    obtain ⟨held, entry⟩ := tasks.holding other second slot' found' old
    refine ⟨held, ?_⟩
    rw [← entry]
    apply setHeld_other
    rintro ⟨sameProcess, sameKey⟩
    exact different (tasks.alone other index second context slot' slot found' found old holds
      (sameProcess.trans process.symm) (sameKey.trans key.symm))
  · intro one two first second slot' slot'' found' found'' holds' holds''
    exact tasks.alone one two first second slot' slot'' found' found''
      (before one first slot' found' holds').1 (before two second slot'' found'' holds'').1

end Tasks

def givesBack (thread : Nat) : SlotEvent → Bool
  | .acted own _ (.putconn _) _ _ _ => own = thread
  | _ => false

/-- An attempt does not find its key in the dictionary, and a connection that its thread
has returned before is not in use when it is returned again. -/
def Proper (past : List SlotEvent) : SlotEvent → Prop
  | .acted _ job (.known key) _ before _ => before.held job.process key = none
  | .acted thread _ (.putconn conn) _ before _ =>
      past.any (givesBack thread) = true → conn ∉ before.used
  | _ => True

structure Inv (hashKey : String → Int) (past : List SlotEvent) (state : State)
    (phases : List Phase) : Prop where
  wired : Wired hashKey state phases
  tasks : Tasks state phases
  twice : ∀ (thread : Nat) phase conn, phases[thread]? = some phase →
    phase.step.raised = some conn → past.any (givesBack thread) = true

section Runs

variable {hashKey : String → Int} {past : List SlotEvent} {state : State} {phases : List Phase}
  {thread : Nat} {phase : Phase} {op : Op}

theorem permitted_running {job : Job} {step : Step} (permitted : Permitted hashKey job step op) :
    step.ended = false := by
  cases permitted <;> rfl

theorem permitted_fits {job : Job} {step : Step} {acquires : Bool} {answer : op.Answer}
    (permitted : Permitted hashKey job step op) (fits : step.fits acquires) :
    (step.after op answer).fits acquires := by
  cases permitted with
  | known => cases answer <;> first | exact trivial | exact fits
  | getconn => cases answer <;> first | exact trivial | exact fits
  | cursor conn => cases answer <;> exact fits
  | tryLock conn => cases answer <;> exact fits
  | fetchone conn granted => cases answer <;> cases granted <;> exact fits
  | store conn => exact fits
  | putRaised conn error => cases answer <;> exact fits
  | missing conn outcome => cases answer <;> first | exact trivial | exact fits
  | putMissing conn outcome => cases answer <;> exact trivial
  | pop => cases answer <;> first | exact trivial | exact fits
  | reopen conn => cases answer <;> exact fits
  | unlock conn => cases answer <;> exact fits
  | confirm conn => cases answer <;> exact fits
  | commit conn => cases answer <;> exact fits
  | putBack conn outcome => cases answer <;> exact trivial

/-- A raised attempt has returned its connection in the `except`. -/
theorem permitted_raised {job : Job} {step : Step} {conn : Conn} {answer : op.Answer}
    (permitted : Permitted hashKey job step op)
    (raised : (step.after op answer).raised = some conn) :
    step.raised = some conn ∨ ∃ own, op = .putconn own := by
  cases permitted with
  | putRaised own error => exact Or.inr ⟨own, rfl⟩
  | putMissing own outcome => exact Or.inr ⟨own, rfl⟩
  | putBack own outcome => exact Or.inr ⟨own, rfl⟩
  | missing own outcome =>
      left
      cases answer with
      | true => cases outcome <;> exact raised
      | false => cases raised
  | known => cases answer <;> cases raised
  | getconn => cases answer <;> cases raised
  | cursor own => cases answer <;> cases raised
  | tryLock own => cases answer <;> cases raised
  | fetchone own granted => cases answer <;> cases granted <;> cases raised
  | store own => cases raised
  | pop => cases answer <;> cases raised
  | reopen own => cases answer <;> cases raised
  | unlock own => cases answer <;> cases raised
  | confirm own => cases answer <;> cases raised
  | commit own => cases answer <;> cases raised

theorem Wired.ready (wired : Wired hashKey state phases) (present : phases[thread]? = some phase) :
    Ready state phase.job phase.step where
  used conn owned := (wired.taken thread phase conn present owned).1
  stored conn step := wired.stored thread phase conn present step
  never conn step := by
    rcases wired.sane thread phase present with plain | ⟨own, other⟩
    · rw [step] at plain
      cases plain
    · rw [step] at other
      cases other
  released conn step := by
    rcases wired.sane thread phase present with plain | ⟨own, other⟩
    · rw [step] at plain
      cases plain
    · rw [step] at other
      cases other

theorem Inv.wired_after (inv : Inv hashKey past state phases) {later : List Phase}
    {next : State} {after : Step} {lossless : Prop}
    (stepped : Stepped phases later thread phase after)
    (effect : Effect hashKey lossless phase.job state phase.step next after) :
    Wired hashKey next later := by
  have wired := inv.wired
  generalize now : phase.step = step at effect
  cases effect with
  | silent owned locked stored waits starts plain =>
      refine wired.silent stepped (now ▸ owned.imp_right And.right) ?_ plain
      intro conn locks
      rcases locked with same | ⟨_, none⟩
      · rw [same, ← now] at locks
        exact wired.locked thread phase conn stepped.before locks
      · rw [none] at locks
        cases locks
  | take process fresh => exact wired.take stepped process fresh
  | @lock conn =>
      have relocked : Wired hashKey { state with
          locks := SessionLocks.tryLock state.locks conn (hashKey phase.job.key) } phases :=
        wired.relock
          (fun process key other held =>
            SessionLocks.tryLock_kept (wired.kept process key other held).2.2)
          fun index found other named locks =>
            SessionLocks.tryLock_kept (wired.locked index found other named locks)
      refine relocked.silent stepped (Or.inl (by rw [now]; rfl)) ?_ rfl
      intro other locks
      cases granted : SessionLocks.Entry.available conn (state.locks (hashKey phase.job.key)) with
      | false =>
          rw [granted] at locks
          cases locks
      | true =>
          rw [granted] at locks
          cases locks
          exact SessionLocks.tryLock_owner granted
  | @store conn => exact wired.store stepped (by rw [now]; rfl) (by rw [now]; rfl)
  | put owned unlocked waits unstored left starts lost plain =>
      exact wired.put stepped (now ▸ owned) left plain
  | @pop conn found =>
      exact wired.pop stepped found fun index other own named step =>
        inv.tasks.lone stepped.before now named step
  | popNone missing =>
      exact absurd missing (inv.tasks.entry stepped.before now)
  | @unlock conn =>
      have confirming : Wired hashKey state later :=
        wired.silent stepped (Or.inl (by rw [now]; rfl)) (fun other locks => by cases locks) rfl
      have owned : phase.step.owned = some conn := by rw [now]; rfl
      refine confirming.relock ?_ ?_
      · intro process key other held
        refine SessionLocks.unlock_kept (wired.kept process key other held).2.2 (Or.inr ?_)
        rintro rfl
        exact wired.free thread phase process key other stepped.before owned held
      · intro index found other named locks
        refine SessionLocks.unlock_kept (confirming.locked index found other named locks) (Or.inr ?_)
        rintro rfl
        rcases stepped.cases named with ⟨rfl, rfl⟩ | ⟨different, kept⟩
        · cases locks
        · exact wired.apart index thread found phase other kept stepped.before different
            (Step.locked_owned locks) owned

/-- The step of a job, where a condition keeps it from losing what it has in hand. -/
theorem Inv.effect (inv : Inv hashKey past state phases) {lossless : Prop} {oracle : op.Answer}
    (present : phases[thread]? = some phase) (permitted : Permitted hashKey phase.job phase.step op)
    (proper : Proper past ((slotSystem hashKey).performed thread phase.job op oracle state))
    (unshared : lossless → ∀ conn, phase.step = .leaving conn (.ok false) →
      state.held phase.job.process phase.job.key = none)
    (calm : lossless → ∀ conn, phase.step.locked = some conn → op.raises oracle = false) :
    Effect hashKey lossless phase.job state phase.step (op.perform phase.job oracle state).2
      (phase.step.after op (op.perform phase.job oracle state).1) := by
  refine performed_effect oracle permitted (inv.wired.ready present) ?_ ?_ unshared calm
  · rintro rfl
    exact proper
  · rintro conn error step rfl
    exact proper (inv.twice thread phase conn present (by rw [step]; rfl))

theorem Inv.unstored {conn : Conn} (inv : Inv hashKey past state phases)
    (present : phases[thread]? = some phase) (locks : phase.step.locked = some conn) :
    state.held phase.job.process phase.job.key = none := by
  cases held : state.held phase.job.process phase.job.key with
  | none => rfl
  | some other =>
      have owner := inv.wired.locked thread phase conn present locks
      have same := (inv.wired.kept _ _ other held).2.2
      rw [owner] at same
      cases same
      exact absurd held (inv.wired.free thread phase _ _ conn present (Step.locked_owned locks))

theorem Inv.tasks_after (inv : Inv hashKey past state phases) {later : List Phase}
    {next : State} {after : Step} {lossless : Prop}
    (stepped : Stepped phases later thread phase after) (running : phase.step.ended = false)
    (fits : after.fits phase.job.acquires)
    (effect : Effect hashKey lossless phase.job state phase.step next after) :
    Tasks next later := by
  have tasks := inv.tasks
  generalize now : phase.step = step at effect
  cases effect with
  | silent owned locked stored waits starts plain =>
      exact tasks.steady stepped running fits rfl rfl (by rw [now, stored]) (by rw [now, starts, waits])
  | take process fresh =>
      exact tasks.steady stepped running fits rfl rfl (by rw [now]; rfl) (by rw [now]; rfl)
  | lock =>
      exact tasks.steady stepped running fits rfl rfl (by rw [now]; rfl) (by rw [now]; rfl)
  | @store conn =>
      refine tasks.store stepped now ?_
      intro other held
      have locks : phase.step.locked = some conn := by rw [now]; rfl
      rw [inv.unstored stepped.before locks] at held
      cases held
  | put owned unlocked waits unstored left starts lost plain =>
      exact tasks.steady stepped running fits rfl rfl (by rw [now, unstored, lost])
        (by rw [now, starts, waits])
  | pop found => exact tasks.pop stepped now
  | popNone missing =>
      exact absurd missing (inv.tasks.entry stepped.before now)
  | unlock =>
      exact tasks.steady stepped running fits rfl rfl (by rw [now]; rfl) (by rw [now]; rfl)

end Runs

section Launches

variable {hashKey : String → Int} {state next : State} {phases later : List Phase}
  {index : Nat} {context after : Context}

theorem opening_owned (job : Job) : job.opening.owned = none := by
  unfold Job.opening
  split <;> rfl

theorem opening_fits (job : Job) : job.opening.fits job.acquires := by
  unfold Job.opening
  split
  · next acquires => exact acquires
  · next releases =>
      have released : job.acquires = false := by simpa using releases
      exact released

/-- Tasks move and jobs start without touching a connection. -/
theorem Wired.launched (wired : Wired hashKey state phases) (used : next.used = state.used)
    (held : next.held = state.held) (locks : next.locks = state.locks)
    (fresh : ∀ (thread : Nat) phase, later[thread]? = some phase →
      phases[thread]? = some phase ∨ phase.step = phase.job.opening) :
    Wired hashKey next later := by
  have owns : ∀ (thread : Nat) phase conn, later[thread]? = some phase →
      phase.step.owned = some conn → phases[thread]? = some phase := by
    intro thread phase conn named owned
    rcases fresh thread phase named with old | opening
    · exact old
    · rw [opening, opening_owned] at owned
      cases owned
  refine ⟨used ▸ wired.unique, ?_, ?_, ?_, ?_, ?_, ?_, ?_, ?_⟩
  · intro thread phase conn named owned
    rw [used]
    exact wired.taken thread phase conn (owns thread phase conn named owned) owned
  · rw [used, held, locks]
    exact wired.kept
  · intro thread other phase second conn named named' different owned owned'
    exact wired.apart thread other phase second conn (owns thread phase conn named owned)
      (owns other second conn named' owned') different owned owned'
  · rw [held]
    exact wired.single
  · intro thread phase process key conn named owned
    rw [held]
    exact wired.free thread phase process key conn (owns thread phase conn named owned) owned
  · intro thread phase conn named locked
    rw [locks]
    exact wired.locked thread phase conn
      (owns thread phase conn named (Step.locked_owned locked)) locked
  · intro thread phase conn named step
    rw [held]
    rcases fresh thread phase named with old | opening
    · exact wired.stored thread phase conn old step
    · rw [opening] at step
      unfold Job.opening at step
      split at step <;> cases step
  · intro thread phase named
    rcases fresh thread phase named with old | opening
    · exact wired.sane thread phase old
    · left
      rw [opening]
      unfold Job.opening
      split <;> rfl

structure Fits (phases later : List Phase) (context after : Context) : Prop where
  process : after.process = context.process
  key : after.key = context.key
  keeps : ∀ (thread : Nat) phase, phases[thread]? = some phase → later[thread]? = some phase
  fresh : ∀ (thread : Nat) phase, later[thread]? = some phase →
    phases[thread]? = some phase ∨
      (phases[thread]? = none ∧ after.status.awaits = some thread ∧ phase.step = phase.job.opening)
  awaits : ∀ thread, after.status.awaits = some thread →
    (context.status.awaits = some thread ∧ after.awaitedJob = context.awaitedJob) ∨
      (phases[thread]? = none ∧ ∃ phase, later[thread]? = some phase ∧
        after.awaitedJob = some phase.job)
  holds : ∀ slot, after.holds later = some slot → context.holds phases = some slot
  served : ∀ (thread : Nat) phase, context.status.awaits = some thread →
    phases[thread]? = some phase → phase.step.ended = false →
    after.status.awaits = some thread

theorem Tasks.holds_kept (tasks : Tasks state phases)
    (keeps : ∀ (thread : Nat) phase, phases[thread]? = some phase → later[thread]? = some phase)
    {other : Nat} {second : Context} (present : state.contexts[other]? = some second) :
    second.holds later = second.holds phases := by
  have known : ∀ thread, second.status.awaits = some thread →
      ∃ phase, phases[thread]? = some phase ∧ later[thread]? = some phase := by
    intro thread awaits
    obtain ⟨phase, named, _⟩ := tasks.waits other second thread present awaits
    exact ⟨phase, named, keeps thread phase named⟩
  apply holds_congr
  · intro thread awaits
    obtain ⟨phase, named, named'⟩ := known thread awaits
    rw [named, named']
  · intro thread awaits
    obtain ⟨phase, named, named'⟩ := known thread awaits
    rw [named, named']

theorem Fits.slot (fits : Fits phases later context after) (index : Nat) :
    after.slot index = context.slot index := by
  simp only [Context.slot, fits.key]

theorem Tasks.moved (tasks : Tasks state phases) (found : state.contexts[index]? = some context)
    (fits : Fits phases later context after) : Tasks (state.put index after) later := by
  have inside := (List.getElem?_eq_some_iff.mp found).1
  have self : (state.contexts.set index after)[index]? = some after := by
    rw [List.getElem?_set_self inside]
  have cases : ∀ (other : Nat) second, (state.contexts.set index after)[other]? = some second →
      (other = index ∧ second = after) ∨ (other ≠ index ∧ state.contexts[other]? = some second) := by
    intro other second present
    by_cases same : other = index
    · subst same
      rw [self] at present
      cases present
      exact Or.inl ⟨rfl, rfl⟩
    · rw [List.getElem?_set_ne (Ne.symm same)] at present
      exact Or.inr ⟨same, present⟩
  have others : ∀ (other : Nat) second, state.contexts[other]? = some second →
      second.holds later = second.holds phases := fun _ _ present =>
    tasks.holds_kept fits.keeps present
  refine ⟨?_, ?_, ?_, ?_, ?_, ?_⟩
  · intro other second thread present awaits
    rcases cases other second present with ⟨rfl, rfl⟩ | ⟨_, old⟩
    · rcases fits.awaits thread awaits with ⟨before, job⟩ | ⟨_, phase, named, job⟩
      · obtain ⟨phase, named, awaited⟩ := tasks.waits other context thread found before
        exact ⟨phase, fits.keeps thread phase named, job.trans awaited⟩
      · exact ⟨phase, named, job⟩
    · obtain ⟨phase, named, job⟩ := tasks.waits other second thread old awaits
      exact ⟨phase, fits.keeps thread phase named, job⟩
  · intro one two first second thread present present' awaits awaits'
    have stranger : ∀ (other : Nat) (third : Context), state.contexts[other]? = some third →
        third.status.awaits = some thread → other ≠ index →
        after.status.awaits ≠ some thread := by
      intro other third old before different own
      rcases fits.awaits thread own with ⟨mine, _⟩ | ⟨missing, _⟩
      · exact different (tasks.sole other index third context thread old found before mine)
      · obtain ⟨phase, named, _⟩ := tasks.waits other third thread old before
        rw [missing] at named
        cases named
    rcases cases one first present with ⟨rfl, rfl⟩ | ⟨different, old⟩
    · rcases cases two second present' with ⟨rfl, rfl⟩ | ⟨different', old'⟩
      · rfl
      · exact absurd awaits (stranger two second old' awaits' different')
    · rcases cases two second present' with ⟨rfl, rfl⟩ | ⟨different', old'⟩
      · exact absurd awaits' (stranger one first old awaits different)
      · exact tasks.sole one two first second thread old old' awaits awaits'
  · intro thread phase named running
    rcases fits.fresh thread phase named with old | ⟨_, awaits, _⟩
    · obtain ⟨other, second, present, awaits⟩ := tasks.served thread phase old running
      by_cases same : other = index
      · subst same
        rw [found] at present
        cases present
        exact ⟨other, after, self, fits.served thread phase awaits old running⟩
      · refine ⟨other, second, ?_, awaits⟩
        show (state.contexts.set index after)[other]? = some second
        rw [List.getElem?_set_ne (Ne.symm same)]
        exact present
    · exact ⟨index, after, self, awaits⟩
  · intro thread phase named
    rcases fits.fresh thread phase named with old | ⟨_, _, opening⟩
    · exact tasks.fits thread phase old
    · rw [opening]
      exact opening_fits phase.job
  · intro other second slot present holds
    rcases cases other second present with ⟨rfl, rfl⟩ | ⟨_, old⟩
    · obtain ⟨conn, held⟩ := tasks.holding other context slot found (fits.holds slot holds)
      exact ⟨conn, by rw [fits.process, fits.slot]; exact held⟩
    · rw [others other second old] at holds
      exact tasks.holding other second slot old holds
  · intro one two first second slot slot' present present' holds holds' sameProcess sameSlot
    rcases cases one first present with ⟨rfl, rfl⟩ | ⟨different, old⟩
    · rcases cases two second present' with ⟨rfl, rfl⟩ | ⟨different', old'⟩
      · rfl
      · rw [others two second old'] at holds'
        rw [fits.process] at sameProcess
        rw [fits.slot] at sameSlot
        exact tasks.alone one two context second slot slot' found old' (fits.holds slot holds)
          holds' sameProcess sameSlot
    · rw [others one first old] at holds
      rcases cases two second present' with ⟨rfl, rfl⟩ | ⟨different', old'⟩
      · rw [fits.process] at sameProcess
        rw [fits.slot] at sameSlot
        exact tasks.alone one two first context slot slot' old found holds
          (fits.holds slot' holds') sameProcess sameSlot
      · rw [others two second old'] at holds'
        exact tasks.alone one two first second slot slot' old old' holds holds' sameProcess sameSlot

/-- A move to a status that awaits nothing and is in charge of nothing new. -/
theorem Fits.still (process : after.process = context.process) (key : after.key = context.key)
    (awaits : after.status.awaits = none)
    (holds : ∀ slot, after.holds phases = some slot → context.holds phases = some slot)
    (done : ∀ (thread : Nat) phase, context.status.awaits = some thread →
      phases[thread]? = some phase → phase.step.ended = true) :
    Fits phases phases context after where
  process := process
  key := key
  keeps _ _ named := named
  fresh _ _ named := Or.inl named
  awaits thread own := by
    rw [awaits] at own
    cases own
  holds := holds
  served thread phase own named running := by
    rw [done thread phase own named] at running
    cases running

theorem Fits.idle {status : Status} (waits : context.status.awaits = none)
    (awaits : status.awaits = none)
    (holds : Context.holds phases { context with status := status } = none) :
    Fits phases phases context { context with status := status } := by
  refine Fits.still rfl rfl awaits (fun slot held => ?_) fun thread phase own => ?_
  · rw [holds] at held
    cases held
  · rw [waits] at own
    cases own

/-- A cancellation that leaves the executor thread at work. -/
theorem Fits.flag : Fits phases phases context { context with cancelled := true } where
  process := rfl
  key := rfl
  keeps _ _ named := named
  fresh _ _ named := Or.inl named
  awaits _ own := Or.inl ⟨own, rfl⟩
  holds _ holds := holds
  served _ _ own _ _ := own

def Job.awaiting (job : Job) (slot thread : Nat) : Status :=
  if job.acquires then .acquiring slot thread else .releasing slot thread

theorem Fits.start {job : Job} {slot : Nat} {config : SlotConfig}
    (length : phases.length = config.threads.length)
    (idle : context.status.awaits = none)
    (status : after = { context with status := job.awaiting slot config.threads.length })
    (slots : job = ⟨context.process, context.slot slot, job.acquires⟩)
    (charge : job.acquires = false → context.holds phases = some slot) :
    Fits phases (phases ++ [⟨job, job.opening⟩]) context after := by
  have missing : phases[config.threads.length]? = none := by
    rw [List.getElem?_eq_none_iff, length]
  have self : (phases ++ [⟨job, job.opening⟩])[config.threads.length]? =
      some ⟨job, job.opening⟩ := by
    rw [← length]
    simp
  have awaits : after.status.awaits = some config.threads.length := by
    rw [status]
    unfold Job.awaiting
    cases job.acquires <;> rfl
  have awaited : after.awaitedJob = some job := by
    rw [slots, status]
    unfold Job.awaiting
    cases job.acquires <;> rfl
  refine ⟨by rw [status], by rw [status], ?_, ?_, ?_, ?_, ?_⟩
  · intro thread phase named
    rw [List.getElem?_append_left (List.getElem?_eq_some_iff.mp named).1]
    exact named
  · intro thread phase named
    by_cases old : thread < phases.length
    · rw [List.getElem?_append_left old] at named
      exact Or.inl named
    · have inside := (List.getElem?_eq_some_iff.mp named).1
      simp only [List.length_append, List.length_singleton] at inside
      have last : thread = config.threads.length := by omega
      rw [last, self] at named
      cases named
      exact Or.inr ⟨last ▸ missing, last ▸ awaits, rfl⟩
  · intro thread own
    rw [awaits] at own
    cases own
    exact Or.inr ⟨missing, _, self, awaited⟩
  · intro held holds
    cases acquires : job.acquires with
    | true =>
        have acquiring : after.status = .acquiring slot config.threads.length := by
          rw [status]
          simp [Job.awaiting, acquires]
        rw [holds_acquiring acquiring self] at holds
        simp [Job.opening, acquires, Step.stored] at holds
    | false =>
        have releasing : after.status = .releasing slot config.threads.length := by
          rw [status]
          simp [Job.awaiting, acquires]
        rw [holds_releasing releasing self] at holds
        simp only [Job.opening, acquires, Bool.false_eq_true, if_false, Step.pops, if_true,
          Option.some.injEq] at holds
        rw [← holds]
        exact charge acquires
  · intro thread phase own
    rw [idle] at own
    cases own

theorem ended_step {config : SlotConfig} {thread : Nat} {job : Job} {outcome : Except Exc Bool}
    (tracked : (discipline hashKey).Tracked config phases)
    (ended : config.threads[thread]? = some ⟨job, .ret outcome⟩) :
    phases[thread]? = some ⟨job, .done outcome⟩ := by
  obtain ⟨phase, named, belongs, follows⟩ := tracked.phase ended
  have same : phase = ⟨job, .done outcome⟩ := by
    cases phase with
    | mk own step =>
        rw [show own = job from belongs, show step = .done outcome from follows]
  rw [named, same]

theorem next_holds {slot : Nat} :
    Context.holds phases { context with status := context.next slot } = none := by
  unfold Context.next
  split <;> rfl

/-- A task that goes on keeps its charge exactly where its attempt has succeeded. -/
theorem resume_fits {thread : Nat} {outcome : Except Exc Bool} {job : Job}
    (awaits : context.status.awaits = some thread)
    (named : phases[thread]? = some ⟨job, .done outcome⟩)
    (resumes : context.resume outcome = some after) : Fits phases phases context after := by
  have done : ∀ (other : Nat) phase, context.status.awaits = some other →
      phases[other]? = some phase → phase.step.ended = true := by
    intro other phase own found
    rw [awaits] at own
    cases own
    rw [named] at found
    cases found
    rfl
  unfold Context.resume at resumes
  split at resumes
  · cases resumes
  · split at resumes
    · next slot own status =>
        rw [status] at awaits
        cases awaits
        split at resumes
        · next acquired =>
            cases resumes
            refine Fits.still rfl rfl rfl ?_ done
            intro held holds
            cases holds
            have success : outcome = .ok true := by
              cases outcome with
              | error error => cases acquired
              | ok value => rw [show value = true from acquired]
            rw [holds_acquiring status named, success]
            rfl
        · cases resumes
          refine Fits.still rfl rfl ?_ ?_ done
          · simp only [Context.next]
            split <;> rfl
          · intro held holds
            rw [next_holds] at holds
            cases holds
    · cases resumes
      refine Fits.still rfl rfl rfl ?_ done
      intro held holds
      cases holds
    · cases resumes

theorem cancel_fits (cancels : context.cancel = some after) : Fits phases phases context after := by
  unfold Context.cancel at cancels
  split at cancels
  · cases cancels
  · split at cancels
    · next status =>
        cases cancels
        exact Fits.idle (by rw [status]; rfl) rfl rfl
    · next slot status =>
        cases cancels
        exact Fits.idle (by rw [status]; rfl) rfl rfl
    · cases cancels
      exact Fits.flag
    · next status =>
        cases cancels
        exact Fits.idle (by rw [status]; rfl) rfl rfl
    · next slot status =>
        cases cancels
        refine Fits.still rfl rfl rfl ?_ fun _ _ own => by rw [status] at own; cases own
        intro held holds
        cases holds
        simp [Context.holds, status]
    · next status =>
        cases cancels
        exact Fits.idle (by rw [status]; rfl) rfl rfl
    · next slot status =>
        cases cancels
        exact Fits.idle (by rw [status]; rfl) rfl rfl
    · cases cancels
      exact Fits.flag
    · cases cancels

theorem moves_fits {config : SlotConfig} {entry : Entry} {spawned : Option SlotThread}
    (tracked : (discipline hashKey).Tracked config phases)
    (about : entry.context = some index) (found : config.state.contexts[index]? = some context)
    (moves : Moves hashKey config entry context after spawned) :
    Fits phases ((discipline hashKey).observe phases
      (.launched entry (System.spawnedThread config spawned) config.state next)) context after := by
  cases moves with
  | loop own _ status =>
      exact Fits.idle (by rw [status]; rfl) rfl rfl
  | timeUp own _ status =>
      exact Fits.idle (by rw [status]; rfl) rfl rfl
  | startAcquire own slot _ status =>
      cases about
      have started : (Entry.start index).phase config.state =
          some ⟨⟨context.process, context.slot slot, true⟩, .checking⟩ := by
        simp [Entry.phase, found, Context.queuedJob, status, Job.opening]
      have observed : (discipline hashKey).observe phases (.launched (.start index)
          (some (config.threads.length, ⟨context.process, context.slot slot, true⟩))
          config.state next) =
            phases ++ [⟨⟨context.process, context.slot slot, true⟩, .checking⟩] := by
        simp only [Discipline.observe]
        rw [show (discipline hashKey).start (.start index) config.state = _ from started]
        rfl
      rw [show System.spawnedThread config _ = some _ from rfl, observed]
      exact Fits.start tracked.length (by rw [status]; rfl) rfl rfl fun releases => by cases releases
  | startRelease own slot _ status =>
      cases about
      have started : (Entry.start index).phase config.state =
          some ⟨⟨context.process, context.slot slot, false⟩, .popping⟩ := by
        simp [Entry.phase, found, Context.queuedJob, status, Job.opening]
      have observed : (discipline hashKey).observe phases (.launched (.start index)
          (some (config.threads.length, ⟨context.process, context.slot slot, false⟩))
          config.state next) =
            phases ++ [⟨⟨context.process, context.slot slot, false⟩, .popping⟩] := by
        simp only [Discipline.observe]
        rw [show (discipline hashKey).start (.start index) config.state = _ from started]
        rfl
      rw [show System.spawnedThread config _ = some _ from rfl, observed]
      exact Fits.start tracked.length (by rw [status]; rfl) rfl rfl
        fun _ => by simp [Context.holds, status]
  | resume own _ _ awaits ended resumes =>
      exact resume_fits awaits (ended_step tracked ended) resumes
  | wake own _ status =>
      exact Fits.idle (by rw [status]; rfl) rfl rfl
  | exitGranted own slot _ status =>
      refine Fits.still rfl rfl rfl ?_ fun _ _ awaits => by rw [status] at awaits; cases awaits
      intro held holds
      cases holds
      simp [Context.holds, status]
  | exitRefused own _ status =>
      exact Fits.idle (by rw [status]; rfl) rfl rfl
  | cancel own _ _ cancels => exact cancel_fits cancels

/-- A context that has just been entered awaits nothing and has no slot. -/
theorem Tasks.entered (tasks : Tasks state phases) (process : Process) (key : String)
    (limit : Int) : Tasks { state with
      contexts := state.contexts ++ [⟨process, key, limit, opened limit, false⟩] } phases := by
  have cases : ∀ (other : Nat) second,
      (state.contexts ++ [⟨process, key, limit, opened limit, false⟩])[other]? = some second →
        state.contexts[other]? = some second ∨
          (second.status.awaits = none ∧ second.holds phases = none) := by
    intro other second present
    by_cases old : other < state.contexts.length
    · rw [List.getElem?_append_left old] at present
      exact Or.inl present
    · right
      rw [List.getElem?_append_right (Nat.le_of_not_lt old)] at present
      have member := List.mem_of_getElem? present
      rw [List.mem_singleton.mp member]
      unfold opened
      split <;> exact ⟨rfl, rfl⟩
  refine ⟨?_, ?_, ?_, tasks.fits, ?_, ?_⟩
  · intro other second thread present awaits
    rcases cases other second present with old | ⟨none, _⟩
    · exact tasks.waits other second thread old awaits
    · rw [none] at awaits
      cases awaits
  · intro one two first second thread present present' awaits awaits'
    rcases cases one first present with old | ⟨none, _⟩
    · rcases cases two second present' with old' | ⟨none, _⟩
      · exact tasks.sole one two first second thread old old' awaits awaits'
      · rw [none] at awaits'
        cases awaits'
    · rw [none] at awaits
      cases awaits
  · intro thread phase named running
    obtain ⟨other, second, present, awaits⟩ := tasks.served thread phase named running
    refine ⟨other, second, ?_, awaits⟩
    show (state.contexts ++ _)[other]? = some second
    rw [List.getElem?_append_left (List.getElem?_eq_some_iff.mp present).1]
    exact present
  · intro other second slot present holds
    rcases cases other second present with old | ⟨_, none⟩
    · exact tasks.holding other second slot old holds
    · rw [none] at holds
      cases holds
  · intro one two first second slot slot' present present' holds holds'
    rcases cases one first present with old | ⟨_, none⟩
    · rcases cases two second present' with old' | ⟨_, none⟩
      · exact tasks.alone one two first second slot slot' old old' holds holds'
      · rw [none] at holds'
        cases holds'
    · rw [none] at holds
      cases holds

end Launches

theorem inv_initial (hashKey : String → Int) : Inv hashKey [] State.initial [] where
  wired := by
    refine ⟨List.nodup_nil, ?_, ?_, ?_, ?_, ?_, ?_, ?_, ?_⟩ <;> intros <;> rename_i found <;>
      simp_all [State.initial]
  tasks := by
    refine ⟨?_, ?_, ?_, ?_, ?_, ?_⟩ <;> intros <;> simp_all [State.initial]
  twice _ _ _ found := by cases found

theorem inv_inductive (hashKey : String → Int) :
    (discipline hashKey).Inductive Proper (Inv hashKey) where
  acts past state phases thread tag op oracle phase inv present belongs permitted proper := by
    rw [← show phase.job = tag from belongs] at proper ⊢
    have stepped : Stepped phases ((discipline hashKey).observe phases
        ((slotSystem hashKey).performed thread phase.job op oracle state)) thread phase
        (phase.step.after op (op.perform phase.job oracle state).1) :=
      ⟨present, Discipline.performed_self present, fun _ other => Discipline.performed_other other⟩
    have effect := @Inv.effect _ _ _ _ _ _ _ inv False _ present permitted proper
      (fun whole => whole.elim) fun whole => whole.elim
    refine ⟨inv.wired_after stepped effect, inv.tasks_after stepped (permitted_running permitted)
      (permitted_fits permitted (inv.tasks.fits thread phase present)) effect, ?_⟩
    intro index found conn named raised
    rw [List.any_append, Bool.or_eq_true]
    rcases stepped.cases named with ⟨rfl, rfl⟩ | ⟨_, kept⟩
    · rcases permitted_raised permitted raised with before | ⟨own, rfl⟩
      · exact Or.inl (inv.twice index phase conn present before)
      · right
        simp [System.performed, givesBack]
    · exact Or.inl (inv.twice index found conn kept raised)
  launches past config phases entry state spawned tracked inv launched _ := by
    have fresh : ∀ (thread : Nat) phase, ((discipline hashKey).observe phases
        (.launched entry (System.spawnedThread config spawned) config.state state))[thread]? =
          some phase → phases[thread]? = some phase ∨ phase.step = phase.job.opening := by
      intro thread phase named
      rcases Discipline.launched_phase named with old | ⟨_, _, started⟩
      · exact Or.inl old
      · right
        cases entry with
        | start index =>
            obtain ⟨job, _, same⟩ := Option.map_eq_some_iff.mp started
            rw [← same]
        | _ => cases started
    refine ⟨?_, ?_, ?_⟩
    · rcases launch_cases launched with ⟨_, _, _, _, _, rfl⟩ | ⟨index, context, after, _, _, _, rfl⟩
      · exact inv.wired.launched rfl rfl rfl fresh
      · exact inv.wired.launched rfl rfl rfl fresh
    · rcases launch_cases launched with
        ⟨process, key, limit, rfl, rfl, rfl⟩ | ⟨index, context, after, about, found, moves, rfl⟩
      · exact inv.tasks.entered process key limit
      · exact inv.tasks.moved found (moves_fits tracked about found moves)
    · intro thread phase conn named raised
      rw [List.any_append, Bool.or_eq_true]
      rcases fresh thread phase named with old | opening
      · exact Or.inl (inv.twice thread phase conn old raised)
      · rw [opening] at raised
        unfold Job.opening at raised
        split at raised <;> cases raised

end AgentTaskPlatform.Coordination
