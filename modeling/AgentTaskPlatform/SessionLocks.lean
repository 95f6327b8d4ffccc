import Mathlib.Logic.Function.Basic

/-!
Advisory locks that sessions own. A session takes a lock that is free or its own, each
time deeper, and gives it up one level at a time; a session leaves the locks of the
others alone.
-/

namespace AgentTaskPlatform.SessionLocks

/-- The owner of a lock, and how often it holds it beyond once. -/
abbrev Entry (Session : Type) := Option (Session × Nat)

abbrev Locks (Lock Session : Type) := Lock → Entry Session

namespace Entry

variable {Session : Type} [DecidableEq Session]

def available (session : Session) : Entry Session → Bool
  | none => true
  | some (owner, _) => owner = session

def taken (session : Session) : Entry Session → Entry Session
  | none => some (session, 0)
  | some (owner, extra) => if owner = session then some (owner, extra + 1) else some (owner, extra)

def given (session : Session) : Entry Session → Entry Session
  | none => none
  | some (owner, 0) => if owner = session then none else some (owner, 0)
  | some (owner, extra + 1) =>
      if owner = session then some (owner, extra) else some (owner, extra + 1)

end Entry

section Sessions

variable {Lock Session : Type}

def free : Locks Lock Session := fun _ => none

def owner (locks : Locks Lock Session) (lock : Lock) : Option Session :=
  (locks lock).map Prod.fst

variable [DecidableEq Lock] [DecidableEq Session]

def tryLock (locks : Locks Lock Session) (session : Session) (lock : Lock) :
    Locks Lock Session :=
  fun name => if name = lock then Entry.taken session (locks lock) else locks name

def unlock (locks : Locks Lock Session) (session : Session) (lock : Lock) :
    Locks Lock Session :=
  fun name => if name = lock then Entry.given session (locks lock) else locks name

variable {locks : Locks Lock Session} {session other : Session} {lock name : Lock}

theorem tryLock_owner (free : Entry.available session (locks lock) = true) :
    owner (tryLock locks session lock) lock = some session := by
  cases held : locks lock with
  | none => simp [owner, tryLock, held, Entry.taken]
  | some pair =>
      have own : pair.1 = session := by simpa [held, Entry.available] using free
      simp [owner, tryLock, held, Entry.taken, own]

theorem tryLock_other (different : name ≠ lock) :
    tryLock locks session lock name = locks name := by
  simp [tryLock, different]

theorem tryLock_kept (owned : owner locks name = some other) :
    owner (tryLock locks session lock) name = some other := by
  by_cases same : name = lock
  · subst same
    cases held : locks name with
    | none => simp [owner, held] at owned
    | some pair =>
        have own : pair.1 = other := by simpa [owner, held] using owned
        simp only [owner, tryLock, held, Entry.taken, if_true]
        split <;> simp [own]
  · unfold owner
    rw [tryLock_other same]
    exact owned

theorem unlock_other (different : name ≠ lock) :
    unlock locks session lock name = locks name := by
  simp [unlock, different]

theorem unlock_kept (owned : owner locks name = some other)
    (different : name ≠ lock ∨ other ≠ session) :
    owner (unlock locks session lock) name = some other := by
  by_cases same : name = lock
  · subst same
    have foreign : other ≠ session := by
      rcases different with wrong | foreign
      · exact absurd rfl wrong
      · exact foreign
    cases held : locks name with
    | none => simp [owner, held] at owned
    | some pair =>
        obtain ⟨holder, extra⟩ := pair
        have own : holder = other := by simpa [owner, held] using owned
        subst own
        cases extra <;> simp [owner, unlock, held, Entry.given, foreign]
  · unfold owner
    rw [unlock_other same]
    exact owned

end Sessions

end AgentTaskPlatform.SessionLocks
