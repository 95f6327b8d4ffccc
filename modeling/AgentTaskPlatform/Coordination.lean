import AgentTaskPlatform.Domain
import AgentTaskPlatform.SessionLocks
import AgentTaskPlatform.Tracking
import Mathlib.Algebra.GroupWithZero.Nat
import Mathlib.Data.Int.Order.Basic

/-!
Cluster-wide slots over the advisory locks of PostgreSQL. `coordination_limited_slot`
tries the slots of a limit one after another; every attempt and every release is a
blocking call that an executor thread of the process runs, while the task that awaits
it may be cancelled. The backend of a process keeps the connection of every slot it
holds in a dictionary.
-/

namespace AgentTaskPlatform.Coordination

open Interleaving

/-- A connection of a process's pool, and so one database session. -/
structure Conn where
  process : Process
  number : Nat
  deriving DecidableEq, Repr

inductive Status where
  /-- At the head of the `while`. -/
  | looping
  /-- Awaits the attempt at a slot, which no executor thread has started. -/
  | queued (index : Nat)
  | acquiring (index thread : Nat)
  | sleeping
  /-- In the guarded body, with a slot. -/
  | granted (index : Nat)
  /-- In the guarded body, without one. -/
  | refused
  /-- Awaits the release of its slot, which no executor thread has started. -/
  | unlocking (index : Nat)
  | releasing (index thread : Nat)
  | closed
  deriving DecidableEq, Repr

structure Context where
  process : Process
  key : String
  limit : Int
  status : Status
  /-- The task was cancelled while an executor thread worked for it. -/
  cancelled : Bool := false
  deriving DecidableEq, Repr

def slotKey (key : String) (index : Nat) : String := key ++ ":slot:" ++ toString index

def Context.slot (context : Context) (index : Nat) : String := slotKey context.key index

structure State where
  /-- `_held_connections` of each process. -/
  held : Process → String → Option Conn
  /-- The connections that the pools have handed out. -/
  used : List Conn
  locks : SessionLocks.Locks Int Conn
  contexts : List Context

def State.initial : State := ⟨fun _ _ => none, [], SessionLocks.free, []⟩

/-- Steps of the blocking calls. An `error` is an exception; one of `cursor`, `tryLock`
or `unlock` comes before the server has seen the statement, one of `fetchone` after. -/
inductive Op where
  /-- `key in self._held_connections`, before a connection is taken. -/
  | known (key : String)
  | getconn
  | cursor (conn : Conn)
  | tryLock (conn : Conn) (lockKey : Int)
  | fetchone (conn : Conn)
  | store (key : String) (conn : Conn)
  /-- `key not in self._held_connections`, in the `finally`. -/
  | missing (key : String)
  | putconn (conn : Conn)
  | pop (key : String)
  | unlock (conn : Conn) (lockKey : Int)
  | commit (conn : Conn)

abbrev Op.Answer : Op → Type
  | .known _ => Bool
  | .getconn => Except Exc Conn
  | .cursor _ => Except Exc Unit
  | .tryLock _ _ => Except Exc Bool
  | .fetchone _ => Except Exc Unit
  | .store _ _ => Unit
  | .missing _ => Bool
  | .putconn _ => Except Exc Unit
  | .pop _ => Option Conn
  | .unlock _ _ => Except Exc Unit
  | .commit _ => Except Exc Unit

abbrev backend : Interface := { Op := Op, Answer := Op.Answer }

def poolError (message : String) : Exc := ⟨.exception, "PoolError", message⟩

structure Job where
  process : Process
  key : String
  acquires : Bool
  deriving DecidableEq, Repr

def setHeld (held : Process → String → Option Conn) (process : Process) (key : String)
    (conn : Option Conn) : Process → String → Option Conn :=
  fun other name => if other = process ∧ name = key then conn else held other name

def Op.perform (job : Job) : (op : Op) → op.Answer → State → op.Answer × State
  | .known key, _, state => ((state.held job.process key).isSome, state)
  -- The pool never hands out a connection that is in use.
  | .getconn, .ok conn, state =>
      if conn.process = job.process ∧ conn ∉ state.used then
        (.ok conn, { state with used := conn :: state.used })
      else (.error (poolError "connection pool exhausted"), state)
  | .getconn, .error error, state => (.error error, state)
  | .cursor _, answer, state => (answer, state)
  | .tryLock conn lockKey, .ok _, state =>
      (.ok (SessionLocks.Entry.available conn (state.locks lockKey)),
        { state with locks := SessionLocks.tryLock state.locks conn lockKey })
  | .tryLock _ _, .error error, state => (.error error, state)
  | .fetchone _, answer, state => (answer, state)
  | .store key conn, _, state =>
      ((), { state with held := setHeld state.held job.process key (some conn) })
  | .missing key, _, state => ((state.held job.process key).isNone, state)
  | .putconn conn, _, state =>
      if conn ∈ state.used then (.ok (), { state with used := state.used.erase conn })
      else (.error (poolError "trying to put unkeyed connection"), state)
  | .pop key, _, state =>
      (state.held job.process key,
        { state with held := setHeld state.held job.process key none })
  | .unlock conn lockKey, .ok _, state =>
      (.ok (), { state with locks := SessionLocks.unlock state.locks conn lockKey })
  | .unlock _ _, .error error, state => (.error error, state)
  | .commit _, answer, state => (answer, state)

abbrev Blocking (α : Type) : Type := Fallible backend Exc α

def perform (op : Op) : Blocking op.Answer := (Fallible.call op : Fallible backend Exc _)

def cursor (conn : Conn) : Blocking Unit := perform (.cursor conn) >>= Fallible.ofExcept

def getconn : Blocking Conn := perform .getconn >>= Fallible.ofExcept

def executeTryLock (conn : Conn) (lockKey : Int) : Blocking Bool :=
  perform (.tryLock conn lockKey) >>= Fallible.ofExcept

def fetchone (conn : Conn) : Blocking Unit := perform (.fetchone conn) >>= Fallible.ofExcept

def putconn (conn : Conn) : Blocking Unit := perform (.putconn conn) >>= Fallible.ofExcept

def executeUnlock (conn : Conn) (lockKey : Int) : Blocking Unit :=
  perform (.unlock conn lockKey) >>= Fallible.ofExcept

def commit (conn : Conn) : Blocking Unit := perform (.commit conn) >>= Fallible.ofExcept

/-- The `try` of `_blocking_acquire`. With the timeout 0.0 of `try_acquire` the deadline
has passed at the first refusal. -/
def lockOnce (key : String) (lockKey : Int) (conn : Conn) : Blocking Bool := do
  cursor conn
  let acquired ← executeTryLock conn lockKey
  fetchone conn
  if acquired then
    let _ ← perform (.store key conn)
    return true
  else return false

def returnRaised (conn : Conn) : Except Exc Bool → Blocking Bool
  | .ok acquired => return acquired
  | .error error => do
      putconn conn
      Fallible.raise error

def returnMissing (key : String) (conn : Conn) : Blocking Unit := do
  if ← perform (.missing key) then putconn conn else return ()

def blockingAcquire (key : String) (lockKey : Int) : Blocking Bool := do
  if ← perform (.known key) then return true
  else
    let conn ← getconn
    Fallible.finallyDo
      (Fallible.attempt (lockOnce key lockKey conn) >>= returnRaised conn)
      (returnMissing key conn)

/-- The `try` of `_blocking_release`, whose answer nobody uses. -/
def unlockOnce (lockKey : Int) (conn : Conn) : Blocking Bool := do
  cursor conn
  executeUnlock conn lockKey
  fetchone conn
  commit conn
  return false

def blockingRelease (key : String) (lockKey : Int) : Blocking Bool := do
  match ← perform (.pop key) with
  | none => return false
  | some conn => Fallible.finallyDo (unlockOnce lockKey conn) (putconn conn)

def tryAcquired : Except Exc Bool → Bool
  | .ok acquired => acquired
  | .error _ => false

inductive Entry where
  | enter (process : Process) (key : String) (limit : Int)
  /-- The deadline has not passed at the head of the `while`. -/
  | loop (context : Nat)
  | timeUp (context : Nat)
  /-- An executor thread takes the job that the context awaits. -/
  | start (context : Nat)
  /-- The task goes on with the outcome of the job. -/
  | resume (context : Nat)
  | wake (context : Nat)
  /-- The guarded body returns or raises. -/
  | exit (context : Nat)
  | cancel (context : Nat)

abbrev SlotConfig := Config backend State Job (Except Exc Bool)

abbrev SlotEvent := Event backend State Job Entry

abbrev SlotThread := Thread backend Job (Except Exc Bool)

def Context.next (context : Context) (index : Nat) : Status :=
  if (index + 1 : Int) < context.limit then .queued (index + 1) else .sleeping

/-- The body is entered without a slot where there are none. -/
def opened (limit : Int) : Status := if limit ≤ 0 then .refused else .looping

/-- Where a task is when a cancellation reaches it at an `await`. A call that no executor
thread has started is dropped; the body of a granted slot leaves through the `finally`. -/
def Context.cancel (context : Context) : Option Context :=
  if context.cancelled then none
  else
    match context.status with
    | .looping => some { context with status := .closed }
    | .queued _ => some { context with status := .closed }
    | .acquiring _ _ => some { context with cancelled := true }
    | .sleeping => some { context with status := .closed }
    | .granted index => some { context with status := .unlocking index }
    | .refused => some { context with status := .closed }
    | .unlocking _ => some { context with status := .closed }
    | .releasing _ _ => some { context with cancelled := true }
    | .closed => none

def Context.resume (context : Context) (outcome : Except Exc Bool) : Option Context :=
  if context.cancelled then none
  else
    match context.status with
    | .acquiring index _ =>
        if tryAcquired outcome then some { context with status := .granted index }
        else some { context with status := context.next index }
    | .releasing _ _ => some { context with status := .closed }
    | _ => none

def Status.awaits : Status → Option Nat
  | .acquiring _ thread => some thread
  | .releasing _ thread => some thread
  | _ => none

section System

variable (hashKey : String → Int)

def Context.job (context : Context) (thread : Nat) : Option (Status × SlotThread) :=
  match context.status with
  | .queued index =>
      some (.acquiring index thread,
        { tag := ⟨context.process, context.slot index, true⟩
          program := blockingAcquire (context.slot index) (hashKey (context.slot index)) })
  | .unlocking index =>
      some (.releasing index thread,
        { tag := ⟨context.process, context.slot index, false⟩
          program := blockingRelease (context.slot index) (hashKey (context.slot index)) })
  | _ => none

def State.put (state : State) (index : Nat) (context : Context) : State :=
  { state with contexts := state.contexts.set index context }

def advance (state : State) (index : Nat) (next : Context → Option Context) :
    Option (State × Option SlotThread) :=
  match state.contexts[index]? with
  | none => none
  | some context =>
      match next context with
      | none => none
      | some after => some (state.put index after, none)

def Entry.launch : Entry → SlotConfig → Option (State × Option SlotThread)
  | .enter process key limit, config =>
      some ({ config.state with
        contexts := config.state.contexts ++ [⟨process, key, limit, opened limit, false⟩] }, none)
  | .loop index, config => advance config.state index fun context =>
      if context.status = .looping then some { context with status := .queued 0 } else none
  | .timeUp index, config => advance config.state index fun context =>
      if context.status = .looping then some { context with status := .refused } else none
  | .start index, config =>
      match config.state.contexts[index]? with
      | none => none
      | some context =>
          match context.job hashKey config.threads.length with
          | none => none
          | some (status, thread) =>
              some (config.state.put index { context with status := status }, some thread)
  | .resume index, config => advance config.state index fun context =>
      match context.status.awaits with
      | none => none
      | some thread =>
          match config.threads[thread]? with
          | some ⟨_, .ret outcome⟩ => context.resume outcome
          | _ => none
  | .wake index, config => advance config.state index fun context =>
      if context.status = .sleeping then some { context with status := .looping } else none
  | .exit index, config => advance config.state index fun context =>
      match context.status with
      | .granted slot => some { context with status := .unlocking slot }
      | .refused => some { context with status := .closed }
      | _ => none
  | .cancel index, config => advance config.state index Context.cancel

/-- Executor threads of any number of processes, and the tasks that await them. -/
def slotSystem : System backend State Job Entry Unit (Except Exc Bool) where
  perform job op oracle state := op.perform job oracle state
  yields _ := true
  loop _ := ()
  launch := Entry.launch hashKey

end System

def atRest : SlotConfig := { state := State.initial, threads := [] }

end AgentTaskPlatform.Coordination
