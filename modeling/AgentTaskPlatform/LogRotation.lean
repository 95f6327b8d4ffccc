import AgentTaskPlatform.KeyedTable
import AgentTaskPlatform.LogFiles
import AgentTaskPlatform.Utf8

/-!
The daily, size-limited log files. Any number of processes write into one directory, each
through a handler that picks the part of its day, counts what it wrote, starts a new part at
the limit and removes the days that have expired. A stream stays on the file that it was
opened on, also when another process removes the file's name.
-/

namespace AgentTaskPlatform.LogRotation

open KeyedTable LogFiles

section Directory

variable {Process : Type}

/-- One write. The writer is not in the file; it is empty for what was there before. -/
structure Chunk (Process : Type) where
  writer : Option Process
  bytes : List UInt8
  deriving DecidableEq

structure File (Process : Type) where
  name : Name
  inode : Nat
  chunks : List (Chunk Process)

def File.size (file : File Process) : Nat := (file.chunks.map fun chunk => chunk.bytes.length).sum

structure Directory (Process : Type) where
  files : Table (File Process) Name File.name
  next : Nat
  fresh : ∀ file ∈ files.rows, file.inode < next
  distinct : (files.rows.map File.inode).Nodup

def Directory.names (directory : Directory Process) : List Name :=
  directory.files.rows.map File.name

def Directory.chunksOf (directory : Directory Process) (name : Name) : List (Chunk Process) :=
  ((directory.files.find name).map File.chunks).getD []

/-- `path.exists() and path.stat().st_size >= max_bytes` -/
def Directory.isFull (directory : Directory Process) (name : Name) (maxBytes : Nat) : Bool :=
  match directory.files.find name with
  | some file => decide (maxBytes ≤ file.size)
  | none => false

def Directory.openAppend (directory : Directory Process) (name : Name) :
    Directory Process × Nat × Nat :=
  match found : directory.files.find name with
  | some file => (directory, file.inode, file.size)
  | none =>
      ({ files := directory.files.insertNew ⟨name, directory.next, []⟩
         next := directory.next + 1
         fresh := by
           have added := Table.find_none.mp found
           intro file member
           simp only [Table.insertNew, dif_neg added, List.mem_append, List.mem_singleton] at member
           rcases member with before | rfl
           · exact Nat.lt_succ_of_lt (directory.fresh file before)
           · exact Nat.lt_succ_self _
         distinct := by
           have added := Table.find_none.mp found
           simp only [Table.insertNew, dif_neg added, List.map_append, List.map_cons, List.map_nil]
           refine directory.distinct.append (List.nodup_singleton _) ?_
           intro inode before new
           obtain ⟨file, member, rfl⟩ := List.mem_map.mp before
           have older := directory.fresh file member
           rw [List.mem_singleton.mp new] at older
           exact Nat.lt_irrefl _ older },
        directory.next, 0)

/-- A write to an open file. It reaches no name when the file's name was removed. -/
def Directory.append (directory : Directory Process) (inode : Nat) (chunk : Chunk Process) :
    Directory Process where
  files := directory.files.updateWhere (fun file => file.inode = inode)
    ⟨fun file => { file with chunks := file.chunks ++ [chunk] }, fun _ => rfl⟩
  next := directory.next
  fresh := by
    intro file member
    obtain ⟨before, present, rfl⟩ := List.mem_map.mp member
    split
    · exact directory.fresh before present
    · exact directory.fresh before present
  distinct := by
    have same : ((directory.files.updateWhere (fun file => file.inode = inode)
        ⟨fun file => { file with chunks := file.chunks ++ [chunk] }, fun _ => rfl⟩).rows.map
          File.inode) = directory.files.rows.map File.inode := by
      rw [Table.updateWhere, List.map_map]
      apply List.map_congr_left
      intro file _
      by_cases own : file.inode = inode
      · simp [own]
      · simp [own]
    rw [same]
    exact directory.distinct

def Directory.unlink (directory : Directory Process) (expired : Name → Bool) :
    Directory Process where
  files := directory.files.deleteWhere fun file => expired file.name
  next := directory.next
  fresh file member := directory.fresh file (List.mem_of_mem_filter member)
  distinct := directory.distinct.sublist (List.filter_sublist.map _)

end Directory

section Handler

variable {Process : Type} (decimals : Decimals)

/-- The sizes that the settings carry: both are positive there, and `__init__` refuses others. -/
structure Controls where
  maxBytes : Nat
  retentionDays : Nat
  sized : 0 < maxBytes
  retained : 0 < retentionDays

structure Handler where
  serviceName : Name
  plain : plainName serviceName = true
  controls : Controls
  stream : Option Nat
  currentDate : Option Date
  currentSize : Nat

inductive Fault where
  /-- `OverflowError` of `today - timedelta(…)` -/
  | overflow
  /-- `RuntimeError("log stream is not open")` -/
  | notOpen
  deriving DecidableEq

def fits (retentionDays : Nat) (today : Date) : Bool := decide (retentionDays ≤ today.toordinal)

def expired (retentionDays : Nat) (today logDate : Date) : Bool :=
  decide ((logDate.toordinal : Int) < today.toordinal - (retentionDays - 1))

def expiredName (serviceName : Name) (retentionDays : Nat) (today : Date) (name : Name) : Bool :=
  (dayOf decimals serviceName name).any (expired retentionDays today)

def pruneExpired (handler : Handler) (directory : Directory Process) (today : Date) :
    Except Fault (Directory Process) :=
  if fits handler.controls.retentionDays today then
    .ok (directory.unlink
      (expiredName decimals handler.serviceName handler.controls.retentionDays today))
  else .error .overflow

def closeStream (handler : Handler) : Handler := { handler with stream := none }

def chosenPart (serviceName : Name) (maxBytes : Nat) (directory : Directory Process)
    (logDate : Date) (nextPart : Bool) : Nat :=
  let part := latestPart decimals serviceName logDate directory.names
  if nextPart || directory.isFull (pathFor serviceName logDate part) maxBytes then part + 1
  else part

def openForDate (handler : Handler) (directory : Directory Process) (logDate : Date)
    (nextPart : Bool) : Handler × Directory Process :=
  let part := chosenPart decimals handler.serviceName handler.controls.maxBytes directory logDate
    nextPart
  let opened := directory.openAppend (pathFor handler.serviceName logDate part)
  ({ handler with
      stream := some opened.2.1, currentDate := some logDate, currentSize := opened.2.2 },
    opened.1)

def init (serviceName : Name) (plain : plainName serviceName = true) (controls : Controls)
    (directory : Directory Process) (today : Date) :
    Except Fault (Handler × Directory Process) :=
  let handler : Handler := ⟨serviceName, plain, controls, none, none, 0⟩
  (pruneExpired decimals handler directory today).map fun directory =>
    openForDate decimals handler directory today false

/-- `self.format(record) + self.terminator`, encoded. -/
def encoded (message : List Char) : List UInt8 := Utf8.encode (message ++ ['\n'])

/-- The last lines of `emit`. What it raises is handled, and the record is not written. -/
def write (process : Process) (handler : Handler) (directory : Directory Process)
    (message : List Char) : Handler × Directory Process × Option Fault :=
  match handler.stream with
  | none => (handler, directory, some .notOpen)
  | some inode =>
      ({ handler with currentSize := handler.currentSize + (encoded message).length },
        directory.append inode ⟨some process, encoded message⟩, none)

def emit (process : Process) (handler : Handler) (directory : Directory Process)
    (message : List Char) (today : Date) : Handler × Directory Process × Option Fault :=
  if some today ≠ handler.currentDate then
    let closed := closeStream handler
    match pruneExpired decimals closed directory today with
    | .error fault => (closed, directory, some fault)
    | .ok pruned =>
        let opened := openForDate decimals closed pruned today false
        write process opened.1 opened.2 message
  else if handler.currentSize ≠ 0 ∧
      handler.controls.maxBytes < handler.currentSize + (encoded message).length then
    let opened := openForDate decimals (closeStream handler) directory today true
    write process opened.1 opened.2 message
  else write process handler directory message

end Handler

section Processes

variable {Process : Type} [DecidableEq Process] (decimals : Decimals)

structure State (Process : Type) where
  directory : Directory Process
  handlers : Process → Option Handler

inductive Action (Process : Type) where
  /-- `configure_logging` of a new process. -/
  | start (process : Process) (serviceName : Name) (controls : Controls) (today : Date)
  /-- `reconfigure_logging` -/
  | reconfigure (process : Process) (controls : Controls)
  | emit (process : Process) (message : List Char) (today : Date)
  | close (process : Process)
  /-- The process ends, also by a crash: every record was flushed. -/
  | exit (process : Process)

def State.set (state : State Process) (process : Process) (handler : Option Handler)
    (directory : Directory Process) : State Process :=
  ⟨directory, Function.update state.handlers process handler⟩

def step (state : State Process) : Action Process → Option (State Process)
  | .start process serviceName controls today =>
      match state.handlers process with
      | some _ => none
      | none =>
          if plain : plainName serviceName = true then
            match init decimals serviceName plain controls state.directory today with
            | .ok (handler, directory) => some (state.set process (some handler) directory)
            | .error _ => none
          else none
  | .reconfigure process controls =>
      (state.handlers process).map fun handler =>
        state.set process (some { handler with controls }) state.directory
  | .emit process message today =>
      (state.handlers process).map fun handler =>
        let emitted := emit decimals process handler state.directory message today
        state.set process (some emitted.1) emitted.2.1
  | .close process =>
      (state.handlers process).map fun handler =>
        state.set process (some (closeStream handler)) state.directory
  | .exit process =>
      (state.handlers process).map fun _ => state.set process none state.directory

end Processes

end AgentTaskPlatform.LogRotation
