import AgentTaskPlatform.LogRotation
import AgentTaskPlatform.Transitions

/-!
What the log directory holds after any run of the processes that write into it: every
record that was not refused stands in its day's series, in the order of its process, until
the day expires, and only expired files go.
-/

namespace AgentTaskPlatform.LogRotation

open KeyedTable LogFiles Transitions

section Views

variable {Process : Type} {directory : Directory Process} {name other : Name} {handler : Handler}
  {gone : Name → Bool}

def Directory.opened (directory : Directory Process) (name : Name) : File Process :=
  (directory.files.find name).getD ⟨name, directory.next, []⟩

theorem openAppend_answer : (directory.openAppend name).2 =
    ((directory.opened name).inode, (directory.opened name).size) := by
  unfold Directory.openAppend Directory.opened
  split
  · next file found => simp [found]
  · next found => simp [found, File.size]

theorem next_openAppend : directory.next ≤ (directory.openAppend name).1.next := by
  unfold Directory.openAppend
  split
  · exact Nat.le_refl _
  · exact Nat.le_succ _

theorem find_openAppend : (directory.openAppend name).1.files.find other =
    if other = name then some (directory.opened name) else directory.files.find other := by
  unfold Directory.openAppend Directory.opened
  split
  · next file found =>
      by_cases same : other = name
      · simp [same, found]
      · simp [same]
  · next found =>
      rw [Table.find_insertNew]
      by_cases same : other = name
      · simp [same, found]
      · simp [same]

theorem find_opened : (directory.openAppend name).1.files.find name =
    some (directory.opened name) := by
  rw [find_openAppend, if_pos rfl]

theorem find_append {inode : Nat} {chunk : Chunk Process} :
    (directory.append inode chunk).files.find other = (directory.files.find other).map fun file =>
      if file.inode = inode then { file with chunks := file.chunks ++ [chunk] } else file := by
  unfold Directory.append
  rw [Table.find_updateWhere]
  simp

theorem find_unlink {gone : Name → Bool} : (directory.unlink gone).files.find other =
    if gone other then none else directory.files.find other := by
  unfold Directory.unlink
  rw [Table.find_deleteWhere_eq]
  cases found : directory.files.find other with
  | none => simp
  | some file =>
      have own := Table.find_key found
      by_cases removed : gone other = true
      · simp [removed, own]
      · simp [removed, own]

theorem mem_names : name ∈ directory.names ↔ ∃ file, directory.files.find name = some file := by
  constructor
  · intro member
    obtain ⟨file, present, rfl⟩ := List.mem_map.mp member
    exact ⟨file, Table.mem_find present⟩
  · rintro ⟨file, found⟩
    exact Table.find_key found ▸ List.mem_map_of_mem (Table.find_mem found)

theorem inode_lt {file : File Process} (found : directory.files.find name = some file) :
    file.inode < directory.next := directory.fresh file (Table.find_mem found)

theorem same_inode {file copy : File Process} (found : directory.files.find name = some file)
    (again : directory.files.find other = some copy) (same : file.inode = copy.inode) :
    name = other := by
  have equal := List.inj_on_of_nodup_map directory.distinct (Table.find_mem found)
    (Table.find_mem again) same
  rw [← Table.find_key found, ← Table.find_key again, equal]

theorem chunksOf_openAppend :
    (directory.openAppend name).1.chunksOf other = directory.chunksOf other := by
  unfold Directory.chunksOf
  rw [find_openAppend]
  by_cases same : other = name
  · rw [if_pos same, same, Directory.opened]
    cases directory.files.find name <;> rfl
  · rw [if_neg same]

theorem chunksOf_unlink {gone : Name → Bool} (kept : gone other = false) :
    (directory.unlink gone).chunksOf other = directory.chunksOf other := by
  simp [Directory.chunksOf, find_unlink, kept]

/-- A write reaches the file that the stream was opened on, and no other. -/
theorem chunksOf_append {file : File Process} {chunk : Chunk Process}
    (found : directory.files.find name = some file) :
    (directory.append file.inode chunk).chunksOf other =
      if other = name then directory.chunksOf name ++ [chunk] else directory.chunksOf other := by
  unfold Directory.chunksOf
  rw [find_append]
  by_cases same : other = name
  · simp [same, found]
  · rw [if_neg same]
    cases again : directory.files.find other with
    | none => rfl
    | some copy =>
        have apart : copy.inode ≠ file.inode := fun equal => same (same_inode again found equal)
        simp [apart]

theorem chunksOf_append_apart {inode : Nat} {chunk : Chunk Process}
    (apart : ∀ file, directory.files.find other = some file → file.inode ≠ inode) :
    (directory.append inode chunk).chunksOf other = directory.chunksOf other := by
  unfold Directory.chunksOf
  rw [find_append]
  cases found : directory.files.find other with
  | none => rfl
  | some file => simp [apart file found]

theorem absent_empty (absent : name ∉ directory.names) : directory.chunksOf name = [] := by
  unfold Directory.chunksOf
  cases found : directory.files.find name with
  | none => rfl
  | some file => exact absurd (mem_names.mpr ⟨file, found⟩) absent

def Attached (directory : Directory Process) (handler : Handler) : Prop :=
  ∀ inode, handler.stream = some inode → ∃ day, handler.currentDate = some day ∧
    inode < directory.next ∧ ∀ name file, directory.files.find name = some file →
      file.inode = inode → ∃ part, name = pathFor handler.serviceName day part

theorem Attached.closed (closed : handler.stream = none) : Attached directory handler := by
  intro inode stream
  rw [closed] at stream
  cases stream

theorem Attached.unlink (attached : Attached directory handler) :
    Attached (directory.unlink gone) handler := by
  intro inode stream
  obtain ⟨day, current, bound, placed⟩ := attached inode stream
  refine ⟨day, current, bound, fun name file found same => ?_⟩
  rw [find_unlink] at found
  split at found
  · cases found
  · exact placed name file found same

theorem Attached.openAppend (attached : Attached directory handler) :
    Attached (directory.openAppend name).1 handler := by
  intro inode stream
  obtain ⟨day, current, bound, placed⟩ := attached inode stream
  refine ⟨day, current, Nat.lt_of_lt_of_le bound next_openAppend, fun other file found same => ?_⟩
  rw [find_openAppend] at found
  split at found
  · next equal =>
      cases found
      rcases known : directory.files.find name with _ | file
      · -- A file that is new has a number that no stream has yet.
        have new : (directory.opened name).inode = directory.next := by
          simp [Directory.opened, known]
        rw [new] at same
        omega
      · have reopened : directory.opened name = file := by simp [Directory.opened, known]
        exact placed other file (equal ▸ known) (reopened ▸ same)
  · exact placed other file found same

theorem Attached.append {inode : Nat} {chunk : Chunk Process}
    (attached : Attached directory handler) : Attached (directory.append inode chunk) handler := by
  intro own stream
  obtain ⟨day, current, bound, placed⟩ := attached own stream
  refine ⟨day, current, bound, fun name file found same => ?_⟩
  rw [find_append] at found
  obtain ⟨before, known, rfl⟩ := Option.map_eq_some_iff.mp found
  split at same
  · exact placed name before known same
  · exact placed name before known same

theorem chosenPart_le {decimals : Decimals} {serviceName : Name} {day : Date} {maxBytes : Nat} {nextPart : Bool} :
    latestPart decimals serviceName day directory.names ≤
      chosenPart decimals serviceName maxBytes directory day nextPart := by
  unfold chosenPart
  dsimp only
  split
  · exact Nat.le_succ _
  · exact Nat.le_refl _

theorem openForDate_attached {decimals : Decimals} {day : Date} {nextPart : Bool} :
    Attached (openForDate decimals handler directory day nextPart).2
      (openForDate decimals handler directory day nextPart).1 := by
  intro inode stream
  simp only [openForDate, openAppend_answer, Option.some.injEq] at stream ⊢
  subst stream
  exact ⟨day, rfl, inode_lt find_opened, fun name file found same =>
    ⟨_, same_inode found find_opened same⟩⟩

theorem pruneExpired_ok {decimals : Decimals} {after : Directory Process} {today : Date} :
    pruneExpired decimals handler directory today = .ok after ↔
      fits handler.controls.retentionDays today = true ∧ after = directory.unlink
        (expiredName decimals handler.serviceName handler.controls.retentionDays today) := by
  unfold pruneExpired
  split
  · next fit => simp [fit, eq_comm]
  · next unfit => simp [unfit]

inductive Ready (decimals : Decimals) (handler : Handler) (directory : Directory Process)
    (message : List Char) (today : Date) : Handler × Directory Process → Prop
  | day (changed : some today ≠ handler.currentDate)
      (fit : fits handler.controls.retentionDays today = true) :
      Ready decimals handler directory message today (openForDate decimals (closeStream handler)
        (directory.unlink (expiredName decimals handler.serviceName
          handler.controls.retentionDays today)) today false)
  | part (current : handler.currentDate = some today) :
      Ready decimals handler directory message today
        (openForDate decimals (closeStream handler) directory today true)
  | standing (current : handler.currentDate = some today)
      (room : ¬ (handler.currentSize ≠ 0 ∧
        handler.controls.maxBytes < handler.currentSize + (encoded message).length)) :
      Ready decimals handler directory message today (handler, directory)

/-- A record is refused before it is written only where the days kept go back too far. -/
theorem emit_cases (decimals : Decimals) (process : Process) (handler : Handler)
    (directory : Directory Process) (message : List Char) (today : Date) :
    (some today ≠ handler.currentDate ∧ fits handler.controls.retentionDays today = false ∧
      emit decimals process handler directory message today =
        (closeStream handler, directory, some .overflow)) ∨
    ∃ ready, Ready decimals handler directory message today ready ∧
      emit decimals process handler directory message today =
        write process ready.1 ready.2 message := by
  unfold emit
  by_cases changed : some today ≠ handler.currentDate
  · simp only [if_pos changed]
    cases fit : fits handler.controls.retentionDays today with
    | false =>
        have refused : pruneExpired decimals (closeStream handler) directory today =
            .error .overflow := by simp [pruneExpired, closeStream, fit]
        rw [refused]
        exact Or.inl ⟨changed, rfl, rfl⟩
    | true =>
        have pruned : pruneExpired decimals (closeStream handler) directory today = .ok _ :=
          pruneExpired_ok.mpr ⟨fit, rfl⟩
        rw [pruned]
        exact Or.inr ⟨_, .day changed fit, rfl⟩
  · have current := (not_not.mp changed).symm
    simp only [if_neg changed]
    right
    split
    · exact ⟨_, .part current, rfl⟩
    · next room => exact ⟨_, .standing current room, rfl⟩

theorem write_closed {process : Process} {message : List Char} (stream : handler.stream = none) :
    write process handler directory message = (handler, directory, some .notOpen) := by
  simp [write, stream]

theorem write_open {process : Process} {message : List Char} {inode : Nat}
    (stream : handler.stream = some inode) : write process handler directory message =
      ({ handler with currentSize := handler.currentSize + (encoded message).length },
        directory.append inode ⟨some process, encoded message⟩, none) := by
  cases handler
  subst stream
  rfl

end Views

/-! Contents that are written to the newest of some numbered parts. -/
section Parts

variable {α : Type}

def upTo (content : Nat → List α) (parts : Nat) : List α := (List.range parts).flatMap content

theorem upTo_stable {content : Nat → List α} {parts more : Nat} (le : parts ≤ more)
    (empty : ∀ part, parts ≤ part → content part = []) : upTo content more = upTo content parts := by
  induction more, le using Nat.le_induction with
  | base => rfl
  | succ more le ih =>
      unfold upTo at ih ⊢
      rw [List.range_succ, List.flatMap_append, ih]
      simp [empty more le]

theorem upTo_congr {content other : Nat → List α} {parts : Nat}
    (same : ∀ part, content part = other part) : upTo content parts = upTo other parts := by
  rw [funext same]

theorem upTo_added {content : Nat → List α} {parts part : Nat} {added : List α}
    (inside : part < parts) (last : ∀ later, part < later → content later = []) :
    upTo (Function.update content part (content part ++ added)) parts =
      upTo content parts ++ added := by
  have before : upTo (Function.update content part (content part ++ added)) part =
      upTo content part := by
    unfold upTo
    apply List.flatMap_congr
    intro earlier member
    rw [Function.update_of_ne (List.mem_range.mp member).ne]
  have last' : ∀ later, part + 1 ≤ later →
      Function.update content part (content part ++ added) later = [] := by
    intro later after
    rw [Function.update_of_ne (Nat.lt_of_succ_le after).ne', last later after]
  rw [upTo_stable inside last', upTo_stable inside last]
  simp only [upTo] at before ⊢
  rw [List.range_succ, List.flatMap_append, List.flatMap_append, before]
  simp

end Parts

section Series

variable {Process : Type} [DecidableEq Process] (decimals : Decimals)

def series (directory : Directory Process) (serviceName : Name) (day : Date) :
    List (Chunk Process) :=
  upTo (fun part => directory.chunksOf (pathFor serviceName day part))
    (latestPart decimals serviceName day directory.names + 1)

def written (directory : Directory Process) (serviceName : Name) (day : Date)
    (process : Process) : List (List UInt8) :=
  ((series decimals directory serviceName day).filter fun chunk => chunk.writer = some process).map
    Chunk.bytes

def pruning (state : State Process) : Action Process → Option (Name × Nat × Date)
  | .start _ serviceName controls today => some (serviceName, controls.retentionDays, today)
  | .emit process _ today =>
      (state.handlers process).bind fun handler =>
        if some today ≠ handler.currentDate ∧ fits handler.controls.retentionDays today then
          some (handler.serviceName, handler.controls.retentionDays, today)
        else none
  | _ => none

def expires (event : State Process × Action Process) (serviceName : Name) (day : Date) : Bool :=
  (pruning event.1 event.2).any fun pruned =>
    pruned.1 = serviceName && expired pruned.2.1 pruned.2.2 day

def stored (serviceName : Name) (day : Date) (process : Process)
    (event : State Process × Action Process) : List (List UInt8) :=
  match event.2 with
  | .emit writer message today =>
      match event.1.handlers writer with
      | some handler =>
          if writer = process ∧ handler.serviceName = serviceName ∧ today = day ∧
              (emit decimals writer handler event.1.directory message today).2.2 = none then
            [encoded message]
          else []
      | none => []
  | _ => []

variable {decimals} {directory after : Directory Process} {serviceName name : Name} {day : Date}
  {process writer : Process} {handler : Handler} {gone : Name → Bool}

def ownIn (directory : Directory Process) (serviceName : Name) (day : Date) (process : Process)
    (part : Nat) : List (List UInt8) :=
  ((directory.chunksOf (pathFor serviceName day part)).filter
    fun chunk => chunk.writer = some process).map Chunk.bytes

theorem written_upTo {parts : Nat}
    (enough : latestPart decimals serviceName day directory.names < parts) :
    written decimals directory serviceName day process =
      upTo (ownIn directory serviceName day process) parts := by
  have later : ∀ part, latestPart decimals serviceName day directory.names + 1 ≤ part →
      directory.chunksOf (pathFor serviceName day part) = [] := fun part above =>
    absent_empty (later_part_absent (Nat.lt_of_succ_le above))
  rw [written, series, ← upTo_stable enough later]
  simp only [upTo, List.filter_flatMap, List.map_flatMap]
  rfl

theorem written_congr (same : ∀ part, ownIn after serviceName day process part =
      ownIn directory serviceName day process part) :
    written decimals after serviceName day process =
      written decimals directory serviceName day process := by
  have parts := Nat.le_max_left (latestPart decimals serviceName day after.names)
    (latestPart decimals serviceName day directory.names)
  have others := Nat.le_max_right (latestPart decimals serviceName day after.names)
    (latestPart decimals serviceName day directory.names)
  rw [written_upTo (Nat.lt_succ_of_le parts), written_upTo (Nat.lt_succ_of_le others)]
  exact upTo_congr same

def Linked (directory : Directory Process) (process : Process) (handler : Handler)
    (serviceName : Name) (day : Date) : Prop :=
  ∀ inode, handler.stream = some inode → handler.serviceName = serviceName →
    handler.currentDate = some day → ∃ part file,
      directory.files.find (pathFor serviceName day part) = some file ∧ file.inode = inode ∧
        ∀ later, part < later → ownIn directory serviceName day process later = []

theorem Linked.closed (closed : handler.stream = none) :
    Linked directory process handler serviceName day := by
  intro inode stream
  rw [closed] at stream
  cases stream

theorem ownIn_unlink (kept : ∀ part, gone (pathFor serviceName day part) = false) (part : Nat) :
    ownIn (directory.unlink gone) serviceName day process part =
      ownIn directory serviceName day process part := by
  rw [ownIn, chunksOf_unlink (kept part), ownIn]

theorem ownIn_openAppend (part : Nat) :
    ownIn (directory.openAppend name).1 serviceName day process part =
      ownIn directory serviceName day process part := by
  rw [ownIn, chunksOf_openAppend, ownIn]

theorem Linked.unlink (linked : Linked directory process handler serviceName day)
    (kept : ∀ part, gone (pathFor serviceName day part) = false) :
    Linked (directory.unlink gone) process handler serviceName day := by
  intro inode stream service current
  obtain ⟨part, file, found, same, last⟩ := linked inode stream service current
  refine ⟨part, file, ?_, same, fun later above => ?_⟩
  · simp [find_unlink, kept part, found]
  · rw [ownIn_unlink kept, last later above]

theorem Linked.openAppend (linked : Linked directory process handler serviceName day) :
    Linked (directory.openAppend name).1 process handler serviceName day := by
  intro inode stream service current
  obtain ⟨part, file, found, same, last⟩ := linked inode stream service current
  refine ⟨part, file, ?_, same, fun later above => ?_⟩
  · rw [find_openAppend]
    split
    · next equal => simp [Directory.opened, ← equal, found]
    · exact found
  · rw [ownIn_openAppend, last later above]

theorem ownIn_other {inode : Nat} {bytes : List UInt8} (wrote : writer ≠ process) (part : Nat) :
    ownIn (directory.append inode ⟨some writer, bytes⟩) serviceName day process part =
      ownIn directory serviceName day process part := by
  cases placed : directory.files.find (pathFor serviceName day part) with
  | none => rw [ownIn, chunksOf_append_apart (by simp [placed]), ownIn]
  | some file =>
      by_cases hit : file.inode = inode
      · rw [ownIn, ← hit, chunksOf_append placed, if_pos rfl]
        simp [ownIn, wrote]
      · rw [ownIn, chunksOf_append_apart (by simp [placed, hit]), ownIn]

/-- A write of another process, or through the same stream, leaves a stream linked. -/
theorem Linked.append {inode : Nat} {bytes : List UInt8}
    (linked : Linked directory process handler serviceName day)
    (plain : plainName serviceName = true)
    (own : writer = process → handler.stream = some inode) :
    Linked (directory.append inode ⟨some writer, bytes⟩) process handler serviceName day := by
  intro mine stream service current
  obtain ⟨part, file, found, same, last⟩ := linked mine stream service current
  refine ⟨part, _, by rw [find_append, found, Option.map_some], ?_, fun later above => ?_⟩
  · split <;> exact same
  · by_cases wrote : writer = process
    · rw [ownIn, chunksOf_append_apart, ← ownIn, last later above]
      intro copy placed hit
      have mineToo := own wrote
      rw [stream, Option.some.injEq] at mineToo
      -- The stream of the process itself stands on the earlier part.
      have parts := same_inode found placed (by rw [same, mineToo, hit])
      have := (pathFor_inj plain plain parts).2.2
      omega
    · rw [ownIn_other wrote, last later above]

theorem openForDate_linked {nextPart : Bool} :
    Linked (openForDate decimals handler directory day nextPart).2 process
      (openForDate decimals handler directory day nextPart).1 serviceName day := by
  intro inode stream service _
  simp only [openForDate, openAppend_answer, Option.some.injEq] at stream service ⊢
  subst stream service
  refine ⟨_, _, find_opened, rfl, fun later above => ?_⟩
  have absent := later_part_absent (Nat.lt_of_le_of_lt chosenPart_le above)
  rw [ownIn_openAppend, ownIn, absent_empty absent]
  rfl

theorem openForDate_other {nextPart : Bool} {today : Date} (other : today ≠ day) :
    Linked after process (openForDate decimals handler directory today nextPart).1 serviceName
      day := by
  intro inode _ _ current
  exact absurd (Option.some.inj current) other

theorem expiredName_pathFor {retentionDays : Nat} {today : Date} {part : Nat} {other : Name}
    (plain : plainName serviceName = true) (named : plainName other = true) :
    expiredName decimals other retentionDays today (pathFor serviceName day part) =
      (decide (other = serviceName) && expired retentionDays today day) := by
  rw [expiredName, dayOf_pathFor plain named]
  by_cases same : other = serviceName
  · simp [same]
  · simp [same]

structure Good (directory : Directory Process) (process : Process) (handler : Handler)
    (serviceName : Name) (day : Date) : Prop where
  attached : Attached directory handler
  linked : Linked directory process handler serviceName day

structure Keeps (directory after : Directory Process) (serviceName : Name) (day : Date) : Prop where
  good : ∀ {process handler}, Good directory process handler serviceName day →
    Good after process handler serviceName day
  own : ∀ process part, ownIn after serviceName day process part =
    ownIn directory serviceName day process part

theorem Keeps.unlink (kept : ∀ part, gone (pathFor serviceName day part) = false) :
    Keeps directory (directory.unlink gone) serviceName day where
  good good := ⟨good.attached.unlink, good.linked.unlink kept⟩
  own _ part := ownIn_unlink kept part

theorem Keeps.openAppend (name : Name) :
    Keeps directory (directory.openAppend name).1 serviceName day where
  good good := ⟨good.attached.openAppend, good.linked.openAppend⟩
  own _ part := ownIn_openAppend part

theorem Keeps.trans {middle : Directory Process} (first : Keeps directory middle serviceName day)
    (last : Keeps middle after serviceName day) : Keeps directory after serviceName day where
  good good := last.good (first.good good)
  own process part := (last.own process part).trans (first.own process part)

theorem Keeps.refl : Keeps directory directory serviceName day where
  good good := good
  own _ _ := rfl

theorem openForDate_good {nextPart : Bool} {today : Date} :
    Good (openForDate decimals handler directory today nextPart).2 process
      (openForDate decimals handler directory today nextPart).1 serviceName day := by
  refine ⟨openForDate_attached, ?_⟩
  by_cases same : today = day
  · subst same
    exact openForDate_linked
  · exact openForDate_other same

theorem Ready.kept {message : List Char} {today : Date} {ready : Handler × Directory Process}
    (through : Ready decimals handler directory message today ready)
    (plain : plainName serviceName = true)
    (kept : some today ≠ handler.currentDate → fits handler.controls.retentionDays today = true →
      handler.serviceName = serviceName →
        expired handler.controls.retentionDays today day = false)
    (good : Good directory process handler serviceName day) :
    (ready.1.serviceName = handler.serviceName ∧ ready.1.currentDate = some today) ∧
      Keeps directory ready.2 serviceName day ∧ Good ready.2 process ready.1 serviceName day := by
  cases through with
  | day changed fit =>
      have clean : ∀ part, expiredName decimals handler.serviceName handler.controls.retentionDays
          today (pathFor serviceName day part) = false := by
        intro part
        rw [expiredName_pathFor plain handler.plain]
        by_cases own : handler.serviceName = serviceName
        · simp [own, kept changed fit own]
        · simp [own]
      exact ⟨⟨rfl, rfl⟩, (Keeps.unlink clean).trans (.openAppend _), openForDate_good⟩
  | part current => exact ⟨⟨rfl, rfl⟩, .openAppend _, openForDate_good⟩
  | standing current room => exact ⟨⟨rfl, current⟩, Keeps.refl, good⟩

theorem ownIn_appended {inode part : Nat} {file : File Process} {bytes : List UInt8}
    (found : directory.files.find (pathFor serviceName day part) = some file)
    (same : file.inode = inode) (plain : plainName serviceName = true) (written : Nat) :
    ownIn (directory.append inode ⟨some process, bytes⟩) serviceName day process written =
      Function.update (ownIn directory serviceName day process) part
        (ownIn directory serviceName day process part ++ [bytes]) written := by
  subst same
  by_cases own : written = part
  · subst own
    rw [Function.update_self, ownIn, chunksOf_append found, if_pos rfl]
    simp [ownIn]
  · have apart : pathFor serviceName day written ≠ pathFor serviceName day part := fun equal =>
      own (pathFor_inj plain plain equal).2.2
    rw [Function.update_of_ne own, ownIn, chunksOf_append found, if_neg apart, ownIn]

theorem ownIn_elsewhere {inode : Nat} {chunk : Chunk Process} (plain : plainName serviceName = true)
    (attached : Attached directory handler) (stream : handler.stream = some inode)
    (other : ¬ (handler.serviceName = serviceName ∧ handler.currentDate = some day)) (part : Nat) :
    ownIn (directory.append inode chunk) serviceName day process part =
      ownIn directory serviceName day process part := by
  obtain ⟨current, dated, _, placed⟩ := attached inode stream
  rw [ownIn, chunksOf_append_apart, ownIn]
  intro file found same
  obtain ⟨own, equal⟩ := placed _ file found same
  obtain ⟨service, days, _⟩ := pathFor_inj plain handler.plain equal
  exact other ⟨service.symm, by rw [dated, days]⟩

theorem written_append {inode : Nat} {bytes : List UInt8} (plain : plainName serviceName = true)
    (good : Good directory writer handler serviceName day)
    (stream : handler.stream = some inode) :
    written decimals (directory.append inode ⟨some writer, bytes⟩) serviceName day process =
      written decimals directory serviceName day process ++
        if writer = process ∧ handler.serviceName = serviceName ∧ handler.currentDate = some day
        then [bytes] else [] := by
  by_cases here : handler.serviceName = serviceName ∧ handler.currentDate = some day
  · by_cases own : writer = process
    · subst own
      obtain ⟨part, file, found, same, last⟩ := good.linked inode stream here.1 here.2
      have listed : part ≤ latestPart decimals serviceName day directory.names :=
        le_latestPart (mem_names.mpr ⟨file, found⟩) partOf_pathFor
      -- Both directories read up to one part that is late enough for both.
      have before := Nat.lt_succ_of_le (Nat.le_max_left
        (latestPart decimals serviceName day directory.names)
        (latestPart decimals serviceName day
          (directory.append inode ⟨some writer, bytes⟩).names))
      have after := Nat.lt_succ_of_le (Nat.le_max_right
        (latestPart decimals serviceName day directory.names)
        (latestPart decimals serviceName day
          (directory.append inode ⟨some writer, bytes⟩).names))
      rw [written_upTo after, written_upTo before,
        upTo_congr (ownIn_appended found same plain),
        upTo_added (Nat.lt_of_le_of_lt listed before) last, if_pos ⟨rfl, here⟩]
    · rw [if_neg fun all => own all.1, List.append_nil]
      exact written_congr (ownIn_other own)
  · rw [if_neg fun all => here all.2, List.append_nil]
    exact written_congr (ownIn_elsewhere plain good.attached stream here)

theorem set_handlers {state : State Process} {changed : Option Handler} {other : Process}
    {held : Handler} (found : (state.set process changed after).handlers other = some held) :
    other = process ∧ changed = some held ∨ other ≠ process ∧ state.handlers other = some held := by
  by_cases same : other = process
  · subst same
    exact Or.inl ⟨rfl, by simpa [State.set] using found⟩
  · exact Or.inr ⟨same, by simpa [State.set, same] using found⟩

def Sound (state : State Process) (serviceName : Name) (day : Date) : Prop :=
  ∀ process handler, state.handlers process = some handler →
    Good state.directory process handler serviceName day

theorem Sound.set {state : State Process} {changed : Option Handler}
    (others : ∀ other handler, other ≠ process → state.handlers other = some handler →
      Good after other handler serviceName day)
    (own : ∀ handler, changed = some handler → Good after process handler serviceName day) :
    Sound (state.set process changed after) serviceName day := by
  intro other handler found
  rcases set_handlers found with ⟨rfl, same⟩ | ⟨apart, known⟩
  · exact own handler same
  · exact others other handler apart known

theorem Good.quiet (closed : handler.stream = none) :
    Good directory process handler serviceName day := ⟨.closed closed, .closed closed⟩

theorem emit_kept {state : State Process} {message : List Char} {today : Date}
    (plain : plainName serviceName = true) (sound : Sound state serviceName day)
    (found : state.handlers process = some handler)
    (kept : expires (state, .emit process message today) serviceName day = false) :
    let emitted := emit decimals process handler state.directory message today
    Sound (state.set process (some emitted.1) emitted.2.1) serviceName day ∧
      ∀ reader, written decimals emitted.2.1 serviceName day reader =
        written decimals state.directory serviceName day reader ++
          stored decimals serviceName day reader (state, .emit process message today) := by
  have clean : some today ≠ handler.currentDate →
      fits handler.controls.retentionDays today = true → handler.serviceName = serviceName →
        expired handler.controls.retentionDays today day = false := by
    intro changed fit service
    simpa [expires, pruning, found, changed, fit, service] using kept
  simp only [stored, found]
  rcases emit_cases decimals process handler state.directory message today with
    ⟨_, _, same⟩ | ⟨ready, through, same⟩
  · rw [same]
    refine ⟨.set (fun other held _ known => sound other held known) ?_, fun reader => by simp⟩
    intro held same
    cases same
    exact .quiet rfl
  · rw [same]
    obtain ⟨⟨service, current⟩, keeps, own⟩ := through.kept plain clean
      (sound process handler found)
    have same : ∀ reader, written decimals ready.2 serviceName day reader =
        written decimals state.directory serviceName day reader := fun reader =>
      written_congr (keeps.own reader)
    cases stream : ready.1.stream with
    | none =>
        simp only [write_closed stream]
        refine ⟨.set (fun other held _ known => keeps.good (sound other held known)) ?_,
          fun reader => by simp [same reader]⟩
        intro held equal
        cases equal
        exact own
    | some inode =>
        simp only [write_open stream]
        refine ⟨.set ?_ ?_, fun reader => ?_⟩
        · intro other held apart known
          have before := keeps.good (sound other held known)
          exact ⟨before.attached.append,
            before.linked.append plain fun equal => absurd equal.symm apart⟩
        · intro held equal
          cases equal
          have appended : Good (ready.2.append inode ⟨some process, encoded message⟩) process
              ready.1 serviceName day :=
            ⟨own.attached.append, own.linked.append plain fun _ => stream⟩
          exact ⟨appended.attached, appended.linked⟩
        · simp only [written_append plain own stream, same reader, service, current,
            Option.some.injEq, and_true]

theorem start_ok {state final : State Process} {controls : Controls} {today : Date}
    (moved : step decimals state (.start process name controls today) = some final) :
    state.handlers process = none ∧ plainName name = true ∧
      fits controls.retentionDays today = true ∧ ∃ handler : Handler,
        handler.serviceName = name ∧ handler.controls = controls ∧ handler.stream = none ∧
        ∃ opened, opened = openForDate decimals handler (state.directory.unlink
            (expiredName decimals name controls.retentionDays today)) today false ∧
          final = state.set process (some opened.1) opened.2 := by
  simp only [step] at moved
  cases free : state.handlers process with
  | some handler => simp [free] at moved
  | none =>
      simp only [free] at moved
      split at moved
      · next plain =>
          refine ⟨rfl, plain, ?_⟩
          simp only [init] at moved
          cases pruned : pruneExpired decimals
              (⟨name, plain, controls, none, none, 0⟩ : Handler) state.directory today with
          | error fault => simp [pruned, Except.map] at moved
          | ok directory =>
              obtain ⟨fit, rfl⟩ := pruneExpired_ok.mp pruned
              simp only [pruned, Except.map] at moved
              cases moved
              exact ⟨fit, ⟨name, plain, controls, none, none, 0⟩, rfl, rfl, rfl, _, rfl, rfl⟩
      · cases moved

theorem step_kept {state final : State Process} {action : Action Process}
    (plain : plainName serviceName = true) (sound : Sound state serviceName day)
    (moved : step decimals state action = some final)
    (kept : expires (state, action) serviceName day = false) :
    Sound final serviceName day ∧ ∀ reader,
      written decimals final.directory serviceName day reader =
        written decimals state.directory serviceName day reader ++
          stored decimals serviceName day reader (state, action) := by
  cases action with
  | start process other controls today =>
      obtain ⟨_, named, _, handler, _, _, _, opened, rfl, rfl⟩ := start_ok moved
      have clean : ∀ part, expiredName decimals other controls.retentionDays today
          (pathFor serviceName day part) = false := by
        intro part
        rw [expiredName_pathFor plain named]
        simpa [expires, pruning] using kept
      have unlinked : Keeps state.directory (state.directory.unlink
          (expiredName decimals other controls.retentionDays today)) serviceName day :=
        .unlink clean
      have keeps := unlinked.trans (.openAppend (pathFor handler.serviceName today
        (chosenPart decimals handler.serviceName handler.controls.maxBytes
          (state.directory.unlink (expiredName decimals other controls.retentionDays today))
          today false)))
      refine ⟨.set (fun _ _ _ known => keeps.good (sound _ _ known)) ?_, fun reader => ?_⟩
      · intro held same
        cases same
        exact openForDate_good
      · exact (written_congr (keeps.own reader)).trans (List.append_nil _).symm
  | reconfigure process controls =>
      obtain ⟨handler, found, rfl⟩ := Option.map_eq_some_iff.mp moved
      refine ⟨.set (fun _ _ _ known => sound _ _ known) ?_, fun reader => by simp [stored, State.set]⟩
      intro held same
      cases same
      exact ⟨(sound process handler found).attached, (sound process handler found).linked⟩
  | emit process message today =>
      obtain ⟨handler, found, rfl⟩ := Option.map_eq_some_iff.mp moved
      exact emit_kept plain sound found kept
  | close process =>
      obtain ⟨handler, _, rfl⟩ := Option.map_eq_some_iff.mp moved
      refine ⟨.set (fun _ _ _ known => sound _ _ known) ?_, fun reader => by simp [stored, State.set]⟩
      intro held same
      cases same
      exact .quiet rfl
  | exit process =>
      obtain ⟨handler, _, rfl⟩ := Option.map_eq_some_iff.mp moved
      exact ⟨.set (fun _ _ _ known => sound _ _ known) nofun, fun reader => by simp [stored, State.set]⟩

theorem run_kept {start final : State Process} {events : List (State Process × Action Process)}
    (run : Run (step decimals) start events final) (plain : plainName serviceName = true)
    (sound : Sound start serviceName day)
    (kept : ∀ event ∈ events, expires event serviceName day = false) (reader : Process) :
    written decimals final.directory serviceName day reader =
      written decimals start.directory serviceName day reader ++
        events.flatMap (stored decimals serviceName day reader) := by
  induction run with
  | done state => simp
  | next moved rest ih =>
      have first := step_kept plain sound moved (kept _ List.mem_cons_self)
      rw [ih first.1 fun event member => kept event (List.mem_cons_of_mem _ member),
        first.2 reader, List.flatMap_cons, List.append_assoc]

def emitted (serviceName : Name) (day : Date) (process : Process)
    (event : State Process × Action Process) : List (List UInt8) :=
  match event.2 with
  | .emit writer message today =>
      match event.1.handlers writer with
      | some handler =>
          if writer = process ∧ handler.serviceName = serviceName ∧ today = day then
            [encoded message]
          else []
      | none => []
  | _ => []

/-- No handler is closed while its process goes on, and the days that are kept go back to no
day before the calendar. -/
def Steady (event : State Process × Action Process) : Prop :=
  match event.2 with
  | .close _ => False
  | .emit process _ today => ∀ handler, event.1.handlers process = some handler →
      some today ≠ handler.currentDate → fits handler.controls.retentionDays today = true
  | _ => True

def Streaming (state : State Process) : Prop :=
  ∀ process handler, state.handlers process = some handler → handler.stream ≠ none

theorem Streaming.set {state : State Process} {changed : Option Handler}
    (streaming : Streaming state) (own : ∀ handler, changed = some handler → handler.stream ≠ none) :
    Streaming (state.set process changed after) := by
  intro other handler found
  rcases set_handlers found with ⟨rfl, same⟩ | ⟨_, known⟩
  · exact own handler same
  · exact streaming other handler known

end Series

def day2026 : Date := ⟨2026, 8, 25, by decide⟩

def api : Name := ['a', 'p', 'i']

def smallControls : Controls := ⟨3, 2, by decide, by decide⟩

def emptyDirectory : Directory Bool := ⟨Table.empty, 0, nofun, List.nodup_nil⟩

instance {Process : Type} (event : State Process × Action Process) : Decidable (Steady event) :=
  match event with
  | (_, .close _) => isFalse id
  | (state, .emit process _ today) =>
      match found : state.handlers process with
      | none => isTrue (by simp [Steady, found])
      | some handler => decidable_of_iff (some today ≠ handler.currentDate →
          fits handler.controls.retentionDays today = true) (by simp [Steady, found])
  | (_, .start _ _ _ _) => isTrue trivial
  | (_, .reconfigure _ _) => isTrue trivial
  | (_, .exit _) => isTrue trivial

end AgentTaskPlatform.LogRotation
