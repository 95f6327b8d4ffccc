import AgentTaskPlatform.LogSeries

/-!
How large a part can grow, and which files go: a part exceeds the limit only by one record
that is longer than a part or that came first after a change of the day, and a file goes
exactly when a process of its service finds its day expired.
-/

namespace AgentTaskPlatform.LogRotation

open KeyedTable LogFiles Transitions

section Removal

variable {Process : Type} {decimals : Decimals} {directory after : Directory Process}
  {name other : Name} {inode : Nat} {handler : Handler} {process : Process}

def Stands (directory : Directory Process) (name : Name) (inode : Nat) : Prop :=
  ∃ file, directory.files.find name = some file ∧ file.inode = inode

def Grown (directory after : Directory Process) : Prop :=
  ∀ name file copy, directory.files.find name = some file → after.files.find name = some copy →
    file.inode = copy.inode → file.chunks <+: copy.chunks

theorem stands_unlink {gone : Name → Bool} :
    Stands (directory.unlink gone) name inode ↔ Stands directory name inode ∧ gone name = false := by
  unfold Stands
  rw [find_unlink]
  by_cases removed : gone name = true
  · simp [removed]
  · simp [removed]

theorem stands_openAppend (old : inode < directory.next) :
    Stands (directory.openAppend other).1 name inode ↔ Stands directory name inode := by
  unfold Stands
  rw [find_openAppend]
  by_cases same : name = other
  · subst same
    rw [if_pos rfl, Directory.opened]
    cases found : directory.files.find name with
    | none => simpa using fun equal : directory.next = inode => by omega
    | some file => rfl
  · rw [if_neg same]

theorem stands_append {written : Nat} {chunk : Chunk Process} :
    Stands (directory.append written chunk) name inode ↔ Stands directory name inode := by
  unfold Stands
  rw [find_append]
  cases directory.files.find name with
  | none => rfl
  | some file =>
      by_cases hit : file.inode = written
      · simp [hit]
      · simp [hit]

theorem Grown.refl : Grown directory directory := by
  intro name file copy found again _
  rw [found] at again
  cases again
  exact List.prefix_rfl

theorem Grown.unlink {gone : Name → Bool} : Grown directory (directory.unlink gone) := by
  intro name file copy found again same
  rw [find_unlink] at again
  split at again
  · cases again
  · exact Grown.refl name file copy found again same

theorem Grown.openAppend : Grown directory (directory.openAppend other).1 := by
  intro name file copy found again same
  rw [find_openAppend] at again
  split at again
  · next equal =>
      subst equal
      simp only [Directory.opened, found, Option.getD_some, Option.some.injEq] at again
      exact again ▸ List.prefix_rfl
  · exact Grown.refl name file copy found again same

theorem Grown.append {written : Nat} {chunk : Chunk Process} :
    Grown directory (directory.append written chunk) := by
  intro name file copy found again _
  rw [find_append, found] at again
  cases again
  dsimp only
  split
  · exact List.prefix_append _ _
  · exact List.prefix_rfl

/-- A directory after one action: which files go, and that the others only grow. -/
structure Evolves (directory after : Directory Process) (gone : Name → Bool) : Prop where
  next : directory.next ≤ after.next
  stands : ∀ name inode, inode < directory.next →
    (Stands after name inode ↔ Stands directory name inode ∧ gone name = false)
  grown : Grown directory after

theorem Grown.trans {middle : Directory Process} {gone : Name → Bool}
    (first : Grown directory middle) (last : Evolves middle after gone)
    (numbered : directory.next ≤ middle.next) : Grown directory after := by
  intro name file copy found again same
  have old := Nat.lt_of_lt_of_le (inode_lt found) numbered
  obtain ⟨⟨held, known, equal⟩, _⟩ := (last.stands name file.inode old).mp ⟨copy, again, same.symm⟩
  exact (first name file held found known equal.symm).trans
    (last.grown name held copy known again (equal.trans same))

theorem Evolves.none : Evolves directory directory fun _ => false :=
  ⟨Nat.le_refl _, fun _ _ _ => by simp, Grown.refl⟩

theorem Evolves.unlink (gone : Name → Bool) : Evolves directory (directory.unlink gone) gone :=
  ⟨Nat.le_refl _, fun _ _ _ => stands_unlink, Grown.unlink⟩

theorem Evolves.openAppend (name : Name) :
    Evolves directory (directory.openAppend name).1 fun _ => false :=
  ⟨next_openAppend, fun _ _ old => by simp [stands_openAppend old], Grown.openAppend⟩

theorem Evolves.append (written : Nat) (chunk : Chunk Process) :
    Evolves directory (directory.append written chunk) fun _ => false :=
  ⟨Nat.le_refl _, fun _ _ _ => by simp [stands_append], Grown.append⟩

theorem Evolves.then {middle : Directory Process} {gone : Name → Bool}
    (first : Evolves directory middle gone) (last : Evolves middle after fun _ => false) :
    Evolves directory after gone where
  next := Nat.le_trans first.next last.next
  stands name inode old := by
    rw [last.stands name inode (Nat.lt_of_lt_of_le old first.next), first.stands name inode old]
    simp
  grown := first.grown.trans last first.next

variable [DecidableEq Process]

end Removal

section Sizes

variable {Process : Type} {decimals : Decimals} {directory after : Directory Process}
  {serviceName name other : Name} {handler : Handler} {process writer : Process} {today : Date}

def Counted (directory : Directory Process) (handler : Handler) : Prop :=
  ∀ inode, handler.stream = some inode → ∃ day part file,
    handler.currentDate = some day ∧
      directory.files.find (pathFor handler.serviceName day part) = some file ∧
      file.inode = inode ∧ file.size = handler.currentSize

theorem Counted.closed (closed : handler.stream = none) : Counted directory handler := by
  intro inode stream
  rw [closed] at stream
  cases stream

theorem openForDate_counted {nextPart : Bool} :
    Counted (openForDate decimals handler directory today nextPart).2
      (openForDate decimals handler directory today nextPart).1 := by
  intro inode stream
  simp only [openForDate, openAppend_answer, Option.some.injEq] at stream ⊢
  exact ⟨today, _, _, rfl, find_opened, stream, rfl⟩

theorem Counted.openAppend (counted : Counted directory handler) :
    Counted (directory.openAppend name).1 handler := by
  intro inode stream
  obtain ⟨day, part, file, current, found, same, size⟩ := counted inode stream
  refine ⟨day, part, file, current, ?_, same, size⟩
  rw [find_openAppend]
  split
  · next equal => simp [Directory.opened, ← equal, found]
  · exact found

theorem Counted.unlink {gone : Name → Bool} (counted : Counted directory handler)
    (kept : ∀ day part, gone (pathFor handler.serviceName day part) = false) :
    Counted (directory.unlink gone) handler := by
  intro inode stream
  obtain ⟨day, part, file, current, found, same, size⟩ := counted inode stream
  exact ⟨day, part, file, current, by simp [find_unlink, kept, found], same, size⟩

/-- Another service's record goes into another file. -/
theorem Counted.append {written : Nat} {chunk : Chunk Process} {foreign : Handler}
    (counted : Counted directory handler) (attached : Attached directory foreign)
    (stream : foreign.stream = some written) (apart : foreign.serviceName ≠ handler.serviceName) :
    Counted (directory.append written chunk) handler := by
  intro inode own
  obtain ⟨day, part, file, current, found, same, size⟩ := counted inode own
  obtain ⟨_, _, _, placed⟩ := attached written stream
  have missed : file.inode ≠ written := by
    intro hit
    obtain ⟨_, equal⟩ := placed _ file found hit
    exact apart (pathFor_inj handler.plain foreign.plain equal).1.symm
  exact ⟨day, part, file, current, by simp [find_append, found, missed], same, size⟩

theorem write_counted {message : List Char} (counted : Counted directory handler) :
    Counted (write process handler directory message).2.1
      (write process handler directory message).1 := by
  cases stream : handler.stream with
  | none =>
      rw [write_closed stream]
      exact .closed stream
  | some inode =>
      obtain ⟨day, part, file, current, found, same, size⟩ := counted inode stream
      rw [write_open stream]
      intro own opened
      refine ⟨day, part, _, current, by rw [find_append, found, Option.map_some, if_pos same],
        ?_, ?_⟩
      · exact same.trans (Option.some.inj (stream.symm.trans opened))
      · simp only [File.size] at size ⊢
        simp [size]

structure Prepared (directory : Directory Process) (handler : Handler)
    (ready : Handler × Directory Process) : Prop where
  serviceName : ready.1.serviceName = handler.serviceName
  attached : Attached directory handler → Attached ready.2 ready.1
  counted : Counted directory handler → Counted ready.2 ready.1
  others : ∀ other, Attached directory other → Attached ready.2 other
  foreign : ∀ other : Handler, Attached directory handler →
    other.serviceName ≠ handler.serviceName → Counted directory other → Counted ready.2 other

theorem openForDate_prepared {nextPart : Bool} : Prepared directory handler
    (openForDate decimals (closeStream handler) directory today nextPart) where
  serviceName := rfl
  attached _ := openForDate_attached
  counted _ := openForDate_counted
  others _ attached := attached.openAppend
  foreign _ _ _ counted := counted.openAppend

theorem pruned_foreign {retentionDays : Nat} (apart : handler.serviceName ≠ serviceName)
    (named : plainName serviceName = true) (counted : Counted directory handler) :
    Counted (directory.unlink (expiredName decimals serviceName retentionDays today)) handler := by
  apply counted.unlink
  intro day part
  rw [expiredName_pathFor handler.plain named]
  simp [Ne.symm apart]

theorem Ready.prepared {message : List Char} {ready : Handler × Directory Process}
    (through : Ready decimals handler directory message today ready) :
    Prepared directory handler ready := by
  cases through with
  | day changed fit =>
      have opened : Prepared _ handler (openForDate decimals (closeStream handler)
          (directory.unlink (expiredName decimals handler.serviceName
            handler.controls.retentionDays today)) today false) := openForDate_prepared
      exact
        { serviceName := rfl
          attached := fun _ => openForDate_attached
          counted := fun _ => openForDate_counted
          others := fun other attached => opened.others other attached.unlink
          foreign := fun other attached apart counted => opened.foreign other attached.unlink
            apart (pruned_foreign apart handler.plain counted) }
  | part current => exact openForDate_prepared
  | standing current room => exact ⟨rfl, id, id, fun _ => id, fun _ _ _ => id⟩

theorem emit_prepares {message : List Char} : Prepared directory handler
    ((emit decimals process handler directory message today).1,
      (emit decimals process handler directory message today).2.1) := by
  rcases emit_cases decimals process handler directory message today with
    ⟨_, _, same⟩ | ⟨ready, through, same⟩
  · rw [same]
    exact ⟨rfl, fun _ => .closed rfl, fun _ => .closed rfl, fun _ => id, fun _ _ _ => id⟩
  · rw [same]
    have before := through.prepared
    have counted (own : Counted directory handler) :
        Counted (write process ready.1 ready.2 message).2.1
          (write process ready.1 ready.2 message).1 := write_counted (before.counted own)
    cases stream : ready.1.stream with
    | none => simpa only [write_closed stream] using before
    | some inode =>
        simp only [write_open stream] at counted ⊢
        exact
          { serviceName := before.serviceName
            attached := fun attached => (before.attached attached).append
            counted := counted
            others := fun other attached => (before.others other attached).append
            foreign := fun other attached apart held =>
              (before.foreign other attached apart held).append (before.attached attached) stream
                (before.serviceName ▸ Ne.symm apart) }

section Writers

variable [DecidableEq Process]

structure Counting (state : State Process) (serviceName : Name) (process : Process) : Prop where
  attached : ∀ other handler, state.handlers other = some handler →
    Attached state.directory handler
  counted : ∀ other handler, state.handlers other = some handler →
    handler.serviceName = serviceName → other = process ∧ Counted state.directory handler

def SoleWriter (serviceName : Name) (process : Process) (event : State Process × Action Process) :
    Prop :=
  ∀ other controls today, event.2 = .start other serviceName controls today → other = process

theorem Counting.set {state : State Process} {changed : Option Handler}
    (counting : Counting state serviceName process)
    (attached : ∀ held, Attached state.directory held → Attached after held)
    (counted : ∀ other held, other ≠ writer → state.handlers other = some held →
      held.serviceName = serviceName → Counted after held)
    (own : ∀ held, changed = some held → Attached after held ∧
      (held.serviceName = serviceName → writer = process ∧ Counted after held)) :
    Counting (state.set writer changed after) serviceName process where
  attached other held found := by
    rcases set_handlers found with ⟨_, same⟩ | ⟨_, known⟩
    · exact (own held same).1
    · exact attached held (counting.attached other held known)
  counted other held found service := by
    rcases set_handlers found with ⟨rfl, same⟩ | ⟨apart, known⟩
    · exact (own held same).2 service
    · exact ⟨(counting.counted other held known service).1,
        counted other held apart known service⟩

theorem counting_inductive : Inductive (step decimals)
    (fun state action => SoleWriter serviceName process (state, action))
    (fun state => Counting state serviceName process) where
  kept {state action final} counting sole moved := by
    cases action with
    | start other service controls today =>
        obtain ⟨free, named, _, handler, shown, _, _, opened, rfl, rfl⟩ := start_ok moved
        refine counting.set (fun held attached => attached.unlink.openAppend) ?_ ?_
        · intro third held apart known same
          -- The one process of the service goes on, so the new one is of another service.
          have mine := counting.counted third held known same
          have foreign : held.serviceName ≠ service := by
            intro equal
            have started := sole other controls today (by rw [← equal, same])
            exact apart (mine.1.trans started.symm)
          exact (pruned_foreign foreign named mine.2).openAppend
        · intro held same
          cases same
          refine ⟨openForDate_attached, fun equal => ⟨?_, openForDate_counted⟩⟩
          have mine : service = serviceName := shown.symm.trans equal
          exact sole other controls today (mine ▸ rfl)
    | reconfigure other controls =>
        obtain ⟨handler, found, rfl⟩ := Option.map_eq_some_iff.mp moved
        refine counting.set (fun _ => id)
          (fun third held _ known same => (counting.counted third held known same).2) ?_
        intro held same
        cases same
        exact ⟨counting.attached other handler found, counting.counted other handler found⟩
    | emit other message today =>
        obtain ⟨handler, found, rfl⟩ := Option.map_eq_some_iff.mp moved
        have prepares : Prepared state.directory handler
            ((emit decimals other handler state.directory message today).1,
              (emit decimals other handler state.directory message today).2.1) := emit_prepares
        have attached := counting.attached other handler found
        refine counting.set (fun held => prepares.others held) ?_ ?_
        · intro third held apart known same
          have mine := counting.counted third held known same
          apply prepares.foreign held attached _ mine.2
          intro equal
          exact apart (mine.1.trans
            (counting.counted other handler found (equal.symm.trans same)).1.symm)
        · intro held same
          cases same
          refine ⟨prepares.attached attached, fun equal => ?_⟩
          have own := counting.counted other handler found (prepares.serviceName.symm.trans equal)
          exact ⟨own.1, prepares.counted own.2⟩
    | close other =>
        obtain ⟨handler, found, rfl⟩ := Option.map_eq_some_iff.mp moved
        refine counting.set (fun _ => id)
          (fun third held _ known same => (counting.counted third held known same).2) ?_
        intro held same
        cases same
        exact ⟨.closed rfl, fun equal =>
          ⟨(counting.counted other handler found equal).1, .closed rfl⟩⟩
    | exit other =>
        obtain ⟨handler, found, rfl⟩ := Option.map_eq_some_iff.mp moved
        exact counting.set (fun _ => id)
          (fun third held _ known same => (counting.counted third held known same).2) nofun

omit [DecidableEq Process] in
theorem absent_size (absent : name ∉ directory.names) : (directory.opened name).size = 0 := by
  unfold Directory.opened
  cases found : directory.files.find name with
  | none => rfl
  | some file => exact absurd (mem_names.mpr ⟨file, found⟩) absent

omit [DecidableEq Process] in
theorem openForDate_next : (openForDate decimals handler directory today true).1.currentSize = 0 := by
  simp only [openForDate, openAppend_answer, chosenPart, Bool.true_or, if_true]
  exact absent_size (later_part_absent (Nat.lt_succ_self _))

/-- The record comes first after a change of the day, and the newest part of that day has room,
but not for the whole record. -/
def Reopened (decimals : Decimals) (directory : Directory Process) (handler : Handler)
    (today : Date) (length : Nat) : Prop :=
  some today ≠ handler.currentDate ∧ ∃ file,
    (directory.unlink (expiredName decimals handler.serviceName handler.controls.retentionDays
        today)).files.find (pathFor handler.serviceName today (latestPart decimals
          handler.serviceName today (directory.unlink (expiredName decimals handler.serviceName
            handler.controls.retentionDays today)).names)) = some file ∧
      file.size < handler.controls.maxBytes ∧ handler.controls.maxBytes < file.size + length

omit [DecidableEq Process] in
theorem Ready.size {message : List Char} {ready : Handler × Directory Process}
    (through : Ready decimals handler directory message today ready) :
    ready.1.currentDate = some today ∧
      (handler.controls.maxBytes < ready.1.currentSize + (encoded message).length ↔
        handler.controls.maxBytes < (encoded message).length ∨
          Reopened decimals directory handler today (encoded message).length) := by
  cases through with
  | day changed fit =>
      refine ⟨rfl, ?_⟩
      unfold Reopened
      simp only [ne_eq, changed, not_false_eq_true, true_and]
      generalize directory.unlink (expiredName decimals handler.serviceName
        handler.controls.retentionDays today) = pruned
      simp only [openForDate, openAppend_answer, closeStream, chosenPart, Bool.false_or]
      cases found : pruned.files.find (pathFor handler.serviceName today
          (latestPart decimals handler.serviceName today pruned.names)) with
      | none => simp [Directory.isFull, Directory.opened, found, File.size]
      | some file =>
          by_cases full : handler.controls.maxBytes ≤ file.size
          · have next : (pruned.opened (pathFor handler.serviceName today
                (latestPart decimals handler.serviceName today pruned.names + 1))).size = 0 :=
              absent_size (later_part_absent (Nat.lt_succ_self _))
            simp only [Directory.isFull, found, decide_eq_true full, if_true, next,
              Option.some.injEq]
            simp [full]
          · simp only [Directory.isFull, found, decide_eq_false full, Bool.false_eq_true,
              if_false, Directory.opened, Option.getD_some, Option.some.injEq, exists_eq_left']
            omega
  | part current =>
      have kept : ¬ Reopened decimals directory handler today (encoded message).length :=
        fun reopened => reopened.1 current.symm
      refine ⟨rfl, ?_⟩
      simp [openForDate_next, kept]
  | standing current room =>
      have kept : ¬ Reopened decimals directory handler today (encoded message).length :=
        fun reopened => reopened.1 current.symm
      refine ⟨current, ?_⟩
      simp only [kept, or_false]
      by_cases empty : handler.currentSize = 0
      · simp [empty]
      · have below : ¬ handler.controls.maxBytes <
            handler.currentSize + (encoded message).length := fun more => room ⟨empty, more⟩
        omega

/-- With one process for the service at a time, a record leaves its part larger than the limit
exactly when it is itself longer, or when it was appended unchecked after a change of the day. -/
theorem part_size_exact {start final : State Process}
    {events : List (State Process × Action Process)} {message : List Char}
    (run : Run (step decimals) start events final)
    (fresh : ∀ process, start.handlers process = none)
    (sole : ∀ event ∈ events, SoleWriter serviceName process event)
    (found : final.handlers process = some handler) (service : handler.serviceName = serviceName)
    (accepted : (emit decimals process handler final.directory message today).2.2 = none) :
    ∃ part file,
      (emit decimals process handler final.directory message today).2.1.files.find
          (pathFor serviceName today part) = some file ∧
        (emit decimals process handler final.directory message today).1.stream =
          some file.inode ∧
        (handler.controls.maxBytes < file.size ↔
          handler.controls.maxBytes < (encoded message).length ∨
            Reopened decimals final.directory handler today (encoded message).length) := by
  have initial : Counting start serviceName process := by
    constructor
    · intro other held known
      rw [fresh other] at known
      cases known
    · intro other held known
      rw [fresh other] at known
      cases known
  have counting := counting_inductive.run run initial sole
  have counted := (counting.counted process handler found service).2
  rcases emit_cases decimals process handler final.directory message today with
    ⟨_, _, same⟩ | ⟨ready, through, same⟩
  · simp [same] at accepted
  · rw [same] at accepted ⊢
    obtain ⟨current, exact_⟩ := through.size
    have before := through.prepared
    cases stream : ready.1.stream with
    | none => simp [write_closed stream] at accepted
    | some inode =>
        have after : Counted (write process ready.1 ready.2 message).2.1
            (write process ready.1 ready.2 message).1 := write_counted (before.counted counted)
        rw [write_open stream] at after ⊢
        obtain ⟨day, part, file, dated, placed, numbered, size⟩ := after inode stream
        have days : day = today := Option.some.inj (dated.symm.trans current)
        subst days
        refine ⟨part, file, ?_, by rw [numbered]; exact stream, ?_⟩
        · rw [← service, ← before.serviceName]
          exact placed
        · rw [size]
          exact exact_

end Writers

end Sizes

section Samples

def nextDay : Date := ⟨2026, 8, 26, by decide⟩

/-- The next day's file stands there before that day, as after a clock that went back. -/
def earlyFile : File Bool := ⟨pathFor api nextDay 0, 0, [⟨none, [97, 10]⟩]⟩

def earlyDirectory : Directory Bool where
  files := Table.empty.insertNew earlyFile
  next := 1
  fresh := by
    intro file member
    cases List.mem_singleton.mp member
    decide
  distinct := List.nodup_singleton _

def longDay : Date := ⟨2026, 8, 31, by decide⟩

def restarted : List (Action Bool) :=
  [.start true api smallControls day2026, .exit true, .start true api smallControls longDay]

theorem part_size_exact_reopened : ∃ events final handler,
    Run (step asciiDecimals) ⟨earlyDirectory, fun _ => none⟩ events final ∧
      final.handlers true = some handler ∧ ∃ part file,
        (emit asciiDecimals true handler final.directory ['b', 'c'] nextDay).2.1.files.find
            (pathFor api nextDay part) = some file ∧
          (emit asciiDecimals true handler final.directory ['b', 'c'] nextDay).1.stream =
            some file.inode ∧
          (handler.controls.maxBytes < file.size ↔
            handler.controls.maxBytes < (encoded ['b', 'c']).length ∨
              Reopened asciiDecimals final.directory handler nextDay
                (encoded ['b', 'c']).length) := by
  have replays : (replay (step asciiDecimals) ⟨earlyDirectory, fun _ => none⟩
      [.start true api smallControls day2026]).any (fun outcome =>
        outcome.1.all (fun event => match event.2 with
          | .start process _ _ _ => process
          | _ => true) && (outcome.2.handlers true).any fun handler : Handler =>
            decide (handler.serviceName = api) &&
              decide ((emit asciiDecimals true handler outcome.2.directory ['b', 'c']
                nextDay).2.2 = none)) = true := by decide
  obtain ⟨events, final, run, checked⟩ := replay_checked replays
  rw [Bool.and_eq_true, List.all_eq_true, Option.any_eq_true] at checked
  obtain ⟨mine, handler, found, written⟩ := checked
  rw [Bool.and_eq_true, decide_eq_true_eq, decide_eq_true_eq] at written
  have sole : ∀ event ∈ events, SoleWriter api true event := by
    intro event member other controls today started
    have own := mine event member
    rw [started] at own
    exact own
  exact ⟨events, final, handler, run, found,
    part_size_exact run (fun _ => rfl) sole found written.1 written.2⟩

end Samples

end AgentTaskPlatform.LogRotation
