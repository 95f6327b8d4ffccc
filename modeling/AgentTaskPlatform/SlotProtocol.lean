import AgentTaskPlatform.Coordination

/-!
The protocol of the executor threads: where `_blocking_acquire` and `_blocking_release`
stand between two of their steps, and which connection they have in hand.
-/

namespace AgentTaskPlatform.Coordination

open Interleaving

inductive Step where
  | checking
  | taking
  | opening (conn : Conn)
  | locking (conn : Conn)
  | fetching (conn : Conn) (granted : Bool)
  | storing (conn : Conn)
  /-- In the `except`. -/
  | failing (conn : Conn) (error : Exc)
  /-- In the `finally`. -/
  | leaving (conn : Conn) (outcome : Except Exc Bool)
  | returning (conn : Conn) (outcome : Except Exc Bool)
  | popping
  | reopening (conn : Conn)
  | unlocking (conn : Conn)
  | confirming (conn : Conn)
  | committing (conn : Conn)
  | putting (conn : Conn) (outcome : Except Exc Bool)
  | done (outcome : Except Exc Bool)

structure Phase where
  job : Job
  step : Step

def orElse {α : Type} (answer : Except Exc α) (next : α → Step) (raised : Exc → Step) : Step :=
  match answer with
  | .ok value => next value
  | .error error => raised error

namespace Step

def after : Step → (op : Op) → op.Answer → Step
  | .checking, .known _, true => .done (.ok true)
  | .checking, .known _, false => .taking
  | .taking, .getconn, answer => orElse answer .opening fun error => .done (.error error)
  | .opening conn, .cursor _, answer => orElse answer (fun _ => .locking conn) (.failing conn)
  | .locking conn, .tryLock _ _, answer => orElse answer (.fetching conn) (.failing conn)
  | .fetching conn granted, .fetchone _, answer =>
      orElse answer (fun _ => if granted then .storing conn else .leaving conn (.ok false))
        (.failing conn)
  | .storing conn, .store _ _, _ => .leaving conn (.ok true)
  | .failing conn error, .putconn _, answer =>
      orElse answer (fun _ => .leaving conn (.error error)) fun second =>
        .leaving conn (.error second)
  | .leaving conn outcome, .missing _, true => .returning conn outcome
  | .leaving _ outcome, .missing _, false => .done outcome
  | .returning _ outcome, .putconn _, answer =>
      orElse answer (fun _ => .done outcome) fun error => .done (.error error)
  | .popping, .pop _, none => .done (.ok false)
  | .popping, .pop _, some conn => .reopening conn
  | .reopening conn, .cursor _, answer =>
      orElse answer (fun _ => .unlocking conn) fun error => .putting conn (.error error)
  | .unlocking conn, .unlock _ _, answer =>
      orElse answer (fun _ => .confirming conn) fun error => .putting conn (.error error)
  | .confirming conn, .fetchone _, answer =>
      orElse answer (fun _ => .committing conn) fun error => .putting conn (.error error)
  | .committing conn, .commit _, answer =>
      orElse answer (fun _ => .putting conn (.ok false)) fun error => .putting conn (.error error)
  | .putting _ outcome, .putconn _, answer =>
      orElse answer (fun _ => .done outcome) fun error => .done (.error error)
  | step, _, _ => step

end Step

section Protocol

variable (hashKey : String → Int)

inductive Permitted (job : Job) : Step → Op → Prop where
  | known : Permitted job .checking (.known job.key)
  | getconn : Permitted job .taking .getconn
  | cursor (conn : Conn) : Permitted job (.opening conn) (.cursor conn)
  | tryLock (conn : Conn) : Permitted job (.locking conn) (.tryLock conn (hashKey job.key))
  | fetchone (conn : Conn) (granted : Bool) :
      Permitted job (.fetching conn granted) (.fetchone conn)
  | store (conn : Conn) : Permitted job (.storing conn) (.store job.key conn)
  | putRaised (conn : Conn) (error : Exc) : Permitted job (.failing conn error) (.putconn conn)
  | missing (conn : Conn) (outcome : Except Exc Bool) :
      Permitted job (.leaving conn outcome) (.missing job.key)
  | putMissing (conn : Conn) (outcome : Except Exc Bool) :
      Permitted job (.returning conn outcome) (.putconn conn)
  | pop : Permitted job .popping (.pop job.key)
  | reopen (conn : Conn) : Permitted job (.reopening conn) (.cursor conn)
  | unlock (conn : Conn) : Permitted job (.unlocking conn) (.unlock conn (hashKey job.key))
  | confirm (conn : Conn) : Permitted job (.confirming conn) (.fetchone conn)
  | commit (conn : Conn) : Permitted job (.committing conn) (.commit conn)
  | putBack (conn : Conn) (outcome : Except Exc Bool) :
      Permitted job (.putting conn outcome) (.putconn conn)

def jobs : Protocol backend Phase where
  permits phase op := Permitted hashKey phase.job phase.step op
  after phase op answer := { phase with step := phase.step.after op answer }

def Job.opening (job : Job) : Step := if job.acquires then .checking else .popping

variable {hashKey} {job : Job} {conn : Conn}

def tried (conn : Conn) : Except Exc Bool → Step
  | .ok acquired => .leaving conn (.ok acquired)
  | .error error => .failing conn error

theorem lockOnce_follows : (jobs hashKey).Follows ⟨job, .opening conn⟩
    (lockOnce job.key (hashKey job.key) conn) fun outcome phase =>
      phase = ⟨job, tried conn outcome⟩ := by
  refine ⟨.cursor conn, ?_⟩
  intro opened
  cases opened with
  | error error => exact rfl
  | ok _ =>
      refine ⟨.tryLock conn, ?_⟩
      intro verdict
      cases verdict with
      | error error => exact rfl
      | ok granted =>
          refine ⟨.fetchone conn granted, ?_⟩
          intro fetched
          cases fetched with
          | error error => exact rfl
          | ok _ =>
              cases granted with
              | false => exact rfl
              | true => exact ⟨.store conn, fun _ => rfl⟩

theorem returnMissing_follows (outcome : Except Exc Bool) :
    (jobs hashKey).Follows ⟨job, .leaving conn outcome⟩ (returnMissing job.key conn)
      fun left phase => phase = ⟨job, .done (match left with
        | .ok _ => outcome
        | .error error => .error error)⟩ := by
  refine ⟨.missing conn outcome, ?_⟩
  intro missing
  cases missing with
  | false => exact rfl
  | true =>
      refine ⟨.putMissing conn outcome, ?_⟩
      intro returned
      cases returned <;> exact rfl

theorem locked_follows : (jobs hashKey).Follows ⟨job, .opening conn⟩
    (Fallible.attempt (lockOnce job.key (hashKey job.key) conn) >>= returnRaised conn : Blocking Bool)
    fun outcome phase => phase = ⟨job, .leaving conn outcome⟩ := by
  refine Protocol.follows_attempt_next.mpr (lockOnce_follows.mono ?_)
  rintro outcome phase rfl
  cases outcome with
  | ok acquired => exact rfl
  | error error =>
      refine ⟨.putRaised conn error, ?_⟩
      intro returned
      cases returned <;> exact rfl

theorem blockingAcquire_follows : (jobs hashKey).Follows ⟨job, .checking⟩
    (blockingAcquire job.key (hashKey job.key)) fun outcome phase =>
      phase = ⟨job, .done outcome⟩ := by
  refine ⟨.known, ?_⟩
  intro known
  cases known with
  | true => exact rfl
  | false =>
      refine ⟨.getconn, ?_⟩
      intro taken
      cases taken with
      | error error => exact rfl
      | ok conn =>
          refine Protocol.follows_finallyDo.mpr (locked_follows.mono ?_)
          rintro outcome phase rfl
          refine Protocol.follows_then.mpr ((returnMissing_follows outcome).mono ?_)
          rintro left phase rfl
          cases left with
          | ok _ => exact Protocol.follows_ofExcept.mpr rfl
          | error error => exact rfl

theorem unlockOnce_follows : (jobs hashKey).Follows ⟨job, .reopening conn⟩
    (unlockOnce (hashKey job.key) conn) fun outcome phase =>
      phase = ⟨job, .putting conn outcome⟩ := by
  refine ⟨.reopen conn, ?_⟩
  intro opened
  cases opened with
  | error error => exact rfl
  | ok _ =>
      refine ⟨.unlock conn, ?_⟩
      intro unlocked
      cases unlocked with
      | error error => exact rfl
      | ok _ =>
          refine ⟨.confirm conn, ?_⟩
          intro fetched
          cases fetched with
          | error error => exact rfl
          | ok _ =>
              refine ⟨.commit conn, ?_⟩
              intro committed
              cases committed <;> exact rfl

theorem blockingRelease_follows : (jobs hashKey).Follows ⟨job, .popping⟩
    (blockingRelease job.key (hashKey job.key)) fun outcome phase =>
      phase = ⟨job, .done outcome⟩ := by
  refine ⟨.pop, ?_⟩
  intro popped
  cases popped with
  | none => exact rfl
  | some conn =>
      refine Protocol.follows_finallyDo.mpr (unlockOnce_follows.mono ?_)
      rintro outcome phase rfl
      refine ⟨.putBack conn outcome, ?_⟩
      intro returned
      cases returned with
      | ok _ => exact Protocol.follows_ofExcept.mpr rfl
      | error error => exact rfl

end Protocol

def Context.queuedJob (context : Context) : Option Job :=
  match context.status with
  | .queued index => some ⟨context.process, context.slot index, true⟩
  | .unlocking index => some ⟨context.process, context.slot index, false⟩
  | _ => none

def Entry.phase (state : State) : Entry → Option Phase
  | .start index => (state.contexts[index]?.bind Context.queuedJob).map fun job =>
      ⟨job, job.opening⟩
  | _ => none

section Launch

variable {hashKey : String → Int} {config : SlotConfig} {entry : Entry} {state : State}
  {spawned : Option SlotThread}

inductive Moves (hashKey : String → Int) (config : SlotConfig) : Entry → Context → Context →
    Option SlotThread → Prop where
  | loop (index : Nat) (context : Context) (status : context.status = .looping) :
      Moves hashKey config (.loop index) context { context with status := .queued 0 } none
  | timeUp (index : Nat) (context : Context) (status : context.status = .looping) :
      Moves hashKey config (.timeUp index) context { context with status := .refused } none
  | startAcquire (index slot : Nat) (context : Context) (status : context.status = .queued slot) :
      Moves hashKey config (.start index) context
        { context with status := .acquiring slot config.threads.length }
        (some
          { tag := ⟨context.process, context.slot slot, true⟩
            program := blockingAcquire (context.slot slot) (hashKey (context.slot slot)) })
  | startRelease (index slot : Nat) (context : Context) (status : context.status = .unlocking slot) :
      Moves hashKey config (.start index) context
        { context with status := .releasing slot config.threads.length }
        (some
          { tag := ⟨context.process, context.slot slot, false⟩
            program := blockingRelease (context.slot slot) (hashKey (context.slot slot)) })
  | resume (index : Nat) (context after : Context) {thread : Nat} {job : Job}
      {outcome : Except Exc Bool} (awaits : context.status.awaits = some thread)
      (ended : config.threads[thread]? = some ⟨job, .ret outcome⟩)
      (resumes : context.resume outcome = some after) :
      Moves hashKey config (.resume index) context after none
  | wake (index : Nat) (context : Context) (status : context.status = .sleeping) :
      Moves hashKey config (.wake index) context { context with status := .looping } none
  | exitGranted (index slot : Nat) (context : Context) (status : context.status = .granted slot) :
      Moves hashKey config (.exit index) context { context with status := .unlocking slot } none
  | exitRefused (index : Nat) (context : Context) (status : context.status = .refused) :
      Moves hashKey config (.exit index) context { context with status := .closed } none
  | cancel (index : Nat) (context after : Context) (cancels : context.cancel = some after) :
      Moves hashKey config (.cancel index) context after none

def Entry.context : Entry → Option Nat
  | .enter _ _ _ => none
  | .loop index => some index
  | .timeUp index => some index
  | .start index => some index
  | .resume index => some index
  | .wake index => some index
  | .exit index => some index
  | .cancel index => some index

theorem advance_some {index : Nat} {next : Context → Option Context} {before : State}
    (advanced : advance before index next = some (state, spawned)) :
    ∃ context after, before.contexts[index]? = some context ∧ next context = some after ∧
      state = before.put index after ∧ spawned = none := by
  unfold advance at advanced
  split at advanced
  · cases advanced
  · next context found =>
      split at advanced
      · cases advanced
      · next after moved =>
          cases advanced
          exact ⟨context, after, found, moved, rfl, rfl⟩

theorem launch_cases
    (launched : (slotSystem hashKey).launch entry config = some (state, spawned)) :
    (∃ process key limit, entry = .enter process key limit ∧ spawned = none ∧
      state = { config.state with
        contexts := config.state.contexts ++ [⟨process, key, limit, opened limit, false⟩] }) ∨
    ∃ index context after, entry.context = some index ∧
      config.state.contexts[index]? = some context ∧
      Moves hashKey config entry context after spawned ∧ state = config.state.put index after := by
  cases entry with
  | enter process key limit =>
      cases launched
      exact Or.inl ⟨process, key, limit, rfl, rfl, rfl⟩
  | loop index =>
      obtain ⟨context, after, found, moved, rfl, rfl⟩ := advance_some launched
      split at moved
      · next status =>
          cases moved
          exact Or.inr ⟨index, context, _, rfl, found, .loop index context status, rfl⟩
      · cases moved
  | timeUp index =>
      obtain ⟨context, after, found, moved, rfl, rfl⟩ := advance_some launched
      split at moved
      · next status =>
          cases moved
          exact Or.inr ⟨index, context, _, rfl, found, .timeUp index context status, rfl⟩
      · cases moved
  | start index =>
      simp only [slotSystem, Entry.launch] at launched
      split at launched
      · cases launched
      · next context found =>
          cases status : context.status with
          | queued slot =>
              simp only [Context.job, status] at launched
              cases launched
              exact Or.inr ⟨index, context, _, rfl, found, .startAcquire index slot context status, rfl⟩
          | unlocking slot =>
              simp only [Context.job, status] at launched
              cases launched
              exact Or.inr ⟨index, context, _, rfl, found, .startRelease index slot context status, rfl⟩
          | _ => simp [Context.job, status] at launched
  | resume index =>
      obtain ⟨context, after, found, moved, rfl, rfl⟩ := advance_some launched
      split at moved
      · cases moved
      · next thread awaits =>
          split at moved
          · next job outcome ended =>
              exact Or.inr ⟨index, context, after, rfl, found,
                .resume index context after awaits ended moved, rfl⟩
          · cases moved
  | wake index =>
      obtain ⟨context, after, found, moved, rfl, rfl⟩ := advance_some launched
      split at moved
      · next status =>
          cases moved
          exact Or.inr ⟨index, context, _, rfl, found, .wake index context status, rfl⟩
      · cases moved
  | exit index =>
      obtain ⟨context, after, found, moved, rfl, rfl⟩ := advance_some launched
      split at moved
      · next slot status =>
          cases moved
          exact Or.inr ⟨index, context, _, rfl, found, .exitGranted index slot context status, rfl⟩
      · next status =>
          cases moved
          exact Or.inr ⟨index, context, _, rfl, found, .exitRefused index context status, rfl⟩
      · cases moved
  | cancel index =>
      obtain ⟨context, after, found, moved, rfl, rfl⟩ := advance_some launched
      exact Or.inr ⟨index, context, after, rfl, found, .cancel index context after moved, rfl⟩

end Launch

def discipline (hashKey : String → Int) : Discipline (slotSystem hashKey) Phase where
  protocol := jobs hashKey
  start entry state := entry.phase state
  concludes outcome phase := phase.step = .done outcome
  belongs job phase := phase.job = job
  belongs_after _ _ _ _ belongs := belongs
  launched entry config state thread launched := by
    rcases launch_cases launched with ⟨_, _, _, _, none, _⟩ | ⟨index, context, after, about, found, moves, _⟩
    · cases none
    · cases moves with
      | startAcquire index slot context status =>
          refine ⟨⟨⟨context.process, context.slot slot, true⟩, .checking⟩, ?_, rfl,
            blockingAcquire_follows.mono ?_⟩
          · cases about
            simp [Entry.phase, found, Context.queuedJob, status, Job.opening]
          · rintro outcome phase rfl
            rfl
      | startRelease index slot context status =>
          refine ⟨⟨⟨context.process, context.slot slot, false⟩, .popping⟩, ?_, rfl,
            blockingRelease_follows.mono ?_⟩
          · cases about
            simp [Entry.phase, found, Context.queuedJob, status, Job.opening]
          · rintro outcome phase rfl
            rfl

end AgentTaskPlatform.Coordination
