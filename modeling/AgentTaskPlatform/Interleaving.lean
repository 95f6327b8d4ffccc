import AgentTaskPlatform.Program
import Mathlib.Data.List.Induction

/-!
Interleaved execution of programs. A configuration is a shared state and the
threads started so far; a thread belongs to an event loop. One move lets a
thread perform its next operation, or lets the environment start something. A
thread moves only while every other thread of its loop waits at a yielding
operation, so code between two yields is atomic inside the loop and open to
every other loop. A thread that is never scheduled again models a crash.
-/

namespace AgentTaskPlatform.Interleaving

structure Thread (I : Interface) (Tag Result : Type) where
  tag : Tag
  program : Program I Result

structure Config (I : Interface) (State Tag Result : Type) where
  state : State
  threads : List (Thread I Tag Result)

structure System (I : Interface) (State Tag Entry Loop Result : Type) where
  /-- The third argument is the environment's answer; operations on the shared
  state ignore it. -/
  perform : Tag → (op : I.Op) → I.Answer op → State → I.Answer op × State
  yields : I.Op → Bool
  loop : Tag → Loop
  launch : Entry → Config I State Tag Result → Option (State × Option (Thread I Tag Result))

variable {I : Interface} {State Tag Entry Loop Result : Type}

inductive Move (I : Interface) (Entry : Type) where
  | act (thread : Nat) (oracle : (op : I.Op) → I.Answer op)
  | launch (entry : Entry)

inductive Event (I : Interface) (State Tag Entry : Type) where
  | acted (thread : Nat) (tag : Tag) (op : I.Op) (answer : I.Answer op) (before after : State)
  | launched (entry : Entry) (spawned : Option (Nat × Tag)) (before after : State)

namespace Event

def before : Event I State Tag Entry → State
  | .acted _ _ _ _ before _ => before
  | .launched _ _ before _ => before

def after : Event I State Tag Entry → State
  | .acted _ _ _ _ _ after => after
  | .launched _ _ _ after => after

end Event

theorem split_at {α : Type} {items : List α} {index : Nat} {item : α}
    (found : items[index]? = some item) :
    items = items.take index ++ item :: items.drop (index + 1) := by
  obtain ⟨inside, rfl⟩ := List.getElem?_eq_some_iff.mp found
  rw [← List.drop_eq_getElem_cons inside, List.take_append_drop]

def latest {α β : Type} (pick : α → Option β) (items : List α) : Option β :=
  items.foldl (fun known item => (pick item).or known) none

theorem latest_snoc {α β : Type} (pick : α → Option β) (items : List α) (item : α) :
    latest pick (items ++ [item]) = (pick item).or (latest pick items) := by
  simp [latest]

theorem latest_split {α β : Type} {pick : α → Option β} {items : List α} {value : β}
    (found : latest pick items = some value) :
    ∃ left item right, items = left ++ item :: right ∧ pick item = some value ∧
      ∀ other ∈ right, pick other = none := by
  induction items using List.reverseRecOn with
  | nil => cases found
  | append_singleton items last ih =>
      rw [latest_snoc] at found
      cases picked : pick last with
      | some own =>
          rw [picked] at found
          cases found
          exact ⟨items, last, [], rfl, picked, by simp⟩
      | none =>
          rw [picked] at found
          obtain ⟨left, item, right, rfl, chosen, silent⟩ := ih found
          refine ⟨left, item, right ++ [last], by simp, chosen, ?_⟩
          intro other member
          rcases List.mem_append.mp member with earlier | single
          · exact silent other earlier
          · rw [List.mem_singleton.mp single]
            exact picked

theorem latest_silent {α β : Type} {pick : α → Option β} {items : List α} (left : List α)
    (silent : ∀ item ∈ items, pick item = none) :
    latest pick (left ++ items) = latest pick left := by
  induction items using List.reverseRecOn with
  | nil => simp
  | append_singleton items last ih =>
      rw [← List.append_assoc, latest_snoc, silent last (by simp)]
      exact ih fun item member => silent item (by simp [member])

theorem latest_of_split {α β : Type} {pick : α → Option β} {left right : List α} {item : α}
    {value : β} (picked : pick item = some value) (silent : ∀ other ∈ right, pick other = none) :
    latest pick (left ++ item :: right) = some value := by
  have grouped : left ++ item :: right = (left ++ [item]) ++ right := by simp
  rw [grouped, latest_silent _ silent, latest_snoc, picked]
  rfl

/-- A value stays the last one while the later elements yield no other. -/
theorem latest_kept {α β : Type} {pick : α → Option β} {left right : List α} {item : α}
    {value : β} (picked : pick item = some value)
    (kept : ∀ other ∈ right, ∀ found, pick other = some found → found = value) :
    latest pick (left ++ item :: right) = some value := by
  induction right using List.reverseRecOn with
  | nil =>
      rw [latest_snoc, picked]
      rfl
  | append_singleton items last ih =>
      have grouped : left ++ item :: (items ++ [last]) = (left ++ item :: items) ++ [last] := by
        simp
      rw [grouped, latest_snoc, ih fun other member => kept other (by simp [member])]
      cases chosen : pick last with
      | none => rfl
      | some found =>
          rw [kept last (by simp) found chosen]
          rfl

def latestSince {α β : Type} (resets : α → Bool) (pick : α → Option β) (items : List α) : Option β :=
  (latest (fun item => if resets item then some none else (pick item).map some) items).join

theorem latestSince_snoc {α β : Type} (resets : α → Bool) (pick : α → Option β) (items : List α)
    (item : α) : latestSince resets pick (items ++ [item]) =
      if resets item then none else (pick item).or (latestSince resets pick items) := by
  unfold latestSince
  rw [latest_snoc]
  cases resets item with
  | true => rfl
  | false => cases pick item <;> rfl

theorem latestSince_split {α β : Type} {resets : α → Bool} {pick : α → Option β} {items : List α}
    {value : β} (found : latestSince resets pick items = some value) :
    ∃ left item right, items = left ++ item :: right ∧ pick item = some value ∧
      ∀ other ∈ right, resets other = false ∧ pick other = none := by
  obtain ⟨left, item, right, rfl, picked, silent⟩ :=
    latest_split (Option.join_eq_some_iff.mp found)
  refine ⟨left, item, right, rfl, ?_, ?_⟩
  · split at picked
    · cases picked
    · simpa using picked
  · intro other member
    have quiet := silent other member
    split at quiet
    · cases quiet
    · next kept => exact ⟨by simpa using kept, by simpa using quiet⟩

def countSince {α : Type} (resets counts : α → Bool) (items : List α) : Nat :=
  items.foldl (fun total item => if resets item then 0 else
    if counts item then total + 1 else total) 0

theorem countSince_snoc {α : Type} (resets counts : α → Bool) (items : List α) (item : α) :
    countSince resets counts (items ++ [item]) = if resets item then 0 else
      if counts item then countSince resets counts items + 1 else countSince resets counts items := by
  simp [countSince]

def everyAt {α : Type} (check : List α → α → Bool) (items : List α) : Bool :=
  (List.range items.length).all fun index => (items[index]?).all (check (items.take index))

theorem everyAt_split {α : Type} {check : List α → α → Bool} {left right : List α} {item : α}
    (passed : everyAt check (left ++ item :: right) = true) : check left item = true := by
  have checked := List.all_eq_true.mp passed left.length (by simp)
  simpa using checked

namespace System

variable (sys : System I State Tag Entry Loop Result)

/-- The thread has finished or waits at an operation where its loop may switch. -/
def parked (thread : Thread I Tag Result) : Bool :=
  match thread.program with
  | .ret _ => true
  | .act op _ => sys.yields op

def idleExcept [DecidableEq Loop] (config : Config I State Tag Result) (loop : Loop)
    (self : Option Nat) : Bool :=
  config.threads.zipIdx.all fun entry =>
    some entry.2 == self || sys.loop entry.1.tag != loop || sys.parked entry.1

def spawnedThread (config : Config I State Tag Result) :
    Option (Thread I Tag Result) → Option (Nat × Tag)
  | none => none
  | some thread => some (config.threads.length, thread.tag)

def step [DecidableEq Loop] (config : Config I State Tag Result) :
    Move I Entry → Option (Event I State Tag Entry × Config I State Tag Result)
  | .act thread oracle =>
      match config.threads[thread]? with
      | some ⟨tag, .act op next⟩ =>
          if sys.idleExcept config (sys.loop tag) (some thread) then
            let outcome := sys.perform tag op (oracle op) config.state
            some (.acted thread tag op outcome.1 config.state outcome.2,
              { state := outcome.2
                threads := config.threads.set thread ⟨tag, next outcome.1⟩ })
          else none
      | _ => none
  | .launch entry =>
      match sys.launch entry config with
      | some (state, spawned) =>
          some (.launched entry (spawnedThread config spawned) config.state state,
            { state := state
              threads := config.threads ++ spawned.toList })
      | none => none

def performed (thread : Nat) (tag : Tag) (op : I.Op) (oracle : I.Answer op) (state : State) :
    Event I State Tag Entry :=
  .acted thread tag op (sys.perform tag op oracle state).1 state
    (sys.perform tag op oracle state).2

inductive Run [DecidableEq Loop] : Config I State Tag Result → List (Event I State Tag Entry) →
    Config I State Tag Result → Prop where
  | refl (config) : Run config [] config
  | next {config middle final event events} (move : Move I Entry) :
      sys.step config move = some (event, middle) → Run middle events final →
      Run config (event :: events) final

def replay [DecidableEq Loop] (config : Config I State Tag Result) :
    List (Move I Entry) → Option (List (Event I State Tag Entry) × Config I State Tag Result)
  | [] => some ([], config)
  | move :: rest =>
      match sys.step config move with
      | none => none
      | some (event, middle) =>
          match replay middle rest with
          | none => none
          | some (events, final) => some (event :: events, final)

variable {sys} [DecidableEq Loop]

theorem replay_run (moves : List (Move I Entry)) {config final : Config I State Tag Result}
    {events : List (Event I State Tag Entry)}
    (replayed : sys.replay config moves = some (events, final)) :
    sys.Run config events final := by
  induction moves generalizing config events final with
  | nil =>
      simp only [replay, Option.some.injEq, Prod.mk.injEq] at replayed
      rw [← replayed.1, ← replayed.2]
      exact .refl config
  | cons move rest ih =>
      cases taken : sys.step config move with
      | none => simp [replay, taken] at replayed
      | some found =>
          cases tail : sys.replay found.2 rest with
          | none => simp [replay, taken, tail] at replayed
          | some outcome =>
              simp only [replay, taken, tail, Option.some.injEq, Prod.mk.injEq] at replayed
              rw [← replayed.1, ← replayed.2]
              exact .next move taken (ih tail)

theorem replay_checked {moves : List (Move I Entry)} {config : Config I State Tag Result}
    {check : List (Event I State Tag Entry) × Config I State Tag Result → Bool}
    (passed : (sys.replay config moves).any check = true) :
    ∃ events final, sys.Run config events final ∧ check (events, final) = true := by
  cases replayed : sys.replay config moves with
  | none => simp [replayed] at passed
  | some outcome =>
      rw [replayed] at passed
      exact ⟨outcome.1, outcome.2, replay_run moves replayed, passed⟩

theorem Run.split (left : List (Event I State Tag Entry))
    {right : List (Event I State Tag Entry)} {config final : Config I State Tag Result}
    (run : sys.Run config (left ++ right) final) :
    ∃ middle, sys.Run config left middle ∧ sys.Run middle right final := by
  induction left generalizing config with
  | nil => exact ⟨config, .refl config, run⟩
  | cons event rest ih =>
      cases run with
      | next move taken tail =>
          obtain ⟨middle, before, after⟩ := ih tail
          exact ⟨middle, .next move taken before, after⟩

theorem Run.at_event {left right : List (Event I State Tag Entry)}
    {event : Event I State Tag Entry} {config final : Config I State Tag Result}
    (run : sys.Run config (left ++ event :: right) final) :
    ∃ before after move, sys.Run config left before ∧
      sys.step before move = some (event, after) ∧ sys.Run after right final := by
  obtain ⟨before, first, rest⟩ := run.split
  cases rest with
  | next move taken tail => exact ⟨before, _, move, first, taken, tail⟩

theorem idleExcept_parked {config : Config I State Tag Result} {loop : Loop}
    {self : Option Nat} (idle : sys.idleExcept config loop self = true) {index : Nat}
    {thread : Thread I Tag Result} (present : config.threads[index]? = some thread)
    (other : some index ≠ self) (same : sys.loop thread.tag = loop) :
    sys.parked thread = true := by
  have member : (thread, index) ∈ config.threads.zipIdx := by
    rw [List.mem_zipIdx_iff_getElem?]
    exact present
  have checked := List.all_eq_true.mp idle (thread, index) member
  simpa [other, same] using checked

/-- What a move of a thread is: its next operation performed on the shared
state, taken while the rest of its loop is parked. -/
theorem step_act {config after : Config I State Tag Result}
    {event : Event I State Tag Entry} {thread : Nat}
    {oracle : (op : I.Op) → I.Answer op}
    (taken : sys.step config (.act thread oracle) = some (event, after)) :
    ∃ tag op next, config.threads[thread]? = some ⟨tag, .act op next⟩ ∧
      sys.idleExcept config (sys.loop tag) (some thread) = true ∧
      event = .acted thread tag op (sys.perform tag op (oracle op) config.state).1
        config.state (sys.perform tag op (oracle op) config.state).2 ∧
      after = { state := (sys.perform tag op (oracle op) config.state).2
                threads := config.threads.set thread
                  ⟨tag, next (sys.perform tag op (oracle op) config.state).1⟩ } := by
  simp only [step] at taken
  split at taken
  · next tag op next found =>
      split at taken
      · next idle =>
          simp only [Option.some.injEq, Prod.mk.injEq] at taken
          exact ⟨tag, op, next, found, idle, taken.1.symm, taken.2.symm⟩
      · cases taken
  · cases taken

theorem step_launch {config after : Config I State Tag Result}
    {event : Event I State Tag Entry} {entry : Entry}
    (taken : sys.step config (.launch entry) = some (event, after)) :
    ∃ state spawned, sys.launch entry config = some (state, spawned) ∧
      event = .launched entry (spawnedThread config spawned) config.state state ∧
      after = { state := state, threads := config.threads ++ spawned.toList } := by
  simp only [step] at taken
  split at taken
  · next state spawned found =>
      simp only [Option.some.injEq, Prod.mk.injEq] at taken
      exact ⟨state, spawned, found, taken.1.symm, taken.2.symm⟩
  · cases taken

theorem step_states {config after : Config I State Tag Result}
    {event : Event I State Tag Entry} {move : Move I Entry}
    (taken : sys.step config move = some (event, after)) :
    event.before = config.state ∧ event.after = after.state := by
  cases move with
  | act thread oracle =>
      obtain ⟨_, _, _, _, _, rfl, rfl⟩ := step_act taken
      exact ⟨rfl, rfl⟩
  | launch entry =>
      obtain ⟨_, _, _, rfl, rfl⟩ := step_launch taken
      exact ⟨rfl, rfl⟩

theorem Run.ends {left : List (Event I State Tag Entry)} {event : Event I State Tag Entry}
    {config final : Config I State Tag Result} (run : sys.Run config (left ++ [event]) final) :
    event.after = final.state := by
  obtain ⟨before, after, move, _, taken, rest⟩ := run.at_event
  cases rest
  exact (step_states taken).2

/-- Neighbouring events share the state between them. -/
theorem Run.meets {left right : List (Event I State Tag Entry)}
    {event next : Event I State Tag Entry} {config final : Config I State Tag Result}
    (run : sys.Run config (left ++ event :: next :: right) final) : event.after = next.before := by
  obtain ⟨before, after, move, _, taken, rest⟩ := run.at_event
  cases rest with
  | next move following _ =>
      rw [(step_states taken).2, (step_states following).1]

def Since {Value : Type} (pick : Event I State Tag Entry → Option Value)
    (differs : State → Value → Prop) (past : List (Event I State Tag Entry)) : Prop :=
  ∃ left item between last value, past = left ++ item :: (between ++ [last]) ∧
    pick item = some value ∧ (∀ event ∈ between ++ [last], pick event = none) ∧
    differs last.after value

/-- What has happened since an event shows in the state that the next event finds,
if the event itself leaves what it selects. -/
theorem Run.since_iff {Value : Type} {pick : Event I State Tag Entry → Option Value}
    {differs : State → Value → Prop} {past later : List (Event I State Tag Entry)}
    {event : Event I State Tag Entry} {config final : Config I State Tag Result} {value : Value}
    (run : sys.Run config (past ++ event :: later) final) (known : latest pick past = some value)
    (agrees : ∀ left item right, past = left ++ item :: right → pick item = some value →
      ¬ differs item.after value) :
    Since pick differs past ↔ differs event.before value := by
  have meets : ∀ {left : List (Event I State Tag Entry)} {item between last},
      past = left ++ item :: (between ++ [last]) → last.after = event.before := by
    intro left item between last split
    have grouped : past ++ event :: later =
        (left ++ item :: between) ++ last :: event :: later := by simp [split]
    rw [grouped] at run
    exact run.meets
  constructor
  · rintro ⟨left, item, between, last, selected, split, picked, silent, moved⟩
    rw [split, latest_of_split picked silent] at known
    cases known
    rwa [meets split] at moved
  · intro moved
    obtain ⟨left, item, right, split, picked, silent⟩ := latest_split known
    cases right using List.reverseRecOn with
    | nil =>
        -- Nothing lies between the two events.
        have settled := agrees left item [] split picked
        rw [split, List.append_assoc] at run
        have adjacent : item.after = event.before := run.meets
        rw [adjacent] at settled
        exact absurd moved settled
    | append_singleton between last =>
        refine ⟨left, item, between, last, value, split, picked, silent, ?_⟩
        rwa [meets split]

theorem Run.lasts (holds : State → Prop) {left right : List (Event I State Tag Entry)}
    {first : Event I State Tag Entry} {config final : Config I State Tag Result}
    (run : sys.Run config (left ++ first :: right) final) (established : holds first.after)
    (kept : ∀ past event later, right = past ++ event :: later → holds event.before →
      holds event.after) : holds final.state := by
  induction right using List.reverseRecOn generalizing final with
  | nil =>
      rw [← run.ends]
      exact established
  | append_singleton items last ih =>
      have grouped : left ++ first :: (items ++ [last]) = (left ++ first :: items) ++ [last] := by
        simp
      rw [grouped] at run
      obtain ⟨before, after, move, earlier, taken, rest⟩ := run.at_event
      cases rest
      have reached : holds before.state := ih earlier fun past event later split =>
        kept past event (later ++ [last]) (by rw [split]; simp)
      rw [← (step_states taken).1] at reached
      rw [← (step_states taken).2]
      exact kept items last [] rfl reached

theorem Run.acts_later {config final : Config I State Tag Result}
    {events : List (Event I State Tag Entry)} (run : sys.Run config events final) {index : Nat}
    {thread : Thread I Tag Result} (present : config.threads[index]? = some thread) {tag : Tag}
    {op : I.Op} {answer : I.Answer op} {before after : State}
    (acts : .acted index tag op answer before after ∈ events) :
    tag = thread.tag ∧ thread.program.finished = false := by
  induction run generalizing thread with
  | refl => cases acts
  | @next config middle final event events move taken _ ih =>
      cases move with
      | act mover oracle =>
          obtain ⟨own, operation, next, found, _, rfl, rfl⟩ := step_act taken
          by_cases same : index = mover
          · subst same
            rw [present] at found
            cases found
            refine ⟨?_, rfl⟩
            rcases List.mem_cons.mp acts with now | later
            · cases now
              rfl
            · have inside := (List.getElem?_eq_some_iff.mp present).1
              exact (ih (List.getElem?_set_self inside) later).1
          · have kept : ∀ other, (config.threads.set mover other)[index]? = some thread := by
              intro other
              rw [List.getElem?_set_ne (Ne.symm same)]
              exact present
            rcases List.mem_cons.mp acts with now | later
            · cases now
              exact absurd rfl same
            · exact ih (kept _) later
      | launch entry =>
          obtain ⟨state, spawned, _, rfl, rfl⟩ := step_launch taken
          have inside := (List.getElem?_eq_some_iff.mp present).1
          rcases List.mem_cons.mp acts with now | later
          · cases now
          · exact ih (by rw [List.getElem?_append_left inside]; exact present) later

theorem Run.crosses (inside : State → Prop) {config final : Config I State Tag Result}
    {events : List (Event I State Tag Entry)} (run : sys.Run config events final)
    (start : ¬ inside config.state) (stop : inside final.state) :
    ∃ event ∈ events, ¬ inside event.before ∧ inside event.after := by
  induction run with
  | refl => exact absurd stop start
  | @next config middle final event events move taken _ ih =>
      obtain ⟨before, after⟩ := step_states taken
      by_cases entered : inside middle.state
      · refine ⟨event, List.mem_cons_self, ?_, ?_⟩
        · rwa [before]
        · rwa [after]
      · obtain ⟨later, member, crossing⟩ := ih entered stop
        exact ⟨later, List.mem_cons_of_mem _ member, crossing⟩

end System

end AgentTaskPlatform.Interleaving
