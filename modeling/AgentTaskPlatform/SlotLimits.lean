import AgentTaskPlatform.SlotExclusion
import Mathlib.Data.List.Basic

/-!
How many contexts of a limit are in their bodies with a slot. A context only asks for
the slots below its limit, and no two have the same slot, so there are never more than
the limit allows.
-/

namespace AgentTaskPlatform.Coordination

open Interleaving

def Context.InRange (context : Context) : Prop :=
  match context.status with
  | .looping => 0 < context.limit
  | .queued index => (index : Int) < context.limit
  | .acquiring index _ => (index : Int) < context.limit
  | .sleeping => 0 < context.limit
  | .granted index => (index : Int) < context.limit
  | .refused => True
  | .unlocking index => (index : Int) < context.limit
  | .releasing index _ => (index : Int) < context.limit
  | .closed => True

section Range

variable {hashKey : String → Int} {context after : Context}

theorem resume_inRange {outcome : Except Exc Bool} (inside : context.InRange)
    (resumes : context.resume outcome = some after) : after.InRange := by
  unfold Context.resume at resumes
  split at resumes
  · cases resumes
  · split at resumes
    · next index thread status =>
        have below : (index : Int) < context.limit := by
          rwa [Context.InRange, status] at inside
        split at resumes
        · cases resumes
          exact below
        · cases resumes
          by_cases further : (index + 1 : Int) < context.limit
          · simp [Context.InRange, Context.next, further]
          · simp only [Context.InRange, Context.next, further, if_false]
            omega
    · cases resumes
      exact trivial
    · cases resumes

theorem cancel_inRange (inside : context.InRange) (cancels : context.cancel = some after) :
    after.InRange := by
  unfold Context.cancel at cancels
  split at cancels
  · cases cancels
  · split at cancels
    · cases cancels
      exact trivial
    · cases cancels
      exact trivial
    · cases cancels
      exact inside
    · cases cancels
      exact trivial
    · next index status =>
        cases cancels
        simpa [Context.InRange, status] using inside
    · cases cancels
      exact trivial
    · cases cancels
      exact trivial
    · cases cancels
      exact inside
    · cases cancels

theorem moves_inRange {config : SlotConfig} {entry : Entry} {spawned : Option SlotThread}
    (inside : context.InRange) (moves : Moves hashKey config entry context after spawned) :
    after.InRange := by
  cases moves with
  | loop own _ status => simpa [Context.InRange, status] using inside
  | timeUp own _ status => exact trivial
  | startAcquire own slot _ status => simpa [Context.InRange, status] using inside
  | startRelease own slot _ status => simpa [Context.InRange, status] using inside
  | resume own _ _ awaits ended resumes => exact resume_inRange inside resumes
  | wake own _ status => simpa [Context.InRange, status] using inside
  | exitGranted own slot _ status => simpa [Context.InRange, status] using inside
  | exitRefused own _ status => exact trivial
  | cancel own _ _ cancels => exact cancel_inRange inside cancels

theorem opened_inRange (process : Process) (key : String) (limit : Int) :
    (Context.mk process key limit (opened limit) false).InRange := by
  by_cases none : limit ≤ 0
  · simp [Context.InRange, opened, none]
  · simp only [Context.InRange, opened, none, if_false]
    omega

theorem perform_contexts (job : Job) (op : Op) (oracle : op.Answer) (state : State) :
    (op.perform job oracle state).2.contexts = state.contexts := by
  cases op with
  | getconn =>
      cases oracle with
      | ok conn =>
          simp only [Op.perform]
          split <;> rfl
      | error error => rfl
  | putconn conn =>
      simp only [Op.perform]
      split <;> rfl
  | tryLock conn lockKey => cases oracle <;> rfl
  | unlock conn lockKey => cases oracle <;> rfl
  | _ => rfl

theorem ranged_inductive (hashKey : String → Int) : (discipline hashKey).Inductive
    (fun _ _ => True) fun _ state _ => ∀ context ∈ state.contexts, context.InRange where
  acts past state phases thread tag op oracle phase ranged _ _ _ _ := by
    rw [show ((slotSystem hashKey).perform tag op oracle state).2.contexts = _ from
      perform_contexts tag op oracle state]
    exact ranged
  launches past config phases entry state spawned _ ranged launched _ := by
    rcases launch_cases launched with
      ⟨process, key, limit, _, _, rfl⟩ | ⟨index, context, after, _, found, moves, rfl⟩
    · intro second member
      rcases List.mem_append.mp member with old | new
      · exact ranged second old
      · rw [List.mem_singleton.mp new]
        exact opened_inRange process key limit
    · intro second member
      rcases List.mem_or_eq_of_mem_set member with old | rfl
      · exact ranged second old
      · exact moves_inRange (ranged context (List.mem_of_getElem? found)) moves

end Range

def Context.grant (key : String) (context : Context) : Option Nat :=
  match context.status with
  | .granted index => if context.key = key then some index else none
  | _ => none

def State.grants (state : State) (key : String) : List Nat :=
  state.contexts.filterMap (Context.grant key)

theorem grant_some {context : Context} {key : String} {index : Nat}
    (granted : context.grant key = some index) :
    context.status = .granted index ∧ context.key = key := by
  unfold Context.grant at granted
  split at granted
  · next slot status =>
      split at granted
      · next same =>
          cases granted
          exact ⟨status, same⟩
      · cases granted
  · cases granted

/-- Live contexts have different slots, and no limit has more of them than it allows. -/
structure Exclusive (state : State) : Prop where
  apart : ∀ (one two : Nat) first second slot slot', state.contexts[one]? = some first →
    state.contexts[two]? = some second → first.status = .granted slot →
    second.status = .granted slot' → first.slot slot = second.slot slot' → one = two
  limited : ∀ key (limit : Int),
    (∀ context ∈ state.contexts, context.key = key → context.limit ≤ limit) →
      (state.grants key).length ≤ limit.toNat

section Limits

variable {hashKey : String → Int} {past : List SlotEvent} {state : State} {phases : List Phase}

theorem Inv.apart (inv : Inv hashKey past state phases) {one two : Nat} {first second : Context}
    {slot slot' : Nat} (found : state.contexts[one]? = some first)
    (found' : state.contexts[two]? = some second) (granted : first.status = .granted slot)
    (granted' : second.status = .granted slot') (same : first.slot slot = second.slot slot') :
    one = two := by
  have holds : first.holds phases = some slot := by simp [Context.holds, granted]
  have holds' : second.holds phases = some slot' := by simp [Context.holds, granted']
  obtain ⟨conn, held⟩ := inv.tasks.holding one first slot found holds
  obtain ⟨conn', held'⟩ := inv.tasks.holding two second slot' found' holds'
  obtain ⟨_, process, owner⟩ := inv.wired.kept _ _ conn held
  obtain ⟨_, process', owner'⟩ := inv.wired.kept _ _ conn' held'
  have alike : conn = conn' := by
    rw [same, owner'] at owner
    exact (Option.some.inj owner).symm
  exact inv.tasks.alone one two first second slot slot' found found' holds holds'
    (by rw [← process, ← process', alike]) same

theorem grants_nodup (apart : ∀ (one two : Nat) first second slot slot',
      state.contexts[one]? = some first → state.contexts[two]? = some second →
      first.status = .granted slot → second.status = .granted slot' →
      first.slot slot = second.slot slot' → one = two) (key : String) :
    (state.grants key).Nodup := by
  refine List.pairwise_filterMap.mpr (List.pairwise_iff_getElem.mpr ?_)
  intro one two inside inside' before index granted index' granted' same
  subst same
  obtain ⟨status, name⟩ := grant_some granted
  obtain ⟨status', name'⟩ := grant_some granted'
  have alike := apart one two _ _ index index (List.getElem?_eq_getElem inside)
    (List.getElem?_eq_getElem inside') status status' (by rw [Context.slot, Context.slot, name, name'])
  omega

theorem grants_length (ranged : ∀ context ∈ state.contexts, context.InRange) {key : String}
    {limit : Int} (different : (state.grants key).Nodup)
    (below : ∀ context ∈ state.contexts, context.key = key → context.limit ≤ limit) :
    (state.grants key).length ≤ limit.toNat := by
  have inside : state.grants key ⊆ List.range limit.toNat := by
    intro index member
    obtain ⟨context, present, granted⟩ := List.mem_filterMap.mp member
    obtain ⟨status, name⟩ := grant_some granted
    have range := ranged context present
    simp only [Context.InRange, status] at range
    have bound := below context present name
    rw [List.mem_range]
    omega
  simpa using List.Nodup.length_le_of_subset different inside

end Limits

/-- Where no attempt takes the lock of another task for its own and no connection is
returned under its next user, the slots of a limit exclude each other. -/
theorem slots_exclude {hashKey : String → Int} {events : List SlotEvent} {final : SlotConfig}
    (ran : (slotSystem hashKey).Run atRest events final)
    (proper : ∀ left event right, events = left ++ event :: right → Proper left event) :
    Exclusive final.state := by
  have inv := (inv_inductive hashKey).run ran rfl proper (inv_initial hashKey)
  have ranged := (ranged_inductive hashKey).run ran rfl (fun _ _ _ _ => trivial)
    fun context member => by cases member
  have apart : ∀ (one two : Nat) first second slot slot', final.state.contexts[one]? = some first →
      final.state.contexts[two]? = some second → first.status = .granted slot →
      second.status = .granted slot' → first.slot slot = second.slot slot' → one = two :=
    fun _ _ _ _ _ _ found found' granted granted' same =>
      inv.apart found found' granted granted' same
  exact ⟨apart, fun key limit below => grants_length ranged (grants_nodup apart key) below⟩

instance (past : List SlotEvent) (event : SlotEvent) : Decidable (Proper past event) :=
  match event with
  | .acted _ job (.known key) _ before _ =>
      inferInstanceAs (Decidable (before.held job.process key = none))
  | .acted thread _ (.putconn conn) _ before _ =>
      inferInstanceAs (Decidable (past.any (givesBack thread) = true → conn ∉ before.used))
  | .acted _ _ .getconn _ _ _ => isTrue trivial
  | .acted _ _ (.cursor _) _ _ _ => isTrue trivial
  | .acted _ _ (.tryLock _ _) _ _ _ => isTrue trivial
  | .acted _ _ (.fetchone _) _ _ _ => isTrue trivial
  | .acted _ _ (.store _ _) _ _ _ => isTrue trivial
  | .acted _ _ (.missing _) _ _ _ => isTrue trivial
  | .acted _ _ (.pop _) _ _ _ => isTrue trivial
  | .acted _ _ (.unlock _ _) _ _ _ => isTrue trivial
  | .acted _ _ (.commit _) _ _ _ => isTrue trivial
  | .launched _ _ _ _ => isTrue trivial

/-- No call raises, and the pools hand out the given connection. -/
def answering (conn : Conn) : (op : Op) → op.Answer
  | .known _ => true
  | .getconn => .ok conn
  | .cursor _ => .ok ()
  | .tryLock _ _ => .ok true
  | .fetchone _ => .ok ()
  | .store _ _ => ()
  | .missing _ => true
  | .putconn _ => .ok ()
  | .pop _ => none
  | .unlock _ _ => .ok ()
  | .commit _ => .ok ()

def steps (thread count : Nat) (conn : Conn) : List (Move backend Entry) :=
  List.replicate count (.act thread (answering conn))

def asks (process : Process) (limit : Int) (index thread count : Nat) (conn : Conn) :
    List (Move backend Entry) :=
  [.launch (.enter process "runs" limit), .launch (.loop index), .launch (.start index)] ++
    steps thread count conn ++ [.launch (.resume index)]

def twoOfOneProcess : List (Move backend Entry) :=
  asks "api" 1 0 0 7 ⟨"api", 0⟩ ++ asks "api" 1 1 1 1 ⟨"api", 1⟩

theorem twoOfOneProcess_replays : ((slotSystem fun _ => 0).replay atRest twoOfOneProcess).any
    (fun outcome => outcome.2.state.contexts.map Context.status == [.granted 0, .granted 0] &&
      outcome.2.state.contexts.all fun context => context.key == "runs" && context.limit == 1) =
      true := by
  decide

/-- The second task finds the key of the first one in the dictionary, and has its slot. -/
theorem slot_shared : ∃ events final, (slotSystem fun _ => 0).Run atRest events final ∧
    ¬ Exclusive final.state := by
  obtain ⟨events, final, ran, checked⟩ := System.replay_checked twoOfOneProcess_replays
  refine ⟨events, final, ran, ?_⟩
  intro exclusive
  simp only [Bool.and_eq_true, beq_iff_eq, List.all_eq_true] at checked
  obtain ⟨statuses, alike⟩ := checked
  have granted : final.state.grants "runs" = [0, 0] := by
    cases contexts : final.state.contexts with
    | nil => simp [contexts] at statuses
    | cons first rest =>
      cases rest with
      | nil => simp [contexts] at statuses
      | cons second rest =>
        simp only [contexts, List.map_cons, List.cons.injEq, List.map_eq_nil_iff] at statuses
        obtain ⟨status, status', rfl⟩ := statuses
        have name := (alike first (by simp [contexts])).1
        have name' := (alike second (by simp [contexts])).1
        simp [State.grants, contexts, Context.grant, status, status', name, name']
  have few := exclusive.limited "runs" 1 fun context present _ => le_of_eq (alike context present).2
  rw [granted] at few
  simp at few

def sampleHash (key : String) : Int := (key.toList.map Char.toNat).sum

def oneOfEachProcess : List (Move backend Entry) :=
  asks "api" 2 0 0 7 ⟨"api", 0⟩ ++ asks "worker" 2 1 1 7 ⟨"worker", 0⟩ ++
    .launch (.start 1) :: steps 2 7 ⟨"worker", 0⟩ ++ [.launch (.resume 1)]

theorem oneOfEachProcess_replays : ((slotSystem sampleHash).replay atRest oneOfEachProcess).any
    (fun outcome => everyAt (fun past event => decide (Proper past event)) outcome.1 &&
      outcome.2.state.contexts.map Context.status == [.granted 0, .granted 1]) = true := by
  decide

theorem slots_exclude_oneOfEachProcess : ∃ events final,
    (slotSystem sampleHash).Run atRest events final ∧
      final.state.contexts.map Context.status = [.granted 0, .granted 1] ∧
      Exclusive final.state := by
  obtain ⟨events, final, ran, checked⟩ := System.replay_checked oneOfEachProcess_replays
  simp only [Bool.and_eq_true, beq_iff_eq] at checked
  refine ⟨events, final, ran, checked.2, slots_exclude ran ?_⟩
  rintro left event right rfl
  simpa using everyAt_split checked.1

end AgentTaskPlatform.Coordination
