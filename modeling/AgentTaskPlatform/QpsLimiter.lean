import AgentTaskPlatform.Arrivals
import Mathlib.Data.List.Induction
import Mathlib.Data.Rat.Floor
import Mathlib.Logic.Function.Basic

/-!
The QPS throttle of the tools: a window of the grants of the last second for each tool. A
caller that finds the window full sleeps and asks again; any number of callers do so.
-/

namespace AgentTaskPlatform.QpsLimiter

open Arrivals

inductive Outcome where
  | granted
  | sleeps (seconds : ℚ)
  /-- Nothing is counted for a tool without a limit. -/
  | returned
  /-- A negative limit leaves no first grant to wait for. -/
  | indexError
  deriving DecidableEq

abbrev Windows := String → List ℚ

def evict (now : ℚ) (window : List ℚ) : List ℚ :=
  window.dropWhile fun time => 1 ≤ now - time

def turn (windows : Windows) (toolName : String) (qps now : ℚ) : Outcome × Windows :=
  let window := evict now (windows toolName)
  if window.length < qps then
    (.granted, Function.update windows toolName (window ++ [now]))
  else match window with
    | [] => (.indexError, Function.update windows toolName [])
    | first :: rest => (.sleeps (max 0 (1 - (now - first))),
        Function.update windows toolName (first :: rest))

def acquire (windows : Windows) (toolName : String) (qps : Option ℚ) (now : ℚ) :
    Outcome × Windows :=
  match qps with
  | none => (.returned, windows)
  | some qps => if qps = 0 then (.returned, windows) else turn windows toolName qps now

/-- The windows, and what the callers that sleep wait for: the tool and when they wake up. -/
structure State where
  windows : Windows := fun _ => []
  sleeping : Nat → Option (String × ℚ) := fun _ => none

structure Turn where
  caller : Nat
  toolName : String
  now : ℚ

section Turns

variable (limits : String → Option ℚ)

def Turn.outcome (state : State) (event : Turn) : Outcome :=
  (acquire state.windows event.toolName (limits event.toolName) event.now).1

def step (state : State) (event : Turn) : State where
  windows := (acquire state.windows event.toolName (limits event.toolName) event.now).2
  sleeping := Function.update state.sleeping event.caller
    (match event.outcome limits state with
    | .sleeps seconds => some (event.toolName, event.now + seconds)
    | _ => none)

def after (state : State) (turns : List Turn) : State := turns.foldl (step limits) state

/-- The clock is monotone, and a caller that sleeps asks for its tool when it wakes up. -/
def Turn.follows (state : State) (last : ℚ) (event : Turn) : Prop :=
  last ≤ event.now ∧ ∀ toolName wake, state.sleeping event.caller = some (toolName, wake) →
    event.toolName = toolName ∧ wake ≤ event.now

def Lawful (state : State) (last : ℚ) : List Turn → Prop
  | [] => True
  | event :: rest => event.follows state last ∧ Lawful (step limits state event) event.now rest

def Turn.grants (toolName : String) (state : State) (event : Turn) : Bool :=
  event.toolName = toolName && event.outcome limits state = .granted

def grants (toolName : String) (state : State) : List Turn → List ℚ
  | [] => []
  | event :: rest => grants toolName (step limits state event) rest ++
      if event.grants limits toolName state then [event.now] else []

/-- Whatever the interval, the tool is granted no faster, and nobody waits before the last
second is used up. -/
structure Throttled (toolName : String) (qps : ℚ) (turns : List Turn) : Prop where
  granted : ∀ start stop, start ≤ stop →
    (within (grants limits toolName {} turns) start stop : ℚ) ≤ qps * (stop - start + 1)
  waits : ∀ past event seconds, past ++ [event] <+: turns → event.toolName = toolName →
    event.outcome limits (after limits {} past) = .sleeps seconds →
      qps ≤ (grants limits toolName {} past).countP fun time => event.now - time < 1

variable {limits} {state : State} {toolName : String} {last now qps : ℚ} {event : Turn}

theorem after_snoc (state : State) (past : List Turn) (event : Turn) :
    after limits state (past ++ [event]) = step limits (after limits state past) event := by
  simp [after]

theorem grants_snoc (state : State) (past : List Turn) (event : Turn) :
    grants limits toolName state (past ++ [event]) =
      (if event.grants limits toolName (after limits state past) then [event.now] else []) ++
        grants limits toolName state past := by
  induction past generalizing state with
  | nil =>
      simp only [List.nil_append, grants, List.append_nil]
      rfl
  | cons first rest ih =>
      rw [List.cons_append, grants, ih, grants, List.append_assoc]
      rfl

def reading (last : ℚ) (turns : List Turn) : ℚ := turns.foldl (fun _ event => event.now) last

theorem lawful_snoc (past : List Turn) (event : Turn) :
    Lawful limits state last (past ++ [event]) ↔ Lawful limits state last past ∧
      event.follows (after limits state past) (reading last past) := by
  induction past generalizing state last with
  | nil => simp [Lawful, after, reading]
  | cons first rest ih =>
      rw [List.cons_append, Lawful, ih, Lawful, and_assoc]
      rfl

theorem lawful_initial {past turns : List Turn} (inside : past <+: turns)
    (lawful : Lawful limits state last turns) : Lawful limits state last past := by
  obtain ⟨later, rfl⟩ := inside
  induction later using List.reverseRecOn with
  | nil => simpa using lawful
  | append_singleton later event ih =>
      rw [← List.append_assoc] at lawful
      exact ih ((lawful_snoc _ event).mp lawful).1

end Turns

section Window

variable {window : List ℚ} {now later : ℚ}

/-- An ordered window keeps the grants of the last second. -/
theorem evict_length (ordered : window.Pairwise (· ≤ ·)) :
    (evict now window).length = window.countP fun time => now - time < 1 := by
  induction window with
  | nil => rfl
  | cons first rest ih =>
      obtain ⟨least, tail⟩ := List.pairwise_cons.mp ordered
      by_cases old : 1 ≤ now - first
      · have recent : ¬ now - first < 1 := not_lt.mpr old
        simpa [evict, old, recent] using ih tail
      · have all : ∀ time ∈ first :: rest, now - time < 1 := by
          intro time member
          rcases List.mem_cons.mp member with rfl | inside
          · exact not_le.mp old
          · have after := least time inside
            linarith [not_le.mp old]
        have kept : evict now (first :: rest) = first :: rest := by
          simp [evict, old]
        rw [kept, List.countP_eq_length.mpr fun time member => decide_eq_true (all time member)]

theorem evict_sublist (now : ℚ) (window : List ℚ) : (evict now window).Sublist window :=
  List.dropWhile_sublist _

theorem evict_recent (passed : now ≤ later) (window : List ℚ) :
    (evict now window).countP (fun time => later - time < 1) =
      window.countP fun time => later - time < 1 := by
  induction window with
  | nil => rfl
  | cons first rest ih =>
      by_cases old : 1 ≤ now - first
      · have recent : ¬ later - first < 1 := by
          rw [not_lt]
          linarith
        rw [List.countP_cons_of_neg (by simpa using recent)]
        simpa [evict, old] using ih
      · simp [evict, old]

structure Kept (window grants : List ℚ) (last : ℚ) : Prop where
  ordered : window.Pairwise (· ≤ ·)
  inside : ∀ time ∈ window, time ≤ last
  past : ∀ time ∈ grants, time ≤ last
  recent : ∀ now, last ≤ now → (window.countP fun time => now - time < 1) =
    grants.countP fun time => now - time < 1

variable {grants : List ℚ} {last : ℚ}

theorem Kept.wait (kept : Kept window grants last) (passed : last ≤ now) :
    Kept window grants now where
  ordered := kept.ordered
  inside time member := (kept.inside time member).trans passed
  past time member := (kept.past time member).trans passed
  recent reading ordered := kept.recent reading (passed.trans ordered)

theorem Kept.evict (kept : Kept window grants last) (passed : last ≤ now) :
    Kept (evict now window) grants now where
  ordered := kept.ordered.sublist (evict_sublist now window)
  inside time member :=
    (kept.inside time ((evict_sublist now window).subset member)).trans passed
  past time member := (kept.past time member).trans passed
  recent reading ordered := by
    rw [evict_recent ordered]
    exact kept.recent reading (passed.trans ordered)

theorem Kept.grant (kept : Kept window grants now) :
    Kept (window ++ [now]) (now :: grants) now where
  ordered := by
    rw [List.pairwise_append]
    refine ⟨kept.ordered, List.pairwise_singleton _ now, ?_⟩
    intro time member other same
    rw [List.mem_singleton.mp same]
    exact kept.inside time member
  inside := by
    intro time member
    rcases List.mem_append.mp member with before | own
    · exact kept.inside time before
    · exact (List.mem_singleton.mp own).le
  past := by
    intro time member
    rcases List.mem_cons.mp member with rfl | before
    · exact le_refl _
    · exact kept.past time before
  recent reading ordered := by
    simp only [List.countP_append, List.countP_cons, List.countP_nil, Nat.zero_add,
      kept.recent reading ordered]

end Window

section Throttle

variable {limits : String → Option ℚ} {state : State} {toolName : String} {last qps : ℚ}
  {event : Turn} {granted : List ℚ}

structure Sound (state : State) (toolName : String) (qps : ℚ) (granted : List ℚ) (last : ℚ) :
    Prop where
  kept : Kept (state.windows toolName) granted last
  sparse : Sparse ⌈qps⌉₊ granted

theorem turn_other {windows : Windows} {other : String} (different : toolName ≠ other)
    (limit : Option ℚ) (now : ℚ) :
    (acquire windows other limit now).2 toolName = windows toolName := by
  unfold acquire
  cases limit with
  | none => rfl
  | some qps =>
      by_cases zero : qps = 0
      · simp only [zero, if_true]
      · simp only [zero, if_false, turn]
        split
        · exact Function.update_of_ne different _ _
        · split
          · exact Function.update_of_ne different _ _
          · exact Function.update_of_ne different _ _

theorem turn_own (windows : Windows) (set : limits toolName = some qps) (positive : 0 < qps)
    (now : ℚ) :
    let window := evict now (windows toolName)
    (window.length < qps ∧
        (acquire windows toolName (limits toolName) now).1 = .granted ∧
        (acquire windows toolName (limits toolName) now).2 toolName = window ++ [now]) ∨
      (qps ≤ window.length ∧
        (acquire windows toolName (limits toolName) now).1 ≠ .granted ∧
        (acquire windows toolName (limits toolName) now).2 toolName = window) := by
  intro window
  rw [set]
  simp only [acquire, positive.ne', if_false, turn]
  by_cases room : (window.length : ℚ) < qps
  · left
    rw [if_pos room]
    exact ⟨room, rfl, Function.update_self _ _ _⟩
  · right
    rw [if_neg room]
    refine ⟨not_lt.mp room, ?_⟩
    cases found : evict now (windows toolName) with
    | nil =>
        refine ⟨nofun, ?_⟩
        simp only [Function.update_self]
        exact found.symm
    | cons first rest =>
        refine ⟨nofun, ?_⟩
        simp only [Function.update_self]
        exact found.symm

theorem Sound.step (sound : Sound state toolName qps granted last)
    (set : limits toolName = some qps) (positive : 0 < qps) (passed : last ≤ event.now) :
    Sound (step limits state event) toolName qps
      ((if event.grants limits toolName state then [event.now] else []) ++ granted)
      event.now := by
  by_cases own : event.toolName = toolName
  · subst own
    have evicted := sound.kept.evict passed
    rcases turn_own state.windows set positive event.now with
      ⟨room, outcome, window⟩ | ⟨_, outcome, window⟩
    · have grants : event.grants limits event.toolName state = true := by
        simp [Turn.grants, Turn.outcome, outcome]
      rw [grants, if_pos rfl]
      constructor
      · change Kept ((acquire state.windows event.toolName _ event.now).2 event.toolName) _ _
        rw [window]
        exact evicted.grant
      · refine ⟨evicted.past, ?_, sound.sparse⟩
        rw [evict_length sound.kept.ordered, sound.kept.recent event.now passed] at room
        exact Nat.lt_ceil.mpr room
    · have grants : event.grants limits event.toolName state = false := by
        simp [Turn.grants, Turn.outcome, outcome]
      rw [grants, if_neg (by decide), List.nil_append]
      refine ⟨?_, sound.sparse⟩
      change Kept ((acquire state.windows event.toolName _ event.now).2 event.toolName) _ _
      rw [window]
      exact evicted
  · have grants : event.grants limits toolName state = false := by simp [Turn.grants, own]
    rw [grants, if_neg (by decide), List.nil_append]
    refine ⟨?_, sound.sparse⟩
    change Kept ((acquire state.windows event.toolName _ event.now).2 toolName) _ _
    rw [turn_other fun same => own same.symm]
    exact sound.kept.wait passed

theorem sound_after (set : limits toolName = some qps) (positive : 0 < qps) {turns : List Turn}
    (lawful : Lawful limits {} last turns) :
    Sound (after limits {} turns) toolName qps (grants limits toolName {} turns)
      (reading last turns) := by
  induction turns using List.reverseRecOn with
  | nil =>
      exact ⟨⟨List.Pairwise.nil, nofun, nofun, fun _ _ => rfl⟩, trivial⟩
  | append_singleton past event ih =>
      obtain ⟨earlier, passed, _⟩ := (lawful_snoc past event).mp lawful
      have next := (ih earlier).step set positive passed
      rw [after_snoc, grants_snoc]
      have clock : reading last (past ++ [event]) = event.now := by simp [reading]
      rw [clock]
      exact next

theorem rounded_rate (set : limits toolName = some qps) (positive : 0 < qps)
    {turns : List Turn} (lawful : Lawful limits {} last turns) {start stop : ℚ}
    (ordered : start ≤ stop) :
    (within (grants limits toolName {} turns) start stop : ℚ) ≤
      ⌈qps⌉₊ * (stop - start + 1) :=
  (sound_after set positive lawful).sparse.rate ordered

theorem waits_full (set : limits toolName = some qps) (positive : 0 < qps)
    {past : List Turn} (lawful : Lawful limits {} last (past ++ [event])) {seconds : ℚ}
    (own : event.toolName = toolName)
    (sleeps : event.outcome limits (after limits {} past) = .sleeps seconds) :
    qps ≤ (grants limits toolName {} past).countP fun time => event.now - time < 1 := by
  subst own
  obtain ⟨earlier, passed, _⟩ := (lawful_snoc past event).mp lawful
  have sound := sound_after set positive earlier
  rcases turn_own (after limits {} past).windows set positive event.now with
    ⟨_, outcome, _⟩ | ⟨full, _, _⟩
  · rw [Turn.outcome, outcome] at sleeps
    cases sleeps
  · rwa [evict_length sound.kept.ordered, sound.kept.recent event.now passed] at full

end Throttle

section Crowd

variable {limits : String → Option ℚ} {toolName : String} {qps : ℚ}

def crowd (toolName : String) (callers : Nat) : List Turn :=
  (List.range callers).map fun caller => ⟨caller, toolName, 0⟩

theorem crowd_succ (toolName : String) (callers : Nat) :
    crowd toolName (callers + 1) = crowd toolName callers ++ [⟨callers, toolName, 0⟩] := by
  simp [crowd, List.range_succ]

theorem crowd_granted (set : limits toolName = some qps) (positive : 0 < qps) {callers : Nat}
    (room : callers ≤ ⌈qps⌉₊) : Lawful limits {} 0 (crowd toolName callers) ∧
      (after limits {} (crowd toolName callers)).windows toolName = List.replicate callers 0 ∧
      (after limits {} (crowd toolName callers)).sleeping = (fun _ => none) ∧
      grants limits toolName {} (crowd toolName callers) = List.replicate callers 0 := by
  induction callers with
  | zero => exact ⟨trivial, rfl, rfl, rfl⟩
  | succ callers ih =>
      obtain ⟨lawful, windows, sleeping, granted⟩ := ih (Nat.le_of_succ_le room)
      have clock : reading 0 (crowd toolName callers) ≤ 0 := by
        have all : ∀ event ∈ crowd toolName callers, event.now = 0 := by
          intro event member
          obtain ⟨caller, _, rfl⟩ := List.mem_map.mp member
          rfl
        cases turns : (crowd toolName callers).reverse with
        | nil => simp [List.reverse_eq_nil_iff.mp turns, reading]
        | cons event rest =>
            have split := List.reverse_eq_cons_iff.mp turns
            have own := all event (by rw [split]; simp)
            simp [split, reading, own]
      have kept : evict 0 (List.replicate callers (0 : ℚ)) = List.replicate callers 0 := by
        cases callers with
        | zero => rfl
        | succ rest => simp [evict, List.replicate_succ]
      have free : ((List.replicate callers (0 : ℚ)).length : ℚ) < qps := by
        rw [List.length_replicate]
        exact Nat.lt_ceil.mp room
      have own := turn_own (after limits {} (crowd toolName callers)).windows set positive 0
      simp only [windows, kept] at own
      obtain ⟨_, outcome, window⟩ := own.resolve_right fun full => absurd free (not_lt.mpr full.1)
      have answered : Turn.outcome limits (after limits {} (crowd toolName callers))
          ⟨callers, toolName, 0⟩ = .granted := outcome
      rw [crowd_succ]
      refine ⟨(lawful_snoc _ _).mpr ⟨lawful, clock, ?_⟩, ?_, ?_, ?_⟩
      · intro tool wake asleep
        rw [sleeping] at asleep
        cases asleep
      · rw [after_snoc]
        change (acquire _ toolName (limits toolName) 0).2 toolName = _
        rw [window, ← List.replicate_succ']
      · rw [after_snoc]
        funext caller
        simp only [step, answered, sleeping]
        by_cases same : caller = callers
        · rw [same, Function.update_self]
        · rw [Function.update_of_ne same]
      · rw [grants_snoc, granted]
        simp [Turn.grants, answered, List.replicate_succ]

/-- A tool is never granted faster than its limit exactly where the limit is a whole number: the
window counts whole grants against it. -/
theorem throttled_iff_whole (limits : String → Option ℚ) (toolName : String) (qps : ℚ)
    (set : limits toolName = some qps) (positive : 0 < qps) :
    (∀ turns last, Lawful limits {} last turns → Throttled limits toolName qps turns) ↔
      ∃ whole : Nat, qps = whole := by
  constructor
  · intro always
    refine ⟨⌈qps⌉₊, le_antisymm (Nat.le_ceil qps) ?_⟩
    obtain ⟨lawful, _, _, granted⟩ := crowd_granted set positive (le_refl ⌈qps⌉₊)
    have bound := (always _ 0 lawful).granted 0 0 (le_refl 0)
    have all : within (List.replicate ⌈qps⌉₊ (0 : ℚ)) 0 0 = ⌈qps⌉₊ := by
      rw [within, List.countP_eq_length.mpr, List.length_replicate]
      intro time member
      simp [List.eq_of_mem_replicate member]
    rw [granted, all] at bound
    simpa using bound
  · rintro ⟨whole, rfl⟩ turns last lawful
    constructor
    · intro start stop ordered
      have bound := rounded_rate set positive lawful ordered
      rwa [Nat.ceil_natCast] at bound
    · intro past event seconds inside own sleeps
      exact waits_full set positive (lawful_initial inside lawful) own sleeps

def twoASecond (_ : String) : Option ℚ := some 2

/-- The third caller of a second sleeps until the first grant is a second old. -/
theorem throttled_iff_whole_two : Throttled twoASecond "search" 2 (crowd "search" 2) ∧
    Turn.outcome twoASecond (after twoASecond {} (crowd "search" 2)) ⟨2, "search", 1 / 4⟩ =
      .sleeps (3 / 4) :=
  ⟨(throttled_iff_whole twoASecond "search" 2 rfl (by norm_num)).mpr ⟨2, by norm_num⟩ _ 0
    (@crowd_granted twoASecond "search" 2 rfl (by norm_num) 2 (by decide +kernel)).1, by decide +kernel⟩

def fiveInTwoSeconds (_ : String) : Option ℚ := some (5 / 2)

/-- Two and a half requests a second come to three. -/
theorem fractional_not_throttled : Lawful fiveInTwoSeconds {} 0 (crowd "search" 3) ∧
    ¬ Throttled fiveInTwoSeconds "search" (5 / 2) (crowd "search" 3) := by
  obtain ⟨lawful, _, _, granted⟩ :=
    @crowd_granted fiveInTwoSeconds "search" (5 / 2) rfl (by norm_num) 3 (by decide +kernel)
  refine ⟨lawful, fun throttled => ?_⟩
  have bound := throttled.granted 0 0 (le_refl 0)
  rw [granted] at bound
  revert bound
  decide +kernel

end Crowd

end AgentTaskPlatform.QpsLimiter
