import Mathlib.Data.List.Basic
import Mathlib.Tactic.Common

/-!
Values nested in lists, tuples and dictionaries, with the places inside them; and functions
that rebuild a value and put a marker in the place of some of its entries. A place is
withheld when the result does not depend on what stands there.
-/

namespace AgentTaskPlatform.NestedValues

inductive Value (Key Leaf : Type) where
  | leaf (content : Leaf)
  | list (items : List (Value Key Leaf))
  | tuple (items : List (Value Key Leaf))
  | dict (entries : List (Key × Value Key Leaf))

inductive Step (Key : Type) where
  | item
  | member
  | entry (key : Key)
  deriving DecidableEq, Repr

variable {Key Leaf : Type}

namespace Value

def children : Value Key Leaf → List (Step Key × Value Key Leaf)
  | .leaf _ => []
  | .list items => items.map fun item => (.item, item)
  | .tuple items => items.map fun item => (.member, item)
  | .dict entries => entries.map fun entry => (.entry entry.1, entry.2)

def modifyChild (index : Nat) (change : Value Key Leaf → Value Key Leaf) :
    Value Key Leaf → Value Key Leaf
  | .leaf content => .leaf content
  | .list items => .list (items.modify index change)
  | .tuple items => .tuple (items.modify index change)
  | .dict entries => .dict (entries.modify index fun entry => (entry.1, change entry.2))

def walk : Value Key Leaf → List Nat → Option (List (Step Key) × Value Key Leaf)
  | value, [] => some ([], value)
  | value, index :: rest =>
      match value.children[index]? with
      | none => none
      | some (step, child) => (child.walk rest).map fun (route, found) => (step :: route, found)

def replace : Value Key Leaf → List Nat → Value Key Leaf → Value Key Leaf
  | _, [], new => new
  | value, index :: rest, new => value.modifyChild index fun child => child.replace rest new

end Value

section Lists

variable {α β : Type} {change : α → α} {index : Nat}

theorem map_modify {image : α → β} {changed : β → β}
    (same : ∀ item, image (change item) = changed (image item)) (items : List α) (index : Nat) :
    (items.modify index change).map image = (items.map image).modify index changed := by
  induction items generalizing index with
  | nil => cases index <;> rfl
  | cons item rest ih =>
      cases index with
      | zero => simp [same]
      | succ index => simp [ih]

theorem map_modify_same {image : α → β} {items : List α} {item : α}
    (present : items[index]? = some item) (same : image (change item) = image item) :
    (items.modify index change).map image = items.map image := by
  induction items generalizing index with
  | nil => simp at present
  | cons first rest ih =>
      cases index with
      | zero =>
          have equal : first = item := by simpa using present
          simp [equal, same]
      | succ index =>
          have later := ih (by simpa using present)
          simp [later]

end Lists

section Places

variable {value new found child : Value Key Leaf} {path : List Nat} {index : Nat}
  {route : List (Step Key)} {step : Step Key}

theorem child_list {items : List (Value Key Leaf)}
    (inside : (Value.list items).children[index]? = some (step, child)) :
    step = .item ∧ items[index]? = some child := by
  rw [Value.children, List.getElem?_map] at inside
  obtain ⟨item, present, same⟩ := Option.map_eq_some_iff.mp inside
  cases same
  exact ⟨rfl, present⟩

theorem child_tuple {items : List (Value Key Leaf)}
    (inside : (Value.tuple items).children[index]? = some (step, child)) :
    step = .member ∧ items[index]? = some child := by
  rw [Value.children, List.getElem?_map] at inside
  obtain ⟨item, present, same⟩ := Option.map_eq_some_iff.mp inside
  cases same
  exact ⟨rfl, present⟩

theorem child_dict {entries : List (Key × Value Key Leaf)}
    (inside : (Value.dict entries).children[index]? = some (step, child)) :
    ∃ key, step = .entry key ∧ entries[index]? = some (key, child) := by
  rw [Value.children, List.getElem?_map] at inside
  obtain ⟨entry, present, same⟩ := Option.map_eq_some_iff.mp inside
  cases same
  exact ⟨entry.1, rfl, present⟩

theorem walk_nil (value : Value Key Leaf) : value.walk [] = some ([], value) := by
  cases value <;> rfl

theorem walk_cons (value : Value Key Leaf) (index : Nat) (rest : List Nat) :
    value.walk (index :: rest) = match value.children[index]? with
      | none => none
      | some (step, child) => (child.walk rest).map fun (route, found) =>
          (step :: route, found) := by
  cases value <;> rfl

theorem walk_cons_iff {rest : List Nat} : value.walk (index :: rest) = some (route, found) ↔
    ∃ step child later, value.children[index]? = some (step, child) ∧
      child.walk rest = some (later, found) ∧ route = step :: later := by
  rw [walk_cons]
  cases inside : value.children[index]? with
  | none => simp
  | some entry =>
      obtain ⟨step, child⟩ := entry
      simp only [Option.map_eq_some_iff, Prod.exists, Prod.mk.injEq, Option.some.injEq]
      constructor
      · rintro ⟨later, last, below, rfl, rfl⟩
        exact ⟨step, child, later, ⟨rfl, rfl⟩, below, rfl⟩
      · rintro ⟨_, _, later, ⟨rfl, rfl⟩, below, rfl⟩
        exact ⟨later, found, below, rfl, rfl⟩

theorem walk_snoc (walked : value.walk (path ++ [index]) = some (route, found)) :
    ∃ before around step, value.walk path = some (before, around) ∧
      around.children[index]? = some (step, found) ∧ route = before ++ [step] := by
  induction path generalizing value route with
  | nil =>
      obtain ⟨step, child, later, inside, below, rfl⟩ := walk_cons_iff.mp walked
      rw [walk_nil] at below
      cases below
      exact ⟨[], value, step, walk_nil value, inside, rfl⟩
  | cons first rest ih =>
      obtain ⟨step, child, later, inside, below, rfl⟩ := walk_cons_iff.mp walked
      obtain ⟨before, around, last, reached, there, rfl⟩ := ih below
      exact ⟨step :: before, around, last, walk_cons_iff.mpr ⟨step, child, before, inside, reached,
        rfl⟩, there, rfl⟩

theorem children_modifyChild (change : Value Key Leaf → Value Key Leaf) :
    (value.modifyChild index change).children =
      value.children.modify index fun entry => (entry.1, change entry.2) := by
  cases value with
  | leaf content => cases index <;> rfl
  | list items =>
      simp only [Value.modifyChild, Value.children]
      apply map_modify
      intro item
      rfl
  | tuple items =>
      simp only [Value.modifyChild, Value.children]
      apply map_modify
      intro item
      rfl
  | dict entries =>
      simp only [Value.modifyChild, Value.children]
      apply map_modify
      intro entry
      rfl

theorem replace_nil (value new : Value Key Leaf) : value.replace [] new = new := by
  cases value <;> rfl

theorem replace_cons (value new : Value Key Leaf) (index : Nat) (rest : List Nat) :
    value.replace (index :: rest) new =
      value.modifyChild index fun child => child.replace rest new := by
  cases value <;> rfl

/-- The route to a place does not depend on what stands there. -/
theorem walk_replace (walked : value.walk path = some (route, found)) :
    (value.replace path new).walk path = some (route, new) := by
  induction path generalizing value route with
  | nil =>
      rw [walk_nil] at walked
      cases walked
      rw [replace_nil]
      exact walk_nil new
  | cons index rest ih =>
      obtain ⟨step, child, later, inside, below, rfl⟩ := walk_cons_iff.mp walked
      refine walk_cons_iff.mpr ⟨step, child.replace rest new, later, ?_, ih below, rfl⟩
      rw [replace_cons, children_modifyChild, List.getElem?_modify, inside]
      simp

def nest (found : Value Key Leaf) : List (Step Key) → Value Key Leaf
  | [] => found
  | .item :: rest => .list [nest found rest]
  | .member :: rest => .tuple [nest found rest]
  | .entry key :: rest => .dict [(key, nest found rest)]

theorem walk_nest (found : Value Key Leaf) (route : List (Step Key)) :
    (nest found route).walk (route.map fun _ => 0) = some (route, found) := by
  induction route with
  | nil => exact walk_nil found
  | cons step rest ih =>
      rw [List.map_cons, walk_cons_iff]
      refine ⟨step, nest found rest, rest, ?_, ih, rfl⟩
      cases step <;> rfl

end Places

section Redactors

/-- A function that rebuilds a value. The entries that it hides show the marker, and it goes on
into the children that it enters. -/
structure Redactor (Key Leaf : Type) where
  redact : Value Key Leaf → Value Key Leaf
  hides : Step Key → Bool
  enters : Step Key → Bool
  marker : Value Key Leaf
  /-- What stands in the place of each child. -/
  rebuilt : ∀ value, (redact value).children.map Prod.snd =
    value.children.map fun (step, child) =>
      if hides step then marker else if enters step then redact child else child
  /-- Nothing else of a child is looked at. -/
  determined : ∀ value index change step child, value.children[index]? = some (step, child) →
    hides step = true ∨ (enters step = true ∧ redact (change child) = redact child) →
    redact (value.modifyChild index change) = redact value

variable (redactor : Redactor Key Leaf) {value new found child : Value Key Leaf}
  {path : List Nat} {route : List (Step Key)}

namespace Redactor

def hidden : List (Step Key) → Bool
  | [] => false
  | step :: rest => redactor.hides step || (redactor.enters step && hidden rest)

def shown (route : List (Step Key)) (found : Value Key Leaf) : Value Key Leaf :=
  if route.all redactor.enters then redactor.redact found else found

end Redactor

theorem hidden_snoc (step : Step Key) : redactor.hidden (route ++ [step]) =
    (redactor.hidden route || (route.all redactor.enters && redactor.hides step)) := by
  induction route with
  | nil => simp [Redactor.hidden]
  | cons first rest ih =>
      rw [List.cons_append, Redactor.hidden, ih, Redactor.hidden, List.all_cons]
      cases redactor.hides first <;> cases redactor.enters first <;> rfl

def Withheld (redact : Value Key Leaf → Value Key Leaf) (value : Value Key Leaf)
    (path : List Nat) : Prop :=
  ∀ new, redact (value.replace path new) = redact value

theorem redact_hidden (walked : value.walk path = some (route, found))
    (hidden : redactor.hidden route = true) (new : Value Key Leaf) :
    redactor.redact (value.replace path new) = redactor.redact value := by
  induction path generalizing value route with
  | nil =>
      rw [walk_nil] at walked
      cases walked
      cases hidden
  | cons index rest ih =>
      obtain ⟨step, child, later, inside, below, rfl⟩ := walk_cons_iff.mp walked
      rw [replace_cons]
      apply redactor.determined value index _ step child inside
      -- Either this step hides, or a later one below a child that is entered.
      simp only [Redactor.hidden, Bool.or_eq_true, Bool.and_eq_true] at hidden
      exact hidden.imp_right fun ⟨enters, more⟩ => ⟨enters, ih below more⟩

theorem walk_redact (walked : value.walk path = some (route, found))
    (visible : redactor.hidden route = false) :
    ∃ steps, (redactor.redact value).walk path = some (steps, redactor.shown route found) := by
  induction path generalizing value route with
  | nil =>
      rw [walk_nil] at walked
      cases walked
      exact ⟨[], walk_nil _⟩
  | cons index rest ih =>
      obtain ⟨step, child, later, inside, below, rfl⟩ := walk_cons_iff.mp walked
      simp only [Redactor.hidden, Bool.or_eq_false_iff, Bool.and_eq_false_iff] at visible
      have there := congrArg (fun shown => shown[index]?) (redactor.rebuilt value)
      simp only [List.getElem?_map, inside, Option.map_some, visible.1, Bool.false_eq_true,
        if_false] at there
      obtain ⟨⟨kind, image⟩, placed, same⟩ := Option.map_eq_some_iff.mp there
      by_cases enters : redactor.enters step = true
      · rw [if_pos enters] at same
        obtain ⟨steps, reached⟩ := ih below (visible.2.resolve_left (by simp [enters]))
        refine ⟨kind :: steps, walk_cons_iff.mpr ⟨kind, image, steps, placed, ?_, rfl⟩⟩
        have shown : redactor.shown (step :: later) found = redactor.shown later found := by
          simp [Redactor.shown, enters]
        rw [shown, ← reached]
        exact congrArg (fun image => image.walk rest) same
      -- A child that is not entered stands in the result with everything below it.
      · rw [if_neg enters] at same
        refine ⟨kind :: later, walk_cons_iff.mpr ⟨kind, image, later, placed, ?_, rfl⟩⟩
        have shown : redactor.shown (step :: later) found = found := by
          simp [Redactor.shown, enters]
        rw [shown, ← below]
        exact congrArg (fun image => image.walk rest) same

theorem redact_length (value : Value Key Leaf) :
    (redactor.redact value).children.length = value.children.length := by
  have lengths := congrArg List.length (redactor.rebuilt value)
  simpa using lengths

theorem withheld_iff (walked : value.walk path = some (route, found)) :
    Withheld redactor.redact value path ↔ redactor.hidden route = true := by
  constructor
  · intro withheld
    by_contra visible
    rw [Bool.not_eq_true] at visible
    have reached (new : Value Key Leaf) : ∃ steps,
        (redactor.redact value).walk path = some (steps, redactor.shown route new) := by
      rw [← withheld new]
      exact walk_redact redactor (walk_replace walked) visible
    -- Two values that no rebuilding makes equal would both be seen at the place.
    obtain ⟨_, empty⟩ := reached (.list [])
    obtain ⟨_, single⟩ := reached (.list [.list []])
    rw [empty, Option.some.injEq, Prod.mk.injEq] at single
    have lengths := congrArg (fun image => image.children.length) single.2
    unfold Redactor.shown at lengths
    split at lengths
    · rw [redact_length, redact_length] at lengths
      simp [Value.children] at lengths
    · simp [Value.children] at lengths
  · exact fun hidden => redact_hidden redactor walked hidden

end Redactors

end AgentTaskPlatform.NestedValues
