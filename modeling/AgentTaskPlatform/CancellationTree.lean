import AgentTaskPlatform.RunTree

/-!
Cancellation of a tree. A call of `cancel` keeps a worklist: what is registered below its
root is terminal, or below a run it has still to visit.
-/

namespace AgentTaskPlatform.RunTree

open KeyedTable Transitions Worklist Relation

namespace Manager

def Settled (manager : Manager) (runId : String) : Prop :=
  ∃ status, manager.status runId = some status ∧ status.terminal = true

def Free (manager : Manager) (runId : String) : Prop :=
  ∀ top, manager.AtOrBelow top runId → manager.status top ≠ some .canceled

def Closed (manager : Manager) (root : String) : Prop :=
  ∀ runId, manager.AtOrBelow root runId → manager.Settled runId

end Manager

namespace CancelCall

def active (call : CancelCall) : Bool :=
  match call.phase with
  | .returned _ | .raised => false
  | _ => true

def inner (call : CancelCall) : Option String :=
  match call.phase with
  | .reading runId _ false => some runId
  | .swapping runId _ _ false => some runId
  | _ => none

end CancelCall

namespace Manager

/-- Children are stored and entered only under runs that are not CANCELED nor below a
CANCELED run. A CANCELED run stays so, and a terminal run stays terminal while a `cancel`
above it is on its way. An inner call of `cancel` raises nothing, and a run that `cancel`
finds terminal has nothing below it that is neither terminal nor still to visit. -/
def Orderly (manager : Manager) : Action → Prop
  | .create _ parent _ => ∀ own, parent = some own → manager.Free own
  | .enter runId => ∀ node parent, manager.runs.find runId = some node →
      node.parentRunId = some parent → manager.edge parent runId ∨ manager.Free parent
  | .write runId after =>
      (manager.status runId = some .canceled → after = .canceled) ∧
      ((∃ call ∈ manager.cancels, call.active = true ∧ manager.AtOrBelow call.root runId ∧
        manager.status call.root = some .canceled) →
        manager.Settled runId → after.terminal = true)
  | .read index => ∀ root runId rounds outer todo,
      manager.cancels[index]? = some ⟨root, .reading runId rounds outer, todo⟩ →
      (outer = false → 0 < rounds ∧ manager.status runId ≠ none) ∧
      (outer = false ∨ manager.status runId = some .canceled → manager.Settled runId →
        ∀ target, manager.AtOrBelow runId target →
          manager.Settled target ∨ Awaits manager.edge todo target)
  | .fail index => ∀ call, manager.cancels[index]? = some call → call.inner = none
  | _ => True

/-- Once `cancel` has returned a CANCELED run, all that is registered at or below it is
terminal, and a child that is submitted below it afterwards is not executed. -/
structure CancellationCloses (events : List (Manager × Action)) : Prop where
  closed : ∀ before action after, (before, action) ∈ events → before.step action = some after →
    ∀ (index : Nat) call done, before.cancels[index]? = some call → call.active = true →
      after.cancels[index]? = some done → done.phase = .returned .canceled →
      after.Closed done.root
  barred : ∀ past before child parent status later,
    events = past ++ (before, .create child (some parent) status) :: later →
    ∀ call ∈ before.cancels, call.phase = .returned .canceled →
      before.AtOrBelow call.root parent →
      ∀ other after, (other, .write child after) ∈ later → after.executing = false
  /-- What `cancel` itself ends is CANCELED, and stays so. -/
  ended : ∀ past before index later after runId, events = past ++ (before, .swap index) :: later →
    before.step (.swap index) = some after → after.status runId ≠ before.status runId →
    after.status runId = some .canceled ∧ ∀ other action next, (other, action) ∈ later →
      other.step action = some next → next.status runId = some .canceled

variable {manager after : Manager} {action : Action}

inductive Moves (manager : Manager) : Action → Manager → Prop
  | created {runId : String} {parent : Option String} {status : RunStatus}
      (fresh : manager.runs.find runId = none) :
      Moves manager (.create runId parent status) (manager.store runId parent status)
  | entered {runId parent : String} {node : Node}
      (found : manager.runs.find runId = some node) (named : node.parentRunId = some parent) :
      Moves manager (.enter runId) { manager with
        children := Function.update manager.children parent
          ((manager.children parent).insert runId) }
  | wrote {runId : String} {node : Node} {status : RunStatus}
      (found : manager.runs.find runId = some node) (shifts : node.status.shifts status = true) :
      Moves manager (.write runId status) (manager.store runId node.parentRunId status)
  | listened {runId : String} : Moves manager (.listen runId)
      { manager with events := Function.update manager.events runId (some false) }
  | unlistened {runId : String} : Moves manager (.unlisten runId)
      { manager with events := Function.update manager.events runId none }
  | began {runId : String} : Moves manager (.cancel runId)
      { manager with cancels := manager.cancels ++ [⟨runId, .reading runId 10 true, []⟩] }
  | readBy {index rounds : Nat} {root runId : String} {outer : Bool} {todo : List String}
      (present : manager.cancels[index]? = some ⟨root, .reading runId rounds outer, todo⟩) :
      Moves manager (.read index) (manager.setCall index
        (manager.readRun ⟨root, .reading runId rounds outer, todo⟩ runId outer rounds))
  | swapped {index rounds : Nat} {root runId : String} {outer : Bool} {todo : List String}
      {previous : RunStatus} {node : Node}
      (present : manager.cancels[index]? = some ⟨root, .swapping runId rounds previous outer, todo⟩)
      (found : manager.runs.find runId = some node) :
      Moves manager (.swap index) ((manager.store runId node.parentRunId .canceled).setCall index
        ⟨root, .spreading runId, todo⟩)
  | missed {index rounds : Nat} {root runId : String} {outer : Bool} {todo : List String}
      {previous : RunStatus}
      (present : manager.cancels[index]? =
        some ⟨root, .swapping runId rounds previous outer, todo⟩) :
      Moves manager (.swap index)
        (manager.setCall index ⟨root, .reading runId rounds outer, todo⟩)
  | spreadTo {index : Nat} {root runId : String} {todo order : List String}
      (present : manager.cancels[index]? = some ⟨root, .spreading runId, todo⟩)
      (perm : order.Perm (manager.children runId)) :
      Moves manager (.spread index order) ((manager.setEvent runId).setCall index
        (CancelCall.next ⟨root, .spreading runId, order ++ todo⟩))
  | failedReading {index rounds : Nat} {root runId : String} {outer : Bool} {todo : List String}
      (present : manager.cancels[index]? = some ⟨root, .reading runId rounds outer, todo⟩) :
      Moves manager (.fail index) (manager.setCall index
        (CancelCall.throw ⟨root, .reading runId rounds outer, todo⟩ outer))
  | failedSwapping {index rounds : Nat} {root runId : String} {outer : Bool}
      {todo : List String} {previous : RunStatus}
      (present : manager.cancels[index]? =
        some ⟨root, .swapping runId rounds previous outer, todo⟩) :
      Moves manager (.fail index) (manager.setCall index
        (CancelCall.throw ⟨root, .swapping runId rounds previous outer, todo⟩ outer))
  | unlogged {index : Nat} {root : String} {todo : List String}
      (present : manager.cancels[index]? = some ⟨root, .logging, todo⟩) :
      Moves manager (.fail index) (manager.setCall index ⟨root, .raised, todo⟩)
  | logged {index : Nat} {root : String} {todo : List String}
      (present : manager.cancels[index]? = some ⟨root, .logging, todo⟩) :
      Moves manager (.log index) (manager.setCall index ⟨root, .returned .canceled, todo⟩)

theorem step_cases (moved : manager.step action = some after) : Moves manager action after := by
  cases action with
  | create runId parent status =>
      simp only [step] at moved
      split at moved
      · cases moved
      · next fresh =>
          split at moved
          · cases moved
            exact .created fresh
          · cases moved
  | enter runId =>
      simp only [step] at moved
      split at moved
      · cases moved
      · next node found =>
          split at moved
          · cases moved
          · next parent named =>
              cases moved
              exact .entered found named
  | write runId status =>
      simp only [step] at moved
      split at moved
      · cases moved
      · next node found =>
          split at moved
          · next shifts =>
              cases moved
              exact .wrote found shifts
          · cases moved
  | listen runId =>
      cases moved
      exact .listened
  | unlisten runId =>
      cases moved
      exact .unlistened
  | cancel runId =>
      cases moved
      exact .began
  | read index =>
      simp only [step] at moved
      split at moved
      · next present =>
          cases moved
          exact .readBy present
      · cases moved
  | swap index =>
      simp only [step] at moved
      split at moved
      · next present =>
          split at moved
          · next node found =>
              split at moved
              · cases moved
                exact .swapped present found
              · cases moved
                exact .missed present
          · cases moved
            exact .missed present
      · cases moved
  | spread index order =>
      simp only [step] at moved
      split at moved
      · next present =>
          split at moved
          · next perm =>
              cases moved
              exact .spreadTo present (List.isPerm_iff.mp perm)
          · cases moved
      · cases moved
  | fail index =>
      simp only [step] at moved
      split at moved
      · next present =>
          cases moved
          exact .failedReading present
      · next present =>
          cases moved
          exact .failedSwapping present
      · next present =>
          cases moved
          exact .unlogged present
      · cases moved
  | log index =>
      simp only [step] at moved
      split at moved
      · next present =>
          cases moved
          exact .logged present
      · cases moved

section Status

variable {runId other : String} {parent : Option String} {status : RunStatus}

theorem store_status_self : (manager.store runId parent status).status runId = some status := by
  have found := Table.find_upsert_self manager.runs (⟨runId, parent, status⟩ : Node)
  simp [Manager.status, store, found]

theorem store_status_other (different : other ≠ runId) :
    (manager.store runId parent status).status other = manager.status other := by
  have found : (manager.runs.upsert ⟨runId, parent, status⟩).find other =
      manager.runs.find other := Table.find_upsert_other manager.runs different
  simp [Manager.status, store, found]

end Status

/-- What a step leaves alone: CANCELED rows, the paths below them, and the terminal rows
below the roots of the calls on their way. -/
structure Keeps (manager after : Manager) : Prop where
  canceled : ∀ runId, manager.status runId = some .canceled → after.status runId = some .canceled
  grows : ∀ parent child, manager.edge parent child → after.edge parent child
  outside : ∀ top, manager.status top = some .canceled → ∀ parent child,
    after.edge parent child → manager.AtOrBelow top parent → manager.edge parent child
  settled : ∀ call ∈ manager.cancels, call.active = true →
    manager.status call.root = some .canceled → ∀ runId, manager.AtOrBelow call.root runId →
    manager.Settled runId → after.Settled runId

theorem keeps_same (rows : after.runs = manager.runs) (children : after.children = manager.children) :
    Keeps manager after := by
  have statuses : ∀ runId, after.status runId = manager.status runId := by
    intro runId
    rw [Manager.status, rows]
    rfl
  have edges : ∀ parent child, after.edge parent child ↔ manager.edge parent child := by
    intro parent child
    rw [edge, children]
    rfl
  constructor
  · intro runId canceled
    rw [statuses, canceled]
  · exact fun parent child => (edges parent child).mpr
  · exact fun _ _ parent child step _ => (edges parent child).mp step
  · intro call _ _ _ runId _ settled
    obtain ⟨status, found, terminal⟩ := settled
    exact ⟨status, by rw [statuses, found], terminal⟩

theorem keeps_store {runId : String} {parent : Option String} {status : RunStatus}
    (canceled : manager.status runId = some .canceled → status = .canceled)
    (settled : (∃ call ∈ manager.cancels, call.active = true ∧ manager.AtOrBelow call.root runId ∧
      manager.status call.root = some .canceled) → manager.Settled runId → status.terminal = true) :
    Keeps manager (manager.store runId parent status) where
  canceled := by
    intro other before
    by_cases same : other = runId
    · subst same
      rw [store_status_self, canceled before]
    · rw [store_status_other same, before]
  grows := fun _ _ step => step
  outside := fun _ _ _ _ step _ => step
  settled := by
    intro call member active top other below before
    by_cases same : other = runId
    · subst same
      exact ⟨status, store_status_self, settled ⟨call, member, active, below, top⟩ before⟩
    · obtain ⟨own, found, terminal⟩ := before
      exact ⟨own, by rw [store_status_other same, found], terminal⟩

theorem Keeps.setCall (keeps : Keeps manager after) {index : Nat} {call : CancelCall} :
    Keeps manager (after.setCall index call) :=
  ⟨keeps.canceled, keeps.grows, keeps.outside, keeps.settled⟩

theorem keeps_enter {parent child : String}
    (free : manager.edge parent child ∨ manager.Free parent) :
    Keeps manager { manager with
      children := Function.update manager.children parent
        ((manager.children parent).insert child) } where
  canceled := fun _ same => same
  grows := by
    intro other member step
    by_cases same : other = parent
    · subst same
      simp only [edge, Function.update_self]
      exact List.mem_insert_of_mem step
    · simpa [edge, Function.update_of_ne same] using step
  outside := by
    intro top canceled other member step below
    by_cases same : other = parent
    · subst same
      rcases free with known | free
      · simp only [edge, Function.update_self] at step
        rcases List.mem_insert_iff.mp step with rfl | before
        · exact known
        · exact before
      · exact absurd canceled (free top below)
    · simpa [edge, Function.update_of_ne same] using step
  settled := fun _ _ _ _ _ _ same => same

theorem Moves.keeps (moves : Moves manager action after) (orderly : manager.Orderly action) :
    Keeps manager after := by
  cases moves with
  | @created runId parent status fresh =>
      have absent : manager.status runId = none := by simp [Manager.status, fresh]
      apply keeps_store
      · intro canceled
        rw [absent] at canceled
        cases canceled
      · rintro _ ⟨own, found, _⟩
        rw [absent] at found
        cases found
  | entered found named => exact keeps_enter (orderly _ _ found named)
  | wrote found shifts => exact keeps_store orderly.1 orderly.2
  | swapped present found =>
      exact (keeps_store (fun _ => rfl) fun _ _ => rfl).setCall
  | listened => exact keeps_same rfl rfl
  | unlistened => exact keeps_same rfl rfl
  | began => exact keeps_same rfl rfl
  | readBy present => exact keeps_same rfl rfl
  | missed present => exact keeps_same rfl rfl
  | spreadTo present perm =>
      apply keeps_same
      · simp only [setEvent, setCall]
        split <;> rfl
      · simp only [setEvent, setCall]
        split <;> rfl
  | failedReading present => exact keeps_same rfl rfl
  | failedSwapping present => exact keeps_same rfl rfl
  | unlogged present => exact keeps_same rfl rfl
  | logged present => exact keeps_same rfl rfl

def Walking (manager : Manager) (root : String) (todo : List String) : Prop :=
  manager.status root = some .canceled ∧ Covers manager.edge manager.Settled todo root

def Walk (manager : Manager) (call : CancelCall) : Prop :=
  match call.phase with
  | .reading runId _ outer | .swapping runId _ _ outer =>
      if outer then runId = call.root ∧ call.todo = []
      else manager.Walking call.root (runId :: call.todo)
  | .spreading runId => manager.status runId = some .canceled ∧
      manager.Walking call.root (runId :: call.todo)
  | .logging => manager.Walking call.root call.todo ∧ call.todo = []
  | .returned status => status = .canceled → manager.status call.root = some .canceled
  | .raised => True

def Inv (manager : Manager) : Prop := ∀ call ∈ manager.cancels, manager.Walk call

theorem Walking.next {root : String} {phase : Phase} {todo : List String}
    (walking : manager.Walking root todo) : manager.Walk (CancelCall.next ⟨root, phase, todo⟩) := by
  cases todo with
  | nil => exact ⟨walking, rfl⟩
  | cons runId rest =>
      simp only [CancelCall.next, Walk]
      exact walking

theorem Walking.kept (keeps : Keeps manager after) {call : CancelCall} {todo : List String}
    (member : call ∈ manager.cancels) (active : call.active = true)
    (walking : manager.Walking call.root todo) : after.Walking call.root todo := by
  obtain ⟨canceled, covers⟩ := walking
  refine ⟨keeps.canceled _ canceled, ?_⟩
  exact covers.kept keeps.grows (keeps.outside _ canceled)
    (keeps.settled call member active canceled)

theorem Walk.kept (keeps : Keeps manager after) {call : CancelCall}
    (member : call ∈ manager.cancels) (walk : manager.Walk call) : after.Walk call := by
  obtain ⟨root, phase, todo⟩ := call
  cases phase with
  | reading runId rounds outer =>
      cases outer with
      | true => exact walk
      | false => exact Walking.kept keeps member rfl walk
  | swapping runId rounds previous outer =>
      cases outer with
      | true => exact walk
      | false => exact Walking.kept keeps member rfl walk
  | spreading runId => exact ⟨keeps.canceled _ walk.1, Walking.kept keeps member rfl walk.2⟩
  | logging => exact ⟨Walking.kept keeps member rfl walk.1, walk.2⟩
  | returned status => exact fun same => keeps.canceled _ (walk same)
  | raised => trivial

/-- The other calls keep their worklists; the call that moves brings its own. -/
theorem Inv.set (inv : Inv manager) (keeps : Keeps manager after) {index : Nat}
    {new : CancelCall} (calls : after.cancels = manager.cancels.set index new)
    (own : after.Walk new) : Inv after := by
  intro call member
  rw [calls] at member
  rcases List.mem_or_eq_of_mem_set member with before | rfl
  · exact (inv call before).kept keeps before
  · exact own

theorem Inv.kept (inv : Inv manager) (keeps : Keeps manager after)
    (calls : after.cancels = manager.cancels) : Inv after := by
  intro call member
  rw [calls] at member
  exact (inv call member).kept keeps member

theorem setCall_walk {index : Nat} {new call : CancelCall} :
    (manager.setCall index new).Walk call ↔ manager.Walk call := Iff.rfl

theorem readRun_walk {root runId : String} {rounds : Nat} {outer : Bool} {todo : List String}
    (walk : manager.Walk ⟨root, .reading runId rounds outer, todo⟩)
    (quiet : outer = false → 0 < rounds ∧ manager.status runId ≠ none)
    (below : outer = false ∨ manager.status runId = some .canceled → manager.Settled runId →
      ∀ target, manager.AtOrBelow runId target →
        manager.Settled target ∨ Awaits manager.edge todo target) :
    manager.Walk (manager.readRun ⟨root, .reading runId rounds outer, todo⟩ runId outer rounds) := by
  cases rounds with
  | zero =>
      cases outer with
      | true => trivial
      | false => exact absurd (quiet rfl).1 (Nat.lt_irrefl 0)
  | succ rounds =>
      simp only [readRun]
      cases found : manager.status runId with
      | none =>
          cases outer with
          | true => trivial
          | false => exact absurd found (quiet rfl).2
      | some status =>
          cases terminal : status.terminal with
          | false =>
              simp only [terminal, Bool.false_eq_true, if_false]
              exact walk
          | true =>
              simp only [terminal, if_true]
              cases outer with
              | true =>
                  obtain ⟨own, _⟩ : runId = root ∧ todo = [] := walk
                  intro canceled
                  rw [← canceled]
                  exact own ▸ found
              | false =>
                  have walking : manager.Walking root (runId :: todo) := walk
                  have settled : manager.Settled runId := ⟨status, found, terminal⟩
                  have shorter : manager.Walking root todo :=
                    ⟨walking.1, walking.2.skip (below (Or.inl rfl) settled)⟩
                  exact shorter.next

theorem throw_walk {root : String} {phase : Phase} {outer : Bool} {todo : List String}
    (quiet : outer = true) : manager.Walk (CancelCall.throw ⟨root, phase, todo⟩ outer) := by
  rw [quiet]
  trivial

theorem Moves.inv (moves : Moves manager action after) (inv : Inv manager)
    (orderly : manager.Orderly action) : Inv after := by
  have keeps := moves.keeps orderly
  cases moves with
  | created fresh => exact inv.kept keeps rfl
  | entered found named => exact inv.kept keeps rfl
  | wrote found shifts => exact inv.kept keeps rfl
  | listened => exact inv.kept keeps rfl
  | unlistened => exact inv.kept keeps rfl
  | began =>
      intro call member
      rcases List.mem_append.mp member with before | last
      · exact (inv call before).kept keeps before
      · rw [List.mem_singleton.mp last]
        exact ⟨rfl, rfl⟩
  | readBy present =>
      obtain ⟨quiet, below⟩ := orderly _ _ _ _ _ present
      have walk := inv _ (List.mem_of_getElem? present)
      exact inv.set keeps rfl (setCall_walk.mpr (readRun_walk walk quiet below))
  | @swapped index rounds root runId outer todo previous node present found =>
      have walk := inv _ (List.mem_of_getElem? present)
      have written : (manager.store runId node.parentRunId .canceled).status runId =
          some .canceled := store_status_self
      apply inv.set keeps rfl
      refine ⟨written, ?_⟩
      cases outer with
      | true =>
          obtain ⟨rfl, rfl⟩ : runId = root ∧ todo = [] := walk
          exact ⟨written, covers_root List.mem_cons_self⟩
      | false =>
          have walking : manager.Walking root (runId :: todo) := walk
          have member := List.mem_of_getElem? present
          have kept := Walking.kept keeps member rfl walking
          exact kept
  | @missed index rounds root runId outer todo previous present =>
      have walk := inv _ (List.mem_of_getElem? present)
      exact inv.set keeps rfl (setCall_walk.mpr walk)
  | @spreadTo index root runId todo order present perm =>
      obtain ⟨canceled, walking⟩ : manager.status runId = some .canceled ∧
          manager.Walking root (runId :: todo) := inv _ (List.mem_of_getElem? present)
      have here := Walking.kept keeps (List.mem_of_getElem? present) rfl walking
      have own := keeps.canceled runId canceled
      have table : ((manager.setEvent runId).setCall index
          (CancelCall.next ⟨root, .spreading runId, order ++ todo⟩)).children =
          manager.children := by
        simp only [setEvent, setCall]
        split <;> rfl
      have calls : ((manager.setEvent runId).setCall index
          (CancelCall.next ⟨root, .spreading runId, order ++ todo⟩)).cancels =
          manager.cancels.set index (CancelCall.next ⟨root, .spreading runId, order ++ todo⟩) := by
        simp only [setEvent, setCall]
        split <;> rfl
      apply inv.set keeps calls
      refine Walking.next ⟨here.1, here.2.expand ⟨.canceled, own, rfl⟩ ?_⟩
      intro child step
      rw [edge, table] at step
      exact perm.symm.subset step
  | @failedReading index rounds root runId outer todo present =>
      have silent := orderly _ present
      cases outer with
      | true => exact inv.set keeps rfl (throw_walk rfl)
      | false => cases silent
  | @failedSwapping index rounds root runId outer todo previous present =>
      have silent := orderly _ present
      cases outer with
      | true => exact inv.set keeps rfl (throw_walk rfl)
      | false => cases silent
  | unlogged present => exact inv.set keeps rfl trivial
  | @logged index root todo present =>
      have walk := inv _ (List.mem_of_getElem? present)
      exact inv.set keeps rfl fun _ => walk.1.1

theorem inv_inductive : Inductive step Orderly Inv where
  kept inv orderly moved := (step_cases moved).inv inv orderly

section Returns

variable {index position : Nat} {call done new : CancelCall} {status : RunStatus}

/-- A call on its way has not returned without a step of its own. -/
theorem active_stays (present : manager.cancels[index]? = some call) (active : call.active = true)
    (later : manager.cancels[index]? = some done) : done.phase ≠ .returned status := by
  intro returned
  rw [present] at later
  cases later
  rw [CancelCall.active, returned] at active
  cases active

theorem returns_own (present : manager.cancels[index]? = some call) (active : call.active = true)
    (later : (manager.cancels.set position new)[index]? = some done)
    (returned : done.phase = .returned status) : done = new := by
  by_cases own : position = index
  · subst own
    obtain ⟨inside, _⟩ := List.getElem?_eq_some_iff.mp present
    rw [List.getElem?_set_self inside] at later
    exact (Option.some.inj later).symm
  · rw [List.getElem?_set_ne own] at later
    exact absurd returned (active_stays present active later)

end Returns

theorem next_open {call : CancelCall} {status : RunStatus} :
    call.next.phase ≠ .returned status := by
  unfold CancelCall.next
  cases call.todo <;> simp

theorem throw_open {call : CancelCall} {outer : Bool} {status : RunStatus} :
    (call.throw outer).phase ≠ .returned status := by
  cases outer with
  | true => simp [CancelCall.throw]
  | false => exact next_open

theorem readRun_returned {call : CancelCall} {runId : String} {rounds : Nat} {outer : Bool}
    {status : RunStatus}
    (returned : (manager.readRun call runId outer rounds).phase = .returned status) :
    outer = true ∧ manager.status runId = some status ∧ status.terminal = true ∧
      (manager.readRun call runId outer rounds).root = call.root := by
  cases rounds with
  | zero => exact absurd returned throw_open
  | succ rounds =>
      simp only [readRun] at returned ⊢
      cases found : manager.status runId with
      | none =>
          rw [found] at returned
          exact absurd returned throw_open
      | some own =>
          rw [found] at returned
          cases terminal : own.terminal with
          | false => simp [terminal] at returned
          | true =>
              cases outer with
              | false =>
                  simp only [terminal, if_true, Bool.false_eq_true, if_false] at returned
                  exact absurd returned next_open
              | true =>
                  simp only [terminal, if_true] at returned ⊢
                  cases returned
                  exact ⟨trivial, rfl, terminal, trivial⟩

theorem Moves.closes (moves : Moves manager action after) (inv : Inv manager)
    (orderly : manager.Orderly action) {index : Nat} {call done : CancelCall}
    (present : manager.cancels[index]? = some call) (active : call.active = true)
    (later : after.cancels[index]? = some done) (returned : done.phase = .returned .canceled) :
    after.Closed done.root := by
  cases moves with
  | created fresh => exact absurd returned (active_stays present active later)
  | entered found named => exact absurd returned (active_stays present active later)
  | wrote found shifts => exact absurd returned (active_stays present active later)
  | listened => exact absurd returned (active_stays present active later)
  | unlistened => exact absurd returned (active_stays present active later)
  | began =>
      obtain ⟨inside, _⟩ := List.getElem?_eq_some_iff.mp present
      rw [List.getElem?_append_left inside] at later
      exact absurd returned (active_stays present active later)
  | @readBy position rounds root runId outer todo reading =>
      have own := returns_own present active later returned
      rw [own] at returned ⊢
      obtain ⟨rfl, canceled, terminal, same⟩ := readRun_returned returned
      obtain ⟨rfl, rfl⟩ : runId = root ∧ todo = [] := inv _ (List.mem_of_getElem? reading)
      obtain ⟨_, below⟩ := orderly _ _ _ _ _ reading
      rw [same]
      intro target reached
      have settled : manager.Settled runId := ⟨_, canceled, terminal⟩
      rcases below (Or.inr canceled) settled target reached with done | ⟨source, member, _⟩
      · exact done
      · cases member
  | swapped swapping found =>
      have own := returns_own present active later returned
      rw [own] at returned
      cases returned
  | missed swapping =>
      have own := returns_own present active later returned
      rw [own] at returned
      cases returned
  | @spreadTo position root runId todo order spreading perm =>
      have calls : ((manager.setEvent runId).setCall position
          (CancelCall.next ⟨root, .spreading runId, order ++ todo⟩)).cancels =
          manager.cancels.set position
            (CancelCall.next ⟨root, .spreading runId, order ++ todo⟩) := by
        simp only [setEvent, setCall]
        split <;> rfl
      rw [calls] at later
      have own := returns_own present active later returned
      rw [own] at returned
      exact absurd returned next_open
  | failedReading reading =>
      have own := returns_own present active later returned
      rw [own] at returned
      exact absurd returned throw_open
  | failedSwapping swapping =>
      have own := returns_own present active later returned
      rw [own] at returned
      exact absurd returned throw_open
  | unlogged logging =>
      have own := returns_own present active later returned
      rw [own] at returned
      cases returned
  | @logged position root todo logging =>
      have own := returns_own present active later returned
      obtain ⟨walking, rfl⟩ : manager.Walking root todo ∧ todo = [] :=
        inv _ (List.mem_of_getElem? logging)
      rw [own]
      exact fun runId below => walking.2.done below

theorem Moves.ends {index : Nat} {runId : String} (moves : Moves manager (.swap index) after)
    (changed : after.status runId ≠ manager.status runId) : after.status runId = some .canceled := by
  cases moves with
  | @swapped _ _ _ own _ _ _ _ present found =>
      by_cases same : runId = own
      · subst same
        exact store_status_self
      · exact absurd (store_status_other same) changed
  | missed present => exact absurd rfl changed

theorem canceled_inductive (runId : String) :
    Inductive step Orderly fun manager => manager.status runId = some .canceled where
  kept := fun canceled orderly moved => ((step_cases moved).keeps orderly).canceled runId canceled

/-- In a run of orderly steps cancellation closes over the descendants. -/
theorem cancellation_closes {start final : Manager} {events : List (Manager × Action)}
    (idle : start.cancels = []) (run : Run step start events final)
    (orderly : ∀ event ∈ events, event.1.Orderly event.2) : CancellationCloses events := by
  have initial : Inv start := by
    intro call member
    rw [idle] at member
    cases member
  have met := inv_inductive.met run initial orderly
  constructor
  · intro before action after member moved index call done present active later returned
    exact (step_cases moved).closes (met _ member) (orderly _ member) present active later returned
  · intro past before child parent status later split call member returned below other after _
    have inside : (before, Action.create child (some parent) status) ∈ events := by
      rw [split]
      exact List.mem_append_right _ List.mem_cons_self
    have free : before.Free parent := orderly _ inside parent rfl
    have walk : before.Walk call := met _ inside call member
    simp only [Walk, returned] at walk
    exact absurd (walk trivial) (free call.root below)
  · intro past before index later after runId split moved changed
    have ended := (step_cases moved).ends changed
    subst split
    obtain ⟨middle, _, rest⟩ := run.split
    cases rest with
    | next own rest =>
        cases own.symm.trans moved
        have allowed : ∀ event ∈ later, event.1.Orderly event.2 := fun event member =>
          orderly event (List.mem_append_right _ (List.mem_cons_of_mem _ member))
        refine ⟨ended, fun other action next member stepped => ?_⟩
        have canceled := (canceled_inductive runId).met rest ended allowed _ member
        exact (canceled_inductive runId).kept canceled (allowed _ member) stepped

def noneCanceled (manager : Manager) : Bool :=
  manager.runs.rows.all fun node => node.status != .canceled

theorem noneCanceled_status (none : noneCanceled manager = true) (runId : String) :
    manager.status runId ≠ some .canceled := by
  intro canceled
  obtain ⟨node, found, same⟩ := Option.map_eq_some_iff.mp canceled
  have live := List.all_eq_true.mp none node (Table.find_mem found)
  simp [same] at live

def inOrder (manager : Manager) : Action → Bool
  | .create _ _ _ | .enter _ | .write _ _ => noneCanceled manager
  | .read index =>
      match manager.cancels[index]? with
      | some ⟨_, .reading runId rounds outer, _⟩ =>
          (outer || (0 < rounds && (manager.status runId).isSome)) &&
            !(manager.status runId).any RunStatus.terminal
      | _ => true
  | .fail _ => false
  | _ => true

theorem inOrder_spec (passed : inOrder manager action = true) : manager.Orderly action := by
  cases action with
  | create runId parent status => exact fun _ _ top _ => noneCanceled_status passed top
  | enter runId => exact fun _ _ _ _ => Or.inr fun top _ => noneCanceled_status passed top
  | write runId after =>
      constructor
      · exact fun canceled => absurd canceled (noneCanceled_status passed runId)
      · rintro ⟨call, _, _, _, canceled⟩
        exact absurd canceled (noneCanceled_status passed call.root)
  | read index =>
      intro root runId rounds outer todo present
      simp only [inOrder, present, Bool.and_eq_true, Bool.or_eq_true, decide_eq_true_eq,
        Bool.not_eq_true'] at passed
      obtain ⟨quiet, live⟩ := passed
      constructor
      · rintro rfl
        rcases quiet with wrong | ⟨more, there⟩
        · cases wrong
        · exact ⟨more, Option.isSome_iff_ne_none.mp there⟩
      · rintro _ ⟨status, found, terminal⟩
        rw [found] at live
        exact absurd terminal (by simpa using live)
  | fail index => cases passed
  | listen runId => trivial
  | unlisten runId => trivial
  | cancel runId => trivial
  | swap index => trivial
  | spread index order => trivial
  | log index => trivial

def starts (runId : String) (parent : Option String) : List Action :=
  [.create runId parent .queued, .write runId .running]

def canceledWithChild : List Action :=
  starts "root" none ++ starts "child" (some "root") ++
  [.enter "child", .cancel "root", .read 0, .swap 0, .spread 0 ["child"], .read 0, .swap 0,
    .spread 0 [], .log 0]

theorem canceledWithChild_replays : (replay step {} canceledWithChild).any (fun outcome =>
    (outcome.1.all fun event => inOrder event.1 event.2) &&
      (outcome.2.status "root" = some .canceled && outcome.2.status "child" = some .canceled)) =
    true := by
  decide +kernel

theorem cancellation_closes_withChild : ∃ events final, Run step {} events final ∧
    final.status "root" = some .canceled ∧ final.status "child" = some .canceled ∧
    CancellationCloses events := by
  obtain ⟨events, final, run, checked⟩ := replay_checked canceledWithChild_replays
  obtain ⟨orderly, both⟩ := (Bool.and_eq_true _ _).mp checked
  obtain ⟨root, child⟩ : final.status "root" = some .canceled ∧
      final.status "child" = some .canceled := by simpa using both
  refine ⟨events, final, run, root, child, ?_⟩
  apply cancellation_closes rfl run
  intro event member
  exact inOrder_spec (List.all_eq_true.mp orderly event member)

def canceledAboveSuccess : List Action :=
  starts "root" none ++ starts "child" (some "root") ++ [.enter "child"] ++
  starts "grandchild" (some "child") ++
  [.enter "grandchild", .write "child" .agentSucceeded, .write "child" .succeeded,
    .cancel "root", .read 0, .swap 0, .spread 0 ["child"], .read 0, .log 0]

def leavesGrandchild (before : Manager) (action : Action) : Bool :=
  (before.step action).any fun after =>
    (before.cancels[0]?).any CancelCall.active &&
    (after.cancels[0]?).any (fun done => done.root = "root" && done.phase = .returned .canceled) &&
    (after.children "root").contains "child" && (after.children "child").contains "grandchild" &&
    after.status "grandchild" = some .running

theorem canceledAboveSuccess_replays : (replay step {} canceledAboveSuccess).any (fun outcome =>
    outcome.1.any fun event => leavesGrandchild event.1 event.2) = true := by
  decide +kernel

theorem grandchild_not_canceled : ∃ events final, Run step {} events final ∧
    ¬ CancellationCloses events := by
  obtain ⟨events, final, run, checked⟩ := replay_checked canceledAboveSuccess_replays
  obtain ⟨⟨before, action⟩, member, found⟩ := List.any_eq_true.mp checked
  obtain ⟨after, moved, left⟩ := (Option.any_eq_true _ _).mp found
  simp only [Bool.and_eq_true, Option.any_eq_true, decide_eq_true_eq, List.contains_iff_mem] at left
  obtain ⟨⟨⟨⟨⟨call, present, active⟩, done, later, named, returned⟩, first⟩, second⟩, running⟩ := left
  refine ⟨events, final, run, ?_⟩
  intro closes
  have closed := closes.closed before action after member moved 0 call done present active later
    returned
  rw [named] at closed
  have path : after.AtOrBelow "root" "grandchild" :=
    (ReflTransGen.single first).tail second
  obtain ⟨status, known, terminal⟩ := closed "grandchild" path
  rw [running] at known
  cases known
  cases terminal

end Manager

end AgentTaskPlatform.RunTree
