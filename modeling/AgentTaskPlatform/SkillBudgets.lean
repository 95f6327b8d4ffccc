import AgentTaskPlatform.SkillSession
import Mathlib.Data.List.Dedup
import Mathlib.Data.List.Induction

/-!
The budgets of a `SkillSession`: how many Skills may be active, how long their instructions
may be, and how much of the catalog fits into a prompt. The audit callback is told of every
refusal, activation and truncation, and may raise.
-/

namespace AgentTaskPlatform.SkillBudgets

open Skills StatefulCalls

structure SkillMetadata where
  name : String
  version : String
  description : String
  activation : ActivationPolicy
  deriving DecidableEq

inductive AuditEvent where
  | denied (name : String) (version : Option String) (reason : String)
  | activated (name version contentHash : String) (activation : ActivationPolicy)
      (reason : String) (instructionChars : Nat)
  | catalogTruncated (included : Nat) (omitted : List String) (budget : Int)
  deriving DecidableEq

structure State where
  session : SkillSession
  lastTruncated : Option (Nat × List String × Int) := none
  told : List AuditEvent := []

abbrev AuditedM := Method Exc State

def create (assignments : List (AgentSkillRef × SkillSpec))
    (maxActiveSkills maxInstructionChars : Nat) : Except Exc State := do
  checkAssignments [] assignments
  return { session := { assignments, maxActiveSkills, maxInstructionChars } }

section Audit

abbrev Raises := AuditEvent → Option Exc

variable (raises : Raises)

def audit (event : AuditEvent) : AuditedM Unit := do
  modify fun state => { state with told := state.told ++ [event] }
  point (raises event)

def deny {α : Type} (event : AuditEvent) (error : Exc) : AuditedM α := do
  audit raises event
  throw error

def activatedEvent (activation : SkillActivation) (reason : String) : AuditEvent :=
  .activated activation.name activation.version activation.contentHash activation.activation
    reason activation.instructions.length

def activate (loading : Loading) (name reason : String) (explicit : Bool) :
    AuditedM SkillActivation := do
  let state ← get
  match state.session.assigned name with
  | none => deny raises (.denied name none "not_assigned") (notAssigned name)
  | some (ref, spec) =>
      if ref.activation = .explicit && !explicit then
        deny raises (.denied name (some spec.version) "explicit_required")
          (activationDenied ("Skill '" ++ name ++ "' requires explicit activation"))
      else match state.session.activeFor name with
      | some active => return active
      | none =>
          if state.session.maxActiveSkills ≤ state.session.active.length then
            deny raises (.denied name (some spec.version) "activation_limit")
              (activationDenied "Skill activation limit reached for this Run")
          else do
            let instructions ← ExceptT.mk (pure (loadInstructions loading spec))
            if (state.session.active.map fun item => item.instructions.length).sum +
                instructions.length > state.session.maxInstructionChars then
              deny raises (.denied name (some spec.version) "instruction_budget")
                (activationDenied "Skill instruction budget exceeded for this Run")
            else do
              let activation : SkillActivation :=
                ⟨name, spec.version, spec.contentHash, instructions, activationOf ref explicit⟩
              modify fun state => { state with
                session := { state.session with active := state.session.active ++ [activation] } }
              audit raises (activatedEvent activation reason)
              return activation

end Audit

section Catalog

def catalog (session : SkillSession) : List SkillMetadata :=
  session.assignments.map fun (ref, spec) =>
    ⟨ref.name, spec.version, spec.description, ref.activation⟩

def header : String :=
  "Available skills are listed below. Load a skill only when the task matches its description.\n" ++
    "Use skill_load with the exact name before following that skill's workflow.\n\n"

def linePrefix (metadata : SkillMetadata) : String :=
  "- " ++ metadata.name ++ "@" ++ metadata.version ++ ": "

def fullLine (metadata : SkillMetadata) : String :=
  linePrefix metadata ++ metadata.description ++ "\n"

def cutLine (metadata : SkillMetadata) (available : Nat) : String :=
  linePrefix metadata ++ String.ofList (metadata.description.toList.take available) ++ "...\n"

/-- The loop of `catalog_prompt`: the lines, and the names that are left out. -/
def catalogLoop (all : List SkillMetadata) :
    List SkillMetadata → List String → Int → List String × List String
  | [], lines, _ => (lines, [])
  | metadata :: rest, lines, remaining =>
      if (fullLine metadata).length ≤ remaining then
        catalogLoop all rest (lines ++ [fullLine metadata])
          (remaining - (fullLine metadata).length)
      else
        let available := remaining - (linePrefix metadata).length - 4
        if 0 < available then
          let lines := lines ++ [cutLine metadata available.toNat]
          (lines, (all.drop lines.length).map SkillMetadata.name)
        else (lines, (all.drop lines.length).map SkillMetadata.name)

def sortedNames (names : List String) : List String :=
  names.dedup.insertionSort (· ≤ ·)

def reportTruncation (raises : Raises) (included : Nat) (omitted : List String) (maxChars : Int) :
    AuditedM Unit := do
  let state ← get
  let key := (included, sortedNames omitted, maxChars)
  if omitted = [] || state.lastTruncated = some key then return ()
  else do
    modify fun state => { state with lastTruncated := some key }
    audit raises (.catalogTruncated included (sortedNames omitted) maxChars)

def catalogPrompt (raises : Raises) (maxChars : Int) : AuditedM String := do
  let state ← get
  if (catalog state.session).isEmpty then return ""
  else if maxChars ≤ header.length then return ""
  else do
    let (lines, omitted) := catalogLoop (catalog state.session) (catalog state.session) []
      (maxChars - header.length)
    reportTruncation raises lines.length omitted maxChars
    return header ++ String.join lines

end Catalog

/-- A call on the session. The files of the Skills and the callback may differ from one call to
the next. -/
inductive Call where
  | activate (loading : Loading) (raises : Raises) (name reason : String) (explicit : Bool)
  | catalogPrompt (raises : Raises) (maxChars : Int)

def Call.perform (state : State) : Call → State
  | .activate loading raises name reason explicit =>
      (SkillBudgets.activate raises loading name reason explicit state).2
  | .catalogPrompt raises maxChars => (SkillBudgets.catalogPrompt raises maxChars state).2

def after (state : State) (calls : List Call) : State := calls.foldl Call.perform state

theorem after_snoc (state : State) (past : List Call) (call : Call) :
    after state (past ++ [call]) = call.perform (after state past) := by
  simp [after]

section Activations

variable {raises : Raises} {loading : Loading} {state : State} {name reason : String}
  {explicit : Bool}

@[simp] theorem audit_run (raises : Raises) (event : AuditEvent) (state : State) :
    audit raises event state =
      ((match raises event with | none => .ok () | some error => .error error),
        { state with told := state.told ++ [event] }) := by
  simp only [audit, bind_run, modify_run]
  cases raises event <;> rfl

theorem deny_run {α : Type} (raises : Raises) (event : AuditEvent) (error : Exc) (state : State) :
    ∃ raised, (deny raises event error : AuditedM α) state =
      (.error raised, { state with told := state.told ++ [event] }) := by
  simp only [deny, bind_run, audit_run]
  cases raises event with
  | none => exact ⟨error, rfl⟩
  | some raised => exact ⟨raised, rfl⟩

def admitted (loading : Loading) (session : SkillSession) (name : String) (explicit : Bool) :
    Option SkillActivation :=
  match session.assigned name with
  | none => none
  | some (ref, spec) =>
      if ref.activation = .explicit && !explicit || (session.activeFor name).isSome ||
          session.maxActiveSkills ≤ session.active.length then none
      else match loadInstructions loading spec with
      | .error _ => none
      | .ok instructions =>
          if (session.active.map fun item => item.instructions.length).sum +
              instructions.length > session.maxInstructionChars then none
          else some ⟨name, spec.version, spec.contentHash, instructions, activationOf ref explicit⟩

structure Quiet (state after : State) : Prop where
  session : after.session = state.session
  lastTruncated : after.lastTruncated = state.lastTruncated
  reports : ∀ included omitted budget, .catalogTruncated included omitted budget ∈ after.told ↔
    .catalogTruncated included omitted budget ∈ state.told

theorem Quiet.refl (state : State) : Quiet state state := ⟨rfl, rfl, fun _ _ _ => Iff.rfl⟩

theorem Quiet.told (state : State) {event : AuditEvent}
    (other : ∀ included omitted budget, event ≠ .catalogTruncated included omitted budget) :
    Quiet state { state with told := state.told ++ [event] } := by
  refine ⟨rfl, rfl, fun included omitted budget => ?_⟩
  rw [List.mem_append, List.mem_singleton]
  exact or_iff_left fun same => other included omitted budget same.symm

def added (state : State) (activation : SkillActivation) (reason : String) : State :=
  { state with
    session := { state.session with active := state.session.active ++ [activation] }
    told := state.told ++ [activatedEvent activation reason] }

inductive Activates (raises : Raises) (loading : Loading) (state : State) (name reason : String)
    (explicit : Bool) : Except Exc SkillActivation × State → Prop
  | kept {outcome after} : admitted loading state.session name explicit = none →
      Quiet state after → Activates raises loading state name reason explicit (outcome, after)
  | added {activation} : admitted loading state.session name explicit = some activation →
      raises (activatedEvent activation reason) = none →
      Activates raises loading state name reason explicit
        (.ok activation, SkillBudgets.added state activation reason)
  | raised {activation error} : admitted loading state.session name explicit = some activation →
      raises (activatedEvent activation reason) = some error →
      Activates raises loading state name reason explicit
        (.error error, SkillBudgets.added state activation reason)

theorem activate_spec (raises : Raises) (loading : Loading) (state : State)
    (name reason : String) (explicit : Bool) :
    Activates raises loading state name reason explicit
      (activate raises loading name reason explicit state) := by
  have denied (fields : String × Option String × String) (error : Exc)
      (nothing : admitted loading state.session name explicit = none) :
      Activates raises loading state name reason explicit
        (deny raises (.denied fields.1 fields.2.1 fields.2.2) error state) := by
    obtain ⟨raised, run⟩ := @deny_run SkillActivation raises
      (.denied fields.1 fields.2.1 fields.2.2) error state
    rw [run]
    exact .kept nothing (Quiet.told state nofun)
  simp only [activate, bind_run, get_run]
  cases found : state.session.assigned name with
  | none =>
      have nothing : admitted loading state.session name explicit = none := by
        simp only [admitted, found]
      exact denied (name, none, "not_assigned") _ nothing
  | some assignment =>
      obtain ⟨ref, spec⟩ := assignment
      simp only
      by_cases gated : (decide (ref.activation = .explicit) && !explicit) = true
      · have nothing : admitted loading state.session name explicit = none := by
          simp only [admitted, found, gated, Bool.true_or, if_true]
        rw [if_pos gated]
        exact denied (name, some spec.version, "explicit_required") _ nothing
      · rw [if_neg gated]
        cases held : state.session.activeFor name with
        | some active =>
            have nothing : admitted loading state.session name explicit = none := by
              simp only [admitted, found, held, Option.isSome_some, Bool.or_true, Bool.true_or,
                if_true]
            exact .kept nothing (Quiet.refl state)
        | none =>
            simp only
            by_cases full : state.session.maxActiveSkills ≤ state.session.active.length
            · have nothing : admitted loading state.session name explicit = none := by
                simp only [admitted, found, full, decide_true, Bool.or_true, if_true]
              rw [if_pos full]
              exact denied (name, some spec.version, "activation_limit") _ nothing
            · have free : (decide (ref.activation = .explicit) && !explicit ||
                  (state.session.activeFor name).isSome ||
                  decide (state.session.maxActiveSkills ≤ state.session.active.length)) =
                  false := by
                simp [gated, held, full]
              rw [if_neg full]
              simp only [bind_run, lift_run]
              cases loaded : loadInstructions loading spec with
              | error error =>
                  have nothing : admitted loading state.session name explicit = none := by
                    simp only [admitted, found, free, loaded, Bool.false_eq_true, if_false]
                  exact .kept nothing (Quiet.refl state)
              | ok instructions =>
                  simp only
                  by_cases long : (state.session.active.map fun item =>
                      item.instructions.length).sum + instructions.length >
                        state.session.maxInstructionChars
                  · have nothing : admitted loading state.session name explicit = none := by
                      simp only [admitted, found, free, loaded, long, Bool.false_eq_true,
                        if_false, if_true]
                    rw [if_pos long]
                    exact denied (name, some spec.version, "instruction_budget") _ nothing
                  · have admits : admitted loading state.session name explicit =
                        some ⟨name, spec.version, spec.contentHash, instructions,
                          activationOf ref explicit⟩ := by
                      simp only [admitted, found, free, loaded, long, Bool.false_eq_true,
                        if_false]
                    rw [if_neg long]
                    simp only [bind_run, modify_run, audit_run]
                    cases told : raises (activatedEvent ⟨name, spec.version, spec.contentHash,
                        instructions, activationOf ref explicit⟩ reason) with
                    | none => exact .added admits told
                    | some error => exact .raised admits told

/-- The Skill is stored before the callback is told, and stays when this raises. -/
theorem activate_raised {activation : SkillActivation} {error : Exc}
    (admits : admitted loading state.session name explicit = some activation)
    (strikes : raises (activatedEvent activation reason) = some error) :
    activate raises loading name reason explicit state =
      (.error error, added state activation reason) := by
  have spec := activate_spec raises loading state name reason explicit
  generalize activate raises loading name reason explicit state = result at spec ⊢
  cases spec with
  | kept nothing _ =>
      rw [admits] at nothing
      cases nothing
  | added again quiet =>
      rw [admits] at again
      cases again
      rw [strikes] at quiet
      cases quiet
  | raised again loud =>
      rw [admits] at again
      cases again
      rw [strikes] at loud
      cases loud
      rfl

theorem admitted_room {session : SkillSession} {activation : SkillActivation}
    (admits : admitted loading session name explicit = some activation) :
    session.active.length < session.maxActiveSkills ∧
      (session.active.map fun item => item.instructions.length).sum +
        activation.instructions.length ≤ session.maxInstructionChars := by
  unfold admitted at admits
  split at admits
  · cases admits
  · split at admits
    · cases admits
    · next refused =>
        split at admits
        · cases admits
        · split at admits
          · cases admits
          · next long =>
              cases admits
              simp only [Bool.or_eq_true, decide_eq_true_eq, not_or, not_le] at refused
              exact ⟨refused.2, not_lt.mp long⟩

end Activations

section Listing

def Begins (all : List SkillMetadata) (lines : List String) : Prop :=
  ∀ (index : Nat) (metadata : SkillMetadata) (line : String), all[index]? = some metadata →
    lines[index]? = some line → (linePrefix metadata).toList <+: line.toList

theorem Begins.snoc {done rest : List SkillMetadata} {metadata : SkillMetadata}
    {lines : List String} {line : String}
    (begins : Begins (done ++ metadata :: rest) lines) (same : lines.length = done.length)
    (own : (linePrefix metadata).toList <+: line.toList) :
    Begins (done ++ metadata :: rest) (lines ++ [line]) := by
  intro index other found listed there
  by_cases early : index < lines.length
  · rw [List.getElem?_append_left early] at there
    exact begins index other found listed there
  · rw [List.getElem?_append_right (not_lt.mp early)] at there
    have last : index = lines.length := by
      have inside := (List.getElem?_eq_some_iff.mp there).1
      simp only [List.length_singleton] at inside
      omega
    rw [last, same, List.getElem?_append_right (le_refl _)] at listed
    rw [last] at there
    simp only [Nat.sub_self, List.getElem?_cons_zero, Option.some.injEq] at listed there
    rw [← listed, ← there]
    exact own

structure Listed (all : List SkillMetadata) (budget : Int) (lines omitted : List String) :
    Prop where
  fits : ((lines.map String.length).sum : Int) ≤ budget
  within : lines.length ≤ all.length
  begins : Begins all lines
  omitted : omitted = (all.drop lines.length).map SkillMetadata.name

theorem length_cutLine (metadata : SkillMetadata) (available : Nat) :
    (cutLine metadata available).length ≤ (linePrefix metadata).length + available + 4 := by
  have dots : "...\n".length = 4 := rfl
  simp only [cutLine, String.length_append, String.length_ofList, List.length_take, dots]
  omega

theorem catalogLoop_listed {done todo : List SkillMetadata} {lines : List String}
    {budget remaining : Int} (same : lines.length = done.length)
    (begins : Begins (done ++ todo) lines)
    (spent : ((lines.map String.length).sum : Int) + remaining ≤ budget)
    (left_ : 0 ≤ remaining) :
    Listed (done ++ todo) budget (catalogLoop (done ++ todo) todo lines remaining).1
      (catalogLoop (done ++ todo) todo lines remaining).2 := by
  induction todo generalizing done lines remaining with
  | nil =>
      simp only [List.append_nil, catalogLoop] at begins ⊢
      refine ⟨by omega, same.le, begins, ?_⟩
      rw [same, List.drop_length]
      rfl
  | cons metadata rest ih =>
      rw [catalogLoop]
      by_cases whole : ((fullLine metadata).length : Int) ≤ remaining
      · rw [if_pos whole]
        have regrouped : done ++ metadata :: rest = (done ++ [metadata]) ++ rest := by simp
        have own : (linePrefix metadata).toList <+: (fullLine metadata).toList := by
          simp only [fullLine, String.toList_append, List.append_assoc]
          exact List.prefix_append _ _
        have next := begins.snoc same own
        rw [regrouped] at next ⊢
        refine ih (by simp [same]) next ?_ (by omega)
        simp only [List.map_append, List.map_cons, List.map_nil, List.sum_append, List.sum_cons,
          List.sum_nil, Nat.add_zero, Int.natCast_add]
        omega
      · rw [if_neg whole]
        simp only
        by_cases room : 0 < remaining - (linePrefix metadata).length - 4
        · rw [if_pos room]
          have own : (linePrefix metadata).toList <+: (cutLine metadata
              (remaining - (linePrefix metadata).length - 4).toNat).toList := by
            simp only [cutLine, String.toList_append, List.append_assoc]
            exact List.prefix_append _ _
          have short := length_cutLine metadata
            (remaining - (linePrefix metadata).length - 4).toNat
          refine ⟨?_, ?_, begins.snoc same own, rfl⟩
          · simp only [List.map_append, List.map_cons, List.map_nil, List.sum_append,
              List.sum_cons, List.sum_nil, Nat.add_zero, Int.natCast_add]
            omega
          · simp [same]
        · rw [if_neg room]
          exact ⟨by simp only; omega, by simp [same], begins, rfl⟩

def listing (session : SkillSession) (maxChars : Int) : List String × List String :=
  catalogLoop (catalog session) (catalog session) [] (maxChars - header.length)

theorem listing_listed (session : SkillSession) {maxChars : Int}
    (above : (header.length : Int) < maxChars) :
    Listed (catalog session) (maxChars - header.length) (listing session maxChars).1
      (listing session maxChars).2 := by
  have begins : Begins ([] ++ catalog session) [] := by
    intro index metadata line _ listed
    cases listed
  have spent : ((([] : List String).map String.length).sum : Int) + (maxChars - header.length) ≤
      maxChars - header.length := by
    rw [List.map_nil, List.sum_nil]
    omega
  exact @catalogLoop_listed [] (catalog session) [] _ _ rfl begins spent (by omega)

theorem mem_sortedNames {name : String} {names : List String} :
    name ∈ sortedNames names ↔ name ∈ names := by
  rw [sortedNames, List.mem_insertionSort, List.mem_dedup]

end Listing

section Prompts

variable {raises : Raises} {state : State} {maxChars : Int}

structure Reported (state : State) : Prop where
  faithful : ∀ included omitted budget, .catalogTruncated included omitted budget ∈ state.told →
    included = (listing state.session budget).1.length ∧
      omitted = sortedNames (listing state.session budget).2 ∧
      (listing state.session budget).2 ≠ []
  last : ∀ key, state.lastTruncated = some key →
    .catalogTruncated key.1 key.2.1 key.2.2 ∈ state.told

def reported (state : State) (maxChars : Int) : State :=
  if (listing state.session maxChars).2 = [] ∨ state.lastTruncated =
      some ((listing state.session maxChars).1.length,
        sortedNames (listing state.session maxChars).2, maxChars) then state
  else
    { state with
      lastTruncated := some ((listing state.session maxChars).1.length,
        sortedNames (listing state.session maxChars).2, maxChars)
      told := state.told ++ [.catalogTruncated (listing state.session maxChars).1.length
        (sortedNames (listing state.session maxChars).2) maxChars] }

theorem reported_session (state : State) (maxChars : Int) :
    (reported state maxChars).session = state.session := by
  unfold reported
  split <;> rfl

theorem catalogPrompt_run (raises : Raises) (state : State) (maxChars : Int) :
    (catalogPrompt raises maxChars state = (.ok "", state) ∧
        ((catalog state.session).isEmpty = true ∨ maxChars ≤ header.length)) ∨
      ((header.length : Int) < maxChars ∧
        (catalogPrompt raises maxChars state).2 = reported state maxChars ∧
        ∀ prompt, (catalogPrompt raises maxChars state).1 = .ok prompt →
          prompt = header ++ String.join (listing state.session maxChars).1) := by
  simp only [catalogPrompt, bind_run, get_run]
  by_cases empty : (catalog state.session).isEmpty = true
  · rw [if_pos empty]
    exact Or.inl ⟨rfl, Or.inl empty⟩
  · rw [if_neg empty]
    by_cases short : maxChars ≤ header.length
    · rw [if_pos short]
      exact Or.inl ⟨rfl, Or.inr short⟩
    · rw [if_neg short]
      refine Or.inr ⟨not_le.mp short, ?_⟩
      simp only [bind_run, reportTruncation, get_run, ← listing.eq_def, reported,
        Bool.or_eq_true, decide_eq_true_eq]
      by_cases known : (listing state.session maxChars).2 = [] ∨ state.lastTruncated =
          some ((listing state.session maxChars).1.length,
            sortedNames (listing state.session maxChars).2, maxChars)
      · simp only [if_pos known, pure_run]
        exact ⟨trivial, fun prompt same => (Except.ok.inj same).symm⟩
      · simp only [if_neg known, bind_run, modify_run, audit_run]
        cases raises (.catalogTruncated (listing state.session maxChars).1.length
          (sortedNames (listing state.session maxChars).2) maxChars) with
        | none => exact ⟨rfl, fun prompt same => (Except.ok.inj same).symm⟩
        | some error => exact ⟨rfl, nofun⟩

theorem Reported.prompt (sound : Reported state) (maxChars : Int) :
    Reported (reported state maxChars) := by
  unfold reported
  split
  · exact sound
  · next fresh =>
      rw [not_or] at fresh
      constructor
      · intro included omitted budget told
        rcases List.mem_append.mp told with earlier | own
        · exact sound.faithful included omitted budget earlier
        · obtain ⟨rfl, rfl, rfl⟩ := AuditEvent.catalogTruncated.inj (List.mem_singleton.mp own)
          exact ⟨rfl, rfl, fresh.1⟩
      · intro key same
        cases same
        exact List.mem_append_right _ (List.mem_singleton.mpr rfl)

/-- After a prompt, what it leaves out has been reported. -/
theorem Reported.told (sound : Reported state) (omits : (listing state.session maxChars).2 ≠ []) :
    .catalogTruncated (listing state.session maxChars).1.length
      (sortedNames (listing state.session maxChars).2) maxChars ∈
        (reported state maxChars).told := by
  unfold reported
  split
  · next known =>
      rcases known with nothing | last
      · exact absurd nothing omits
      · exact sound.last _ last
  · exact List.mem_append_right _ (List.mem_singleton.mpr rfl)

/-- Every Skill has a line of the prompt, or was reported as left out for this budget. -/
def Disclosed (catalog : List SkillMetadata) (maxChars : Int) (prompt : String)
    (told : List AuditEvent) : Prop :=
  ∃ lines : List String, prompt = header ++ String.join lines ∧ lines.length ≤ catalog.length ∧
    Begins catalog lines ∧ ∀ (index : Nat) (metadata : SkillMetadata),
      catalog[index]? = some metadata → (index < lines.length ↔
        ¬ ∃ included omitted, .catalogTruncated included omitted maxChars ∈ told ∧
          metadata.name ∈ omitted)

/-- A name that occurs once lies before a cut or behind it. -/
theorem name_drop {all : List SkillMetadata} (distinct : (all.map SkillMetadata.name).Nodup)
    {index cut : Nat} {metadata : SkillMetadata} (found : all[index]? = some metadata) :
    metadata.name ∈ (all.drop cut).map SkillMetadata.name ↔ cut ≤ index := by
  have own : (all.map SkillMetadata.name)[index]? = some metadata.name := by
    rw [List.getElem?_map, found]
    rfl
  obtain ⟨inside, at_index⟩ := List.getElem?_eq_some_iff.mp own
  rw [List.map_drop, List.mem_iff_getElem?]
  constructor
  · rintro ⟨offset, there⟩
    rw [List.getElem?_drop] at there
    have same := (List.nodup_iff_getElem?_ne_getElem?.mp distinct)
    by_contra early
    have apart := same index (cut + offset) (by omega)
      (List.getElem?_eq_some_iff.mp there).1
    exact apart (own.trans there.symm)
  · intro behind
    refine ⟨index - cut, ?_⟩
    rw [List.getElem?_drop, Nat.add_sub_cancel' behind]
    exact own

theorem Reported.disclosed (sound : Reported state) (above : (header.length : Int) < maxChars)
    (distinct : ((catalog state.session).map SkillMetadata.name).Nodup) :
    Disclosed (catalog state.session) maxChars
      (header ++ String.join (listing state.session maxChars).1)
      (reported state maxChars).told := by
  have listed := listing_listed state.session above
  refine ⟨_, rfl, listed.within, listed.begins, fun index metadata found => ?_⟩
  have behind : metadata.name ∈ ((catalog state.session).drop
      (listing state.session maxChars).1.length).map SkillMetadata.name ↔
        (listing state.session maxChars).1.length ≤ index := name_drop distinct found
  rw [← listed.omitted] at behind
  constructor
  · rintro early ⟨included, omitted, told, member⟩
    obtain ⟨_, rfl, _⟩ := (sound.prompt maxChars).faithful included omitted maxChars told
    rw [reported_session, mem_sortedNames, behind] at member
    omega
  · intro silent
    by_contra late
    have member := behind.mpr (not_lt.mp late)
    have omits : (listing state.session maxChars).2 ≠ [] := List.ne_nil_of_mem member
    exact silent ⟨_, _, sound.told omits, mem_sortedNames.mpr member⟩

theorem length_prompt (state : State) (above : (header.length : Int) < maxChars) :
    ((header ++ String.join (listing state.session maxChars).1).length : Int) ≤ maxChars := by
  have fits := (listing_listed state.session above).fits
  rw [String.length_append, String.length_join]
  omega

end Prompts

section Runs

variable {state : State} {calls : List Call}

structure Sound (start state : State) : Prop where
  assignments : state.session.assignments = start.session.assignments
  maxActiveSkills : state.session.maxActiveSkills = start.session.maxActiveSkills
  maxInstructionChars : state.session.maxInstructionChars = start.session.maxInstructionChars
  active : state.session.active.length ≤ state.session.maxActiveSkills
  instructions : (state.session.active.map fun item => item.instructions.length).sum ≤
    state.session.maxInstructionChars
  reported : Reported state

theorem Sound.quiet {start after : State} (sound : Sound start state) (quiet : Quiet state after) :
    Sound start after := by
  obtain ⟨session, lastTruncated, reports⟩ := quiet
  refine ⟨?_, ?_, ?_, ?_, ?_, ?_, ?_⟩
  · rw [session]
    exact sound.assignments
  · rw [session]
    exact sound.maxActiveSkills
  · rw [session]
    exact sound.maxInstructionChars
  · rw [session]
    exact sound.active
  · rw [session]
    exact sound.instructions
  · intro included omitted budget told
    rw [session]
    exact sound.reported.faithful included omitted budget ((reports _ _ _).mp told)
  · intro key same
    rw [lastTruncated] at same
    exact (reports _ _ _).mpr (sound.reported.last key same)

theorem Sound.added {start : State} (sound : Sound start state) {loading : Loading}
    {name reason : String} {explicit : Bool} {activation : SkillActivation}
    (admits : admitted loading state.session name explicit = some activation) :
    Sound start (added state activation reason) := by
  obtain ⟨room, short⟩ := admitted_room admits
  have reports (included : Nat) (omitted : List String) (budget : Int) :
      .catalogTruncated included omitted budget ∈
          (SkillBudgets.added state activation reason).told ↔
        .catalogTruncated included omitted budget ∈ state.told :=
    (Quiet.told state fun _ _ _ same => by cases same).reports included omitted budget
  refine ⟨sound.assignments, sound.maxActiveSkills, sound.maxInstructionChars, ?_, ?_, ?_, ?_⟩
  · simp only [SkillBudgets.added, List.length_append, List.length_singleton]
    exact room
  · simp only [SkillBudgets.added, List.map_append, List.map_cons, List.map_nil,
      List.sum_append, List.sum_cons, List.sum_nil, Nat.add_zero]
    exact short
  · intro included omitted budget told
    exact sound.reported.faithful included omitted budget ((reports _ _ _).mp told)
  · intro key same
    exact (reports _ _ _).mpr (sound.reported.last key same)

theorem Sound.step {start : State} (sound : Sound start state) (call : Call) :
    Sound start (call.perform state) := by
  cases call with
  | activate loading raises name reason explicit =>
      have spec := activate_spec raises loading state name reason explicit
      simp only [Call.perform]
      generalize activate raises loading name reason explicit state = result at spec ⊢
      cases spec with
      | kept _ quiet => exact sound.quiet quiet
      | added admits _ => exact sound.added admits
      | raised admits _ => exact sound.added admits
  | catalogPrompt raises maxChars =>
      simp only [Call.perform]
      rcases catalogPrompt_run raises state maxChars with ⟨run, _⟩ | ⟨_, after, _⟩
      · rw [run]
        exact sound
      · rw [after]
        have session := reported_session state maxChars
        refine ⟨?_, ?_, ?_, ?_, ?_, sound.reported.prompt maxChars⟩
        · rw [session]
          exact sound.assignments
        · rw [session]
          exact sound.maxActiveSkills
        · rw [session]
          exact sound.maxInstructionChars
        · rw [session]
          exact sound.active
        · rw [session]
          exact sound.instructions

theorem sound_after (state : State) (begun : Sound state state) (calls : List Call) :
    Sound state (after state calls) := by
  induction calls using List.reverseRecOn with
  | nil => exact begun
  | append_singleton past call ih =>
      rw [after_snoc]
      exact ih.step call

theorem checkAssignments_distinct {seen : List String}
    {assignments : List (AgentSkillRef × SkillSpec)}
    (checked : checkAssignments seen assignments = .ok ()) :
    (∀ assignment ∈ assignments, assignment.1.name ∉ seen) ∧
      (assignments.map fun assignment => assignment.1.name).Nodup := by
  induction assignments generalizing seen with
  | nil => exact ⟨nofun, List.nodup_nil⟩
  | cons assignment rest ih =>
      obtain ⟨ref, spec⟩ := assignment
      rw [checkAssignments] at checked
      split at checked
      · cases checked
      · next fresh =>
          split at checked
          · cases checked
          · obtain ⟨absent, distinct⟩ := ih checked
            have unseen : ref.name ∉ seen := by simpa using fresh
            refine ⟨?_, List.nodup_cons.mpr ⟨?_, distinct⟩⟩
            · intro other member
              rcases List.mem_cons.mp member with rfl | later
              · exact unseen
              · exact fun taken => absent other later (List.mem_cons_of_mem _ taken)
            · intro member
              obtain ⟨other, later, same⟩ := List.mem_map.mp member
              exact absent other later (by rw [same]; exact List.mem_cons_self)

theorem create_sound {assignments : List (AgentSkillRef × SkillSpec)}
    {maxActiveSkills maxInstructionChars : Nat}
    (created : create assignments maxActiveSkills maxInstructionChars = .ok state) :
    Sound state state ∧ ((catalog state.session).map SkillMetadata.name).Nodup ∧
      state.session.active = [] := by
  unfold create at created
  cases checked : checkAssignments [] assignments with
  | error error =>
      rw [checked] at created
      cases created
  | ok _ =>
      rw [checked] at created
      cases created
      refine ⟨⟨rfl, rfl, rfl, Nat.zero_le _, Nat.zero_le _, nofun, nofun⟩, ?_, rfl⟩
      simp only [catalog, List.map_map]
      exact (checkAssignments_distinct checked).2

structure Budgeted (state : State) (calls : List Call) : Prop where
  active : ∀ past, past <+: calls →
    (after state past).session.active.length ≤ state.session.maxActiveSkills
  instructions : ∀ past, past <+: calls →
    ((after state past).session.active.map fun item => item.instructions.length).sum ≤
      state.session.maxInstructionChars
  refused : ∀ past loading raises name reason explicit error,
    past ++ [.activate loading raises name reason explicit] <+: calls →
    (activate raises loading name reason explicit (after state past)).1 = .error error →
      (activate raises loading name reason explicit (after state past)).2.session.active =
        (after state past).session.active
  prompts : ∀ past raises maxChars prompt next, past ++ [.catalogPrompt raises maxChars] <+: calls →
    (header.length : Int) < maxChars →
    catalogPrompt raises maxChars (after state past) = (.ok prompt, next) →
      (prompt.length : Int) ≤ maxChars ∧ (catalog state.session ≠ [] →
        Disclosed (catalog state.session) maxChars prompt next.told)

/-- The budgets hold in every run; an activation that raises changes nothing exactly where the
callback does not raise when it is told of an activation. -/
theorem session_budgets_iff (assignments : List (AgentSkillRef × SkillSpec))
    (maxActiveSkills maxInstructionChars : Nat) (state : State)
    (created : create assignments maxActiveSkills maxInstructionChars = .ok state)
    (calls : List Call) :
    Budgeted state calls ↔ ∀ past loading raises name reason explicit activation,
      past ++ [.activate loading raises name reason explicit] <+: calls →
      admitted loading (after state past).session name explicit = some activation →
        raises (activatedEvent activation reason) = none := by
  obtain ⟨begun, distinct, _⟩ := create_sound created
  constructor
  · intro budgeted past loading raises name reason explicit activation inside admits
    by_contra told
    obtain ⟨error, strikes⟩ := Option.ne_none_iff_exists'.mp told
    have run := activate_raised admits strikes
    have refused := budgeted.refused past loading raises name reason explicit error inside
    rw [run] at refused
    have same := congrArg List.length (refused rfl)
    simp [added] at same
  · intro calm
    constructor
    · intro past _
      have sound := sound_after state begun past
      exact sound.maxActiveSkills ▸ sound.active
    · intro past _
      have sound := sound_after state begun past
      exact sound.maxInstructionChars ▸ sound.instructions
    · intro past loading raises name reason explicit error inside fails
      have quiet := calm past loading raises name reason explicit
      have spec := activate_spec raises loading (after state past) name reason explicit
      generalize activate raises loading name reason explicit (after state past) = result at *
      cases spec with
      | kept _ quiet => rw [quiet.session]
      | added _ _ => cases fails
      | @raised activation raised admits loud =>
          rw [quiet activation inside admits] at loud
          cases loud
    · intro past raises maxChars prompt next inside above run
      have sound := sound_after state begun past
      have same : catalog (after state past).session = catalog state.session := by
        simp only [catalog, sound.assignments]
      rcases catalogPrompt_run raises (after state past) maxChars with
        ⟨nothing, why⟩ | ⟨_, told, prompts⟩
      · rw [nothing] at run
        cases run
        refine ⟨?_, fun filled => ?_⟩
        · have none : ("" : String).length = 0 := rfl
          omega
        · rcases why with empty | short
          · rw [same, List.isEmpty_iff] at empty
            exact absurd empty filled
          · omega
      · rw [run] at told prompts
        simp only at told
        rw [told, prompts prompt rfl]
        refine ⟨length_prompt _ above, fun _ => ?_⟩
        rw [← same]
        exact sound.reported.disclosed above (same ▸ distinct)

end Runs

section Samples

def sampleLoading : Loading where
  sha256 _ := ""
  decode _ := some "---\nname: report\n---\nWrite the report."
  isspace := Char.isWhitespace
  safeLoad _ := some (.mapping [])
  scriptSpec _ := .error ""
  rejected _ := ""
  root _ := .error (invalid "Skill artifact does not exist")
  guessType _ := none

def assignment (name : String) : AgentSkillRef × SkillSpec :=
  ({ name := name },
    { name := name, description := "Writes it.", sourcePath := name, contentHash := "h",
      artifact := [{ path := "SKILL.md", content := [], safe := manifest_safe }] })

def sampleState : State where
  session :=
    { assignments := [assignment "report", assignment "letter"]
      maxActiveSkills := 1
      maxInstructionChars := 20 }

def sampleCalls : List Call :=
  [.activate sampleLoading (fun _ => none) "report" "asked" false,
    .activate sampleLoading (fun _ => some (skillError "RuntimeError" "")) "letter" "asked" false,
    .catalogPrompt (fun _ => none) (header.length + 27)]

theorem session_budgets_iff_sample : Budgeted sampleState sampleCalls ∧
    (after sampleState sampleCalls).session.active.map SkillActivation.instructions =
      ["Write the report."] ∧
    (after sampleState sampleCalls).told.getLast? =
      some (.catalogTruncated 1 ["letter"] (header.length + 27)) := by
  refine ⟨(session_budgets_iff sampleState.session.assignments 1 20 sampleState rfl
    sampleCalls).mpr ?_, by decide +kernel, by decide +kernel⟩
  intro past loading raises name reason explicit activation inside admits
  match past with
  | [] =>
      obtain ⟨rfl, rfl, rfl, rfl, rfl⟩ := Call.activate.inj (List.cons_prefix_cons.mp inside).1
      rfl
  | [first] =>
      obtain ⟨rfl, second⟩ := List.cons_prefix_cons.mp inside
      obtain ⟨rfl, rfl, rfl, rfl, rfl⟩ := Call.activate.inj (List.cons_prefix_cons.mp second).1
      have nothing : admitted sampleLoading (after sampleState [.activate sampleLoading
          (fun _ => none) "report" "asked" false]).session "letter" false = none := by
        decide +kernel
      rw [nothing] at admits
      cases admits
  | first :: second :: rest =>
      obtain ⟨_, later⟩ := List.cons_prefix_cons.mp inside
      obtain ⟨_, last⟩ := List.cons_prefix_cons.mp later
      cases rest with
      | nil => cases (List.cons_prefix_cons.mp last).1
      | cons third rest =>
          have long := (List.cons_prefix_cons.mp last).2.length_le
          simp at long

/-- The callback raises when it is told of the activation. -/
theorem raising_callback_activates : create sampleState.session.assignments 1 20 = .ok sampleState ∧
    ¬ Budgeted sampleState [.activate sampleLoading
      (fun _ => some (skillError "RuntimeError" "audit log is down")) "report" "asked" false] := by
  refine ⟨rfl, fun budgeted => ?_⟩
  have admits : admitted sampleLoading sampleState.session "report" false =
      some ⟨"report", "1.0.0", "h", "Write the report.", .auto⟩ := by decide +kernel
  have run := @activate_raised (fun _ => some (skillError "RuntimeError" "audit log is down"))
    sampleLoading sampleState "report" "asked" false _ _ admits rfl
  have refused := budgeted.refused [] sampleLoading _ "report" "asked" false
    (skillError "RuntimeError" "audit log is down") (List.prefix_refl _)
  change ((activate _ _ _ _ _ sampleState).1 = _ →
    (activate _ _ _ _ _ sampleState).2.session.active = sampleState.session.active) at refused
  rw [run] at refused
  cases refused rfl

end Samples

end AgentTaskPlatform.SkillBudgets
