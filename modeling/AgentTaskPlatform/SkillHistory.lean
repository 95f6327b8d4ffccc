import AgentTaskPlatform.SkillDefaults
import AgentTaskPlatform.SkillSession

/-!
Histories of `SkillRegistry`. The default of a name is looked after by every operation on its
own. An election compares all enabled versions of the name, and one that raises leaves the
name without the default that has been withdrawn.
-/

namespace AgentTaskPlatform.SkillHistory

open KeyedTable Skills
open Registry (Versioning versionKey firstNewest firstNewest_mem firstNewest_none newest_eq)
open StatefulCalls (bind_run bind_ok bind_error get_run modify_run lift_run pure_run throw_run)

section Operations

inductive Operation where
  | register (skill : SkillSpec) (makeDefault : Bool)
  | disable (name : String) (version : Option String)
  | deregister (name : String) (version : Option String)

namespace Operation

def name : Operation → String
  | .register skill _ => skill.name
  | .disable name _ | .deregister name _ => name

def withdrawing : Operation → Bool
  | .register skill _ => !skill.enabled
  | .disable _ _ | .deregister _ _ => true

def withdraws : Operation → String → String → Bool
  | .register skill _, name, version => skill.ref = (name, version)
  | .disable target which, name, version => target = name && which.all (version = ·)
  | .deregister target which, name, version => target = name && which.all (version = ·)

def changed (registry : SkillRegistry) : Operation → SkillRegistry
  | .register skill _ => registry.setSkill skill
  | .disable name version =>
      ((matching registry name version).map fun skill => { skill with enabled := false }).foldl
        SkillRegistry.setSkill registry
  | .deregister name version =>
      ((matching registry name version).map SkillSpec.ref).foldl SkillRegistry.popSkill registry

def elects (registry : SkillRegistry) : Operation → Bool
  | .register skill makeDefault =>
      if skill.enabled then !makeDefault && (registry.default skill.name).isNone
      else registry.default skill.name = some skill.version
  | .disable name version | .deregister name version =>
      (registry.default name).any ((matching registry name version).map SkillSpec.version).contains

end Operation

variable (versioning : Versioning)

def perform : Operation → SkillM Unit
  | .register skill makeDefault => register versioning skill makeDefault
  | .disable name version => do
      let _ ← disable versioning name version
      return ()
  | .deregister name version => do
      let _ ← deregister versioning name version
      return ()

structure Event where
  before : SkillRegistry
  operation : Operation
  after : SkillRegistry

def event (registry : SkillRegistry) (operation : Operation) : Event where
  before := registry
  operation := operation
  after := (perform versioning operation registry).2

def history (registry : SkillRegistry) : List Operation → List Event
  | [] => []
  | operation :: rest =>
      event versioning registry operation ::
        history (event versioning registry operation).after rest

end Operations

section Laws

structure Sound (registry : SkillRegistry) : Prop where
  defaulted : ∀ name, (registry.default name).isSome = true ↔
    ∃ version, registry.Offers name version
  offered : ∀ name version, registry.default name = some version → registry.Offers name version
  served : ∀ name, (∃ skill, getSkill registry name none = .ok skill) ↔
    ∃ version, registry.Offers name version

structure Lawful (event : Event) : Prop where
  sound : Sound event.after
  stays : event.operation.withdrawing = true →
    ∀ name version, event.before.default name = some version →
      event.operation.withdraws name version = false → event.after.default name = some version

def Electable (versioning : Versioning) (registry : SkillRegistry) (operation : Operation) : Prop :=
  operation.elects registry = true →
    ∀ version ∈ (operation.changed registry).enabledVersions operation.name,
      Keyed versioning version

variable {registry : SkillRegistry}

theorem getSkill_default {name version : String} (held : registry.default name = some version)
    (offered : registry.Offers name version) : ∃ skill, getSkill registry name none = .ok skill := by
  obtain ⟨skill, found, enabled⟩ := offered
  refine ⟨skill, ?_⟩
  have stored : registry.getOptional name version = some skill := found
  simp only [getSkill, held, Option.filter_none, Option.none_or, stored, enabled, if_true]

theorem getSkill_missing {name : String} (missing : registry.default name = none)
    (skill : SkillSpec) : getSkill registry name none ≠ .ok skill := by
  simp only [getSkill, missing, Option.filter_none, Option.or_none]
  split <;> nofun

theorem sound_iff : Sound registry ↔ Defaulted registry := by
  constructor
  · intro sound
    refine ⟨sound.offered, fun name version missing offered => ?_⟩
    have held := (sound.defaulted name).mpr ⟨version, offered⟩
    rw [missing] at held
    cases held
  · intro sound
    have held (name : String) (version : String) (offered : registry.Offers name version) :
        ∃ current, registry.default name = some current := by
      cases known : registry.default name with
      | none => exact absurd offered (sound.missing name version known)
      | some current => exact ⟨current, rfl⟩
    refine ⟨fun name => ?_, sound.offered, fun name => ?_⟩
    · constructor
      · intro some
        obtain ⟨version, known⟩ := Option.isSome_iff_exists.mp some
        exact ⟨version, sound.offered name version known⟩
      · rintro ⟨version, offered⟩
        obtain ⟨current, known⟩ := held name version offered
        rw [known]
        rfl
    · constructor
      · rintro ⟨skill, got⟩
        cases known : registry.default name with
        | none => exact absurd got (getSkill_missing known skill)
        | some version => exact ⟨version, sound.offered name version known⟩
      · rintro ⟨version, offered⟩
        obtain ⟨current, known⟩ := held name version offered
        exact getSkill_default known (sound.offered name current known)

end Laws

section Changes

variable {registry : SkillRegistry} {name version : String}

theorem default_foldl_setSkill (skills : List SkillSpec) :
    (skills.foldl SkillRegistry.setSkill registry).default = registry.default := by
  induction skills generalizing registry with
  | nil => rfl
  | cons skill rest ih => exact ih

theorem default_foldl_popSkill (refs : List (String × String)) :
    (refs.foldl SkillRegistry.popSkill registry).default = registry.default := by
  induction refs generalizing registry with
  | nil => rfl
  | cons ref rest ih => exact ih

theorem default_changed (operation : Operation) :
    (operation.changed registry).default = registry.default := by
  cases operation with
  | register skill makeDefault => rfl
  | disable name version => exact default_foldl_setSkill _
  | deregister name version => exact default_foldl_popSkill _

theorem offers_foldl_setSkill {skills : List SkillSpec}
    (disabled : ∀ skill ∈ skills, skill.enabled = false) :
    (skills.foldl SkillRegistry.setSkill registry).Offers name version ↔
      registry.Offers name version ∧ (name, version) ∉ skills.map SkillSpec.ref := by
  induction skills generalizing registry with
  | nil => simp
  | cons skill rest ih =>
      have off := disabled skill List.mem_cons_self
      rw [List.foldl_cons, ih fun other member => disabled other (List.mem_cons_of_mem _ member),
        offers_setSkill]
      by_cases own : (name, version) = skill.ref
      · simp [own, off]
      · simp [own]

theorem offers_foldl_popSkill {refs : List (String × String)} :
    (refs.foldl SkillRegistry.popSkill registry).Offers name version ↔
      registry.Offers name version ∧ (name, version) ∉ refs := by
  induction refs generalizing registry with
  | nil => simp
  | cons ref rest ih =>
      rw [List.foldl_cons, ih, offers_popSkill]
      simp [and_assoc]

theorem mem_matching (offered : registry.Offers name version) {target : String}
    {which : Option String} :
    (name, version) ∈ (matching registry target which).map SkillSpec.ref ↔
      (decide (target = name) && which.all (version = ·)) = true := by
  obtain ⟨skill, found, _⟩ := offered
  have key : skill.ref = (name, version) := Table.find_key found
  obtain ⟨named, versioned⟩ := Prod.mk.inj key
  simp only [matching, List.mem_map, List.mem_filter, Bool.and_eq_true, decide_eq_true_eq]
  constructor
  · rintro ⟨other, ⟨_, same, fits⟩, ref⟩
    obtain ⟨rfl, rfl⟩ := Prod.mk.inj ref
    exact ⟨same.symm, fits⟩
  · rintro ⟨rfl, fits⟩
    exact ⟨skill, ⟨Table.find_mem found, named, by rw [versioned]; exact fits⟩, key⟩

theorem mem_versions {which : Option String} :
    version ∈ (matching registry name which).map SkillSpec.version ↔
      (name, version) ∈ (matching registry name which).map SkillSpec.ref := by
  simp only [matching, List.mem_map, List.mem_filter, Bool.and_eq_true, decide_eq_true_eq,
    SkillSpec.ref, Prod.mk.injEq]
  constructor
  · rintro ⟨skill, ⟨member, named, fits⟩, same⟩
    exact ⟨skill, ⟨member, named, fits⟩, named, same⟩
  · rintro ⟨skill, fits, _, same⟩
    exact ⟨skill, fits, same⟩

/-- The check of `disable` and `deregister` asks whether the default is among the versions. -/
theorem withdrawn_default (held : registry.default name = some version)
    (offered : registry.Offers name version) {target : String} {which : Option String} :
    (decide (target = name) && which.all (version = ·)) = true ↔
      (registry.default target).any
        ((matching registry target which).map SkillSpec.version).contains = true ∧
      target = name := by
  rw [← mem_matching offered]
  constructor
  · intro member
    obtain ⟨rfl, _⟩ : target = name ∧ which.all (version = ·) = true := by
      simpa using (mem_matching offered).mp member
    refine ⟨?_, rfl⟩
    rw [held, Option.any_some, List.contains_iff_mem]
    exact mem_versions.mpr member
  · rintro ⟨current, rfl⟩
    rw [held, Option.any_some, List.contains_iff_mem] at current
    exact mem_versions.mp current

/-- A withdrawing operation takes exactly the versions that it is about. -/
theorem offers_withdrawn {operation : Operation} (withdrawing : operation.withdrawing = true) :
    (operation.changed registry).Offers name version ↔
      registry.Offers name version ∧ operation.withdraws name version = false := by
  cases operation with
  | register skill makeDefault =>
      have off : skill.enabled = false := by simpa [Operation.withdrawing] using withdrawing
      rw [Operation.changed, offers_setSkill, Operation.withdraws]
      by_cases own : (name, version) = skill.ref
      · simp [own, off]
      · simp [own, Ne.symm own]
  | disable target which =>
      have refs : ((matching registry target which).map fun skill =>
          { skill with enabled := false }).map SkillSpec.ref =
          (matching registry target which).map SkillSpec.ref := by
        rw [List.map_map]
        rfl
      rw [Operation.changed, offers_foldl_setSkill (by simp), refs]
      refine and_congr_right fun offered => ?_
      rw [mem_matching offered, Operation.withdraws, Bool.not_eq_true]
  | deregister target which =>
      rw [Operation.changed, offers_foldl_popSkill]
      refine and_congr_right fun offered => ?_
      rw [mem_matching offered, Operation.withdraws, Bool.not_eq_true]

theorem elects_withdrawn {operation : Operation} (withdrawing : operation.withdrawing = true)
    (held : registry.default name = some version) (offered : registry.Offers name version) :
    operation.withdraws name version = true ↔
      operation.elects registry = true ∧ operation.name = name := by
  cases operation with
  | register skill makeDefault =>
      have off : skill.enabled = false := by simpa [Operation.withdrawing] using withdrawing
      simp only [Operation.withdraws, Operation.elects, Operation.name, off, SkillSpec.ref,
        Prod.mk.injEq, decide_eq_true_eq, Bool.false_eq_true, if_false]
      constructor
      · rintro ⟨rfl, rfl⟩
        exact ⟨held, rfl⟩
      · rintro ⟨current, rfl⟩
        rw [held] at current
        exact ⟨rfl, (Option.some.inj current).symm⟩
  | disable target which => exact withdrawn_default held offered
  | deregister target which => exact withdrawn_default held offered

end Changes

section Elections

variable {versioning : Versioning} {registry after : SkillRegistry} {name : String}

/-- An election over versions with keys returns; any other one raises and changes nothing. -/
theorem selectDefault_iff (outcome : Except Exc Unit)
    (called : selectDefault versioning name registry = (outcome, after)) :
    (outcome = .ok () ↔ ∀ version ∈ registry.enabledVersions name, Keyed versioning version) ∧
      (outcome ≠ .ok () → after = registry) := by
  simp only [selectDefault, bind_run, get_run, lift_run] at called
  cases found : newest versioning id (registry.enabledVersions name) with
  | error error =>
      rw [found] at called
      cases called
      refine ⟨⟨(fun same => by cases same), fun keyed => ?_⟩, fun _ => rfl⟩
      obtain ⟨best, read⟩ : ∃ best,
          newest versioning id (registry.enabledVersions name) = .ok best := newest_ok keyed
      rw [found] at read
      cases read
  | ok best =>
      rw [found] at called
      have returned : outcome = .ok () := by
        cases best <;> exact (congrArg Prod.fst called).symm
      exact ⟨iff_of_true returned (newest_keyed found), fun raised => absurd returned raised⟩

structure Elected (versioning : Versioning) (name : String) (base after : SkillRegistry) :
    Prop where
  skills : after.skills = base.skills
  others : ∀ other, other ≠ name → after.default other = base.default other
  own : (∀ version ∈ base.enabledVersions name, Keyed versioning version) →
    after.default name = firstNewest versioning id (base.enabledVersions name)
  raised : ¬ (∀ version ∈ base.enabledVersions name, Keyed versioning version) →
    after.default name = none

theorem selectDefault_elected {base : SkillRegistry} {outcome : Except Exc Unit}
    (cleared : base.default name = none)
    (called : selectDefault versioning name base = (outcome, after)) :
    Elected versioning name base after := by
  obtain ⟨returns, idle⟩ := selectDefault_iff outcome called
  by_cases keyed : ∀ version ∈ base.enabledVersions name, Keyed versioning version
  · have read : newest versioning id (base.enabledVersions name) =
        .ok (firstNewest versioning id (base.enabledVersions name)) := newest_eq keyed
    simp only [selectDefault, bind_run, get_run, lift_run, read] at called
    cases best : firstNewest versioning id (base.enabledVersions name) with
    | none =>
        rw [best] at called
        cases called
        exact ⟨rfl, fun _ _ => rfl, fun _ => cleared.trans best.symm, absurd keyed⟩
    | some version =>
        rw [best] at called
        cases called
        refine ⟨rfl, fun other differs => ?_, fun _ => ?_, absurd keyed⟩
        · rw [SkillRegistry.default_setDefault, if_neg differs]
        · rw [SkillRegistry.default_setDefault, if_pos rfl, best]
  · rw [idle fun returned => keyed (returns.mp returned)]
    exact ⟨rfl, fun _ _ => rfl, fun all => absurd all keyed, fun _ => cleared⟩

end Elections

section Steps

variable {versioning : Versioning} {registry base after : SkillRegistry} {operation : Operation}
  {outcome : Except Exc Unit}

inductive Performed (versioning : Versioning) (registry : SkillRegistry) (operation : Operation)
    (outcome : Except Exc Unit) (after : SkillRegistry) : Prop
  | named {skill : SkillSpec} (asked : operation = .register skill true)
      (enabled : skill.enabled = true)
      (result : after = (registry.setSkill skill).setDefault skill.name skill.version)
  | kept (calm : operation.elects registry = false)
      (unnamed : ∀ skill, operation = .register skill true → skill.enabled = false)
      (result : after = operation.changed registry)
  | elected {base : SkillRegistry} (elects : operation.elects registry = true)
      (skills : base.skills = (operation.changed registry).skills)
      (cleared : base.default operation.name = none)
      (others : ∀ other, other ≠ operation.name → base.default other = registry.default other)
      (called : selectDefault versioning operation.name base = (outcome, after))

theorem withdrawDefault_cases {name : String} {versions : List String}
    (called : withdrawDefault versioning name versions base = (outcome, after)) :
    ((base.default name).any versions.contains = false ∧ after = base) ∨
      ((base.default name).any versions.contains = true ∧
        selectDefault versioning name (base.popDefault name) = (outcome, after)) := by
  simp only [withdrawDefault, bind_run, get_run] at called
  by_cases asked : (base.default name).any versions.contains = true
  · rw [if_pos asked, bind_ok (modify_run _ _)] at called
    exact Or.inr ⟨asked, called⟩
  · rw [if_neg asked] at called
    cases called
    exact Or.inl ⟨by simpa using asked, rfl⟩

theorem performed_withdrawal {name : String} {version : Option String}
    (unnamed : ∀ skill, operation = .register skill true → skill.enabled = false)
    (named : operation.name = name)
    (elects : operation.elects registry = (registry.default name).any
      ((matching registry name version).map SkillSpec.version).contains)
    (called : withdrawDefault versioning name
      ((matching registry name version).map SkillSpec.version) (operation.changed registry) =
        (outcome, after)) : Performed versioning registry operation outcome after := by
  subst named
  have same : (operation.changed registry).default operation.name =
      registry.default operation.name := by rw [default_changed]
  rcases withdrawDefault_cases called with ⟨calm, result⟩ | ⟨asked, elected⟩
  · rw [same, ← elects] at calm
    exact .kept calm unnamed result
  · rw [same, ← elects] at asked
    refine .elected asked ?_ ?_ ?_ elected
    · rfl
    · rw [SkillRegistry.default_popDefault, if_pos rfl]
    · intro other differs
      rw [SkillRegistry.default_popDefault, if_neg differs, default_changed]

theorem performed_nobody {name : String} {version : Option String}
    (unnamed : ∀ skill, operation = .register skill true → skill.enabled = false)
    (elects : operation.elects registry = (registry.default name).any
      ((matching registry name version).map SkillSpec.version).contains)
    (nobody : matching registry name version = [])
    (result : after = operation.changed registry) :
    Performed versioning registry operation outcome after := by
  refine .kept ?_ unnamed result
  rw [elects, nobody]
  cases registry.default name <;> rfl

theorem withdrawal_cases {name : String} {versions : List String} {items : List SkillSpec}
    {error : Exc}
    (ended : ((if items.isEmpty then throw error else do
        withdrawDefault versioning name versions
        return items : SkillM (List SkillSpec)) >>= fun _ => pure ()) base = (outcome, after)) :
    (items = [] ∧ after = base) ∨
      withdrawDefault versioning name versions base = (outcome, after) := by
  cases items with
  | nil =>
      cases ended
      exact Or.inl ⟨rfl, rfl⟩
  | cons first rest =>
      right
      cases called : withdrawDefault versioning name versions base with
      | mk returned last =>
          cases returned with
          | ok value =>
              simp only [List.isEmpty_cons, Bool.false_eq_true, if_false, bind_run, called,
                pure_run] at ended
              exact ended
          | error error =>
              simp only [List.isEmpty_cons, Bool.false_eq_true, if_false, bind_run, called]
                at ended
              exact ended

theorem perform_cases (performed : perform versioning operation registry = (outcome, after)) :
    Performed versioning registry operation outcome after := by
  cases operation with
  | register skill makeDefault =>
      simp only [perform, register, bind_run, modify_run, get_run] at performed
      by_cases enabled : skill.enabled = true
      · simp only [enabled, Bool.not_true, Bool.false_eq_true, if_false] at performed
        cases makeDefault with
        | true =>
            rw [if_pos rfl] at performed
            cases performed
            exact .named rfl enabled rfl
        | false =>
            simp only [Bool.false_eq_true, if_false] at performed
            by_cases vacant : (registry.default skill.name).isNone = true
            · have missing := Option.isNone_iff_eq_none.mp vacant
              rw [SkillRegistry.default_setSkill, if_pos vacant] at performed
              refine .elected ?_ rfl missing (fun _ _ => rfl) performed
              simp [Operation.elects, enabled, missing]
            · rw [SkillRegistry.default_setSkill, if_neg vacant] at performed
              cases performed
              refine .kept ?_ (fun _ same => by cases same) rfl
              simp [Operation.elects, enabled, vacant]
      · have off : skill.enabled = false := by simpa using enabled
        simp only [off, Bool.not_false, if_true] at performed
        by_cases held : registry.default skill.name = some skill.version
        · rw [SkillRegistry.default_setSkill, if_pos held, bind_ok (modify_run _ _)] at performed
          refine .elected (by simp [Operation.elects, off, held]) ?_ ?_ ?_ performed
          · rfl
          · change SkillRegistry.default _ skill.name = none
            rw [SkillRegistry.default_popDefault, if_pos rfl]
          · intro other differs
            rw [SkillRegistry.default_popDefault]
            exact if_neg differs
        · rw [SkillRegistry.default_setSkill, if_neg held] at performed
          cases performed
          refine .kept (by simp [Operation.elects, off, held]) ?_ rfl
          rintro other ⟨rfl, -⟩
          exact off
  | disable name version =>
      have versions : ((matching registry name version).map fun skill =>
          { skill with enabled := false }).map SkillSpec.version =
          (matching registry name version).map SkillSpec.version := by
        rw [List.map_map]
        rfl
      rw [perform, bind_run, disable, bind_ok (get_run registry), bind_ok (modify_run _ registry),
        ← bind_run, versions] at performed
      rcases withdrawal_cases performed with ⟨nobody, result⟩ | called
      · exact performed_nobody (fun _ same => by cases same) rfl (List.map_eq_nil_iff.mp nobody) result
      · exact performed_withdrawal (fun _ same => by cases same) rfl rfl called
  | deregister name version =>
      rw [perform, bind_run, deregister, bind_ok (get_run registry),
        bind_ok (modify_run _ registry), ← bind_run] at performed
      rcases withdrawal_cases performed with ⟨nobody, result⟩ | called
      · exact performed_nobody (fun _ same => by cases same) rfl nobody result
      · exact performed_withdrawal (fun _ same => by cases same) rfl rfl called

/-- The versions of other names stay as they are. -/
theorem offers_other {name version : String} (other : name ≠ operation.name) :
    (operation.changed registry).Offers name version ↔ registry.Offers name version := by
  by_cases withdrawing : operation.withdrawing = true
  · rw [offers_withdrawn withdrawing]
    have apart : operation.withdraws name version = false := by
      cases operation with
      | register skill makeDefault =>
          refine decide_eq_false fun same => other ?_
          exact (congrArg Prod.fst same).symm
      | disable target which =>
          have differs : target ≠ name := Ne.symm other
          simp [Operation.withdraws, differs]
      | deregister target which =>
          have differs : target ≠ name := Ne.symm other
          simp [Operation.withdraws, differs]
    simp [apart]
  · cases operation with
    | register skill makeDefault =>
        rw [Operation.changed, offers_setSkill, if_neg]
        intro same
        exact other (congrArg Prod.fst same)
    | disable target which => exact absurd rfl withdrawing
    | deregister target which => exact absurd rfl withdrawing

/-- Without an election the versions change under a default that stays. -/
theorem changed_defaulted (sound : Defaulted registry)
    (calm : operation.elects registry = false)
    (unnamed : ∀ skill, operation = .register skill true → skill.enabled = false) :
    Defaulted (operation.changed registry) := by
  by_cases withdrawing : operation.withdrawing = true
  · constructor
    · intro name version held
      rw [default_changed] at held
      have offered := sound.offered name version held
      refine (offers_withdrawn withdrawing).mpr ⟨offered, ?_⟩
      -- The withdrawal of the default itself asks for an election.
      rw [Bool.eq_false_iff]
      intro taken
      have elects := ((elects_withdrawn withdrawing held offered).mp taken).1
      rw [calm] at elects
      cases elects
    · intro name version missing offered
      rw [default_changed] at missing
      exact sound.missing name version missing ((offers_withdrawn withdrawing).mp offered).1
  · cases operation with
    | register skill makeDefault =>
        have enabled : skill.enabled = true := by simpa [Operation.withdrawing] using withdrawing
        -- The name has a default already, or the registration would elect one.
        have kept : registry.default skill.name ≠ none := by
          cases makeDefault with
          | true =>
              rw [unnamed skill rfl] at enabled
              cases enabled
          | false =>
              intro missing
              simp [Operation.elects, enabled, missing] at calm
        constructor
        · intro name version held
          rw [Operation.changed, offers_setSkill]
          split
          · exact enabled
          · exact sound.offered name version held
        · intro name version missing offered
          rw [Operation.changed, offers_setSkill] at offered
          by_cases own : (name, version) = skill.ref
          · obtain ⟨rfl, rfl⟩ := Prod.mk.inj own
            exact kept missing
          · rw [if_neg own] at offered
            exact sound.missing name version missing offered
    | disable target which => exact absurd rfl withdrawing
    | deregister target which => exact absurd rfl withdrawing

theorem named_defaulted (sound : Defaulted registry) {skill : SkillSpec}
    (enabled : skill.enabled = true) :
    Defaulted ((registry.setSkill skill).setDefault skill.name skill.version) := by
  constructor
  · intro name version held
    change (registry.setSkill skill).Offers name version
    rw [SkillRegistry.default_setDefault] at held
    rw [offers_setSkill]
    by_cases own : name = skill.name
    · subst own
      rw [if_pos rfl] at held
      have ref : (skill.name, version) = skill.ref := by rw [← Option.some.inj held]; rfl
      rw [if_pos ref]
      exact enabled
    · rw [if_neg own] at held
      rw [if_neg fun same => own (congrArg Prod.fst same)]
      exact sound.offered name version held
  · intro name version missing offered
    change (registry.setSkill skill).Offers name version at offered
    rw [SkillRegistry.default_setDefault] at missing
    rw [offers_setSkill] at offered
    by_cases own : name = skill.name
    · rw [if_pos own] at missing
      cases missing
    · rw [if_neg own] at missing
      rw [if_neg fun same => own (congrArg Prod.fst same)] at offered
      exact sound.missing name version missing offered

/-- An election makes up for the default exactly when it does not raise. -/
theorem elected_defaulted (sound : Defaulted registry)
    (skills : base.skills = (operation.changed registry).skills)
    (others : ∀ other, other ≠ operation.name → base.default other = registry.default other)
    (elected : Elected versioning operation.name base after) :
    Defaulted after ↔
      ∀ version ∈ (operation.changed registry).enabledVersions operation.name,
        Keyed versioning version := by
  have offers {name version : String} : after.Offers name version ↔
      (operation.changed registry).Offers name version := by
    unfold SkillRegistry.Offers
    rw [elected.skills, skills]
  have versions : base.enabledVersions operation.name =
      (operation.changed registry).enabledVersions operation.name := by
    unfold SkillRegistry.enabledVersions
    rw [skills]
  obtain ⟨_, kept, own, raised⟩ := elected
  rw [versions] at own raised
  constructor
  -- An election that raises leaves the name without a default.
  · intro after_sound version member
    by_contra unkeyed
    have missing := raised fun keyed => unkeyed (keyed version member)
    rw [SkillRegistry.mem_enabledVersions] at member
    exact after_sound.missing _ version missing (offers.mpr member)
  · intro keyed
    have best := own keyed
    constructor
    · intro name version held
      rw [offers]
      by_cases same : name = operation.name
      · subst same
        rw [best] at held
        exact SkillRegistry.mem_enabledVersions.mp (firstNewest_mem held)
      · rw [kept name same, others name same] at held
        exact (offers_other same).mpr (sound.offered name version held)
    · intro name version missing offered
      rw [offers] at offered
      by_cases same : name = operation.name
      · subst same
        rw [best, firstNewest_none] at missing
        rw [← SkillRegistry.mem_enabledVersions, missing] at offered
        cases offered
      · rw [kept name same, others name same] at missing
        exact sound.missing name version missing ((offers_other same).mp offered)

theorem performed_defaulted (sound : Defaulted registry)
    (performed : Performed versioning registry operation outcome after) :
    Defaulted after ↔ Electable versioning registry operation := by
  cases performed with
  | @named skill asked enabled result =>
      subst asked result
      refine iff_of_true (named_defaulted sound enabled) fun elects => ?_
      simp [Operation.elects, enabled] at elects
  | kept calm unnamed result =>
      subst result
      refine iff_of_true (changed_defaulted sound calm unnamed) fun elects => ?_
      rw [calm] at elects
      cases elects
  | elected elects skills cleared others called =>
      rw [elected_defaulted sound skills others (selectDefault_elected cleared called), Electable]
      simp [elects]

theorem performed_stays (performed : Performed versioning registry operation outcome after)
    (withdrawing : operation.withdrawing = true) {name version : String}
    (held : registry.default name = some version) (offered : registry.Offers name version)
    (spared : operation.withdraws name version = false) : after.default name = some version := by
  cases performed with
  | named asked enabled result =>
      subst asked
      simp [Operation.withdrawing, enabled] at withdrawing
  | kept calm unnamed result => rw [result, default_changed, held]
  | elected elects skills cleared others called =>
      have other : name ≠ operation.name := by
        rintro rfl
        have taken := (elects_withdrawn withdrawing held offered).mpr ⟨elects, rfl⟩
        rw [spared] at taken
        cases taken
      rw [(selectDefault_elected cleared called).others name other, others name other, held]

theorem performed_returned (performed : Performed versioning registry operation (.ok ()) after) :
    Electable versioning registry operation := by
  intro elects
  cases performed with
  | @named skill asked enabled result =>
      subst asked
      simp [Operation.elects, enabled] at elects
  | kept calm unnamed result =>
      rw [calm] at elects
      cases elects
  | elected _ skills cleared others called =>
      have versions := (selectDefault_iff _ called).1.mp rfl
      unfold SkillRegistry.enabledVersions at versions
      rwa [skills] at versions

end Steps

section Start

variable {versioning : Versioning} {registry after : SkillRegistry}

theorem defaulted_empty : Defaulted SkillRegistry.empty where
  offered := nofun
  missing := by
    rintro name version - ⟨skill, found, -⟩
    cases found

theorem registerAll_defaulted (sound : Defaulted registry) (skills : List SkillSpec)
    (called : registerAll versioning false skills registry = (.ok (), after)) :
    Defaulted after := by
  induction skills generalizing registry with
  | nil =>
      cases called
      exact sound
  | cons skill rest ih =>
      rw [registerAll, bind_run] at called
      cases ran : register versioning skill false registry with
      | mk outcome middle =>
          rw [ran] at called
          cases outcome with
          | error error => cases called
          | ok value =>
              have performed : Performed versioning registry (.register skill false) (.ok ())
                middle := perform_cases ran
              have electable := performed_returned performed
              exact ih ((performed_defaulted sound performed).mpr electable) called

theorem selectDefault_defaulted (sound : Defaulted registry) {name : String}
    (called : selectDefault versioning name registry = (.ok (), after)) : Defaulted after := by
  have keyed := (selectDefault_iff _ called).1.mp rfl
  have read : newest versioning id (registry.enabledVersions name) =
      .ok (firstNewest versioning id (registry.enabledVersions name)) := newest_eq keyed
  simp only [selectDefault, bind_run, get_run, lift_run, read] at called
  cases best : firstNewest versioning id (registry.enabledVersions name) with
  | none =>
      rw [best] at called
      cases called
      exact sound
  | some version =>
      rw [best] at called
      cases called
      constructor
      · intro other current held
        change registry.Offers other current
        rw [SkillRegistry.default_setDefault] at held
        by_cases own : other = name
        · subst own
          rw [if_pos rfl] at held
          rw [← Option.some.inj held]
          exact SkillRegistry.mem_enabledVersions.mp (firstNewest_mem best)
        · rw [if_neg own] at held
          exact sound.offered other current held
      · intro other current missing offered
        rw [SkillRegistry.default_setDefault] at missing
        by_cases own : other = name
        · rw [if_pos own] at missing
          cases missing
        · rw [if_neg own] at missing
          exact sound.missing other current missing offered

theorem selectDefaults_defaulted (sound : Defaulted registry) (names : List String)
    (called : selectDefaults versioning names registry = (.ok (), after)) : Defaulted after := by
  induction names generalizing registry with
  | nil =>
      cases called
      exact sound
  | cons name rest ih =>
      rw [selectDefaults, bind_run] at called
      cases ran : selectDefault versioning name registry with
      | mk outcome middle =>
          rw [ran] at called
          cases outcome with
          | error error => cases called
          | ok value => exact ih (selectDefault_defaulted sound ran) called

theorem build_defaulted {skills : List SkillSpec}
    (built : build versioning skills SkillRegistry.empty = (.ok (), registry)) :
    Defaulted registry := by
  rw [build, bind_run] at built
  cases ran : registerAll versioning false skills SkillRegistry.empty with
  | mk outcome middle =>
      rw [ran] at built
      cases outcome with
      | error error => cases built
      | ok value =>
          have registered := registerAll_defaulted defaulted_empty skills ran
          exact selectDefaults_defaulted registered _ built

end Start

section Histories

variable {versioning : Versioning} {registry : SkillRegistry}

theorem event_lawful_iff (sound : Defaulted registry) (operation : Operation) :
    Lawful (event versioning registry operation) ↔ Electable versioning registry operation := by
  have performed : Performed versioning registry operation _
    (event versioning registry operation).after := perform_cases rfl
  have kept := performed_defaulted sound performed
  constructor
  · intro lawful
    exact kept.mp (sound_iff.mp lawful.sound)
  · intro electable
    refine ⟨sound_iff.mpr (kept.mpr electable), ?_⟩
    intro withdrawing name version held spared
    exact performed_stays performed withdrawing held (sound.offered name version held) spared

theorem history_lawful_iff (sound : Defaulted registry) (operations : List Operation) :
    (∀ event ∈ history versioning registry operations, Lawful event) ↔
      ∀ event ∈ history versioning registry operations,
        Electable versioning event.before event.operation := by
  induction operations generalizing registry with
  | nil => simp [history]
  | cons operation rest ih =>
      -- Either side gives a sound registry after the first operation, where the rest starts.
      have first := @event_lawful_iff versioning registry sound operation
      rw [history, List.forall_mem_cons, List.forall_mem_cons]
      constructor
      · rintro ⟨lawful, later⟩
        have next := sound_iff.mp lawful.sound
        exact ⟨first.mp lawful, (ih next).mp later⟩
      · rintro ⟨electable, later⟩
        have lawful := first.mpr electable
        have next := sound_iff.mp lawful.sound
        exact ⟨lawful, (ih next).mpr later⟩

/-- The defaults are right in every state of a history exactly when every election of it
compares versions that have keys. -/
theorem default_invariant_iff {skills : List SkillSpec}
    (built : build versioning skills SkillRegistry.empty = (.ok (), registry))
    (operations : List Operation) :
    (Sound registry ∧ ∀ event ∈ history versioning registry operations, Lawful event) ↔
      ∀ event ∈ history versioning registry operations,
        Electable versioning event.before event.operation := by
  have sound := build_defaulted built
  rw [history_lawful_iff sound]
  exact and_iff_right (sound_iff.mpr sound)

def report (version : String) (enabled : Bool) : SkillSpec where
  name := "report"
  version := version
  description := "Writes reports."
  sourcePath := "skills/report"
  contentHash := "3b513fa2"
  enabled := enabled

def started (versioning : Versioning) (skills : List SkillSpec) : SkillRegistry :=
  (build versioning skills SkillRegistry.empty).2

def renewed : List Operation :=
  [.register (report "2.0.0" false) true, .disable "report" none,
    .register (report "3.0.0" true) false, .deregister "report" (some "1.0.0")]

theorem default_invariant_iff_renewed :
    let registry := started RouteTable.asciiVersioning [report "1.0.0" true, report "2.0.0" true]
    (Sound registry ∧
      ∀ event ∈ history RouteTable.asciiVersioning registry renewed, Lawful event) ∧
    registry.default "report" = some "2.0.0" ∧
    (history RouteTable.asciiVersioning registry renewed).map
      (fun event => event.after.default "report") =
        [some "1.0.0", none, some "3.0.0", some "3.0.0"] := by
  intro registry
  have built : build RouteTable.asciiVersioning [report "1.0.0" true, report "2.0.0" true]
    SkillRegistry.empty = (.ok (), registry) := Prod.ext rfl rfl
  refine ⟨(default_invariant_iff built renewed).mpr ?_, by decide +kernel, by decide +kernel⟩
  intro event _ _ version _
  exact RouteTable.asciiVersioning_reads version

/-- Python's `isdigit` holds of a superscript, and its `int` refuses it. -/
def superscripts : Versioning :=
  { RouteTable.asciiVersioning with
    isdigit := fun char => char.isDigit || char = '²'
    int := fun part =>
      if part.all Char.isDigit then RouteTable.asciiVersioning.int part else none }

def lastWithdrawn : List Operation :=
  [.register (report "²" true) false, .disable "report" (some "1.0.0")]

theorem default_lost :
    let registry := started superscripts [report "1.0.0" true]
    build superscripts [report "1.0.0" true] SkillRegistry.empty = (.ok (), registry) ∧
      ¬ (Sound registry ∧ ∀ event ∈ history superscripts registry lastWithdrawn, Lawful event) := by
  intro registry
  refine ⟨Prod.ext rfl rfl, ?_⟩
  rintro ⟨_, lawful⟩
  have last := (lawful _ (List.mem_cons_of_mem _ List.mem_cons_self)).sound
  have offered := (last.defaulted "report").mpr ⟨"²", report "²" true, by decide +kernel, rfl⟩
  revert offered
  decide +kernel

end Histories

end AgentTaskPlatform.SkillHistory
