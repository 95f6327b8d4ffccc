import AgentTaskPlatform.RouteTable
import AgentTaskPlatform.SkillRegistry
import AgentTaskPlatform.Store
import AgentTaskPlatform.Transitions

/-!
Publications of Skill versions by processes that share the database. The handler compares
the content with its own registry and then upserts the row, so a published version is
immutable in the runs whose publishers have polled the versions that others published.
-/

namespace AgentTaskPlatform.SkillPublication

open KeyedTable Registry StatefulCalls Skills

structure Publishing where
  rows : SkillTable
  registries : Process → SkillRegistry

structure SkillPublishRequest where
  artifact : List SkillArtifactFile
  enabled : Bool := true
  owner : Option String := none
  makeDefault : Bool := true
  actor : Option String := none

inductive Request where
  /-- The write may fail, with an exception of the database. -/
  | publish (process : Process) (skill : SkillPublishRequest) (failure : Option Exc)
  | reload (process : Process)

section Requests

variable (loading : Loading) (versioning : Versioning)

def verifiedArtifact (artifact : List SkillArtifactFile) : Except Exc SkillSpec := do
  let provisional ← inspectArtifact loading artifact "db://pending"
  inspectArtifact loading artifact
    ("db://" ++ provisional.name ++ "@" ++ provisional.version)

def differentContent (spec : SkillSpec) : Exc :=
  .registry ("Skill " ++ spec.name ++ "@" ++ spec.version ++
    " already exists with different content; publish a new version")

def publishedSpec (skill : SkillPublishRequest) (verified : SkillSpec) : SkillSpec :=
  { verified with
    enabled := skill.enabled
    owner := skill.owner
    managedBy := "admin"
    updatedBy := some (match skill.actor with
      | some actor => if actor = "" then "api-user" else actor
      | none => "api-user") }

def conflicts (registry : SkillRegistry) (verified : SkillSpec) : Bool :=
  (registry.getOptional verified.name verified.version).any fun existing =>
    existing.contentHash != verified.contentHash

def publishSkill (rows : SkillTable) (registry : SkillRegistry) (skill : SkillPublishRequest)
    (failure : Option Exc) : Except Exc SkillSpec × SkillTable × SkillRegistry :=
  match verifiedArtifact loading skill.artifact with
  | .error error => (.error error, rows, registry)
  | .ok verified =>
      if conflicts registry verified then (.error (differentContent verified), rows, registry)
      else match failure with
      | some error => (.error error, rows, registry)
      | none =>
          let published := publishedSpec skill verified
          let registered := register versioning published skill.makeDefault registry
          (registered.1.map fun _ => published, rows.upsert published, registered.2)

def outcome (state : Publishing) : Request → Except Exc Unit
  | .publish process skill failure =>
      (publishSkill loading versioning state.rows (state.registries process) skill failure).1.map
        fun _ => ()
  | .reload process =>
      (reloadSkills loading versioning state.rows.rows (state.registries process)).1.map
        fun _ => ()

def handle (state : Publishing) : Request → Publishing
  | .publish process skill failure =>
      let done := publishSkill loading versioning state.rows (state.registries process) skill
        failure
      { rows := done.2.1, registries := setAt state.registries process done.2.2 }
  | .reload process =>
      { state with
        registries := setAt state.registries process
          (reloadSkills loading versioning state.rows.rows (state.registries process)).2 }

def step (state : Publishing) (request : Request) : Option Publishing :=
  some (handle loading versioning state request)

end Requests

section Publications

variable {loading : Loading} {versioning : Versioning} {state : Publishing}

/-- A publication under the name and version of a row with other content is made by a
process whose registry, too, holds the version with other content; and the versions it
compares have keys. -/
def Polled (loading : Loading) (versioning : Versioning) (state : Publishing) : Request → Prop
  | .reload _ => True
  | .publish process skill _ => ∀ verified, verifiedArtifact loading skill.artifact = .ok verified →
      (∀ row, state.rows.find verified.ref = some row → row.contentHash ≠ verified.contentHash →
        conflicts (state.registries process) verified = true) ∧
      Keyed versioning verified.version ∧
      ∀ entry ∈ (state.registries process).skills.rows, Keyed versioning entry.version

theorem setAt_same {Value : Type} (values : Process → Value) (process : Process) :
    setAt values process (values process) = values := by
  funext other
  unfold setAt
  split
  · next same => rw [same]
  · rfl

/-- A publication that conflicts with the registry changes nothing, and neither does one
that the database refuses; any other stores its row and is answered. -/
theorem publishSkill_cases (process : Process) (skill : SkillPublishRequest)
    (failure : Option Exc) (polled : Polled loading versioning state (.publish process skill failure)) :
    (∃ error, outcome loading versioning state (.publish process skill failure) = .error error ∧
      handle loading versioning state (.publish process skill failure) = state) ∨
    ∃ verified, verifiedArtifact loading skill.artifact = .ok verified ∧
      conflicts (state.registries process) verified = false ∧
      outcome loading versioning state (.publish process skill failure) = .ok () ∧
      (handle loading versioning state (.publish process skill failure)).rows =
        state.rows.upsert (publishedSpec skill verified) := by
  have same (registries : Process → SkillRegistry) :
      ({ rows := state.rows, registries := setAt registries process (registries process) } :
        Publishing) = { rows := state.rows, registries := registries } := by
    rw [setAt_same]
  cases inspected : verifiedArtifact loading skill.artifact with
  | error error =>
      left
      refine ⟨error, by simp [outcome, publishSkill, inspected, Except.map], ?_⟩
      simp only [handle, publishSkill, inspected, same]
  | ok verified =>
      by_cases conflict : conflicts (state.registries process) verified = true
      · left
        refine ⟨differentContent verified, ?_, ?_⟩
        · simp [outcome, publishSkill, inspected, conflict, Except.map]
        · simp only [handle, publishSkill, inspected, conflict, if_true, same]
      · cases failure with
        | some error =>
            left
            refine ⟨error, ?_, ?_⟩
            · simp [outcome, publishSkill, inspected, conflict, Except.map]
            · simp only [handle, publishSkill, inspected, conflict, Bool.false_eq_true, if_false,
                same]
        | none =>
            right
            obtain ⟨_, own, keyed⟩ := polled verified inspected
            have published : Keyed versioning (publishedSpec skill verified).version := own
            obtain ⟨value, after, registered⟩ :=
              register_returns keyed published skill.makeDefault
            refine ⟨verified, rfl, by simpa using conflict, ?_, ?_⟩
            · simp [outcome, publishSkill, inspected, conflict, registered, Except.map]
            · simp [handle, publishSkill, inspected, conflict]

theorem handle_keeps {request : Request} (polled : Polled loading versioning state request)
    {ref : String × String} {row : SkillSpec} (found : state.rows.find ref = some row) :
    ∃ now, (handle loading versioning state request).rows.find ref = some now ∧
      now.contentHash = row.contentHash := by
  cases request with
  | reload process => exact ⟨row, found, rfl⟩
  | publish process skill failure =>
      rcases publishSkill_cases process skill failure polled with
        ⟨_, _, same⟩ | ⟨verified, inspected, accepted, _, rows⟩
      · rw [same]
        exact ⟨row, found, rfl⟩
      · rw [rows]
        by_cases same : ref = verified.ref
        · subst same
          refine ⟨publishedSpec skill verified, Table.find_upsert_self _ _, ?_⟩
          by_contra differs
          have conflict := (polled verified inspected).1 row found (Ne.symm differs)
          rw [accepted] at conflict
          cases conflict
        · refine ⟨row, ?_, rfl⟩
          rw [Table.find_upsert_other]
          · exact found
          · exact same

theorem run_keeps {start final : Publishing} {events : List (Publishing × Request)}
    (run : Transitions.Run (step loading versioning) start events final)
    (polled : ∀ event ∈ events, Polled loading versioning event.1 event.2)
    {ref : String × String} {row : SkillSpec} (found : start.rows.find ref = some row) :
    ∃ now, final.rows.find ref = some now ∧ now.contentHash = row.contentHash := by
  induction run generalizing row with
  | done state => exact ⟨row, found, rfl⟩
  | next moved rest ih =>
      cases moved
      obtain ⟨middle, stored, same⟩ := handle_keeps (polled _ List.mem_cons_self) found
      obtain ⟨now, later, kept⟩ :=
        ih (fun event member => polled event (List.mem_cons_of_mem _ member)) stored
      exact ⟨now, later, kept.trans same⟩

/-- What a run of publications and reloads promises: stored versions keep their content,
other content is rejected, and a rejected publication changes nothing. -/
structure Immutable (loading : Loading) (versioning : Versioning)
    (events : List (Publishing × Request)) (final : Publishing) : Prop where
  kept : ∀ event ∈ events, ∀ ref row, event.1.rows.find ref = some row →
    ∃ now, final.rows.find ref = some now ∧ now.contentHash = row.contentHash
  rejected : ∀ event ∈ events, ∀ process skill failure verified row,
    event.2 = .publish process skill failure →
    verifiedArtifact loading skill.artifact = .ok verified →
    event.1.rows.find verified.ref = some row → row.contentHash ≠ verified.contentHash →
    ∃ error, outcome loading versioning event.1 event.2 = .error error
  unchanged : ∀ event ∈ events, ∀ process skill failure error,
    event.2 = .publish process skill failure →
    outcome loading versioning event.1 event.2 = .error error →
    handle loading versioning event.1 event.2 = event.1

end Publications

section Samples

def reportFile (body : String) : SkillArtifactFile where
  path := "SKILL.md"
  content := encode ("---\nname: report\ndescription: d\n---\n" ++ body)
  safe := manifest_safe

def reportLoading : Loading where
  sha256 bytes :=
    if bytes.getLast? = some 65 then
      "3b513fa2ef31c848af7090b0ec3db8e1ea0c7f4763b01c5ba6274bd9182f30e0"
    else "ba615833466119ed4dd72e9a9eeebdd3128fa937fc25015f35aa5c59431ba96b"
  decode bytes := String.fromUTF8? ⟨bytes.toArray⟩
  isspace := Char.isWhitespace
  safeLoad _ := some (.mapping [(.string "name", .string "report"),
    (.string "description", .string "d")])
  scriptSpec _ := .error "Input should be a valid dictionary"
  rejected _ := "1 validation error for SkillSpec"
  root _ := .error (invalid "Skill artifact does not exist")
  guessType _ := none

def unpublished : Publishing := { rows := Table.empty, registries := fun _ => SkillRegistry.empty }

def publishReport (process : Process) (body : String) : Request :=
  .publish process { artifact := [reportFile body] } none

def unpolled : List Request := [publishReport "api-1" "A", publishReport "api-2" "B"]

def storedHash (state : Publishing) : Option String :=
  (state.rows.find ("report", "1.0.0")).map SkillSpec.contentHash

theorem unpolled_version_overwritten : ∃ events final,
    Transitions.Run (step reportLoading RouteTable.asciiVersioning) unpublished events final ∧
    ¬ Immutable reportLoading RouteTable.asciiVersioning events final := by
  have passed : (Transitions.replay (step reportLoading RouteTable.asciiVersioning) unpublished
      unpolled).any (fun outcome => outcome.1.any fun event =>
        (storedHash event.1).isSome && storedHash event.1 != storedHash outcome.2) = true := by
    decide +kernel
  obtain ⟨events, final, run, checked⟩ := Transitions.replay_checked passed
  refine ⟨events, final, run, ?_⟩
  intro immutable
  obtain ⟨event, member, differs⟩ := List.any_eq_true.mp checked
  simp only [Bool.and_eq_true, bne_iff_ne] at differs
  obtain ⟨stored, differs⟩ := differs
  cases found : event.1.rows.find ("report", "1.0.0") with
  | none => simp [storedHash, found] at stored
  | some row =>
      obtain ⟨now, later, same⟩ := immutable.kept event member _ row found
      apply differs
      simp only [storedHash, found, later, Option.map_some, same]

end Samples

/-- In a run in which every publisher has polled the versions of its names that others
published with other content, published versions are immutable. -/
theorem published_versions_immutable {loading : Loading} {versioning : Versioning}
    {start final : Publishing} {events : List (Publishing × Request)}
    (run : Transitions.Run (step loading versioning) start events final)
    (polled : ∀ event ∈ events, Polled loading versioning event.1 event.2) :
    Immutable loading versioning events final := by
  refine ⟨?_, ?_, ?_⟩
  · intro event member ref row found
    obtain ⟨left, right, rfl⟩ := List.append_of_mem member
    obtain ⟨_, _, rest⟩ := run.split
    cases rest with
    | next moved later =>
        exact run_keeps (.next moved later)
          (fun other inside => polled other (List.mem_append_right left inside)) found
  · rintro ⟨state, request⟩ member process skill failure verified row rfl inspected found differs
    have current := polled _ member
    have conflict := (current verified inspected).1 row found differs
    rcases publishSkill_cases process skill failure current with
      ⟨error, rejected, _⟩ | ⟨other, again, accepted, _⟩
    · exact ⟨error, rejected⟩
    · rw [inspected] at again
      cases again
      rw [conflict] at accepted
      cases accepted
  · rintro ⟨state, request⟩ member process skill failure error rfl rejected
    rcases publishSkill_cases process skill failure (polled _ member) with
      ⟨_, _, same⟩ | ⟨_, _, _, answered, _⟩
    · exact same
    · rw [answered] at rejected
      cases rejected

def polled : List Request :=
  [publishReport "api-1" "A", .reload "api-2", publishReport "api-2" "B"]

def polledCheck (state : Publishing) : Request → Bool
  | .reload _ => true
  | .publish process skill _ =>
      match verifiedArtifact reportLoading skill.artifact with
      | .error _ => true
      | .ok verified => (state.rows.find verified.ref).isNone ||
          conflicts (state.registries process) verified

theorem polled_of_check {state : Publishing} {request : Request}
    (checked : polledCheck state request = true) :
    Polled reportLoading RouteTable.asciiVersioning state request := by
  cases request with
  | reload process => trivial
  | publish process skill failure =>
      intro verified inspected
      simp only [polledCheck, inspected, Bool.or_eq_true] at checked
      refine ⟨?_, RouteTable.asciiVersioning_reads _,
        fun entry _ => RouteTable.asciiVersioning_reads _⟩
      intro row found differs
      rcases checked with absent | conflict
      · rw [found] at absent
        cases absent
      · exact conflict

theorem published_versions_immutable_polled : ∃ events final,
    Transitions.Run (step reportLoading RouteTable.asciiVersioning) unpublished events final ∧
    events.length = 3 ∧ Immutable reportLoading RouteTable.asciiVersioning events final := by
  have passed : (Transitions.replay (step reportLoading RouteTable.asciiVersioning) unpublished
      polled).any (fun outcome => outcome.1.length == 3 &&
        outcome.1.all fun event => polledCheck event.1 event.2) = true := by
    decide +kernel
  obtain ⟨events, final, run, checked⟩ := Transitions.replay_checked passed
  simp only [Bool.and_eq_true, beq_iff_eq, List.all_eq_true] at checked
  exact ⟨events, final, run, checked.1, published_versions_immutable run
    fun event member => polled_of_check (checked.2 event member)⟩

end AgentTaskPlatform.SkillPublication
