import AgentTaskPlatform.ArtifactHash
import AgentTaskPlatform.SkillSession

/-!
What a Skill snapshot pins. The recorded hash determines every file, so instructions and
resources of a session are those of the submitted artifact; the script declarations come
from the row and are the submitted ones where the row declares them so.
-/

namespace AgentTaskPlatform.Skills

open KeyedTable StatefulCalls

section Contents

variable {loading : Loading} {spec reference : SkillSpec}

structure SameFiles (spec reference : SkillSpec) : Prop where
  backed : spec.artifact ≠ []
  also : reference.artifact ≠ []
  files : sortedItems (artifactMapping spec.artifact) =
    sortedItems (artifactMapping reference.artifact)

theorem stored (backed : spec.artifact ≠ []) : ¬ spec.artifact.isEmpty = true := by
  simpa using backed

theorem specFiles_backed (backed : spec.artifact ≠ []) :
    specFiles loading spec = .ok (artifactMapping spec.artifact) := by
  unfold specFiles
  rw [if_neg (stored backed)]

theorem loadInstructions_same (same : SameFiles spec reference) :
    loadInstructions loading spec = loadInstructions loading reference := by
  have named {spec : SkillSpec} (backed : spec.artifact ≠ []) : verifyName loading spec = .ok () := by
    unfold verifyName
    rw [if_neg (stored backed)]
  have skillMd := get_sortedItems same.files "SKILL.md"
  simp only [loadInstructions, specFiles_backed same.backed, specFiles_backed same.also,
    named same.backed, named same.also, Bind.bind, Except.bind, skillMd, stored same.backed,
    stored same.also]

theorem resourceOf_same {left right : Files} (same : ∀ path, left.get path = right.get path)
    (available : String → Bool) (path : String) :
    resourceOf loading left available path = resourceOf loading right available path := by
  simp only [resourceOf, same]

theorem readResource_same (same : SameFiles spec reference) (path : String) :
    readResource loading spec path = readResource loading reference path := by
  have lookups := get_sortedItems same.files
  unfold readResource
  rw [if_neg (stored same.backed), if_neg (stored same.also)]
  simp only [lookups]
  exact resourceOf_same lookups _ path

theorem readTextResource_same (same : SameFiles spec reference) (path : String) :
    readTextResource loading spec path = readTextResource loading reference path := by
  simp only [readTextResource, readResource_same same, stored same.backed, stored same.also]

theorem openBinaryResource_content {path : String} {handle : ResourceHandle}
    (opened : openBinaryResource loading spec path = .ok handle) :
    readResource loading spec path = .ok handle.content := by
  unfold openBinaryResource at opened
  cases read : readResource loading spec path with
  | error error => simp [read, Bind.bind, Except.bind] at opened
  | ok content =>
      simp only [read, Bind.bind, Except.bind] at opened
      split at opened
      · cases opened
        rfl
      · split at opened
        · cases opened
        · cases opened
          rfl

theorem runScript_ok {script : String} {run : ScriptRun} (backed : spec.artifact ≠ []) :
    runScript loading spec script = .ok run ↔ scriptFor spec script = some run.declaration ∧
      run.files = sortedItems (artifactMapping spec.artifact) := by
  unfold runScript
  cases found : scriptFor spec script with
  | none => simp
  | some declaration =>
      simp only [specFiles_backed backed, Bind.bind, Except.bind, Pure.pure, Except.pure,
        Except.ok.injEq, Option.some.injEq]
      constructor
      · rintro rfl
        exact ⟨rfl, rfl⟩
      · rintro ⟨rfl, files⟩
        rw [← files]

end Contents

section Sessions

variable {loading : Loading} {session : SkillSession}

def Sound (loading : Loading) (session : SkillSession) : Prop :=
  ∀ activation ∈ session.active, ∃ ref spec,
    session.assigned activation.name = some (ref, spec) ∧
    loadInstructions loading spec = .ok activation.instructions

structure Activated (loading : Loading) (session : SkillSession) (name : String)
    (outcome : Except Exc SkillActivation) (after : SkillSession) : Prop where
  assignments : after.assignments = session.assignments
  sound : Sound loading session → Sound loading after
  instructions : ∀ activation, Sound loading session → outcome = .ok activation →
    ∃ ref spec, session.assigned name = some (ref, spec) ∧
      loadInstructions loading spec = .ok activation.instructions

theorem activate_spec (session : SkillSession) (name : String) (explicit : Bool) :
    Activated loading session name (activate loading name explicit session).1
      (activate loading name explicit session).2 := by
  have refused (error : Exc) : Activated loading session name (.error error) session :=
    ⟨rfl, fun sound => sound, nofun⟩
  simp only [activate, bind_run, get_run]
  cases found : session.assigned name with
  | none => exact refused _
  | some assignment =>
      obtain ⟨ref, spec⟩ := assignment
      simp only
      by_cases gated : (decide (ref.activation = .explicit) && !explicit) = true
      · rw [if_pos gated]
        exact refused _
      · rw [if_neg gated]
        cases held : session.activeFor name with
        | some active =>
            refine ⟨rfl, fun sound => sound, ?_⟩
            intro activation sound same
            cases same
            obtain ⟨ref, spec, assigned, loaded⟩ := sound active (List.mem_of_find?_eq_some held)
            have named : active.name = name := by
              simpa using List.find?_some held
            exact ⟨ref, spec, named ▸ assigned, loaded⟩
        | none =>
            simp only
            by_cases full : session.maxActiveSkills ≤ session.active.length
            · rw [if_pos full]
              exact refused _
            · rw [if_neg full]
              simp only [bind_run, lift_run]
              cases loaded : loadInstructions loading spec with
              | error error => exact refused error
              | ok instructions =>
                  simp only
                  by_cases long : (session.active.map fun item => item.instructions.length).sum +
                      instructions.length > session.maxInstructionChars
                  · rw [if_pos long]
                    exact refused _
                  · rw [if_neg long]
                    simp only [bind_run, modify_run]
                    refine ⟨rfl, ?_, ?_⟩
                    · intro sound activation member
                      rcases List.mem_append.mp member with old | new
                      · exact sound activation old
                      · rw [List.mem_singleton.mp new]
                        exact ⟨ref, spec, found, loaded⟩
                    · intro activation sound same
                      cases same
                      exact ⟨ref, spec, found, loaded⟩

theorem activeSpec_run (session : SkillSession) (name : String) :
    (activeSpec name session).2 = session ∧ ∀ spec, (activeSpec name session).1 = .ok spec →
      ∃ ref, session.assigned name = some (ref, spec) := by
  simp only [activeSpec, bind_run, get_run]
  cases found : session.assigned name with
  | none => exact ⟨rfl, nofun⟩
  | some assignment =>
      obtain ⟨ref, spec⟩ := assignment
      simp only
      split
      · refine ⟨rfl, ?_⟩
        intro other same
        cases same
        exact ⟨ref, rfl⟩
      · exact ⟨rfl, nofun⟩

def FromSpec (loading : Loading) (spec : SkillSpec) : Use → Content → Prop
  | .activate _ _, .instructions text => loadInstructions loading spec = .ok text
  | .readText _ path, .text text => readTextResource loading spec path = .ok text
  | .openBinary _ path, .binary handle => openBinaryResource loading spec path = .ok handle
  | .runScript _ script, .script run => runScript loading spec script = .ok run
  | _, _ => False

theorem activeUse_spec {α : Type} (session : SkillSession) (name : String)
    (compute : SkillSpec → Except Exc α) (make : α → Content) :
    let method : SessionM Content := do
      let spec ← activeSpec name
      let value ← ExceptT.mk (pure (compute spec))
      return make value
    (method session).2 = session ∧ ∀ content, (method session).1 = .ok content →
      ∃ ref spec value, session.assigned name = some (ref, spec) ∧ compute spec = .ok value ∧
        content = make value := by
  obtain ⟨kept, assigned⟩ := activeSpec_run session name
  simp only [bind_run]
  cases called : activeSpec name session with
  | mk outcome after =>
      rw [called] at kept assigned
      cases kept
      cases outcome with
      | error error => exact ⟨rfl, nofun⟩
      | ok spec =>
          obtain ⟨ref, found⟩ := assigned spec rfl
          simp only [lift_run]
          cases computed : compute spec with
          | error error => exact ⟨rfl, nofun⟩
          | ok value =>
              refine ⟨rfl, ?_⟩
              intro content same
              cases same
              exact ⟨ref, spec, value, found, computed, rfl⟩

structure Used (loading : Loading) (session : SkillSession) (one : Use)
    (outcome : Except Exc Content) (after : SkillSession) : Prop where
  assignments : after.assignments = session.assignments
  sound : Sound loading session → Sound loading after
  content : ∀ content, Sound loading session → outcome = .ok content →
    ∃ ref spec, session.assigned one.skill = some (ref, spec) ∧ FromSpec loading spec one content

theorem use_spec (session : SkillSession) (one : Use) :
    Used loading session one (use loading one session).1 (use loading one session).2 := by
  cases one with
  | activate name explicit =>
      have activated : Activated loading session name (activate loading name explicit session).1
          (activate loading name explicit session).2 := activate_spec session name explicit
      simp only [use, bind_run]
      cases called : activate loading name explicit session with
      | mk outcome after =>
          rw [called] at activated
          cases outcome with
          | error error => exact ⟨activated.assignments, activated.sound, nofun⟩
          | ok activation =>
              refine ⟨activated.assignments, activated.sound, ?_⟩
              intro content sound same
              cases same
              exact activated.instructions activation sound rfl
  | readText name path =>
      obtain ⟨kept, computed⟩ := activeUse_spec session name
        (fun spec => readTextResource loading spec path) Content.text
      refine ⟨congrArg SkillSession.assignments kept, fun sound => kept.symm ▸ sound, ?_⟩
      intro content _ same
      obtain ⟨ref, spec, value, found, read, rfl⟩ := computed content same
      exact ⟨ref, spec, found, read⟩
  | openBinary name path =>
      obtain ⟨kept, computed⟩ := activeUse_spec session name
        (fun spec => openBinaryResource loading spec path) Content.binary
      refine ⟨congrArg SkillSession.assignments kept, fun sound => kept.symm ▸ sound, ?_⟩
      intro content _ same
      obtain ⟨ref, spec, value, found, read, rfl⟩ := computed content same
      exact ⟨ref, spec, found, read⟩
  | runScript name script =>
      obtain ⟨kept, computed⟩ := activeUse_spec session name
        (fun spec => runScript loading spec script) Content.script
      refine ⟨congrArg SkillSession.assignments kept, fun sound => kept.symm ▸ sound, ?_⟩
      intro content _ same
      obtain ⟨ref, spec, value, found, read, rfl⟩ := computed content same
      exact ⟨ref, spec, found, read⟩

theorem usedAfter_sound (uses : List Use) (sound : Sound loading session) :
    (usedAfter loading session uses).assignments = session.assignments ∧
      Sound loading (usedAfter loading session uses) := by
  induction uses generalizing session with
  | nil => exact ⟨rfl, sound⟩
  | cons first rest ih =>
      have used : Used loading session first (use loading first session).1
          (use loading first session).2 := use_spec session first
      obtain ⟨assignments, later⟩ := ih (used.sound sound)
      exact ⟨assignments.trans used.assignments, later⟩

end Sessions



section Pinning

variable {loading : Loading}

theorem verifyAll_ok {specs : List SkillSpec} (verified : verifyAll loading specs = .ok ()) :
    ∀ spec ∈ specs, verify loading spec = .ok () := by
  induction specs with
  | nil => exact nofun
  | cons first rest ih =>
      simp only [verifyAll, Bind.bind, Except.bind] at verified
      cases own : verify loading first with
      | error error => simp [own] at verified
      | ok done =>
          simp only [own] at verified
          intro spec member
          rcases List.mem_cons.mp member with rfl | inside
          · exact own
          · exact ih verified spec inside

theorem getOptional_ref {registry : SkillRegistry} {name version : String} {spec : SkillSpec}
    (found : registry.getOptional name version = some spec) :
    registry.getOptional spec.name spec.version = some spec :=
  Table.mem_find (Table.find_mem found)

theorem getSkill_ok {registry : SkillRegistry} {name : String} {version : Option String}
    {spec : SkillSpec} (found : getSkill registry name version = .ok spec) :
    registry.getOptional spec.name spec.version = some spec := by
  unfold getSkill at found
  repeat' split at found
  all_goals cases found
  next stored _ => exact getOptional_ref stored

theorem resolveForAgent_ok {registry : SkillRegistry} {seen : List String}
    {refs : List AgentSkillRef} {specs : List SkillSpec}
    (resolved : resolveForAgent registry seen refs = .ok specs) :
    ∀ spec ∈ specs, registry.getOptional spec.name spec.version = some spec := by
  induction refs generalizing seen specs with
  | nil =>
      cases resolved
      exact nofun
  | cons ref rest ih =>
      simp only [resolveForAgent] at resolved
      split at resolved
      · cases resolved
      · cases own : getSkill registry ref.name ref.version with
        | error error => simp [own, Bind.bind, Except.bind] at resolved
        | ok skill =>
            cases others : resolveForAgent registry (ref.name :: seen) rest with
            | error error => simp [own, others, Bind.bind, Except.bind] at resolved
            | ok skills =>
                simp only [own, others, Bind.bind, Except.bind, Pure.pure, Except.pure] at resolved
                cases resolved
                intro spec member
                rcases List.mem_cons.mp member with rfl | inside
                · exact getSkill_ok own
                · exact ih others spec inside

structure GoesWith (loading : Loading) (registry : SkillRegistry) (snapshot : SkillSnapshot)
    (spec : SkillSpec) : Prop where
  stored : registry.getOptional snapshot.name snapshot.version = some spec
  hash : spec.contentHash = snapshot.contentHash
  verified : verify loading spec = .ok ()

theorem snapshotsForAgent_ok {registry : SkillRegistry} {refs : List AgentSkillRef}
    {snapshots : List SkillSnapshot} {snapshot : SkillSnapshot}
    (pinned : snapshotsForAgent loading registry refs = .ok snapshots)
    (recorded : snapshot ∈ snapshots) : ∃ spec, GoesWith loading registry snapshot spec := by
  unfold snapshotsForAgent at pinned
  cases resolved : resolveForAgent registry [] refs with
  | error error => simp [resolved, Bind.bind, Except.bind] at pinned
  | ok specs =>
      cases verified : verifyAll loading specs with
      | error error => simp [resolved, verified, Bind.bind, Except.bind] at pinned
      | ok done =>
          simp only [resolved, verified, Bind.bind, Except.bind, Pure.pure, Except.pure] at pinned
          cases pinned
          obtain ⟨⟨ref, spec⟩, paired, rfl⟩ := List.mem_map.mp recorded
          have member : spec ∈ specs := (List.of_mem_zip paired).2
          exact ⟨spec, resolveForAgent_ok resolved spec member, rfl,
            verifyAll_ok verified spec member⟩

theorem resolveSnapshot_ok {registry : SkillRegistry} {snapshot : SkillSnapshot}
    {assignment : AgentSkillRef × SkillSpec}
    (resolved : resolveSnapshot loading registry snapshot = .ok assignment) :
    assignment.1.name = snapshot.name ∧ GoesWith loading registry snapshot assignment.2 := by
  unfold resolveSnapshot at resolved
  cases stored : registry.getOptional snapshot.name snapshot.version with
  | none => simp [stored] at resolved
  | some spec =>
      simp only [stored] at resolved
      split at resolved
      · cases resolved
      · next matching =>
          cases verified : verify loading spec with
          | error error => simp [verified, Bind.bind, Except.bind] at resolved
          | ok done =>
              simp only [verified, Bind.bind, Except.bind, Pure.pure, Except.pure] at resolved
              cases resolved
              have hash : spec.contentHash = snapshot.contentHash := by
                simp only [ne_eq, Bool.or_eq_true, decide_eq_true_eq, not_or, not_not] at matching
                exact matching.2
              exact ⟨rfl, stored, hash, verified⟩

theorem mapM_ok {Item Result : Type} {compute : Item → Except Exc Result} {items : List Item}
    {results : List Result} (computed : items.mapM compute = .ok results) :
    ∀ result ∈ results, ∃ item ∈ items, compute item = .ok result := by
  induction items generalizing results with
  | nil =>
      cases computed
      exact nofun
  | cons first rest ih =>
      rw [List.mapM_cons] at computed
      cases own : compute first with
      | error error => simp [own, Bind.bind, Except.bind] at computed
      | ok value =>
          cases others : rest.mapM compute with
          | error error => simp [own, others, Bind.bind, Except.bind] at computed
          | ok values =>
              simp only [own, others, Bind.bind, Except.bind, Pure.pure, Except.pure] at computed
              cases computed
              intro result member
              rcases List.mem_cons.mp member with rfl | inside
              · exact ⟨first, List.mem_cons_self, own⟩
              · obtain ⟨item, later, same⟩ := ih others result inside
                exact ⟨item, List.mem_cons_of_mem first later, same⟩

theorem resolveSnapshots_ok {registry : SkillRegistry} {agent : String × String}
    {refs : List AgentSkillRef} {snapshots : List SkillSnapshot} {snapshot : SkillSnapshot}
    {assignments : List (AgentSkillRef × SkillSpec)} {assignment : AgentSkillRef × SkillSpec}
    (resolved : resolveSnapshots loading registry agent refs snapshots = .ok assignments)
    (recorded : snapshot ∈ snapshots) (member : assignment ∈ assignments)
    (named : assignment.1.name = snapshot.name) :
    GoesWith loading registry snapshot assignment.2 := by
  unfold resolveSnapshots at resolved
  have some : snapshots.isEmpty = false := by
    cases snapshots with
    | nil => cases recorded
    | cons first rest => rfl
  rw [some, if_neg (by simp)] at resolved
  split at resolved
  · cases resolved
  · next unique =>
      obtain ⟨other, inside, own⟩ := mapM_ok resolved assignment member
      obtain ⟨sameName, goes⟩ := resolveSnapshot_ok own
      have same : other = snapshot :=
        List.inj_on_of_nodup_map (not_not.mp unique) inside recorded (sameName.symm.trans named)
      rw [← same]
      exact goes

theorem preloadAlways_sound (assignments : List (AgentSkillRef × SkillSpec))
    {session : SkillSession} (sound : Sound loading session) :
    (preloadAlways loading assignments session).2.assignments = session.assignments ∧
      Sound loading (preloadAlways loading assignments session).2 := by
  induction assignments generalizing session with
  | nil => exact ⟨rfl, sound⟩
  | cons first rest ih =>
      obtain ⟨ref, spec⟩ := first
      simp only [preloadAlways]
      split
      · have activated : Activated loading session ref.name
            (activate loading ref.name true session).1
            (activate loading ref.name true session).2 := activate_spec session ref.name true
        simp only [bind_run]
        cases called : activate loading ref.name true session with
        | mk outcome after =>
            rw [called] at activated
            cases outcome with
            | error error => exact ⟨activated.assignments, activated.sound sound⟩
            | ok activation =>
                obtain ⟨kept, later⟩ := ih (activated.sound sound)
                exact ⟨kept.trans activated.assignments, later⟩
      · exact ih sound

theorem createSession_ok {registry : SkillRegistry} {agent : String × String}
    {refs : List AgentSkillRef} {snapshots : List SkillSnapshot}
    {maxActiveSkills maxInstructionChars : Nat} {session : SkillSession}
    (created : createSession loading registry agent refs snapshots maxActiveSkills
      maxInstructionChars = .ok session) :
    resolveSnapshots loading registry agent refs snapshots = .ok session.assignments ∧
      Sound loading session := by
  unfold createSession at created
  cases resolved : resolveSnapshots loading registry agent refs snapshots with
  | error error => simp [resolved, Bind.bind, Except.bind] at created
  | ok assignments =>
      cases verified : verifyAll loading (assignments.map Prod.snd) with
      | error error => simp [resolved, verified, Bind.bind, Except.bind] at created
      | ok done =>
          cases checked : checkAssignments [] assignments with
          | error error => simp [resolved, verified, checked, Bind.bind, Except.bind] at created
          | ok fine =>
              have fresh : Sound loading { assignments, maxActiveSkills, maxInstructionChars } :=
                nofun
              obtain ⟨kept, sound⟩ := preloadAlways_sound assignments fresh
              simp only [resolved, verified, checked, Bind.bind, Except.bind] at created
              split at created
              · next outcome after preloaded =>
                  cases created
                  rw [preloaded] at kept sound
                  exact ⟨congrArg Except.ok kept.symm, sound⟩
              · cases created

def Pinned (loading : Loading) (reference : SkillSpec) : Use → Content → Prop
  | .activate _ _, .instructions text => loadInstructions loading reference = .ok text
  | .readText _ path, .text text => readTextResource loading reference path = .ok text
  | .openBinary _ path, .binary handle => readResource loading reference path = .ok handle.content
  | .runScript _ script, .script run => runScript loading reference script = .ok run
  | _, _ => False

theorem fromSpec_pinned {spec reference : SkillSpec} (same : SameFiles spec reference)
    {one : Use} {content : Content} (yielded : FromSpec loading spec one content) :
    Pinned loading reference one content ↔
      ∀ script, one = .runScript one.skill script →
        scriptFor spec script = scriptFor reference script := by
  cases one with
  | activate name explicit =>
      cases content with
      | instructions text =>
          have own : loadInstructions loading reference = .ok text :=
            (loadInstructions_same same).symm.trans yielded
          exact ⟨fun _ _ => nofun, fun _ => own⟩
      | text _ | binary _ | script _ => exact yielded.elim
  | readText name path =>
      cases content with
      | text text =>
          have own : readTextResource loading reference path = .ok text :=
            (readTextResource_same same path).symm.trans yielded
          exact ⟨fun _ _ => nofun, fun _ => own⟩
      | instructions _ | binary _ | script _ => exact yielded.elim
  | openBinary name path =>
      cases content with
      | binary handle =>
          have own : readResource loading reference path = .ok handle.content :=
            (readResource_same same path).symm.trans (openBinaryResource_content yielded)
          exact ⟨fun _ _ => nofun, fun _ => own⟩
      | instructions _ | text _ | script _ => exact yielded.elim
  | runScript name script =>
      cases content with
      | script run =>
          obtain ⟨declared, files⟩ := (runScript_ok same.backed).mp yielded
          have pinned : Pinned loading reference (.runScript name script) (.script run) ↔
              scriptFor reference script = some run.declaration ∧
                run.files = sortedItems (artifactMapping reference.artifact) :=
            runScript_ok same.also
          rw [pinned, files, ← same.files]
          constructor
          · rintro ⟨other, -⟩ asked equal
            cases equal
            exact declared.trans other.symm
          · intro agrees
            exact ⟨(agrees script rfl).symm.trans declared, rfl⟩
      | instructions _ | text _ | binary _ => exact yielded.elim

/-- The hash of the snapshot leads from the submitted artifact to the executed one, also
when the files below the trusted root have changed. -/
theorem goesWith_sameFiles (injective : Function.Injective loading.sha256)
    {earlier : String → Except Exc (String × String × List SkillArtifactFile)}
    {submitted executed : SkillRegistry} {snapshot : SkillSnapshot}
    {original reference spec : SkillSpec}
    (before : GoesWith { loading with root := earlier } submitted snapshot original)
    (inspected : inspectArtifact { loading with root := earlier } original.artifact
      original.sourcePath = .ok reference)
    (later : GoesWith loading executed snapshot spec) (backed : original.artifact ≠ [])
    (also : spec.artifact ≠ []) : SameFiles spec reference := by
  have artifact : reference.artifact = original.artifact := (inspectArtifact_ok inspected).2.1
  have hashed := verify_ok before.verified backed
  have first : artifactContentHash loading (artifactMapping original.artifact) =
      .ok original.contentHash := hashed
  have second : artifactContentHash loading (artifactMapping spec.artifact) =
      .ok spec.contentHash := verify_ok later.verified also
  rw [before.hash] at first
  rw [later.hash] at second
  refine ⟨also, artifact ▸ backed, ?_⟩
  rw [artifact]
  exact contentHash_files injective second first

end Pinning

/-- Whatever happens to the registry after the submission, a session that is created uses
the instructions and resources of the submitted artifact, and its script declaration when
the row leads the name of the script to that declaration. -/
theorem session_content_pinned {loading : Loading}
    (injective : Function.Injective loading.sha256)
    (earlier : String → Except Exc (String × String × List SkillArtifactFile))
    {submitted executed : SkillRegistry} {refs current : List AgentSkillRef}
    {snapshots : List SkillSnapshot} {snapshot : SkillSnapshot}
    {original reference spec : SkillSpec} {agent : String × String}
    {maxActiveSkills maxInstructionChars : Nat} {session : SkillSession}
    (taken : snapshotsForAgent { loading with root := earlier } submitted refs = .ok snapshots)
    (recorded : snapshot ∈ snapshots)
    (stored : submitted.getOptional snapshot.name snapshot.version = some original)
    (backed : original.artifact ≠ [])
    (inspected : inspectArtifact { loading with root := earlier } original.artifact
      original.sourcePath = .ok reference)
    (created : createSession loading executed agent current snapshots maxActiveSkills
      maxInstructionChars = .ok session)
    (row : executed.getOptional snapshot.name snapshot.version = some spec)
    (also : spec.artifact ≠ []) (uses : List Use) :
    (∀ activation ∈ (usedAfter loading session uses).active, activation.name = snapshot.name →
      loadInstructions loading reference = .ok activation.instructions) ∧
    ∀ one content, one.skill = snapshot.name →
      (use loading one (usedAfter loading session uses)).1 = .ok content →
      (Pinned loading reference one content ↔
        ∀ script, one = .runScript one.skill script →
          scriptFor spec script = scriptFor reference script) := by
  obtain ⟨resolved, fresh⟩ := createSession_ok created
  obtain ⟨kept, sound⟩ := usedAfter_sound uses fresh
  obtain ⟨submittedSpec, before⟩ := snapshotsForAgent_ok taken recorded
  cases before.stored.symm.trans stored
  have assigned {name : String} {ref : AgentSkillRef} {other : SkillSpec}
      (named : name = snapshot.name)
      (found : (usedAfter loading session uses).assigned name = some (ref, other)) :
      other = spec ∧ SameFiles spec reference := by
    unfold SkillSession.assigned at found
    rw [kept] at found
    have own : ref.name = name := by simpa using List.find?_some found
    have goes : GoesWith loading executed snapshot other :=
      resolveSnapshots_ok resolved recorded (List.mem_of_find?_eq_some found) (own.trans named)
    cases goes.stored.symm.trans row
    exact ⟨rfl, goesWith_sameFiles injective before inspected goes backed also⟩
  constructor
  · intro activation member named
    obtain ⟨ref, other, found, loaded⟩ := sound activation member
    obtain ⟨rfl, same⟩ := assigned named found
    exact (loadInstructions_same same).symm.trans loaded
  · intro one content named yielded
    obtain ⟨ref, other, found, computed⟩ :=
      (use_spec (usedAfter loading session uses) one).content content sound yielded
    obtain ⟨rfl, same⟩ := assigned named found
    exact fromSpec_pinned same computed

section Samples

def textFile (path text : String) (safe : safePath path = true) : SkillArtifactFile :=
  ⟨path, encode text, none, safe⟩

def runArtifact : List SkillArtifactFile := [
  textFile "SKILL.md" "---\nname: report\ndescription: d\n---\nA" manifest_safe,
  textFile "agents/platform.yaml" ("schema_version: 1\nscripts:\n- name: run\n" ++
    "  path: scripts/run.py\n  interpreter: python\n") platform_safe,
  textFile "scripts/run.py" "print(1)\n" (by decide)]

def runFrames : Bytes := (frames (sortedItems (artifactMapping runArtifact))).toOption.getD []

def runHash : String := "544534ca283403413936e9bbda57cdbc1a2dd22400d0f94af9516fe6b9058a40"

def runDeclaration : SkillScriptSpec where
  name := "run"
  path := "scripts/run.py"
  interpreter := .python

def runLoading : Loading where
  sha256 bytes :=
    if bytes = runFrames then runHash
    else "bytes " ++ String.ofList (bytes.map fun byte => Char.ofNat byte.toNat)
  decode bytes := String.fromUTF8? ⟨bytes.toArray⟩
  isspace := Char.isWhitespace
  safeLoad text := some (.mapping (
    if "schema_version".toList.isPrefixOf text.toList then
      [(.string "schema_version", .int 1), (.string "scripts", .sequence [.mapping [
        (.string "name", .string "run"), (.string "path", .string "scripts/run.py"),
        (.string "interpreter", .string "python")]])]
    else [(.string "name", .string "report"), (.string "description", .string "d")]))
  scriptSpec _ := .ok runDeclaration
  rejected _ := "1 validation error for SkillSpec"
  root _ := .error (invalid "Skill artifact does not exist")
  guessType _ := none

theorem byte_ofNat (byte : UInt8) : (Char.ofNat byte.toNat).toNat = byte.toNat := by
  have valid : byte.toNat.isValidChar := Or.inl (Nat.lt_trans byte.toNat_lt (by decide))
  unfold Char.ofNat
  rw [dif_pos valid]
  rfl

theorem runLoading_injective : Function.Injective runLoading.sha256 := by
  have bytesFirst (text : String) : ("bytes " ++ text).toList.head? = some 'b' := by
    simp
  have hashFirst : runHash.toList.head? = some '5' := by decide
  intro left right same
  simp only [runLoading] at same
  split at same
  · next own =>
      split at same
      · next other => exact own.trans other.symm
      · rw [same, bytesFirst] at hashFirst
        cases hashFirst
  · split at same
    · rw [← same, bytesFirst] at hashFirst
      cases hashFirst
    · have texts := congrArg String.toList same
      simp only [String.toList_append, String.toList_ofList, List.append_cancel_left_eq] at texts
      refine List.map_injective_iff.mpr ?_ texts
      intro first second equal
      have numbers := congrArg Char.toNat equal
      rw [byte_ofNat, byte_ofNat] at numbers
      exact UInt8.toNat_inj.mp numbers

def reported : SkillSpec where
  name := "report"
  description := "d"
  sourcePath := "report"
  contentHash := runHash
  scripts := [runDeclaration]
  artifact := runArtifact

def registryWith (scripts : List SkillScriptSpec) : SkillRegistry :=
  (SkillRegistry.empty.setSkill { reported with scripts }).setDefault "report" "1.0.0"

def reportRefs : List AgentSkillRef := [{ name := "report" }]

def reportSnapshot : SkillSnapshot := ⟨"report", "1.0.0", runHash, .auto, "report"⟩

def scriptUse : Use := .runScript "report" "run"

def ranWith (scripts : List SkillScriptSpec) : Except Exc (SkillSession × Content) := do
  let session ← createSession runLoading (registryWith scripts) ("reporter", "1.0.0") reportRefs
    [reportSnapshot] 8 20000
  let content ← (use runLoading scriptUse
    (usedAfter runLoading session [.activate "report" false])).1
  return (session, content)

theorem ranWith_ok {scripts : List SkillScriptSpec} (check : Content → Bool)
    (ran : (ranWith scripts).toOption.any (fun outcome => check outcome.2) = true) :
    ∃ session content,
    createSession runLoading (registryWith scripts) ("reporter", "1.0.0") reportRefs
      [reportSnapshot] 8 20000 = .ok session ∧
    (use runLoading scriptUse (usedAfter runLoading session [.activate "report" false])).1 =
      .ok content ∧ check content = true := by
  unfold ranWith at ran
  cases created : createSession runLoading (registryWith scripts) ("reporter", "1.0.0") reportRefs
      [reportSnapshot] 8 20000 with
  | error error => simp [created, Bind.bind, Except.bind, Except.toOption] at ran
  | ok session =>
      cases yielded : (use runLoading scriptUse
          (usedAfter runLoading session [.activate "report" false])).1 with
      | error error => simp [created, yielded, Bind.bind, Except.bind, Except.toOption] at ran
      | ok content =>
          simp only [created, yielded, Bind.bind, Except.bind, Pure.pure, Except.pure,
            Except.toOption, Option.any_some] at ran
          exact ⟨session, content, rfl, yielded, ran⟩

theorem report_inspected : inspectArtifact runLoading reported.artifact reported.sourcePath =
    .ok reported := by
  decide +kernel

theorem report_taken : snapshotsForAgent runLoading (registryWith [runDeclaration]) reportRefs =
    .ok [reportSnapshot] := by
  decide +kernel

/-- The row of a pinned Skill grants its script network access after the submission. -/
def networkRow : List SkillScriptSpec := [{ runDeclaration with network := true }]

def networkScript : Content → Bool
  | .script run => run.declaration.network
  | _ => false

end Samples

theorem edited_scripts_run_unpinned : ∃ session content,
    Function.Injective runLoading.sha256 ∧
    snapshotsForAgent runLoading (registryWith [runDeclaration]) reportRefs =
      .ok [reportSnapshot] ∧
    inspectArtifact runLoading reported.artifact reported.sourcePath = .ok reported ∧
    createSession runLoading (registryWith networkRow) ("reporter", "1.0.0") reportRefs
      [reportSnapshot] 8 20000 = .ok session ∧
    (use runLoading scriptUse (usedAfter runLoading session [.activate "report" false])).1 =
      .ok content ∧
    ¬ Pinned runLoading reported scriptUse content := by
  have ran : (ranWith networkRow).toOption.any (fun outcome => networkScript outcome.2) = true := by
    decide +kernel
  obtain ⟨session, content, created, yielded, network⟩ := ranWith_ok networkScript ran
  refine ⟨session, content, runLoading_injective, report_taken, report_inspected, created,
    yielded, ?_⟩
  intro pinned
  have backed : reported.artifact ≠ [] := List.cons_ne_nil _ _
  have declared : scriptFor reported "run" = some runDeclaration := by decide +kernel
  cases content with
  | script run =>
      have own := ((runScript_ok backed).mp pinned).1
      have same : run.declaration = runDeclaration := Option.some.inj (own.symm.trans declared)
      have granted : run.declaration.network = true := network
      rw [same] at granted
      cases granted
  | instructions _ | text _ | binary _ => cases network

/-- The row of the execution declares the script as the manifest does. -/
theorem session_content_pinned_report : ∃ session content,
    createSession runLoading (registryWith [runDeclaration]) ("reporter", "1.0.0") reportRefs
      [reportSnapshot] 8 20000 = .ok session ∧
    (use runLoading scriptUse (usedAfter runLoading session [.activate "report" false])).1 =
      .ok content ∧
    Pinned runLoading reported scriptUse content := by
  have ran : (ranWith [runDeclaration]).toOption.any (fun _ => true) = true := by
    decide +kernel
  obtain ⟨session, content, created, yielded, -⟩ := ranWith_ok (fun _ => true) ran
  have stored : (registryWith [runDeclaration]).getOptional reportSnapshot.name
      reportSnapshot.version = some reported := by decide +kernel
  have backed : reported.artifact ≠ [] := List.cons_ne_nil _ _
  have pinned := session_content_pinned runLoading_injective runLoading.root report_taken
    List.mem_cons_self stored backed report_inspected created stored backed
    [.activate "report" false]
  exact ⟨session, content, created, yielded,
    (pinned.2 scriptUse content rfl yielded).mpr fun _ _ => rfl⟩

end AgentTaskPlatform.Skills
