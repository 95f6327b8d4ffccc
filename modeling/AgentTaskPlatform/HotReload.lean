import AgentTaskPlatform.AgentRestart
import AgentTaskPlatform.SkillEdits
import AgentTaskPlatform.SkillPublication
import AgentTaskPlatform.ToolReload
import AgentTaskPlatform.Transitions

/-!
A process that watches the database: it starts on some rows, and after every edit it reloads
its Skills and tools. The registries compared with those of a process that starts on the
edited rows.
-/

namespace AgentTaskPlatform.HotReload

open KeyedTable Transitions Skills ToolReload
open Registry (Versioning)

structure Content where
  skills : SkillTable
  tools : ToolRows

structure Watching where
  content : Content
  skills : SkillRegistry
  tools : ToolRegistry

variable (loading : Loading) (versioning : Versioning)

/-- `_load_skill_registry`, `_load_tool_registry` and `_register_mcp_tools`, once the seed
files are in the database; nothing where the process does not start. -/
def startUp (content : Content) (discovered : List ToolSpec) : Option Watching :=
  match verifyAll loading content.skills.rows with
  | .error _ => none
  | .ok () =>
      match Skills.build versioning content.skills.rows SkillRegistry.empty with
      | (.error _, _) => none
      | (.ok (), skills) =>
          some { content, skills, tools := started content.tools discovered }

/-- The database takes other rows, and the watcher reloads; a reload that raises leaves what
it has changed. -/
def edit (state : Watching) (content : Content) : Option Watching :=
  some
    { content
      skills := (reloadSkills loading versioning content.skills.rows state.skills).2
      tools := (reloadTools content.tools state.tools).2 }

section Runs

variable {loading versioning} {content : Content} {discovered : List ToolSpec}
variable {start final : Watching} {events : List (Watching × Content)}

theorem startUp_spec (began : startUp loading versioning content discovered = some start) :
    Skills.build versioning content.skills.rows SkillRegistry.empty = (.ok (), start.skills) ∧
      start.content = content ∧ start.tools = started content.tools discovered := by
  unfold startUp at began
  cases verified : verifyAll loading content.skills.rows with
  | error error => simp [verified] at began
  | ok value =>
      simp only [verified] at began
      cases built : Skills.build versioning content.skills.rows SkillRegistry.empty with
      | mk outcome skills =>
          rw [built] at began
          cases outcome with
          | error error => cases began
          | ok value =>
              cases began
              exact ⟨rfl, rfl, rfl⟩

theorem edits_inductive (ordered : versioning.Ordered) :
    Inductive (edit loading versioning)
      (fun state content => Orderly versioning loading state.content.skills content.skills)
      (fun state => Current versioning state.content.skills state.skills) := by
  constructor
  intro state content after current orderly moved
  cases moved
  exact current.reloaded ordered orderly

theorem last_edit (run : Run (edit loading versioning) start events final) (edited : events ≠ []) :
    ∃ event ∈ events, event.2 = final.content ∧
      final.tools = (reloadTools final.content.tools event.1.tools).2 := by
  induction run with
  | done state => exact absurd rfl edited
  | next moved rest ih =>
      rename_i state middle final content events
      cases rest with
      | done state =>
          cases moved
          exact ⟨(state, content), List.mem_cons_self, rfl, rfl⟩
      | next again rest =>
          obtain ⟨event, member, same, tools⟩ := ih (List.cons_ne_nil _ _)
          exact ⟨event, List.mem_cons_of_mem _ member, same, tools⟩

end Runs

section Samples

/-- The outside code on the files of the sample Skill, whose manifest has the version. -/
def releaseLoading : Loading :=
  { SkillPublication.reportLoading with
    sha256 := fun _ => "3b513fa2ef31c848af7090b0ec3db8e1ea0c7f4763b01c5ba6274bd9182f30e0"
    safeLoad := fun text =>
      let version := if text.toList.contains '2' then "2.0.0" else "1.0.0"
      some (.mapping [(.string "name", .string "report"),
        (.string "description", .string "d"),
        (.string "metadata", .mapping [(.string "version", .string version)])]) }

def reportArtifact (version : String) : SkillArtifactFile where
  path := "SKILL.md"
  content := encode ("---\nname: report\ndescription: d\nmetadata:\n  version: " ++ version ++
    "\n---\nBody")
  safe := manifest_safe

def reportSkill (version : String) : SkillSpec :=
  { name := "report"
    version := version
    description := "d"
    sourcePath := "db://report@" ++ version
    contentHash := "3b513fa2ef31c848af7090b0ec3db8e1ea0c7f4763b01c5ba6274bd9182f30e0"
    artifact := [reportArtifact version] }

def firstRelease : Content where
  skills := ⟨[reportSkill "1.0.0"], by decide⟩
  tools := Table.empty

def secondRelease : Content where
  skills := ⟨[reportSkill "1.0.0", reportSkill "2.0.0"], by decide⟩
  tools := ⟨[{ name := "search", version := "1.10.0" }, { name := "search", version := "1.9.0" }],
    by decide⟩

def lookupTool : ToolSpec := { name := "lookup" }

/-- The default stays with the old version, where the start takes the new one; the discovered
tool is gone, and the last version in the order of the strings is not the highest one. -/
theorem second_release_unheeded : ∃ start final,
    startUp releaseLoading RouteTable.asciiVersioning firstRelease [lookupTool] = some start ∧
    Run (edit releaseLoading RouteTable.asciiVersioning) start [(start, secondRelease)] final ∧
    ¬ LikeRestart RouteTable.asciiVersioning final.content.skills final.skills ∧
    ¬ Agrees RouteTable.asciiVersioning final.content.tools [lookupTool] final.tools ∧
    final.skills.default "report" = some "1.0.0" ∧ final.tools.find "lookup" = none ∧
    final.tools.find "search" = some { name := "search", version := "1.9.0" } := by
  have passed : (startUp releaseLoading RouteTable.asciiVersioning firstRelease [lookupTool]).any
      (fun start => (edit releaseLoading RouteTable.asciiVersioning start secondRelease).any
        fun final => decide (final.skills.default "report" = some "1.0.0") &&
          decide (final.tools.find "lookup" = none) &&
          decide (final.tools.find "search" =
            some { name := "search", version := "1.9.0" })) = true := by
    decide +kernel
  have elected : (Skills.build RouteTable.asciiVersioning secondRelease.skills.rows
      SkillRegistry.empty).2.default "report" = some "2.0.0" := by
    decide +kernel
  have offered : (started secondRelease.tools [lookupTool]).find "lookup" = some lookupTool := by
    decide +kernel
  obtain ⟨start, began, later⟩ := (Option.any_eq_true _ _).mp passed
  obtain ⟨final, edited, checked⟩ := (Option.any_eq_true _ _).mp later
  simp only [Bool.and_eq_true, decide_eq_true_eq] at checked
  obtain ⟨⟨default, dropped⟩, last⟩ := checked
  have content : final.content = secondRelease := by
    cases edited
    rfl
  refine ⟨start, final, began, .next edited (.done final), ?_, ?_, default, dropped, last⟩
  · rintro ⟨fresh, built, _, defaults⟩
    rw [content] at built
    rw [built, ← defaults, default] at elected
    exact absurd elected (by decide)
  · intro agrees
    have restarted := (agrees "lookup").1
    rw [content, offered, dropped] at restarted
    cases restarted

end Samples

/-- In a run of orderly edits the Skills are those of a restart, and the tools are exactly in
the states whose tool rows are smooth. -/
theorem hot_reload_like_restart {loading : Loading} {versioning : Versioning}
    {content : Content} {discovered : List ToolSpec} {start final : Watching}
    {events : List (Watching × Content)} (ordered : versioning.Ordered)
    (began : startUp loading versioning content discovered = some start)
    (run : Run (edit loading versioning) start events final)
    (orderly : ∀ event ∈ events,
      Orderly versioning loading event.1.content.skills event.2.skills) :
    LikeRestart versioning final.content.skills final.skills ∧
      (events = [] → (Agrees versioning final.content.tools discovered final.tools ↔
        Ready versioning final.content.tools discovered)) ∧
      (events ≠ [] → (Agrees versioning final.content.tools discovered final.tools ↔
        Smooth versioning final.content.tools discovered)) := by
  obtain ⟨built, same, tools⟩ := startUp_spec began
  subst same
  by_cases edited : events = []
  · subst edited
    cases run
    refine ⟨⟨start.skills, built, fun ref => rfl, fun name => rfl⟩, fun _ => ?_, absurd rfl⟩
    rw [tools]
    exact started_agrees_iff start.content.tools discovered
  · obtain ⟨event, member, rows, reloaded⟩ := last_edit run edited
    refine ⟨?_, fun none => absurd none edited, fun _ => ?_⟩
    · have keyed : ∀ row ∈ start.content.skills.rows, Keyed versioning row.version := by
        cases run with
        | done state => exact absurd rfl edited
        | next moved rest => exact (orderly _ List.mem_cons_self).before
      obtain ⟨fresh, again, found, _, leading⟩ := build_spec start.content.skills ordered keyed
      rw [built] at again
      cases again
      have current := (edits_inductive ordered).run run ⟨found, leading⟩ orderly
      have last := orderly event member
      rw [rows] at last
      exact current.likeRestart ordered last
    · rw [reloaded]
      exact reload_agrees_iff final.content.tools discovered event.1.tools

section Samples

def replacedRelease : Content where
  skills := ⟨[{ reportSkill "1.0.0" with enabled := false }, reportSkill "2.0.0"], by decide⟩
  tools := ⟨[{ name := "search", version := "1.9.0" }], by decide⟩

theorem replaced_orderly : Orderly RouteTable.asciiVersioning releaseLoading firstRelease.skills
    replacedRelease.skills where
  verified := by decide +kernel
  before _ _ := RouteTable.asciiVersioning_reads _
  keyed _ _ := RouteTable.asciiVersioning_reads _
  newest := by
    intro row member enabled
    have only : ∀ other ∈ replacedRelease.skills.rows, other.enabled = true →
        other = reportSkill "2.0.0" := by decide
    refine ⟨reportSkill "2.0.0", by rw [only row member enabled], ⟨?_, rfl, ?_⟩, Or.inr ?_⟩
    · exact List.mem_cons_of_mem _ List.mem_cons_self
    · intro other inside _ on differs
      exact absurd (only other inside on) differs
    · refine ⟨[{ reportSkill "1.0.0" with enabled := false }], [], rfl, Or.inl ⟨?_, nofun⟩⟩
      intro other inside _
      rw [List.mem_singleton.mp inside]

theorem hot_reload_like_restart_replaced : ∃ start final,
    startUp releaseLoading RouteTable.asciiVersioning firstRelease [] = some start ∧
    Run (edit releaseLoading RouteTable.asciiVersioning) start [(start, replacedRelease)] final ∧
    LikeRestart RouteTable.asciiVersioning final.content.skills final.skills ∧
    (Agrees RouteTable.asciiVersioning final.content.tools [] final.tools ↔
      Smooth RouteTable.asciiVersioning final.content.tools []) ∧
    final.skills.default "report" = some "2.0.0" := by
  have passed : (startUp releaseLoading RouteTable.asciiVersioning firstRelease []).any
      (fun start => (edit releaseLoading RouteTable.asciiVersioning start replacedRelease).any
        fun final => decide (final.skills.default "report" = some "2.0.0")) = true := by
    decide +kernel
  obtain ⟨start, began, later⟩ := (Option.any_eq_true _ _).mp passed
  obtain ⟨final, edited, checked⟩ := (Option.any_eq_true _ _).mp later
  have run : Run (edit releaseLoading RouteTable.asciiVersioning) start
      [(start, replacedRelease)] final := .next edited (.done final)
  obtain ⟨_, rows, _⟩ := startUp_spec began
  have orderly : ∀ event ∈ [(start, replacedRelease)],
      Orderly RouteTable.asciiVersioning releaseLoading event.1.content.skills event.2.skills := by
    intro event member
    rw [List.mem_singleton.mp member, rows]
    exact replaced_orderly
  obtain ⟨skills, _, tools⟩ :=
    hot_reload_like_restart AgentReload.asciiVersioning_ordered began run orderly
  exact ⟨start, final, began, run, skills, tools (List.cons_ne_nil _ _),
    of_decide_eq_true checked⟩

end Samples

end AgentTaskPlatform.HotReload
