import AgentTaskPlatform.Identity
import AgentTaskPlatform.Registry

/-!
Processes with the agent registries they resolve agents from. A registry changes while
executions run: operators register, disable and deregister agents, and a reload from the
database is a sequence of such operations. The platform without registries takes their
answers from outside; a fleet is the platform with these answers fixed.
-/

namespace AgentTaskPlatform

open Interleaving Registry

structure Fleet where
  shared : State
  registries : Process → AgentRegistry

inductive FleetEntry where
  | platform (entry : Entry)
  | registry (process : Process) (operation : Registry.Operation)

abbrev FleetConfig := Config platform Fleet Tag (Except Exc Json)

abbrev FleetEvent := Event platform Fleet Tag FleetEntry

namespace Fleet

def platformConfig (config : FleetConfig) : PlatformConfig :=
  { state := config.state.shared, threads := config.threads }

def atRest (fleet : Fleet) : FleetConfig := { state := fleet, threads := [] }

section Deployed

variable (versioning : Versioning) (deployment : Deployment) (admitted : Entry → Bool)

def answer (tag : Tag) (fleet : Fleet) : (op : Op) → op.Answer → op.Answer
  | .external (.resolveAgent routeTag version), _ =>
      resolve (fleet.registries tag.process) routeTag version
  | .external (.getAgent name version), _ =>
      getAgent versioning (fleet.registries tag.process) name (some version)
  | _, oracle => oracle

def perform (tag : Tag) (op : Op) (oracle : op.Answer) (fleet : Fleet) : op.Answer × Fleet :=
  let outcome := Op.perform op (answer versioning tag fleet op oracle) fleet.shared
  (outcome.1, { fleet with shared := outcome.2 })

def operate (fleet : Fleet) (process : Process) (operation : Registry.Operation) : Fleet :=
  { fleet with
    registries := setAt fleet.registries process
      (Registry.perform versioning operation (fleet.registries process)).2 }

def launch : FleetEntry → FleetConfig → Option (Fleet × Option Activity)
  | .platform entry, config =>
      match (platformSystem deployment admitted).launch entry (platformConfig config) with
      | none => none
      | some (state, spawned) => some ({ config.state with shared := state }, spawned)
  | .registry process operation, config =>
      some (config.state.operate versioning process operation, none)

def fleetSystem : System platform Fleet Tag FleetEntry Process (Except Exc Json) where
  perform := perform versioning
  yields := Op.awaits
  loop := Tag.process
  launch := launch versioning deployment admitted

variable {versioning deployment admitted} {config next : FleetConfig}

theorem launch_cases {entry : FleetEntry} {fleet : Fleet} {spawned : Option Activity}
    (launched : (fleetSystem versioning deployment admitted).launch entry config =
      some (fleet, spawned)) :
    (∃ own state, entry = .platform own ∧
      (platformSystem deployment admitted).launch own (platformConfig config) =
        some (state, spawned) ∧ fleet = { config.state with shared := state }) ∨
    ∃ process operation, entry = .registry process operation ∧ spawned = none ∧
      fleet = config.state.operate versioning process operation := by
  cases entry with
  | platform own =>
      simp only [fleetSystem, launch] at launched
      split at launched
      · cases launched
      · next state found started =>
          cases launched
          exact Or.inl ⟨own, state, rfl, started, rfl⟩
  | registry process operation =>
      cases launched
      exact Or.inr ⟨process, operation, rfl, rfl, rfl⟩

theorem step_projects {move : Move platform FleetEntry} {event : FleetEvent}
    (taken : (fleetSystem versioning deployment admitted).step config move = some (event, next)) :
    (∃ own seen, (platformSystem deployment admitted).step (platformConfig config) own =
      some (seen, platformConfig next)) ∨ platformConfig next = platformConfig config := by
  cases move with
  | act thread oracle =>
      left
      obtain ⟨tag, op, rest, found, idle, _, rfl⟩ := System.step_act taken
      have same : (platformConfig config).threads[thread]? = some ⟨tag, .act op rest⟩ := found
      have free : (platformSystem deployment admitted).idleExcept (platformConfig config)
          tag.process (some thread) = true := idle
      refine ⟨.act thread fun op => answer versioning tag config.state op (oracle op),
        (platformSystem deployment admitted).performed thread tag op
          (answer versioning tag config.state op (oracle op)) config.state.shared, ?_⟩
      simp only [System.step, same]
      exact if_pos free
  | launch entry =>
      obtain ⟨fleet, spawned, launched, _, rfl⟩ := System.step_launch taken
      rcases launch_cases launched with
        ⟨own, state, rfl, started, rfl⟩ | ⟨process, operation, rfl, rfl, rfl⟩
      · left
        refine ⟨.launch own, .launched own (System.spawnedThread (platformConfig config) spawned)
          config.state.shared state, ?_⟩
        simp only [System.step, started]
        rfl
      · right
        simp [platformConfig, operate]

theorem run_projects {start final : FleetConfig} {events : List FleetEvent}
    (run : (fleetSystem versioning deployment admitted).Run start events final) :
    ∃ seen, (platformSystem deployment admitted).Run (platformConfig start) seen
      (platformConfig final) := by
  induction run with
  | refl config => exact ⟨[], .refl _⟩
  | next move taken _ ih =>
      obtain ⟨rest, tail⟩ := ih
      rcases step_projects taken with ⟨own, seen, step⟩ | same
      · exact ⟨seen :: rest, .next own step tail⟩
      · rw [same] at tail
        exact ⟨rest, tail⟩

theorem identity_kept {start : Fleet} {left right : List FleetEvent} {event : FleetEvent}
    {final : FleetConfig}
    (run : (fleetSystem versioning deployment admitted).Run (atRest start)
      (left ++ event :: right) final) :
    event.before.shared.run.identity = start.shared.run.identity := by
  obtain ⟨before, after, move, first, taken, _⟩ := run.at_event
  obtain ⟨seen, projected⟩ := run_projects first
  rw [(System.step_states taken).1]
  exact Identity.identity_kept projected

end Deployed

end Fleet

end AgentTaskPlatform
