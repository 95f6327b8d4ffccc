import AgentTaskPlatform.RouteTable
import AgentTaskPlatform.StatefulCalls
import Mathlib.Data.List.Sort

/-!
`ConfigWatcher._reload_agents`: the agents that the database has lost are removed, then
what differs is registered in the order of the database, each as the default. A restart
registers the same specs into an empty registry.
-/

namespace AgentTaskPlatform.AgentReload

open KeyedTable Registry StatefulCalls

variable (versioning : Versioning)

def standsBefore (left right : VersionKey versioning × AgentSpec) : Bool :=
  left.2.name < right.2.name ||
    (left.2.name = right.2.name && left.1.older versioning right.1)

def withKey (agent : AgentSpec) : Except Exc (VersionKey versioning × AgentSpec) := do
  let key ← versionKey versioning agent.version
  return (key, agent)

def listAgents (registry : AgentRegistry) : Except Exc (List AgentSpec) := do
  let keyed ← registry.agents.rows.mapM (withKey versioning)
  let sorted := keyed.insertionSort fun left right => !standsBefore versioning right left
  return sorted.map Prod.snd

/-- The rows of `ai_agent_config`, of which there is one for a name and version. -/
abbrev AgentRows := AgentTable

def removeMissing (rows : AgentRows) : List AgentSpec → RegistryM Nat
  | [] => pure 0
  | spec :: rest =>
      match rows.find spec.ref with
      | some _ => removeMissing rows rest
      | none => do
          deregister versioning spec.name (some spec.version)
          let count ← removeMissing rows rest
          return count + 1

def registerChanged (listed : List AgentSpec) : List AgentSpec → RegistryM Nat
  | [] => pure 0
  | spec :: rest =>
      if listed.find? (fun agent => agent.ref = spec.ref) = some spec then
        registerChanged listed rest
      else do
        register versioning spec true
        let count ← registerChanged listed rest
        return count + 1

def reloadAgents (rows : AgentRows) : RegistryM Nat := do
  let registry ← get
  let listed ← ExceptT.mk (pure (listAgents versioning registry))
  let removed ← removeMissing versioning rows listed
  let registered ← registerChanged versioning listed rows.rows
  return removed + registered

def registerAll : List AgentSpec → RegistryM Unit
  | [] => pure ()
  | agent :: rest => do
      register versioning agent true
      registerAll rest

def restarted (rows : AgentRows) : Except Exc Unit × AgentRegistry :=
  registerAll versioning rows.rows AgentRegistry.empty

inductive Reachable : AgentRegistry → Prop
  | empty : Reachable AgentRegistry.empty
  | register {registry : AgentRegistry} (reached : Reachable registry) (agent : AgentSpec)
      (makeDefault : Bool) : Reachable (register versioning agent makeDefault registry).2
  | reload {registry : AgentRegistry} (reached : Reachable registry) (rows : AgentRows) :
      Reachable (reloadAgents versioning rows registry).2

def EqualsRestart (rows : AgentRows) (registry : AgentRegistry) : Prop :=
  ∃ count after, reloadAgents versioning rows registry = (.ok count, after) ∧
    (∀ ref, after.agents.find ref = (restarted versioning rows).2.agents.find ref) ∧
    (∀ tag, after.route tag = (restarted versioning rows).2.route tag) ∧
    reloadAgents versioning rows after = (.ok 0, after)

section Holders

def changed (registry : AgentRegistry) (spec : AgentSpec) : Bool :=
  registry.agents.find spec.ref ≠ some spec

/-- A changed row that is registered for the tag, or that gives it up by being disabled. -/
def settles (registry : AgentRegistry) (tag : String) (spec : AgentSpec) : Bool :=
  changed registry spec &&
    if spec.enabled then spec.routeTags.contains tag
    else (registry.agents.find spec.ref).any fun previous => previous.routeTags.contains tag

def remaining (registry : AgentRegistry) (rows : AgentRows) : AgentRegistry :=
  { registry with
    agents := registry.agents.deleteWhere fun agent => (rows.find agent.ref).isNone }

/-- The route of the tag among them: a lost one goes to the newest. -/
def survivor (registry : AgentRegistry) (rows : AgentRows) (tag : String) : Option AgentSpec :=
  match registry.route tag with
  | none => none
  | some routed =>
      if (rows.find routed.ref).isSome then some routed
      else RouteTable.latest versioning (remaining registry rows) tag

/-- The agents with the changed ones of some rows in their place, the last row first. -/
def blend (registry : AgentRegistry) (rows : AgentRows) : List AgentSpec → AgentRegistry
  | [] => remaining registry rows
  | spec :: earlier =>
      if changed registry spec then (blend registry rows earlier).setAgent spec
      else blend registry rows earlier

def current (registry : AgentRegistry) (applied : List AgentSpec) (agent : AgentSpec) : Bool :=
  !applied.any fun spec => changed registry spec && spec.ref = agent.ref && spec ≠ agent

/-- Who has the tag once some rows are applied, the last row first: the last that is
registered for it, or the newest where it was given up after that, or who had it before. -/
def holder (registry : AgentRegistry) (rows : AgentRows) (tag : String)
    (applied : List AgentSpec) : Option AgentSpec :=
  match applied.dropWhile fun spec => !settles registry tag spec with
  | [] => (survivor versioning registry rows tag).filter (current registry applied)
  | spec :: earlier =>
      if spec.enabled then some spec
      else (RouteTable.latest versioning (blend registry rows (spec :: earlier)) tag).filter
        (current registry applied)

def Free (registry : AgentRegistry) (rows : AgentRows) :
    List AgentSpec → List AgentSpec → Prop
  | _, [] => True
  | applied, spec :: rest =>
      (changed registry spec = true → spec.enabled = true → ∀ tag ∈ spec.routeTags, ∀ other,
        holder versioning registry rows tag applied = some other → other.name = spec.name) ∧
      Free registry rows (spec :: applied) rest

def lastListing (rows : AgentRows) (tag : String) : Option AgentSpec :=
  rows.rows.reverse.find? fun spec => spec.enabled && spec.routeTags.contains tag

structure Settled (rows : AgentRows) (registry : AgentRegistry) : Prop where
  keyed : ∀ agent ∈ registry.agents.rows ++ rows.rows,
    ∃ key, versionKey versioning agent.version = .ok key
  free : Free versioning registry rows [] rows.rows
  last : ∀ tag, holder versioning registry rows tag rows.rows.reverse = lastListing rows tag

end Holders

end AgentTaskPlatform.AgentReload
