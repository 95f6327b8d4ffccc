import AgentTaskPlatform.Domain
import AgentTaskPlatform.KeyedTable

/-!
`AgentRegistry`: the registered agents in the order of their registration and the
route table. An operation may raise after it has changed the maps, so an
exception carries the registry it leaves behind.
-/

namespace AgentTaskPlatform.Registry

open KeyedTable

section VersionKeys

/-- What `_version_key` takes from outside: the versions of `packaging`, which may be
absent or refuse a string, and the digits of Python's `str` and `int`. -/
structure Versioning where
  Version : Type
  older : Version → Version → Bool
  parse : String → Option Version
  isdigit : Char → Bool
  /-- `int(part)`, unless it raises -/
  int : List Char → Option Nat

inductive NaturalPart where
  | text (part : List Char)
  | number (part : Nat)
  deriving DecidableEq, Repr

def NaturalPart.older : NaturalPart → NaturalPart → Bool
  | .text left, .text right => left < right
  | .text _, .number _ => true
  | .number _, .text _ => false
  | .number left, .number right => left < right

variable (versioning : Versioning)

inductive VersionKey where
  | natural (parts : List NaturalPart)
  | parsed (version : versioning.Version)

def VersionKey.older : VersionKey versioning → VersionKey versioning → Bool
  | .natural left, .natural right => left.lex right NaturalPart.older
  | .natural _, .parsed _ => true
  | .parsed _, .natural _ => false
  | .parsed left, .parsed right => versioning.older left right

def valueError (part : List Char) : Exc :=
  ⟨.exception, "ValueError",
    "invalid literal for int() with base 10: '" ++ String.ofList part ++ "'"⟩

def naturalPart (part : List Char) : Except Exc NaturalPart :=
  if part.all versioning.isdigit then
    match versioning.int part with
    | some number => .ok (.number number)
    | none => .error (valueError part)
  else .ok (.text part)

/-- The non-empty parts of `re.split(r"([0-9]+)", v)`. -/
def splitDigits (version : String) : List (List Char) :=
  version.toList.splitBy fun left right => left.isDigit == right.isDigit

def versionKey (version : String) : Except Exc (VersionKey versioning) :=
  match versioning.parse version with
  | some parsed => .ok (.parsed parsed)
  | none => do
      let parts ← (splitDigits version).mapM (naturalPart versioning)
      return .natural parts

def maxVersionFrom (best : AgentSpec) (bestKey : VersionKey versioning) :
    List AgentSpec → Except Exc AgentSpec
  | [] => .ok best
  | item :: rest => do
      let key ← versionKey versioning item.version
      if bestKey.older versioning key then maxVersionFrom item key rest
      else maxVersionFrom best bestKey rest

def maxVersion : List AgentSpec → Except Exc (Option AgentSpec)
  | [] => .ok none
  | first :: rest => do
      let key ← versionKey versioning first.version
      let best ← maxVersionFrom versioning first key rest
      return some best

end VersionKeys

abbrev AgentTable := Table AgentSpec AgentRef AgentSpec.ref

abbrev RouteTable := Table (String × AgentSpec) String Prod.fst

structure AgentRegistry where
  agents : AgentTable
  routes : RouteTable

namespace AgentRegistry

def empty : AgentRegistry := ⟨Table.empty, Table.empty⟩

def route (registry : AgentRegistry) (routeTag : String) : Option AgentSpec :=
  (registry.routes.find routeTag).map Prod.snd

def setRoute (registry : AgentRegistry) (routeTag : String) (agent : AgentSpec) : AgentRegistry :=
  { registry with routes := registry.routes.upsert (routeTag, agent) }

def popRoute (registry : AgentRegistry) (routeTag : String) : AgentRegistry :=
  { registry with routes := registry.routes.deleteWhere fun route => route.1 = routeTag }

def setAgent (registry : AgentRegistry) (agent : AgentSpec) : AgentRegistry :=
  { registry with agents := registry.agents.upsert agent }

def popAgent (registry : AgentRegistry) (ref : AgentRef) : AgentRegistry :=
  { registry with agents := registry.agents.deleteWhere fun agent => agent.ref = ref }

def enabledFor (registry : AgentRegistry) (routeTag : String) : List AgentSpec :=
  registry.agents.rows.filter fun agent => agent.enabled && agent.routeTags.contains routeTag

end AgentRegistry

abbrev RegistryM := ExceptT Exc (StateM AgentRegistry)

section Methods

variable (versioning : Versioning)

def latestEnabledForTag (routeTag : String) : RegistryM (Option AgentSpec) := do
  let registry ← get
  ExceptT.mk (pure (maxVersion versioning (registry.enabledFor routeTag)))

def elect (routeTag : String) : RegistryM Unit := do
  let replacement ← latestEnabledForTag versioning routeTag
  match replacement with
  | none => pure ()
  | some agent => modify fun registry => registry.setRoute routeTag agent

def electAll : List String → RegistryM Unit
  | [] => pure ()
  | routeTag :: rest => do
      elect versioning routeTag
      electAll rest

def popRoutes (ref : AgentRef) : List (String × AgentSpec) → RegistryM Unit
  | [] => pure ()
  | (routeTag, routed) :: rest => do
      if routed.ref = ref then modify fun registry => registry.popRoute routeTag
      popRoutes ref rest

/-- The routes of one version are popped and elected again, one after the other. -/
def reelectRoutes (ref : AgentRef) : List (String × AgentSpec) → RegistryM Unit
  | [] => pure ()
  | (routeTag, routed) :: rest => do
      if routed.ref = ref then
        modify fun registry => registry.popRoute routeTag
        elect versioning routeTag
      reelectRoutes ref rest

def alreadyRouted (routeTag name : String) : Exc :=
  .registry ("route_tag '" ++ routeTag ++ "' is already routed to '" ++ name ++ "'")

def unknownAgent (name : String) : Exc := .registry ("Unknown agent '" ++ name ++ "'")

def checkRoutes (name : String) : List String → RegistryM Unit
  | [] => pure ()
  | routeTag :: rest => do
      let registry ← get
      match registry.route routeTag with
      | none => checkRoutes name rest
      | some existing =>
          if existing.name ≠ name then throw (alreadyRouted routeTag existing.name)
          else checkRoutes name rest

def setRoutes (agent : AgentSpec) : List String → RegistryM Unit
  | [] => pure ()
  | routeTag :: rest => do
      modify fun registry => registry.setRoute routeTag agent
      setRoutes agent rest

def validateRoutes (agent : AgentSpec) (makeDefault : Bool) : RegistryM Unit :=
  if agent.enabled && makeDefault then checkRoutes agent.name agent.routeTags else pure ()

def popPrevious (registry : AgentRegistry) : Option AgentSpec → RegistryM Unit
  | none => pure ()
  | some previous => popRoutes previous.ref registry.routes.rows

def electPrevious : Option AgentSpec → RegistryM Unit
  | none => pure ()
  | some previous => electAll versioning previous.routeTags

def register (agent : AgentSpec) (makeDefault : Bool) : RegistryM Unit := do
  validateRoutes agent makeDefault
  let registry ← get
  popPrevious registry (registry.agents.find agent.ref)
  modify fun registry => registry.setAgent agent
  if !agent.enabled || !makeDefault then
    electPrevious versioning (registry.agents.find agent.ref)
  else setRoutes agent agent.routeTags

/-- The loop of `disable` and `deregister` over the agents that match. -/
def retireEach (withdraw : AgentSpec → AgentRegistry → AgentRegistry) :
    List AgentSpec → RegistryM Unit
  | [] => pure ()
  | agent :: rest => do
      modify (withdraw agent)
      let registry ← get
      reelectRoutes versioning agent.ref registry.routes.rows
      retireEach withdraw rest

def versionGiven (version : Option String) (agent : AgentSpec) : Bool :=
  match version with
  | none => true
  | some version => version = "" || agent.version = version

def disabled (agent : AgentSpec) : AgentSpec := { agent with enabled := false }

def retire (withdraw : AgentSpec → AgentRegistry → AgentRegistry) (name : String)
    (wanted : AgentSpec → Bool) : RegistryM Unit := do
  let registry ← get
  let matching := registry.agents.rows.filter fun agent => agent.name = name && wanted agent
  retireEach versioning withdraw matching
  if matching.isEmpty then throw (unknownAgent name)

def disable (name : String) (version : Option String) : RegistryM Unit :=
  retire versioning (fun agent registry => registry.setAgent (disabled agent)) name
    (versionGiven version)

/-- Unlike `disable`, an empty version is compared. -/
def deregister (name : String) (version : Option String) : RegistryM Unit :=
  retire versioning (fun agent registry => registry.popAgent agent.ref) name
    fun agent => version.all (agent.version = ·)

def matchingAgents (registry : AgentRegistry) (name : String) (version : Option String) :
    List AgentSpec :=
  registry.agents.rows.filter fun agent => agent.name = name && versionGiven version agent

def preferEnabled (found : List AgentSpec) : List AgentSpec :=
  if (found.filter AgentSpec.enabled).isEmpty then found else found.filter AgentSpec.enabled

def getAgent (registry : AgentRegistry) (name : String) (version : Option String) :
    Except Exc AgentSpec := do
  let best ← maxVersion versioning (preferEnabled (matchingAgents registry name version))
  match best with
  | none => .error (unknownAgent name)
  | some agent => .ok agent

def serves (routeTag version : String) (agent : AgentSpec) : Bool :=
  agent.routeTags.contains routeTag && agent.version = version && agent.enabled

def noVersion (routeTag version : String) : Exc :=
  .registry ("No enabled agent version '" ++ version ++ "' for route_tag '" ++ routeTag ++ "'")

def noAgent (routeTag : String) : Exc :=
  .registry ("No enabled agent for route_tag '" ++ routeTag ++ "'")

/-- `resolve`: the first agent of the version, in the order of registration, or the agent
that the tag is routed to. Caller, metadata and rollout key are not looked at. -/
def resolve (registry : AgentRegistry) (routeTag : String) (version : Option String) :
    Except Exc AgentSpec :=
  match version.filter (· ≠ "") with
  | some version =>
      match registry.agents.rows.find? (serves routeTag version) with
      | some agent => .ok agent
      | none => .error (noVersion routeTag version)
  | none =>
      match registry.route routeTag with
      | some agent => .ok agent
      | none => .error (noAgent routeTag)

def disabledAgent (name version : String) : Exc :=
  .registry ("Agent '" ++ name ++ "'@" ++ version ++ " is disabled")

def setDefault (name version : String) : RegistryM Unit := do
  let registry ← get
  let agent ← ExceptT.mk (pure (getAgent versioning registry name (some version)))
  if !agent.enabled then throw (disabledAgent name version)
  else do
    checkRoutes agent.name agent.routeTags
    setRoutes agent agent.routeTags

inductive Operation where
  | register (agent : AgentSpec) (makeDefault : Bool)
  | disable (name : String) (version : Option String)
  | deregister (name : String) (version : Option String)
  | setDefault (name version : String)

def perform : Operation → RegistryM Unit
  | .register agent makeDefault => register versioning agent makeDefault
  | .disable name version => disable versioning name version
  | .deregister name version => deregister versioning name version
  | .setDefault name version => setDefault versioning name version

structure Event where
  before : AgentRegistry
  operation : Operation
  outcome : Except Exc Unit
  after : AgentRegistry

def event (registry : AgentRegistry) (operation : Operation) : Event where
  before := registry
  operation := operation
  outcome := (perform versioning operation registry).1
  after := (perform versioning operation registry).2

def history (registry : AgentRegistry) : List Operation → List Event
  | [] => []
  | operation :: rest =>
      event versioning registry operation ::
        history (event versioning registry operation).after rest

end Methods

section Calls

theorem bind_run {α β : Type} (first : RegistryM α) (next : α → RegistryM β)
    (registry : AgentRegistry) :
    (first >>= next) registry = match first registry with
      | (.ok value, after) => next value after
      | (.error error, after) => (.error error, after) := by
  cases called : first registry with
  | mk outcome after =>
      cases outcome with
      | ok value =>
          simp only [Bind.bind, ExceptT.bind, ExceptT.mk, StateT.bind, called, ExceptT.bindCont]
      | error error =>
          simp only [Bind.bind, ExceptT.bind, ExceptT.mk, StateT.bind, called, ExceptT.bindCont]
          rfl

theorem bind_ok {α β : Type} {first : RegistryM α} {registry after : AgentRegistry} {value : α}
    (called : first registry = (.ok value, after)) (next : α → RegistryM β) :
    (first >>= next) registry = next value after := by
  rw [bind_run, called]

theorem bind_error {α β : Type} {first : RegistryM α} {registry after : AgentRegistry}
    {error : Exc} (called : first registry = (.error error, after)) (next : α → RegistryM β) :
    (first >>= next) registry = (.error error, after) := by
  rw [bind_run, called]

end Calls

end AgentTaskPlatform.Registry
