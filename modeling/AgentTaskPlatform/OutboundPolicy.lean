import AgentTaskPlatform.OutboundPaths
import AgentTaskPlatform.Outcomes
import AgentTaskPlatform.Urls
import Mathlib.Data.List.Dedup
import Mathlib.Data.List.Sort

/-!
The policy for outbound URLs, and the function that existed before it. The lists of the
policy hold URLs that are compared part by part with the one that is checked.
-/

namespace AgentTaskPlatform.Outbound

open Outcomes Urls

structure Address where
  text : String
  isPrivate : Bool := false
  isLoopback : Bool := false
  isLinkLocal : Bool := false
  isReserved : Bool := false
  isMulticast : Bool := false
  isUnspecified : Bool := false

def Address.nonPublic (address : Address) : Bool :=
  address.isPrivate || address.isLoopback || address.isLinkLocal || address.isReserved ||
    address.isMulticast || address.isUnspecified

/-- What the policy uses that is not here: the standard library and the network. -/
structure Surroundings extends Library where
  /-- `ipaddress.ip_address`, none when it raises `ValueError` -/
  ipAddress : List Char → Option Address
  /-- `socket.getaddrinfo`: the texts of the addresses, in its order -/
  getaddrinfo : List Char → Except Exc (List (List Char))

structure OutboundPolicy where
  allowedSchemes : List (List Char) := ["http".toList, "https".toList]
  blockPrivateNetworks : Bool := true
  allowlist : List (List Char) := []
  privateNetworkAllowlist : List (List Char) := []
  denylist : List (List Char) := []

structure Canonical where
  scheme : List Char
  host : List Char
  port : Option Nat
  path : List Char
  deriving DecidableEq

section Functions

variable (env : Surroundings)

def canonical (parsed : ParseResult) : Except Exc Canonical := do
  let port ← port env.toLibrary parsed
  return {
    scheme := lowerAscii parsed.scheme
    host := match hostname env.toLibrary parsed with
      | some host => env.lower host
      | none => []
    port
    path := orRoot parsed.path }

def Canonical.matches (target entry : Canonical) : Bool :=
  target.scheme = entry.scheme && target.host = entry.host && target.port = entry.port &&
    entry.path.isPrefixOf target.path

def readEntry (entry : List Char) : Except Exc Canonical := do
  let parsed ← urlparse env.toLibrary entry
  let entry ← canonical env parsed
  rejectAmbiguousPath entry.path
  return entry

def anyMatches (target : Canonical) : List (List Char) → Except Exc Bool
  | [] => return false
  | first :: rest => do
      let entry ← readEntry env first
      if target.matches entry then return true else anyMatches target rest

def matchesPrefix (url : List Char) (entries : List (List Char)) : Except Exc Bool := do
  let parsed ← urlparse env.toLibrary url
  let target ← canonical env parsed
  anyMatches env target entries

def hostRequired : Exc := policyError "Outbound URL host is required"

def schemesText (schemes : List (List Char)) : String :=
  "[" ++ ", ".intercalate ((schemes.dedup.insertionSort (· ≤ ·)).map env.repr) ++ "]"

def refuse (condition : Prop) [Decidable condition] (error : Exc) : Except Exc Unit :=
  if condition then throw error else return ()

def checkScheme (schemes : List (List Char)) (parsed : ParseResult) : Except Exc Unit :=
  refuse (parsed.scheme ∉ schemes) (policyError ("Outbound URL scheme " ++
    env.repr parsed.scheme ++ " is not allowed (allowed: " ++ schemesText env schemes ++ ")"))

def checkAllowlist (allowlist : List (List Char)) (url : List Char) : Except Exc Unit :=
  if allowlist = [] then return ()
  else do
    let listed ← matchesPrefix env url allowlist
    refuse (listed = false) (policyError "Outbound URL is not allowlisted")

def usable : List (List Char) → List (List Char) → List Address
  | _, [] => []
  | seen, text :: rest =>
      if text ∈ seen then usable seen rest
      else match env.ipAddress text with
      | some address => address :: usable (text :: seen) rest
      | none => usable (text :: seen) rest

def resolveDns (host : List Char) : Except Exc (List Address) :=
  match env.getaddrinfo host with
  | .error exc =>
      if exc.name = "gaierror" then
        throw (policyError ("Outbound URL host " ++ env.repr host ++
          " could not be resolved: " ++ exc.message))
      else throw exc
  | .ok texts =>
      if usable env [] texts = [] then
        throw (policyError ("Outbound URL host " ++ env.repr host ++
          " resolved to no usable addresses"))
      else return usable env [] texts

def addressesOf (host : List Char) : Except Exc (List Address) :=
  match env.ipAddress host with
  | some address => return [address]
  | none => resolveDns env host

def rejectPrivateTarget (parsed : ParseResult) : Except Exc Unit :=
  match hostname env.toLibrary parsed with
  | none => throw hostRequired
  | some host => do
      let addresses ← addressesOf env host
      match addresses.find? Address.nonPublic with
      | some address => throw (policyError ("Outbound URL host " ++ env.repr host ++
          " resolves to non-public address " ++ address.text))
      | none => return ()

def checkNetwork (policy : OutboundPolicy) (url : List Char) (parsed : ParseResult) :
    Except Exc Unit :=
  if policy.blockPrivateNetworks then do
    let trusted ← matchesPrefix env url policy.privateNetworkAllowlist
    if trusted then return () else rejectPrivateTarget env parsed
  else return ()

def validate (policy : OutboundPolicy) (url : List Char) : Except Exc Unit := do
  let parsed ← urlparse env.toLibrary url
  checkScheme env policy.allowedSchemes parsed
  refuse (hostname env.toLibrary parsed = none) hostRequired
  rejectAmbiguousPath parsed.path
  let denied ← matchesPrefix env url policy.denylist
  refuse (denied = true) (policyError "Outbound URL is denylisted")
  checkAllowlist env policy.allowlist url
  checkNetwork env policy url parsed

def rejectIpLiteral (policy : OutboundPolicy) (url : List Char) : Except Exc Unit := do
  let parsed ← urlparse env.toLibrary url
  checkScheme env policy.allowedSchemes parsed
  match hostname env.toLibrary parsed with
  | none => throw hostRequired
  | some host =>
      match env.ipAddress host with
      | none => return ()
      | some address => refuse address.nonPublic (policyError
          ("Outbound URL points to a non-public IP address " ++ address.text))

/-- `validate_outbound_url`, which looks neither at the path nor, without a list, at the port. -/
def validateOutboundUrl (url : List Char) (allowedPrefixes : List (List Char))
    (blockPrivateIpLiterals : Bool) : Except Exc Unit := do
  let policy : OutboundPolicy := { blockPrivateNetworks := false, allowlist := allowedPrefixes }
  let parsed ← urlparse env.toLibrary url
  checkScheme env policy.allowedSchemes parsed
  refuse (hostname env.toLibrary parsed = none) hostRequired
  checkAllowlist env policy.allowlist url
  if blockPrivateIpLiterals then rejectIpLiteral env policy url else return ()

end Functions

section Accepting

@[simp] theorem refuse_ok {condition : Prop} [Decidable condition] {error : Exc} {done : Unit} :
    refuse condition error = .ok done ↔ ¬ condition := by
  unfold refuse
  split <;> simp_all

variable {env : Surroundings}

structure Readable (env : Surroundings) (url : List Char) (parsed : ParseResult)
    (target : Canonical) : Prop where
  parses : urlparse env.toLibrary url = .ok parsed
  compares : canonical env parsed = .ok target
  hosted : hostname env.toLibrary parsed ≠ none
  plain : rejectAmbiguousPath parsed.path = .ok ()

theorem Readable.unique {url : List Char} {parsed other : ParseResult}
    {target another : Canonical} (first : Readable env url parsed target)
    (second : Readable env url other another) : parsed = other ∧ target = another := by
  have same := first.parses.symm.trans second.parses
  cases same
  have equal := first.compares.symm.trans second.compares
  cases equal
  exact ⟨rfl, rfl⟩

theorem matchesPrefix_eq {url : List Char} {parsed : ParseResult} {target : Canonical}
    (parses : urlparse env.toLibrary url = .ok parsed)
    (compares : canonical env parsed = .ok target) (entries : List (List Char)) :
    matchesPrefix env url entries = anyMatches env target entries := by
  rw [matchesPrefix, parses]
  change (canonical env parsed >>= _) = _
  rw [compares]
  rfl

theorem matchesPrefix_ok {url : List Char} {entries : List (List Char)} {result : Bool}
    (found : matchesPrefix env url entries = .ok result) :
    ∃ parsed target, urlparse env.toLibrary url = .ok parsed ∧
      canonical env parsed = .ok target ∧ anyMatches env target entries = .ok result := by
  simpa [matchesPrefix] using found

theorem checkAllowlist_ok {allowlist : List (List Char)} {url : List Char} {done : Unit} :
    checkAllowlist env allowlist url = .ok done ↔
      allowlist = [] ∨ matchesPrefix env url allowlist = .ok true := by
  unfold checkAllowlist
  split
  · simp_all
  · simp_all

structure Permitted (env : Surroundings) (policy : OutboundPolicy) (parsed : ParseResult)
    (target : Canonical) : Prop where
  scheme : parsed.scheme ∈ policy.allowedSchemes
  denied : anyMatches env target policy.denylist = .ok false
  allowed : policy.allowlist = [] ∨ anyMatches env target policy.allowlist = .ok true
  network : policy.blockPrivateNetworks = true →
    anyMatches env target policy.privateNetworkAllowlist = .ok true ∨
      (anyMatches env target policy.privateNetworkAllowlist = .ok false ∧
        rejectPrivateTarget env parsed = .ok ())

theorem checkNetwork_ok {policy : OutboundPolicy} {url : List Char} {parsed : ParseResult}
    {done : Unit} : checkNetwork env policy url parsed = .ok done ↔ (policy.blockPrivateNetworks = true →
      matchesPrefix env url policy.privateNetworkAllowlist = .ok true ∨
        (matchesPrefix env url policy.privateNetworkAllowlist = .ok false ∧
          rejectPrivateTarget env parsed = .ok ())) := by
  unfold checkNetwork
  split
  next blocks =>
    simp only [blocks, bind_ok, forall_const]
    constructor
    · rintro ⟨trusted, found, rest⟩
      cases trusted with
      | true => exact .inl found
      | false => exact .inr ⟨found, rest⟩
    · rintro (found | ⟨found, rest⟩)
      · exact ⟨true, found, rfl⟩
      · exact ⟨false, found, rest⟩
  next => simp_all

theorem validate_ok {policy : OutboundPolicy} {url : List Char} :
    validate env policy url = .ok () ↔
      ∃ parsed target, Readable env url parsed target ∧ Permitted env policy parsed target := by
  simp only [validate, checkScheme, bind_ok, refuse_ok, checkAllowlist_ok, checkNetwork_ok]
  constructor
  · rintro ⟨parsed, parses, _, scheme, _, hosted, _, plain, denied, found, _, kept, _, allowed,
      network⟩
    obtain ⟨_, target, again, compares, _⟩ := matchesPrefix_ok found
    cases parses.symm.trans again
    simp only [matchesPrefix_eq parses compares] at found allowed network
    cases denied with
    | true => exact absurd rfl kept
    | false =>
        exact ⟨parsed, target, ⟨parses, compares, hosted, plain⟩,
          ⟨not_not.mp scheme, found, allowed, network⟩⟩
  · rintro ⟨parsed, target, ⟨parses, compares, hosted, plain⟩,
      ⟨scheme, found, allowed, network⟩⟩
    simp only [← matchesPrefix_eq parses compares] at found allowed network
    exact ⟨parsed, parses, (), not_not.mpr scheme, (), hosted, (), plain, false, found, (),
      Bool.false_ne_true, (), allowed, network⟩

end Accepting
end AgentTaskPlatform.Outbound
