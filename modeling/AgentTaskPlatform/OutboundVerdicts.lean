import AgentTaskPlatform.OutboundPolicy

/-!
Which URLs no policy can tell apart, where an entry of a list ends, and how far the older
function agrees with the policy.
-/

namespace AgentTaskPlatform.Outbound

open Outcomes Unquote Urls

section Resources

def defaultPort (scheme : List Char) : Option Nat :=
  if scheme = "http".toList then some 80
  else if scheme = "https".toList then some 443
  else none

def isUnreserved (char : Char) : Bool :=
  char.isAlphanum || char = '-' || char = '.' || char = '_' || char = '~'

def unreservedEscape (high low : Char) : Option Char := do
  let byte ← hexToByte high low
  let char := Char.ofNat byte.toNat
  if isUnreserved char then some char else none

def normalPath : List Char → List Char
  | [] => []
  | first :: high :: low :: rest =>
      if first = '%' then
        match unreservedEscape high low with
        | some char => char :: normalPath rest
        | none => first :: normalPath (high :: low :: rest)
      else first :: normalPath (high :: low :: rest)
  | first :: rest => first :: normalPath rest

def withoutDot (host : List Char) : List Char :=
  if host.getLast? = some '.' then host.dropLast else host

structure Resource where
  scheme : List Char
  host : List Char
  port : Option Nat
  path : List Char
  params : List Char
  query : List Char
  deriving DecidableEq

def resourceOf (env : Surroundings) (url : List Char) : Except Exc Resource := do
  let parsed ← urlparse env.toLibrary url
  let target ← canonical env parsed
  return {
    scheme := parsed.scheme
    host := withoutDot target.host
    port := target.port <|> defaultPort parsed.scheme
    path := normalPath target.path
    params := parsed.params
    query := parsed.query }

def SameResource (env : Surroundings) (one other : List Char) : Prop :=
  ∃ resource, resourceOf env one = .ok resource ∧ resourceOf env other = .ok resource

end Resources

section Verdicts

variable {env : Surroundings}

def SameVerdict (env : Surroundings) (one other : List Char) : Prop :=
  ∀ policy, validate env policy one = .ok () ↔ validate env policy other = .ok ()

def Admissible (env : Surroundings) (url : List Char) : Prop :=
  ∃ parsed target, Readable env url parsed target

/-- The URLs are spelled alike in all that is compared, and the network takes their hosts
alike, or neither can be read. -/
def SpelledAlike (env : Surroundings) (one other : List Char) : Prop :=
  (¬ Admissible env one ∧ ¬ Admissible env other) ∨
    ∃ parsed parsed' target, Readable env one parsed target ∧ Readable env other parsed' target ∧
      (rejectPrivateTarget env parsed = .ok () ↔ rejectPrivateTarget env parsed' = .ok ())

theorem canonical_ok {parsed : ParseResult} {target : Canonical}
    (compares : canonical env parsed = .ok target) :
    target.path = orRoot parsed.path ∧
      target.host = (match hostname env.toLibrary parsed with
        | some host => env.lower host
        | none => []) := by
  simp only [canonical, bind_ok, pure_ok] at compares
  obtain ⟨port, _, rfl⟩ := compares
  exact ⟨rfl, rfl⟩

theorem Readable.entry {url : List Char} {parsed : ParseResult} {target : Canonical}
    (readable : Readable env url parsed target) : readEntry env url = .ok target := by
  have plain := readable.plain
  rw [← rejectAmbiguousPath_orRoot, ← (canonical_ok readable.compares).1] at plain
  simp only [readEntry, bind_ok]
  exact ⟨parsed, readable.parses, target, readable.compares, (), plain, rfl⟩

theorem anyMatches_single {target entry : Canonical} {url : List Char}
    (read : readEntry env url = .ok entry) :
    anyMatches env target [url] = .ok (target.matches entry) := by
  rw [anyMatches, read]
  change (if target.matches entry then _ else _) = _
  cases target.matches entry <;> rfl

theorem Canonical.matches_iff {target entry : Canonical} :
    target.matches entry = true ↔ target.scheme = entry.scheme ∧ target.host = entry.host ∧
      target.port = entry.port ∧ ∃ rest, target.path = entry.path ++ rest := by
  simp only [Canonical.matches, Bool.and_eq_true, decide_eq_true_eq, List.isPrefixOf_iff_prefix,
    and_assoc]
  constructor
  · rintro ⟨scheme, host, port, rest, whole⟩
    exact ⟨scheme, host, port, rest, whole.symm⟩
  · rintro ⟨scheme, host, port, rest, whole⟩
    exact ⟨scheme, host, port, rest, whole.symm⟩

theorem Canonical.matches_self (target : Canonical) : target.matches target = true :=
  Canonical.matches_iff.mpr ⟨rfl, rfl, rfl, [], (List.append_nil _).symm⟩

theorem Canonical.matches_antisymm {target entry : Canonical}
    (one : target.matches entry = true) (other : entry.matches target = true) :
    target = entry := by
  obtain ⟨scheme, host, port, rest, whole⟩ := Canonical.matches_iff.mp one
  obtain ⟨_, _, _, rest', whole'⟩ := Canonical.matches_iff.mp other
  have lengths := congrArg List.length whole
  have lengths' := congrArg List.length whole'
  rw [List.length_append] at lengths lengths'
  have empty : rest = [] := List.eq_nil_of_length_eq_zero (by omega)
  rw [empty, List.append_nil] at whole
  cases target
  cases entry
  cases scheme
  cases host
  cases port
  cases whole
  rfl

def only (parsed : ParseResult) (url : List Char) : OutboundPolicy where
  allowedSchemes := [parsed.scheme]
  blockPrivateNetworks := false
  allowlist := [url]

theorem validate_only {url : List Char} {parsed : ParseResult} {target : Canonical}
    (readable : Readable env url parsed target) :
    validate env (only parsed url) url = .ok () := by
  refine validate_ok.mpr ⟨parsed, target, readable, ?_, rfl, .inr ?_, by simp [only]⟩
  · exact List.mem_singleton_self _
  · exact (anyMatches_single readable.entry).trans (by rw [target.matches_self])

theorem SameVerdict.matches {one other : List Char} (same : SameVerdict env one other)
    {parsed : ParseResult} {target : Canonical} (readable : Readable env one parsed target) :
    ∃ parsed' target', Readable env other parsed' target' ∧ target'.matches target = true := by
  obtain ⟨parsed', target', readable', permitted⟩ :=
    validate_ok.mp ((same (only parsed one)).mp (validate_only readable))
  refine ⟨parsed', target', readable', ?_⟩
  rcases permitted.allowed with empty | listed
  · cases empty
  · have single : anyMatches env target' [one] = .ok (target'.matches target) :=
      anyMatches_single readable.entry
    exact Except.ok.inj (single.symm.trans listed)

theorem SameVerdict.symm {one other : List Char} (same : SameVerdict env one other) :
    SameVerdict env other one := fun policy => (same policy).symm

def networked (parsed : ParseResult) : OutboundPolicy where
  allowedSchemes := [parsed.scheme]

theorem validate_networked {url : List Char} {parsed : ParseResult} {target : Canonical}
    (readable : Readable env url parsed target) (schemes : ParseResult)
    (scheme : parsed.scheme = schemes.scheme) :
    validate env (networked schemes) url = .ok () ↔ rejectPrivateTarget env parsed = .ok () := by
  rw [validate_ok]
  constructor
  · rintro ⟨other, target', readable', permitted⟩
    obtain ⟨rfl, rfl⟩ := readable.unique readable'
    rcases permitted.network rfl with trusted | ⟨_, free⟩
    · cases trusted
    · exact free
  · intro free
    refine ⟨parsed, target, readable, ?_, rfl, .inl rfl, fun _ => .inr ⟨rfl, free⟩⟩
    rw [scheme]
    exact List.mem_singleton_self _

/-- Of URLs that denote one resource, no policy tells apart those that are spelled alike. -/
theorem sameVerdict_iff {one other : List Char} (denote : SameResource env one other) :
    SameVerdict env one other ↔ SpelledAlike env one other := by
  have schemes {parsed parsed' : ParseResult} (first : urlparse env.toLibrary one = .ok parsed)
      (second : urlparse env.toLibrary other = .ok parsed') :
      parsed.scheme = parsed'.scheme := by
    obtain ⟨resource, left, right⟩ := denote
    simp only [resourceOf, first, second, bind_ok, pure_ok, Except.ok.injEq,
      exists_eq_left'] at left right
    obtain ⟨_, _, rfl⟩ := left
    obtain ⟨_, _, equal⟩ := right
    exact (congrArg Resource.scheme equal).symm
  constructor
  · intro same
    by_cases admissible : Admissible env one
    · obtain ⟨parsed, target, readable⟩ := admissible
      obtain ⟨parsed', target', readable', forth⟩ := same.matches readable
      obtain ⟨_, again, unique, back⟩ := same.symm.matches readable'
      obtain ⟨rfl, rfl⟩ := readable.unique unique
      obtain rfl := Canonical.matches_antisymm back forth
      refine .inr ⟨parsed, parsed', target, readable, readable', ?_⟩
      rw [← validate_networked readable parsed rfl, ← validate_networked readable' parsed
        (schemes readable.parses readable'.parses).symm]
      exact same (networked parsed)
    · refine .inl ⟨admissible, ?_⟩
      rintro ⟨parsed', target', readable'⟩
      obtain ⟨parsed, target, readable, _⟩ := same.symm.matches readable'
      exact admissible ⟨parsed, target, readable⟩
  · rintro (⟨neither, nor⟩ | ⟨parsed, parsed', target, readable, readable', network⟩) policy
    · constructor <;> intro accepted <;>
        obtain ⟨parsed, target, readable, _⟩ := validate_ok.mp accepted
      · exact absurd ⟨parsed, target, readable⟩ neither
      · exact absurd ⟨parsed, target, readable⟩ nor
    · have scheme := schemes readable.parses readable'.parses
      rw [validate_ok, validate_ok]
      constructor
      · rintro ⟨_, _, again, permitted⟩
        obtain ⟨rfl, rfl⟩ := readable.unique again
        refine ⟨parsed', target, readable', scheme ▸ permitted.scheme, permitted.denied,
          permitted.allowed, fun blocks => ?_⟩
        exact (permitted.network blocks).imp_right (And.imp_right network.mp)
      · rintro ⟨_, _, again, permitted⟩
        obtain ⟨rfl, rfl⟩ := readable'.unique again
        refine ⟨parsed, target, readable, scheme ▸ permitted.scheme, permitted.denied,
          permitted.allowed, fun blocks => ?_⟩
        exact (permitted.network blocks).imp_right (And.imp_right network.mpr)

end Verdicts

section Boundaries

variable {env : Surroundings}

def AtBoundary (entry target : Canonical) : Prop :=
  ∃ rest, target.path = entry.path ++ rest ∧
    (rest = [] ∨ rest.head? = some '/' ∨ entry.path.getLast? = some '/')

def MatchesAtBoundary (env : Surroundings) (entry : List Char) : Prop :=
  ∀ url parsed target, Readable env url parsed target → ∀ read,
    readEntry env entry = .ok read → matchesPrefix env url [entry] = .ok true →
      AtBoundary read target

theorem Readable.host {url : List Char} {parsed : ParseResult} {target : Canonical}
    (readable : Readable env url parsed target) : target.host ≠ [] := by
  obtain ⟨host, named⟩ := Option.ne_none_iff_exists'.mp readable.hosted
  rw [(canonical_ok readable.compares).2, named]
  exact fun empty => hostname_nonempty named (env.lower_empty host empty)

theorem readable_entry {entry url : List Char} {parsed : ParseResult} {target read : Canonical}
    (readable : Readable env url parsed target) (reads : readEntry env entry = .ok read)
    (found : target.matches read = true) : ∃ parsed', Readable env entry parsed' read := by
  simp only [readEntry, bind_ok, pure_ok] at reads
  obtain ⟨parsed', parses, _, compares, _, plain, rfl⟩ := reads
  rw [(canonical_ok compares).1, rejectAmbiguousPath_orRoot] at plain
  refine ⟨parsed', parses, compares, fun unhosted => ?_, plain⟩
  have host := (canonical_ok compares).2
  rw [unhosted, ← (Canonical.matches_iff.mp found).2.1] at host
  exact readable.host host

/-- The entry, followed by one more letter, matches the entry. -/
theorem readable_longer {entry : List Char} {parsed : ParseResult} {read : Canonical}
    (readable : Readable env entry parsed read) (open_end : read.path.getLast? ≠ some '/') :
    ∃ longer parsed', Readable env longer parsed' { read with path := read.path ++ ['x'] } := by
  have path := (canonical_ok readable.compares).1
  have rooted : parsed.path ≠ [] := by
    intro empty
    rw [path, empty] at open_end
    exact open_end rfl
  have same : read.path = parsed.path := by rw [path, orRoot, if_neg rooted]
  have located : parsed.netloc ≠ [] := by
    intro empty
    apply readable.hosted
    rw [hostname, empty]
    rfl
  obtain ⟨longer, parses⟩ := urlparse_longer readable.parses located rooted
  refine ⟨longer, _, parses, ?_, readable.hosted, accepted_longer readable.plain rooted⟩
  have compares := readable.compares
  simp only [canonical, bind_ok, pure_ok] at compares ⊢
  obtain ⟨port, valid, rfl⟩ := compares
  refine ⟨port, valid, ?_⟩
  simp [orRoot, rooted, hostname]

theorem matchesAtBoundary_iff (entry : List Char) :
    MatchesAtBoundary env entry ↔
      ∀ parsed read, Readable env entry parsed read → read.path.getLast? = some '/' := by
  constructor
  · intro bounded parsed read readable
    by_contra open_end
    obtain ⟨longer, parsed', readable'⟩ := readable_longer readable open_end
    have found : ({ read with path := read.path ++ ['x'] } : Canonical).matches read = true :=
      Canonical.matches_iff.mpr ⟨rfl, rfl, rfl, ['x'], rfl⟩
    have listed : matchesPrefix env longer [entry] = .ok true := by
      rw [matchesPrefix_eq readable'.parses readable'.compares,
        anyMatches_single readable.entry, found]
    obtain ⟨rest, whole, ends⟩ := bounded longer parsed' _ readable' read readable.entry listed
    obtain rfl : ['x'] = rest := List.append_cancel_left whole
    rcases ends with empty | slash | closed
    · cases empty
    · exact absurd slash (by decide)
    · exact open_end closed
  · intro closed url parsed target readable read reads listed
    rw [matchesPrefix_eq readable.parses readable.compares, anyMatches_single reads] at listed
    have found := Except.ok.inj listed
    obtain ⟨parsed', entry_readable⟩ := readable_entry readable reads found
    obtain ⟨_, _, _, rest, whole⟩ := Canonical.matches_iff.mp found
    exact ⟨rest, whole, .inr (.inr (closed parsed' read entry_readable))⟩

end Boundaries

section Results

/-- Verdicts are canonical for the URLs that are spelled alike and for no others, and a list is
matched at boundaries by the entries that end at one and by no others. -/
theorem canonical_verdicts_iff (env : Surroundings) :
    (∀ one other, SameResource env one other →
      (SameVerdict env one other ↔ SpelledAlike env one other)) ∧
    (∀ entry, MatchesAtBoundary env entry ↔
      ∀ parsed read, Readable env entry parsed read → read.path.getLast? = some '/') :=
  ⟨fun _ _ denote => sameVerdict_iff denote, matchesAtBoundary_iff⟩

def sampleEnv : Surroundings where
  lower := lowerAscii
  lower_empty := lowerAscii_empty
  repr text := String.ofList text
  bracketsFault _ := none
  normalFault _ := none
  ipAddress _ := none
  getaddrinfo _ := .ok []

def withPort : List Char := "https://h:443/a".toList
def withoutPort : List Char := "https://h/a".toList
def sibling : List Char := "https://h/ab".toList

theorem withPort_same : SameResource sampleEnv withPort withoutPort :=
  ⟨⟨"https".toList, "h".toList, some 443, "/a".toList, [], []⟩, by decide, by decide⟩

theorem canonical_verdicts_iff_port :
    (SameVerdict sampleEnv withPort withoutPort ↔
      SpelledAlike sampleEnv withPort withoutPort) ∧
    (MatchesAtBoundary sampleEnv withoutPort ↔ ∀ parsed read,
      Readable sampleEnv withoutPort parsed read → read.path.getLast? = some '/') :=
  ⟨(canonical_verdicts_iff sampleEnv).1 _ _ withPort_same,
    (canonical_verdicts_iff sampleEnv).2 withoutPort⟩

/-- A URL that is denied without its port passes with it, and an entry admits what only
starts with the same letters. -/
theorem port_passes_denylist :
    SameResource sampleEnv withPort withoutPort ∧
      ¬ SameVerdict sampleEnv withPort withoutPort ∧
      ¬ MatchesAtBoundary sampleEnv withoutPort := by
  refine ⟨withPort_same, fun same => ?_, fun bounded => ?_⟩
  · let denying : OutboundPolicy :=
      { blockPrivateNetworks := false, denylist := [withoutPort] }
    have passes : validate sampleEnv denying withPort = .ok () := by decide
    have denied : validate sampleEnv denying withoutPort ≠ .ok () := by decide
    exact denied ((same denying).mp passes)
  · have readable : Readable sampleEnv sibling
        ⟨"https".toList, "h".toList, "/ab".toList, [], [], []⟩
        ⟨"https".toList, "h".toList, none, "/ab".toList⟩ :=
      ⟨by decide, by decide, by decide, by decide⟩
    obtain ⟨rest, whole, ends⟩ := bounded sibling _ _ readable
      ⟨"https".toList, "h".toList, none, "/a".toList⟩ (by decide) (by decide)
    have goes_on : "/a".toList ++ ['b'] = "/a".toList ++ rest := whole
    have tail : rest = ['b'] := (List.append_cancel_left goes_on).symm
    rw [tail] at ends
    exact absurd ends (by decide)

end Results

section Wrapper

variable {env : Surroundings} {url : List Char} {prefixes : List (List Char)}

def NonPublicLiteral (env : Surroundings) (url : List Char) : Prop :=
  ∃ parsed host address, urlparse env.toLibrary url = .ok parsed ∧
    hostname env.toLibrary parsed = some host ∧ env.ipAddress host = some address ∧
      address.nonPublic = true

structure WrapperAgrees (env : Surroundings) (url : List Char) (prefixes : List (List Char)) :
    Prop where
  accepts : validateOutboundUrl env url prefixes false = .ok () →
    validate env { blockPrivateNetworks := false, allowlist := prefixes } url = .ok ()
  literals : NonPublicLiteral env url → ∀ policy : OutboundPolicy,
    policy.blockPrivateNetworks = true → validate env policy url ≠ .ok () →
      validateOutboundUrl env url prefixes true ≠ .ok ()

def Listed (env : Surroundings) (url : List Char) (prefixes : List (List Char))
    (parsed : ParseResult) : Prop :=
  urlparse env.toLibrary url = .ok parsed ∧
    parsed.scheme ∈ ["http".toList, "https".toList] ∧
    hostname env.toLibrary parsed ≠ none ∧
    (prefixes = [] ∨ matchesPrefix env url prefixes = .ok true)

theorem wrapper_ok :
    validateOutboundUrl env url prefixes false = .ok () ↔
      ∃ parsed, Listed env url prefixes parsed := by
  simp only [validateOutboundUrl, checkScheme, bind_ok, refuse_ok, checkAllowlist_ok, pure_ok,
    not_not, Bool.false_eq_true, if_false, Listed]
  constructor
  · rintro ⟨parsed, parses, _, scheme, _, hosted, _, listed, _⟩
    exact ⟨parsed, parses, scheme, hosted, listed⟩
  · rintro ⟨parsed, parses, scheme, hosted, listed⟩
    exact ⟨parsed, parses, (), scheme, (), hosted, (), listed, trivial⟩

/-- A host that is an address of a private network is rejected, whatever else is true of
the URL. -/
theorem literal_rejected (literal : NonPublicLiteral env url) :
    validateOutboundUrl env url prefixes true ≠ .ok () := by
  intro accepted
  obtain ⟨parsed, host, address, parses, named, found, hidden⟩ := literal
  simp only [validateOutboundUrl, bind_ok, if_true] at accepted
  obtain ⟨_, _, _, _, _, _, _, _, unblocked⟩ := accepted
  simp [rejectIpLiteral, parses, named, found, hidden] at unblocked

theorem canonical_total {parsed : ParseResult} {number : Option Nat}
    (valid : port env.toLibrary parsed = .ok number) :
    ∃ target, canonical env parsed = .ok target := by
  simp only [canonical, bind_ok, pure_ok]
  exact ⟨_, number, valid, rfl⟩

theorem canonical_port {parsed : ParseResult} {target : Canonical}
    (compares : canonical env parsed = .ok target) :
    ∃ number, port env.toLibrary parsed = .ok number := by
  simp only [canonical, bind_ok, pure_ok] at compares
  obtain ⟨number, valid, _⟩ := compares
  exact ⟨number, valid⟩

/-- The wrapper agrees with the policy unless it accepts an ambiguous path or, without a list,
a port that is none. -/
theorem wrapper_agrees_iff (env : Surroundings) (url : List Char)
    (prefixes : List (List Char)) :
    WrapperAgrees env url prefixes ↔ ∀ parsed, Listed env url prefixes parsed →
      rejectAmbiguousPath parsed.path = .ok () ∧
        (prefixes ≠ [] ∨ ∃ number, port env.toLibrary parsed = .ok number) := by
  constructor
  · intro agrees parsed listed
    obtain ⟨parsed', target, readable, _⟩ :=
      validate_ok.mp (agrees.accepts (wrapper_ok.mpr ⟨parsed, listed⟩))
    cases listed.1.symm.trans readable.parses
    exact ⟨readable.plain, .inr (canonical_port readable.compares)⟩
  · intro checked
    refine ⟨fun accepted => ?_, fun literal _ _ _ => literal_rejected literal⟩
    obtain ⟨parsed, listed⟩ := wrapper_ok.mp accepted
    obtain ⟨plain, valid⟩ := checked parsed listed
    obtain ⟨parses, scheme, hosted, allowed⟩ := listed
    have compares : ∃ target, canonical env parsed = .ok target := by
      rcases valid with given | ⟨number, valid⟩
      · obtain ⟨_, target, again, compares, _⟩ := matchesPrefix_ok (allowed.resolve_left given)
        cases parses.symm.trans again
        exact ⟨target, compares⟩
      · exact canonical_total valid
    obtain ⟨target, compares⟩ := compares
    rw [matchesPrefix_eq parses compares] at allowed
    exact validate_ok.mpr ⟨parsed, target, ⟨parses, compares, hosted, plain⟩, scheme, rfl,
      allowed, Bool.noConfusion⟩

def climbing : List Char := "http://h/a/../b".toList

/-- Without a list, the wrapper looks neither at the path nor at the port. -/
theorem climbing_accepted : ¬ WrapperAgrees sampleEnv climbing [] := by
  intro agrees
  have accepted : validateOutboundUrl sampleEnv climbing [] false = .ok () := by decide
  have rejected : validate sampleEnv { blockPrivateNetworks := false } climbing ≠ .ok () := by
    decide
  exact rejected (agrees.accepts accepted)

end Wrapper
end AgentTaskPlatform.Outbound
