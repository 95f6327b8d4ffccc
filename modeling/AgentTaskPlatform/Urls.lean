import AgentTaskPlatform.Domain
import Mathlib.Data.List.Basic
import Mathlib.Data.List.TakeWhile
import Mathlib.Tactic.Common

/-!
`urllib.parse.urlparse` and the parts of its result: scheme, host, port and path.
-/

namespace AgentTaskPlatform.Urls

def valueError (message : String) : Exc := ⟨.exception, "ValueError", message⟩

structure Library where
  /-- `str.lower` -/
  lower : List Char → List Char
  lower_empty : ∀ text, lower text = [] → text = []
  /-- `str.__repr__` -/
  repr : List Char → String
  /-- What is wrong with a network location that has brackets. -/
  bracketsFault : List Char → Option String
  /-- What the NFKC form of a network location would change. -/
  normalFault : List Char → Option String

section Splitting

def partition (char : Char) (text : List Char) : List Char × List Char :=
  (text.takeWhile (· != char), (text.dropWhile (· != char)).drop 1)

def lastPart (char : Char) (text : List Char) : List Char :=
  (text.reverse.takeWhile (· != char)).reverse

def uptoLast (char : Char) (text : List Char) : List Char :=
  (text.reverse.dropWhile (· != char)).reverse

def isC0ControlOrSpace (char : Char) : Bool := char.toNat ≤ 32

def isUnsafe (char : Char) : Bool := char = '\t' || char = '\r' || char = '\n'

def cleaned (url : List Char) : List Char :=
  (url.dropWhile isC0ControlOrSpace).filter fun char => !isUnsafe char

def isAscii (char : Char) : Bool := char.toNat < 128

def isSchemeChar (char : Char) : Bool :=
  isAscii char && (char.isAlphanum || char = '+' || char = '-' || char = '.')

def lowerAscii (text : List Char) : List Char := text.map Char.toLower

theorem lowerAscii_empty (text : List Char) (empty : lowerAscii text = []) : text = [] :=
  List.map_eq_nil_iff.mp empty

def isScheme (text : List Char) : Bool :=
  (text.head?.any fun first => isAscii first && first.isAlpha) && text.all isSchemeChar

def splitScheme (url : List Char) : List Char × List Char :=
  if ':' ∈ url ∧ isScheme (partition ':' url).1 then
    (lowerAscii (partition ':' url).1, (partition ':' url).2)
  else ([], url)

def endsNetloc (char : Char) : Bool := char = '/' || char = '?' || char = '#'

def splitNetloc : List Char → List Char × List Char
  | '/' :: '/' :: rest =>
      (rest.takeWhile fun char => !endsNetloc char, rest.dropWhile fun char => !endsNetloc char)
  | url => ([], url)

def checkNetloc (library : Library) (netloc : List Char) : Except Exc Unit := do
  if ('[' ∈ netloc) ≠ (']' ∈ netloc) then throw (valueError "Invalid IPv6 URL")
  else if '[' ∈ netloc then
    if let some fault := library.bracketsFault netloc then throw (valueError fault)
  if !netloc.all isAscii then
    if let some fault := library.normalFault netloc then throw (valueError fault)

def usesParams : List String :=
  ["", "ftp", "hdl", "prospero", "http", "imap", "https", "shttp", "rtsp", "rtspu", "sip", "sips",
    "mms", "sftp", "tel"]

def splitParams (path : List Char) : List Char × List Char :=
  if ';' ∈ lastPart '/' path then
    (uptoLast '/' path ++ (partition ';' (lastPart '/' path)).1,
      (partition ';' (lastPart '/' path)).2)
  else (path, [])

structure ParseResult where
  scheme : List Char
  netloc : List Char
  path : List Char
  params : List Char
  query : List Char
  fragment : List Char
  deriving DecidableEq

/-- The path of a URL and its parameters, after the query and the fragment have been cut off. -/
def pathOf (scheme url : List Char) : List Char × List Char :=
  if String.ofList scheme ∈ usesParams then splitParams url else (url, [])

def urlparse (library : Library) (url : List Char) : Except Exc ParseResult := do
  let (scheme, rest) := splitScheme (cleaned url)
  let (netloc, rest) := splitNetloc rest
  let (rest, fragment) := partition '#' rest
  let (rest, query) := partition '?' rest
  checkNetloc library netloc
  let (path, params) := pathOf scheme rest
  return { scheme, netloc, path, params, query, fragment }

end Splitting

section Parts

def hostinfo (netloc : List Char) : List Char × List Char :=
  let info := lastPart '@' netloc
  if '[' ∈ info then
    let bracketed := (partition '[' info).2
    ((partition ']' bracketed).1, (partition ':' (partition ']' bracketed).2).2)
  else partition ':' info

/-- The host in lower case. What follows a `%`, the zone of an address, stays as it is. -/
def hostname (library : Library) (parsed : ParseResult) : Option (List Char) :=
  if (hostinfo parsed.netloc).1 = [] then none
  else some (library.lower ((hostinfo parsed.netloc).1.takeWhile (· != '%')) ++
    (hostinfo parsed.netloc).1.dropWhile (· != '%'))

theorem hostname_nonempty {library : Library} {parsed : ParseResult} {host : List Char}
    (found : hostname library parsed = some host) : host ≠ [] := by
  unfold hostname at found
  split at found
  · cases found
  next named =>
    cases found
    intro empty
    obtain ⟨before, after⟩ := List.append_eq_nil_iff.mp empty
    have whole := List.takeWhile_append_dropWhile (p := (· != '%'))
      (l := (hostinfo parsed.netloc).1)
    rw [library.lower_empty _ before, after] at whole
    exact named whole.symm

def intMaxStrDigits : Nat := 4300

def decimal (digits : List Char) : Nat :=
  digits.foldl (fun value digit => value * 10 + (digit.toNat - '0'.toNat)) 0

def port (library : Library) (parsed : ParseResult) : Except Exc (Option Nat) := do
  let digits := (hostinfo parsed.netloc).2
  if digits = [] then return none
  else if ¬ digits.all Char.isDigit then
    throw (valueError ("Port could not be cast to integer value as " ++ library.repr digits))
  else if digits.length > intMaxStrDigits then
    throw (valueError ("Exceeds the limit (4300 digits) for integer string conversion: value has " ++
      toString digits.length ++
      " digits; use sys.set_int_max_str_digits() to increase the limit"))
  else if decimal digits > 65535 then throw (valueError "Port out of range 0-65535")
  else return some (decimal digits)

end Parts
section Longer

variable {char : Char} {text : List Char}

theorem not_mem_partition : char ∉ (partition char text).1 := by
  intro member
  have other := List.mem_takeWhile_imp member
  simp at other

theorem partition_append (absent : char ∉ text) (rest : List Char) :
    partition char (text ++ char :: rest) = (text, rest) := by
  have others : ∀ item ∈ text, (item != char) = true := by
    intro item member
    simp only [bne_iff_ne]
    rintro rfl
    exact absent member
  simp [partition, List.takeWhile_append_of_pos others, List.dropWhile_append_of_pos others]

theorem partition_absent (absent : char ∉ text) : partition char text = (text, []) := by
  have others : ∀ item ∈ text, (item != char) = true := by
    intro item member
    simp only [bne_iff_ne]
    rintro rfl
    exact absent member
  rw [partition, List.takeWhile_eq_self_iff.mpr others, List.dropWhile_eq_nil_iff.mpr others]
  rfl

theorem lastPart_append (left : List Char) {right : List Char} (absent : char ∉ right) :
    lastPart char (left ++ right) = lastPart char left ++ right := by
  have others : ∀ item ∈ right.reverse, (item != char) = true := by
    intro item member
    simp only [bne_iff_ne]
    rintro rfl
    exact absent (List.mem_reverse.mp member)
  rw [lastPart, List.reverse_append, List.takeWhile_append_of_pos others, List.reverse_append,
    List.reverse_reverse]
  rfl

theorem not_mem_lastPart : char ∉ lastPart char text := by
  intro member
  have other := List.mem_takeWhile_imp (List.mem_reverse.mp member)
  simp at other

theorem lastPart_uptoLast : lastPart char (uptoLast char text) = [] := by
  rw [lastPart, uptoLast, List.reverse_reverse, List.reverse_eq_nil_iff,
    List.takeWhile_eq_nil_iff]
  intro nonempty
  exact List.dropWhile_get_zero_not (· != char) text.reverse nonempty

def Bare (path : List Char) : Prop := ';' ∉ lastPart '/' path

theorem splitParams_bare (path : List Char) : Bare (splitParams path).1 := by
  by_cases cut : ';' ∈ lastPart '/' path
  · rw [splitParams, if_pos cut]
    have whole : '/' ∉ (partition ';' (lastPart '/' path)).1 := fun member =>
      not_mem_lastPart ((List.takeWhile_sublist _).mem member)
    rw [Bare, lastPart_append _ whole, lastPart_uptoLast, List.nil_append]
    exact not_mem_partition
  · rw [splitParams, if_neg cut]
    exact cut

theorem pathOf_longer {scheme url path params : List Char}
    (split : pathOf scheme url = (path, params)) :
    pathOf scheme (path ++ ['x']) = (path ++ ['x'], []) := by
  unfold pathOf at split ⊢
  split
  next uses =>
    rw [if_pos uses] at split
    have bare := splitParams_bare url
    rw [split] at bare
    have still : Bare (path ++ ['x']) := by
      rw [Bare, lastPart_append _ (by decide)]
      simpa [Bare] using bare
    rw [splitParams, if_neg still]
  next => rfl

/-- The path that is left starts as the text did. -/
theorem pathOf_initial {scheme url path params : List Char}
    (split : pathOf scheme url = (path, params)) : path <+: url := by
  have whole : uptoLast '/' url ++ lastPart '/' url = url := by
    rw [uptoLast, lastPart, ← List.reverse_append, List.takeWhile_append_dropWhile,
      List.reverse_reverse]
  unfold pathOf at split
  split at split
  · unfold splitParams at split
    split at split
    · cases split
      conv => rhs; rw [← whole]
      exact (List.prefix_append_right_inj _).mpr ⟨_, List.takeWhile_append_dropWhile⟩
    · cases split
      exact List.prefix_refl _
  · cases split
    exact List.prefix_refl _

theorem splitScheme_again {url scheme rest : List Char}
    (split : splitScheme url = (scheme, rest)) :
    ∃ lead, url = lead ++ rest ∧ (∀ first ∈ lead.head?, first.isAlpha = true) ∧
      ∀ later, splitScheme (lead ++ '/' :: later) = (scheme, '/' :: later) := by
  by_cases found : ':' ∈ url ∧ isScheme (partition ':' url).1
  · rw [splitScheme, if_pos found] at split
    cases split
    obtain ⟨colon, proper⟩ := found
    have absent : ':' ∉ (partition ':' url).1 := not_mem_partition
    refine ⟨(partition ':' url).1 ++ [':'], ?_, ?_, ?_⟩
    · have whole : (partition ':' url).1 ++ url.dropWhile (· != ':') = url :=
        List.takeWhile_append_dropWhile
      cases left : url.dropWhile (· != ':') with
      | nil =>
          rw [left, List.append_nil] at whole
          rw [whole] at absent
          exact absurd colon absent
      | cons first later =>
          have nonempty : url.dropWhile (· != ':') ≠ [] := by simp [left]
          have stops := List.head_dropWhile_not (· != ':') nonempty
          obtain rfl : first = ':' := by simpa [left] using stops
          have rest : (partition ':' url).2 = later := by simp [partition, left]
          rw [rest, List.append_assoc, List.singleton_append, ← left, whole]
    · intro first head
      cases raw : (partition ':' url).1 with
      | nil => simp [raw, isScheme] at proper
      | cons other later =>
          simp only [raw, List.cons_append, List.head?_cons, Option.mem_some_iff] at head
          simp only [raw, isScheme, List.head?_cons, Option.any_some, Bool.and_eq_true] at proper
          rw [← head]
          exact proper.1.2
    · intro later
      have again : partition ':' ((partition ':' url).1 ++ ':' :: '/' :: later) =
          ((partition ':' url).1, '/' :: later) := partition_append absent _
      have mem : ':' ∈ (partition ':' url).1 ++ ':' :: '/' :: later := by simp
      rw [List.append_assoc, List.singleton_append, splitScheme, again, if_pos ⟨mem, proper⟩]
  · rw [splitScheme, if_neg found] at split
    cases split
    refine ⟨[], rfl, by simp, fun later => ?_⟩
    have improper : ¬ isScheme (partition ':' ([] ++ '/' :: later)).1 := by
      simp [partition, isScheme]
    rw [splitScheme, if_neg (fun both => improper both.2)]
    rfl

/-- A network location is followed by a delimiter, and holds none. -/
theorem splitNetloc_again {url netloc rest : List Char}
    (split : splitNetloc url = (netloc, rest)) (located : netloc ≠ []) :
    (∀ first ∈ rest.head?, endsNetloc first = true) ∧ url = '/' :: '/' :: (netloc ++ rest) ∧
      ∀ later, splitNetloc ('/' :: '/' :: (netloc ++ '/' :: later)) = (netloc, '/' :: later) := by
  unfold splitNetloc at split
  split at split
  next text =>
    cases split
    have whole := List.takeWhile_append_dropWhile (p := fun char => !endsNetloc char) (l := text)
    refine ⟨?_, by rw [whole], fun later => ?_⟩
    · intro first head
      have stops := List.head?_dropWhile_not (fun char => !endsNetloc char) text
      rw [Option.mem_def] at head
      rw [head] at stops
      simpa using stops
    · have none : ∀ char ∈ text.takeWhile (fun char => !endsNetloc char),
          (!endsNetloc char) = true := fun char member =>
        List.mem_takeWhile_imp (p := fun char => !endsNetloc char) member
      simp only [splitNetloc]
      rw [List.takeWhile_append_of_pos none, List.dropWhile_append_of_pos none]
      simp [endsNetloc]
  next => exact absurd (congrArg Prod.fst split).symm located

theorem cleaned_safe {url : List Char} {char : Char} (member : char ∈ cleaned url) :
    isUnsafe char = false := by
  simpa using (List.mem_filter.mp member).2

theorem cleaned_self {url : List Char} (safe : ∀ char ∈ url, isUnsafe char = false)
    (starts : ∀ first ∈ url.head?, isC0ControlOrSpace first = false) : cleaned url = url := by
  have kept : url.dropWhile isC0ControlOrSpace = url := by
    cases url with
    | nil => rfl
    | cons first rest => rw [List.dropWhile_cons_of_neg]; simp [starts first rfl]
  rw [cleaned, kept, List.filter_eq_self]
  simpa using safe

structure Stages (library : Library) (url : List Char) (parsed : ParseResult) where
  afterScheme : List Char
  afterNetloc : List Char
  withQuery : List Char
  bare : List Char
  scheme : splitScheme (cleaned url) = (parsed.scheme, afterScheme)
  netloc : splitNetloc afterScheme = (parsed.netloc, afterNetloc)
  fragment : partition '#' afterNetloc = (withQuery, parsed.fragment)
  query : partition '?' withQuery = (bare, parsed.query)
  valid : checkNetloc library parsed.netloc = .ok ()
  path : pathOf parsed.scheme bare = (parsed.path, parsed.params)

theorem urlparse_stages {library : Library} {url : List Char} {parsed : ParseResult} :
    urlparse library url = .ok parsed ↔ Nonempty (Stages library url parsed) := by
  constructor
  · intro parses
    unfold urlparse at parses
    cases first : splitScheme (cleaned url) with | mk scheme afterScheme => ?_
    cases second : splitNetloc afterScheme with | mk netloc afterNetloc => ?_
    cases third : partition '#' afterNetloc with | mk withQuery fragment => ?_
    cases fourth : partition '?' withQuery with | mk bare query => ?_
    cases last : pathOf scheme bare with | mk path params => ?_
    cases valid : checkNetloc library netloc with
    | error exc => simp [first, second, valid, bind, Except.bind] at parses
    | ok done =>
        simp only [first, second, third, fourth, valid, last] at parses
        cases parses
        exact ⟨⟨afterScheme, afterNetloc, withQuery, bare, first, second, third, fourth, valid,
          last⟩⟩
  · rintro ⟨stages⟩
    rw [urlparse, stages.scheme]
    simp only [stages.netloc, stages.fragment, stages.query, stages.valid, stages.path]
    rfl

variable {library : Library} {url : List Char} {parsed : ParseResult}

theorem partition_initial (char : Char) (text : List Char) : (partition char text).1 <+: text :=
  ⟨_, List.takeWhile_append_dropWhile⟩

theorem Stages.path_bare (stages : Stages library url parsed) : parsed.path <+: stages.bare :=
  pathOf_initial stages.path

theorem Stages.bare_query (stages : Stages library url parsed) :
    stages.bare <+: stages.withQuery := by
  have part := partition_initial '?' stages.withQuery
  rwa [stages.query] at part

theorem Stages.query_rest (stages : Stages library url parsed) :
    stages.withQuery <+: stages.afterNetloc := by
  have part := partition_initial '#' stages.afterNetloc
  rwa [stages.fragment] at part

theorem Stages.path_rest (stages : Stages library url parsed) :
    parsed.path <+: stages.afterNetloc :=
  (stages.path_bare.trans stages.bare_query).trans stages.query_rest

theorem Stages.no_query (stages : Stages library url parsed) : '?' ∉ parsed.path := by
  have absent := @not_mem_partition '?' stages.withQuery
  rw [stages.query] at absent
  exact fun member => absent (stages.path_bare.subset member)

theorem Stages.no_fragment (stages : Stages library url parsed) : '#' ∉ parsed.path := by
  have absent := @not_mem_partition '#' stages.afterNetloc
  rw [stages.fragment] at absent
  exact fun member => absent (stages.bare_query.subset (stages.path_bare.subset member))

/-- A path after a network location is empty or absolute. -/
theorem Stages.absolute (stages : Stages library url parsed) (located : parsed.netloc ≠ [])
    (rooted : parsed.path ≠ []) : ∃ rest, parsed.path = '/' :: rest := by
  obtain ⟨ends, _, _⟩ := splitNetloc_again stages.netloc located
  have no_query := stages.no_query
  have no_fragment := stages.no_fragment
  obtain ⟨later, whole⟩ := stages.path_rest
  cases same : parsed.path with
  | nil => exact absurd same rooted
  | cons first rest =>
      rw [same] at whole no_query no_fragment
      have delimiter := ends first (by rw [← whole]; rfl)
      simp only [endsNetloc, Bool.or_eq_true, decide_eq_true_eq] at delimiter
      rcases delimiter with (slash | mark) | sharp
      · exact ⟨rest, by rw [slash]⟩
      · exact absurd (mark ▸ List.mem_cons_self) no_query
      · exact absurd (sharp ▸ List.mem_cons_self) no_fragment

theorem letter_shown {char : Char} (letter : char.isAlpha = true) :
    isC0ControlOrSpace char = false := by
  have letters : char.isAlpha = (decide ('A'.val ≤ char.val ∧ char.val ≤ 'Z'.val) ||
      (decide ('a'.val ≤ char.val) && decide (char.val ≤ 'z'.val))) := rfl
  simp only [letters, Bool.or_eq_true, Bool.and_eq_true, decide_eq_true_eq,
    UInt32.le_iff_toNat_le] at letter
  simp only [isC0ControlOrSpace, decide_eq_false_iff_not, Char.toNat]
  rcases letter with upper | lower
  · have least : 65 ≤ char.val.toNat := upper.1
    omega
  · have least : 97 ≤ char.val.toNat := lower.1
    omega

theorem urlparse_longer (parses : urlparse library url = .ok parsed)
    (located : parsed.netloc ≠ []) (rooted : parsed.path ≠ []) :
    ∃ longer, urlparse library longer = .ok { parsed with
      path := parsed.path ++ ['x'], params := [], query := [], fragment := [] } := by
  obtain ⟨stages⟩ := urlparse_stages.mp parses
  obtain ⟨rest, absolute⟩ := stages.absolute located rooted
  obtain ⟨lead, whole, starts, scheme⟩ := splitScheme_again stages.scheme
  obtain ⟨_, inside, netloc⟩ := splitNetloc_again stages.netloc located
  have longer : parsed.path ++ ['x'] = '/' :: (rest ++ ['x']) := by rw [absolute]; rfl
  let shown := lead ++ '/' :: '/' :: (parsed.netloc ++ (parsed.path ++ ['x']))
  have clean : cleaned shown = shown := by
    apply cleaned_self
    · intro char member
      have known : char ∈ cleaned url ∨ char = 'x' := by
        rw [whole, inside]
        have path : char ∈ parsed.path → char ∈ stages.afterNetloc := fun member =>
          stages.path_rest.subset member
        simp only [shown, List.mem_append, List.mem_cons, List.not_mem_nil] at member ⊢
        tauto
      rcases known with known | rfl
      · exact cleaned_safe known
      · decide
    · intro first head
      cases begun : lead with
      | nil =>
          simp only [shown, begun, List.nil_append, List.head?_cons, Option.mem_some_iff] at head
          subst head
          decide
      | cons other more =>
          have letter := starts other (by rw [begun]; rfl)
          simp only [shown, begun, List.cons_append, List.head?_cons, Option.mem_some_iff] at head
          subst head
          exact letter_shown letter
  refine ⟨shown, urlparse_stages.mpr ⟨{
    afterScheme := '/' :: '/' :: (parsed.netloc ++ (parsed.path ++ ['x']))
    afterNetloc := parsed.path ++ ['x']
    withQuery := parsed.path ++ ['x']
    bare := parsed.path ++ ['x']
    scheme := ?_
    netloc := ?_
    fragment := partition_absent ?_
    query := partition_absent ?_
    valid := stages.valid
    path := pathOf_longer stages.path }⟩⟩
  · rw [clean]
    exact scheme _
  · rw [longer]
    exact netloc _
  · simpa using stages.no_fragment
  · simpa using stages.no_query

end Longer
end AgentTaskPlatform.Urls
