import AgentTaskPlatform.Redaction
import Mathlib.Data.List.Induction

/-!
Which keys the redactors take for credentials, and what they keep of a value. Neither of them
looks at a key up to its spelling, and each has names that the other one has not: they agree
on a value exactly when no key in it is, in any spelling, the name of a credential.
-/

namespace AgentTaskPlatform.Redaction

open NestedValues Urls

section Redactors

variable (library : Library) (maxString : Nat) {Scalar : Type}

def marker : Data Scalar := .leaf (.text redactedText)

theorem redactItemsForLog_map (items : List (Data Scalar)) :
    redactItemsForLog library maxString items = items.map (redactForLog library maxString) := by
  induction items with
  | nil => rfl
  | cons item rest ih => rw [redactItemsForLog, ih, List.map_cons]

theorem redactItemsForLog_modify {items : List (Data Scalar)} {index : Nat} {item : Data Scalar}
    {change : Data Scalar → Data Scalar} (present : items[index]? = some item)
    (same : redactForLog library maxString (change item) = redactForLog library maxString item) :
    redactItemsForLog library maxString (items.modify index change) =
      redactItemsForLog library maxString items := by
  rw [redactItemsForLog_map, redactItemsForLog_map, map_modify_same present same]

theorem redactEntriesForLog_map (entries : List (List Char × Data Scalar)) :
    redactEntriesForLog library maxString entries = entries.map fun entry =>
      (entry.1, if isSensitiveForLog library entry.1 then marker
        else redactForLog library maxString entry.2) := by
  induction entries with
  | nil => rfl
  | cons entry rest ih =>
      rw [redactEntriesForLog, ih, List.map_cons]
      rfl

theorem redactItems_map (items : List (Data Scalar)) :
    redactItems library items = items.map (redact library) := by
  induction items with
  | nil => rfl
  | cons item rest ih => rw [redactItems, ih, List.map_cons]

theorem redactEntries_map (entries : List (List Char × Data Scalar)) :
    redactEntries library entries = entries.map fun entry =>
      (entry.1, if isSensitiveKey library entry.1 then marker else redact library entry.2) := by
  induction entries with
  | nil => rfl
  | cons entry rest ih =>
      rw [redactEntries, ih, List.map_cons]
      rfl

def hidesEntry (sensitive : List Char → Bool) : Step (List Char) → Bool
  | .entry key => sensitive key
  | .item | .member => false

def entersLists : Step (List Char) → Bool
  | .member => false
  | .item | .entry _ => true

def logRedactor : Redactor (List Char) (Leaf Scalar) where
  redact := redactForLog library maxString
  hides := hidesEntry (isSensitiveForLog library)
  enters := fun _ => true
  marker := marker
  rebuilt := by
    intro value
    cases value with
    | leaf content => rfl
    | list items =>
        simp [redactForLog, redactItemsForLog_map, Value.children, hidesEntry]
    | tuple items =>
        simp [redactForLog, redactItemsForLog_map, Value.children, hidesEntry]
    | dict entries =>
        simp [redactForLog, redactEntriesForLog_map, Value.children, hidesEntry]
  determined := by
    intro value index change step child inside same
    cases value with
    | leaf content => rfl
    | list items =>
        obtain ⟨rfl, present⟩ := child_list inside
        have equal := (same.resolve_left (by simp [hidesEntry])).2
        simp only [Value.modifyChild, redactForLog]
        rw [redactItemsForLog_modify library maxString present equal]
    | tuple items =>
        obtain ⟨rfl, present⟩ := child_tuple inside
        have equal := (same.resolve_left (by simp [hidesEntry])).2
        simp only [Value.modifyChild, redactForLog]
        rw [redactItemsForLog_modify library maxString present equal]
    | dict entries =>
        obtain ⟨key, rfl, present⟩ := child_dict inside
        simp only [Value.modifyChild, redactForLog, redactEntriesForLog_map]
        rw [map_modify_same present]
        rcases same with hidden | ⟨_, equal⟩
        · have sensitive : isSensitiveForLog library key = true := hidden
          simp [sensitive]
        · simp [equal]

def recordRedactor : Redactor (List Char) (Leaf Scalar) where
  redact := redact library
  hides := hidesEntry (isSensitiveKey library)
  enters := entersLists
  marker := marker
  rebuilt := by
    intro value
    cases value with
    | leaf content => rfl
    | list items =>
        simp [redact, redactItems_map, Value.children, hidesEntry, entersLists]
    | tuple items =>
        rw [redact, Value.children, List.map_map, List.map_map]
        rfl
    | dict entries =>
        simp [redact, redactEntries_map, Value.children, hidesEntry, entersLists]
  determined := by
    intro value index change step child inside same
    cases value with
    | leaf content => rfl
    | list items =>
        obtain ⟨rfl, present⟩ := child_list inside
        have equal := (same.resolve_left (by simp [hidesEntry])).2
        simp only [Value.modifyChild, redact, redactItems_map]
        rw [map_modify_same present equal]
    | tuple items =>
        obtain ⟨rfl, present⟩ := child_tuple inside
        simp [hidesEntry, entersLists] at same
    | dict entries =>
        obtain ⟨key, rfl, present⟩ := child_dict inside
        simp only [Value.modifyChild, redact, redactEntries_map]
        rw [map_modify_same present]
        rcases same with hidden | ⟨_, equal⟩
        · have sensitive : isSensitiveKey library key = true := hidden
          simp [sensitive]
        · simp [equal]

end Redactors

section Names

variable {library : Library} {key text : List Char}

/-- A name without separators that one of the redactors knows in some spelling. `_redact` does
not look into tuples. -/
def Credential (withinTuple : Bool) (name : List Char) : Prop :=
  name ∈ sensitiveKeys.map withoutSeparators ∨
    withinTuple = false ∧ (name ∈ credentialNames.map withoutSeparators ∨
      "apikey".toList <:+ name ∨ "secret".toList <:+ name)

theorem withoutSeparators_append (left right : List Char) :
    withoutSeparators (left ++ right) = withoutSeparators left ++ withoutSeparators right := by
  rw [withoutSeparators, List.filter_append, List.filter_append]
  rfl

theorem mem_withoutSeparators {char : Char} :
    char ∈ withoutSeparators text ↔ char ∈ text ∧ char ≠ '_' ∧ char ≠ '-' := by
  simp only [withoutSeparators, List.mem_filter, bne_iff_ne, and_assoc]

theorem withoutSeparators_self (none : ∀ char ∈ text, char ≠ '_' ∧ char ≠ '-') :
    withoutSeparators text = text := by
  have first : text.filter (· != '_') = text :=
    List.filter_eq_self.mpr fun char member => by simpa using (none char member).1
  rw [withoutSeparators, first]
  exact List.filter_eq_self.mpr fun char member => by simpa using (none char member).2

theorem withoutSeparators_normalized :
    withoutSeparators (normalized library key) = normalized library key :=
  withoutSeparators_self fun _ member => (mem_withoutSeparators.mp member).2

theorem withoutSeparators_suffix {ending : List Char} (ends : ending <:+ text) :
    withoutSeparators ending <:+ withoutSeparators text :=
  (ends.filter _).filter _

theorem credential_of_log (sensitive : isSensitiveForLog library key = true)
    (withinTuple : Bool) : Credential withinTuple (normalized library key) := by
  rw [isSensitiveForLog, Bool.or_eq_true, List.contains_iff_mem, List.contains_iff_mem]
    at sensitive
  left
  rcases sensitive with whole | name
  · exact List.mem_map_of_mem whole
  · rw [← withoutSeparators_normalized]
    exact List.mem_map_of_mem name

theorem credential_of_record (sensitive : isSensitiveKey library key = true) :
    Credential false (normalized library key) := by
  simp only [isSensitiveKey, Bool.or_eq_true, List.contains_iff_mem, List.isSuffixOf_iff_suffix]
    at sensitive
  refine Or.inr ⟨rfl, ?_⟩
  rcases sensitive with (whole | ends) | ends
  · exact Or.inl (List.mem_map_of_mem whole)
  · exact Or.inr (Or.inl (withoutSeparators_suffix ends))
  · exact Or.inr (Or.inr (withoutSeparators_suffix ends))

theorem lower_name {name : List Char} (ascii : name.all isAscii = true)
    (small : lowerAscii name = name) : library.lower name = name :=
  (library.lower_ascii name ascii).trans small

theorem sensitiveKeys_lower (member : text ∈ sensitiveKeys) : library.lower text = text := by
  have known : ∀ name ∈ sensitiveKeys, name.all isAscii = true ∧ lowerAscii name = name := by
    decide
  exact lower_name (known text member).1 (known text member).2

theorem credentialNames_lower (member : text ∈ credentialNames) : library.lower text = text := by
  have known : ∀ name ∈ credentialNames, name.all isAscii = true ∧ lowerAscii name = name := by
    decide
  exact lower_name (known text member).1 (known text member).2

/-- A part of a normalized key stays as it is, with more lower-case ASCII characters behind. -/
theorem lower_extended {start ending : List Char} (part : ∀ char ∈ start,
      char ∈ normalized library key) (ascii : ending.all isAscii = true)
    (small : lowerAscii ending = ending) : library.lower (start ++ ending) = start ++ ending := by
  apply library.lower_fixed
  intro char member
  rcases List.mem_append.mp member with inside | behind
  · have lowered := (mem_withoutSeparators.mp (part char inside)).1
    exact library.lower_lowered key char lowered
  · have own : isAscii char = true := List.all_eq_true.mp ascii char behind
    have each : ending.map Char.toLower = ending.map id := small.trans (List.map_id ending).symm
    have same : char.toLower = char := List.map_inj_left.mp each char behind
    rw [library.lower_ascii [char] (by simp [own]), lowerAscii, List.map_singleton, same]

theorem ending_spelled {plain ending : List Char} (ascii : ending.all isAscii = true)
    (small : lowerAscii ending = ending) (spelled : withoutSeparators ending = plain)
    (ends : plain <:+ normalized library key) : ∃ other,
      normalized library other = normalized library key ∧ ending <:+ library.lower other := by
  obtain ⟨start, whole⟩ := ends
  have part : ∀ char ∈ start, char ∈ normalized library key := fun char member => by
    rw [← whole]
    exact List.mem_append_left plain member
  have lowered := lower_extended part ascii small
  -- The ending is put back with its separators.
  refine ⟨start ++ ending, ?_, ?_⟩
  · have bare : withoutSeparators start = start :=
      withoutSeparators_self fun char member => (mem_withoutSeparators.mp (part char member)).2
    rw [normalized, lowered, withoutSeparators_append, bare, spelled, whole]
  · rw [lowered]
    exact List.suffix_append start ending

theorem credential_spelled {withinTuple : Bool}
    (credential : Credential withinTuple (normalized library key)) : ∃ other,
      normalized library other = normalized library key ∧
        (isSensitiveForLog library other = true ∨
          withinTuple = false ∧ isSensitiveKey library other = true) := by
  rcases credential with log | ⟨outside, record⟩
  · obtain ⟨name, member, same⟩ := List.mem_map.mp log
    have lowered := @sensitiveKeys_lower library _ member
    refine ⟨name, by rw [normalized, lowered, same], Or.inl ?_⟩
    rw [isSensitiveForLog, lowered, List.contains_iff_mem.mpr member]
    rfl
  · rcases record with listed | apiKey | secret
    · obtain ⟨name, member, same⟩ := List.mem_map.mp listed
      have lowered := @credentialNames_lower library _ member
      refine ⟨name, by rw [normalized, lowered, same], Or.inr ⟨outside, ?_⟩⟩
      simp [isSensitiveKey, lowered, member]
    · obtain ⟨other, same, ends⟩ := @ending_spelled library key "apikey".toList
        "_api_key".toList (by decide) (by decide) (by decide) apiKey
      refine ⟨other, same, Or.inr ⟨outside, ?_⟩⟩
      simp only [isSensitiveKey, Bool.or_eq_true, List.isSuffixOf_iff_suffix]
      exact Or.inl (Or.inr ends)
    · obtain ⟨other, same, ends⟩ := @ending_spelled library key "secret".toList
        "_secret".toList (by decide) (by decide) (by decide) secret
      refine ⟨other, same, Or.inr ⟨outside, ?_⟩⟩
      simp only [isSensitiveKey, Bool.or_eq_true, List.isSuffixOf_iff_suffix]
      exact Or.inr ends

theorem suffix_last {ending start : List Char} {last : Char} (nonempty : ending ≠ [])
    (ends : ending <:+ start ++ [last]) : ending.getLast? = some last := by
  obtain ⟨before, whole⟩ := ends
  have same := congrArg List.getLast? whole
  rwa [List.getLast?_append_of_ne_nil _ nonempty, List.getLast?_concat] at same

theorem unknown_spelled (library : Library) (key : List Char) : ∃ other,
    normalized library other = normalized library key ∧ isSensitiveKey library other = false := by
  have lowered : library.lower (normalized library key ++ ['-']) =
      normalized library key ++ ['-'] := lower_extended (fun _ member => member) rfl rfl
  -- No name and no ending that `_redact` looks for has a hyphen for its last character.
  have ends : ∀ name ∈ credentialNames, name.getLast? ≠ some '-' := by decide
  refine ⟨normalized library key ++ ['-'], ?_, ?_⟩
  · rw [normalized, lowered, withoutSeparators_append, withoutSeparators_normalized]
    exact List.append_nil _
  · rw [Bool.eq_false_iff]
    intro sensitive
    simp only [isSensitiveKey, lowered, Bool.or_eq_true, List.contains_iff_mem,
      List.isSuffixOf_iff_suffix] at sensitive
    rcases sensitive with (listed | apiKey) | secret
    · exact ends _ listed List.getLast?_concat
    · exact absurd (suffix_last (by decide) apiKey) (by decide)
    · exact absurd (suffix_last (by decide) secret) (by decide)

end Names

section Routes

variable {library : Library} {maxString : Nat} {Scalar : Type} {withinTuple : Bool}
  {route : List (Step (List Char))}

def Clean (library : Library) : Bool → List (Step (List Char)) → Prop
  | _, [] => True
  | withinTuple, .entry key :: rest =>
      ¬ Credential withinTuple (normalized library key) ∧ Clean library withinTuple rest
  | withinTuple, .item :: rest => Clean library withinTuple rest
  | _, .member :: rest => Clean library true rest

def spelled (library : Library) : Step (List Char) → Step (List Char)
  | .entry key => .entry (normalized library key)
  | .item => .item
  | .member => .member

theorem clean_spelled {other : List (Step (List Char))}
    (alike : other.map (spelled library) = route.map (spelled library))
    (clean : Clean library withinTuple route) : Clean library withinTuple other := by
  induction route generalizing other withinTuple with
  | nil =>
      rw [List.map_nil, List.map_eq_nil_iff] at alike
      rw [alike]
      trivial
  | cons step rest ih =>
      cases other with
      | nil => cases alike
      | cons first later =>
          rw [List.map_cons, List.map_cons, List.cons.injEq] at alike
          obtain ⟨same, alike⟩ := alike
          cases step with
          | item =>
              cases first with
              | item =>
                  have below : Clean library withinTuple later := ih alike clean
                  exact below
              | member => cases same
              | entry key => cases same
          | member =>
              cases first with
              | item => cases same
              | member =>
                  have below : Clean library true later := ih alike clean
                  exact below
              | entry key => cases same
          | entry key =>
              cases first with
              | item => cases same
              | member => cases same
              | entry other =>
                  have names : normalized library other = normalized library key :=
                    Step.entry.inj same
                  exact ⟨names ▸ clean.1, ih alike clean.2⟩

theorem clean_snoc {step : Step (List Char)} (clean : Clean library withinTuple route)
    (last : ∀ key, step = .entry key →
      ¬ Credential (withinTuple || !route.all entersLists) (normalized library key)) :
    Clean library withinTuple (route ++ [step]) := by
  induction route generalizing withinTuple with
  | nil =>
      cases step with
      | item => trivial
      | member => trivial
      | entry key =>
          refine ⟨?_, trivial⟩
          simpa using last key rfl
  | cons first rest ih =>
      cases first with
      | item => exact ih clean last
      | member =>
          refine ih clean fun key same => ?_
          simpa [entersLists] using last key same
      | entry key => exact ⟨clean.1, ih clean.2 last⟩

/-- Nothing on a clean route is hidden from the logs, and outside of tuples nothing from the
records either. -/
theorem clean_visible (clean : Clean library withinTuple route) :
    (@logRedactor library maxString Scalar).hidden route = false ∧
      (withinTuple = false → (@recordRedactor library Scalar).hidden route = false) := by
  induction route generalizing withinTuple with
  | nil => exact ⟨rfl, fun _ => rfl⟩
  | cons step rest ih =>
      cases step with
      | item => exact ih clean
      | member => exact ⟨(ih clean).1, fun _ => rfl⟩
      | entry key =>
          obtain ⟨log, record⟩ := ih clean.2
          constructor
          · have plain : isSensitiveForLog library key = false := by
              rw [Bool.eq_false_iff]
              exact fun sensitive => clean.1 (credential_of_log sensitive withinTuple)
            rw [Redactor.hidden, log, Bool.and_false, Bool.or_false]
            exact plain
          · rintro rfl
            have plain : isSensitiveKey library key = false := by
              rw [Bool.eq_false_iff]
              exact fun sensitive => clean.1 (credential_of_record sensitive)
            rw [Redactor.hidden, record rfl, Bool.and_false, Bool.or_false]
            exact plain

variable {value found : Data Scalar} {path : List Nat}

theorem withheld_log (walked : value.walk path = some (route, found)) :
    Withheld (redactForLog library maxString) value path ↔
      (@logRedactor library maxString Scalar).hidden route = true :=
  withheld_iff (logRedactor library maxString) walked

theorem withheld_record (walked : value.walk path = some (route, found)) :
    Withheld (redact library) value path ↔
      (@recordRedactor library Scalar).hidden route = true :=
  withheld_iff (recordRedactor library) walked

/-- The value under a key is withheld exactly when the redactor reaches the key and takes it
for a credential. -/
theorem withheld_log_entry {key : List Char}
    (walked : value.walk path = some (route ++ [.entry key], found))
    (visible : (@logRedactor library maxString Scalar).hidden route = false) :
    Withheld (redactForLog library maxString) value path ↔
      isSensitiveForLog library key = true := by
  rw [withheld_log walked, hidden_snoc, visible]
  simp [logRedactor, hidesEntry]

theorem withheld_record_entry {key : List Char}
    (walked : value.walk path = some (route ++ [.entry key], found))
    (visible : (@recordRedactor library Scalar).hidden route = false) :
    Withheld (redact library) value path ↔
      route.all entersLists = true ∧ isSensitiveKey library key = true := by
  rw [withheld_record walked, hidden_snoc, visible]
  simp only [recordRedactor, hidesEntry, Bool.false_or, Bool.and_eq_true]

end Routes

section Properties

variable {Scalar : Type}

def SpellingFree (library : Library) (redact : Data Scalar → Data Scalar) (value : Data Scalar) :
    Prop :=
  ∀ path route found, value.walk path = some (route, found) →
    ∀ other otherPath otherRoute otherFound,
      Value.walk other otherPath = some (otherRoute, otherFound) →
      otherRoute.map (spelled library) = route.map (spelled library) →
      (Withheld redact value path ↔ Withheld redact other otherPath)

def Agree (one other : Data Scalar → Data Scalar) (value : Data Scalar) : Prop :=
  ∀ path route found, value.walk path = some (route, found) →
    (Withheld one value path ↔ Withheld other value path)

/-- A text is kept up to what is cut off, a container with all its places and keys. -/
inductive Kept (cut : List Char → List Char) : Data Scalar → Data Scalar → Prop
  | text (content : List Char) :
      Kept cut (.leaf (.text content)) (.leaf (.text (cut content)))
  | bytes (content : List UInt8) :
      Kept cut (.leaf (.bytes content)) (.leaf (.bytes content))
  | decoded (content : List Char) :
      Kept cut (.leaf (.bytes (Utf8.encode content))) (.leaf (.text (cut content)))
  | other (scalar : Scalar) : Kept cut (.leaf (.other scalar)) (.leaf (.other scalar))
  | list {items shown : List (Data Scalar)} (same : items.length = shown.length) :
      Kept cut (.list items) (.list shown)
  | tuple {items shown : List (Data Scalar)} (same : items.length = shown.length) :
      Kept cut (.tuple items) (.tuple shown)
  | listed {items shown : List (Data Scalar)} (same : items.length = shown.length) :
      Kept cut (.tuple items) (.list shown)
  | dict {entries shown : List (List Char × Data Scalar)}
      (same : entries.map Prod.fst = shown.map Prod.fst) : Kept cut (.dict entries) (.dict shown)

def LosesNothing (cut : List Char → List Char) (redact : Data Scalar → Data Scalar)
    (value : Data Scalar) : Prop :=
  ∀ path route found, value.walk path = some (route, found) → ¬ Withheld redact value path →
    ∃ steps shown, (redact value).walk path = some (steps, shown) ∧ Kept cut found shown

structure Faithful (library : Library) (maxString : Nat) (value : Data Scalar) : Prop where
  logSpelling : SpellingFree library (redactForLog library maxString) value
  recordSpelling : SpellingFree library (redact library) value
  agree : Agree (redactForLog library maxString) (redact library) value
  logKeeps : LosesNothing (truncate maxString) (redactForLog library maxString) value
  recordKeeps : LosesNothing id (redact library) value

def Unaltered (library : Library) (maxString : Nat) (content : List Char) : Prop :=
  listContains content "://".toList = true →
    safeUrl library content = content ∨
      maxString < content.length ∧ maxString < (safeUrl library content).length ∧
        (safeUrl library content).take maxString = content.take maxString

structure Plain (library : Library) (maxString : Nat) (value : Data Scalar) : Prop where
  keys : ∀ path route found, value.walk path = some (route, found) → Clean library false route
  texts : ∀ path route content, value.walk path = some (route, .leaf (.text content)) →
    Unaltered library maxString content
  bytes : ∀ path route content, value.walk path = some (route, .leaf (.bytes content)) →
    ∃ text, Utf8.encode text = content ∧ Unaltered library maxString text

variable {library : Library} {maxString : Nat} {value : Data Scalar}

theorem truncate_length {text : List Char} (long : maxString < text.length) :
    maxString < (truncate maxString text).length := by
  rw [truncate, if_pos long, List.length_append, List.length_take]
  have mark : "...<truncated>".toList.length = 14 := rfl
  omega

theorem truncate_eq_iff {one other : List Char} :
    truncate maxString one = truncate maxString other ↔ one = other ∨
      maxString < other.length ∧ maxString < one.length ∧
        one.take maxString = other.take maxString := by
  have short {text : List Char} (fits : ¬ maxString < text.length) :
      truncate maxString text = text := if_neg fits
  constructor
  · intro same
    by_cases long : maxString < one.length
    · have longer := truncate_length long
      rw [same] at longer
      by_cases also : maxString < other.length
      · rw [truncate, truncate, if_pos long, if_pos also] at same
        exact Or.inr ⟨also, long, List.append_cancel_right same⟩
      · rw [short also] at longer
        exact absurd longer also
    · by_cases also : maxString < other.length
      · have longer := truncate_length also
        rw [← same, short long] at longer
        exact absurd longer long
      · rw [short long, short also] at same
        exact Or.inl same
  · rintro (rfl | ⟨also, long, same⟩)
    · rfl
    · rw [truncate, truncate, if_pos long, if_pos also, same]

theorem shownText_iff {content : List Char} :
    shownText library maxString content = truncate maxString content ↔
      Unaltered library maxString content := by
  unfold shownText Unaltered
  by_cases address : listContains content "://".toList = true
  · rw [if_pos address, truncate_eq_iff]
    exact ⟨fun same _ => same, fun same => same address⟩
  · rw [if_neg address]
    exact ⟨fun _ found => absurd found address, fun _ => rfl⟩

/-- A value of which a key on some route is the name of a credential is redacted by one
redactor and not by the other, or differently in another spelling. -/
theorem faithful_clean (faithful : Faithful library maxString value) {path : List Nat}
    {route : List (Step (List Char))} {found : Data Scalar}
    (walked : value.walk path = some (route, found)) : Clean library false route := by
  -- From the outside in: both redactors reach the place around, whose route is clean.
  induction path using List.reverseRecOn generalizing route found with
  | nil =>
      rw [walk_nil] at walked
      cases walked
      trivial
  | append_singleton path index ih =>
      have whole := walked
      obtain ⟨before, around, step, reached, -, rfl⟩ := walk_snoc walked
      have clean := ih reached
      refine clean_snoc clean ?_
      rintro key rfl credential
      obtain ⟨logVisible, recordVisible⟩ := @clean_visible library maxString Scalar _ _ clean
      -- the same place, with the key in a spelling that a redactor knows and in one unknown
      obtain ⟨known, sameKnown, sensitive⟩ := credential_spelled credential
      obtain ⟨unknown, sameUnknown, insensitive⟩ := unknown_spelled library key
      let respelled (other : List Char) : Data Scalar := nest found (before ++ [.entry other])
      have there (other : List Char) : (respelled other).walk ((before ++
          [Step.entry other]).map fun _ => 0) = some (before ++ [.entry other], found) :=
        walk_nest found _
      have alike {other : List Char} (same : normalized library other = normalized library key) :
          (before ++ [Step.entry other]).map (spelled library) =
            (before ++ [Step.entry key]).map (spelled library) := by
        simp [spelled, same]
      -- What `_redact` overlooks in one spelling it has to show in every other one.
      have overlooked : ¬ Withheld (redact library) value (path ++ [index]) := by
        rw [faithful.recordSpelling _ _ _ whole _ _ _ _ (there unknown) (alike sameUnknown),
          withheld_record_entry (there unknown) (recordVisible rfl), insensitive]
        exact fun ⟨_, wrong⟩ => nomatch wrong
      have unseen := overlooked
      rw [faithful.recordSpelling _ _ _ whole _ _ _ _ (there known) (alike sameKnown),
        withheld_record_entry (there known) (recordVisible rfl)] at unseen
      have logged : isSensitiveForLog library known = true := by
        refine sensitive.resolve_right ?_
        rintro ⟨outside, record⟩
        exact unseen ⟨by simpa using outside, record⟩
      have withheld : Withheld (redactForLog library maxString) value (path ++ [index]) := by
        rw [faithful.logSpelling _ _ _ whole _ _ _ _ (there known) (alike sameKnown),
          withheld_log_entry (there known) logVisible]
        exact logged
      exact overlooked ((faithful.agree _ _ _ whole).mp withheld)

theorem walk_log {path : List Nat} {route : List (Step (List Char))} {found : Data Scalar}
    (walked : value.walk path = some (route, found)) (clean : Clean library false route) :
    ∃ steps, (redactForLog library maxString value).walk path =
      some (steps, redactForLog library maxString found) := by
  obtain ⟨steps, reached⟩ := walk_redact (logRedactor library maxString) walked
    (clean_visible clean).1
  refine ⟨steps, ?_⟩
  have enters : route.all (@logRedactor library maxString Scalar).enters = true :=
    List.all_eq_true.mpr fun _ _ => rfl
  rw [Redactor.shown, if_pos enters] at reached
  exact reached

theorem not_withheld_log {path : List Nat} {route : List (Step (List Char))}
    {found : Data Scalar} (walked : value.walk path = some (route, found))
    (clean : Clean library false route) :
    ¬ Withheld (redactForLog library maxString) value path := by
  rw [withheld_log walked, (clean_visible clean).1]
  nofun

theorem faithful_shown (faithful : Faithful library maxString value) {path : List Nat}
    {route : List (Step (List Char))} {found : Data Scalar}
    (walked : value.walk path = some (route, found)) :
    Kept (truncate maxString) found (redactForLog library maxString found) := by
  have clean := faithful_clean faithful walked
  obtain ⟨steps, shown, reached, kept⟩ := faithful.logKeeps path route found walked
    (not_withheld_log walked clean)
  obtain ⟨others, same⟩ := @walk_log _ library maxString value _ _ _ walked clean
  rw [reached] at same
  cases same
  exact kept

theorem kept_text {cut : List Char → List Char} {content shown : List Char}
    (kept : Kept cut (.leaf (.text content) : Data Scalar) (.leaf (.text shown))) :
    shown = cut content := by
  cases kept
  rfl

theorem kept_bytes {cut : List Char → List Char} {content : List UInt8} {shown : List Char}
    (kept : Kept cut (.leaf (.bytes content) : Data Scalar) (.leaf (.text shown))) :
    ∃ text, Utf8.encode text = content ∧ shown = cut text := by
  cases kept with
  | decoded text => exact ⟨text, rfl, rfl⟩

theorem plain_of_faithful (faithful : Faithful library maxString value) :
    Plain library maxString value where
  keys := fun _ _ _ walked => faithful_clean faithful walked
  texts := by
    intro path route content walked
    have kept := faithful_shown faithful walked
    rw [redactForLog, leafForLog] at kept
    exact shownText_iff.mp (kept_text kept)
  bytes := by
    intro path route content walked
    have kept := faithful_shown faithful walked
    rw [redactForLog, leafForLog] at kept
    obtain ⟨text, encoded, same⟩ := kept_bytes kept
    rw [← encoded, Utf8.decode_encode] at same
    exact ⟨text, encoded, shownText_iff.mp same⟩

theorem not_withheld_record {path : List Nat} {route : List (Step (List Char))}
    {found : Data Scalar} (walked : value.walk path = some (route, found))
    (clean : Clean library false route) : ¬ Withheld (redact library) value path := by
  rw [withheld_record walked, (@clean_visible library 0 Scalar _ _ clean).2 rfl]
  nofun

theorem kept_log {path : List Nat} {route : List (Step (List Char))} {found : Data Scalar}
    (plain : Plain library maxString value) (walked : value.walk path = some (route, found)) :
    Kept (truncate maxString) found (redactForLog library maxString found) := by
  cases found with
  | leaf content =>
      cases content with
      | text content =>
          have same := shownText_iff.mpr (plain.texts path route content walked)
          rw [redactForLog, leafForLog, same]
          exact .text content
      | bytes content =>
          obtain ⟨text, rfl, unaltered⟩ := plain.bytes path route content walked
          rw [redactForLog, leafForLog, Utf8.decode_encode, shownText_iff.mpr unaltered]
          exact .decoded text
      | other scalar => exact .other scalar
  | list items =>
      rw [redactForLog, redactItemsForLog_map]
      exact .list (by simp)
  | tuple items =>
      rw [redactForLog, redactItemsForLog_map]
      exact .listed (by simp)
  | dict entries =>
      rw [redactForLog, redactEntriesForLog_map]
      exact .dict (by simp)

theorem kept_self (found : Data Scalar) : Kept id found found := by
  cases found with
  | leaf content =>
      cases content with
      | text content => exact .text content
      | bytes content => exact .bytes content
      | other scalar => exact .other scalar
  | list items => exact .list rfl
  | tuple items => exact .tuple rfl
  | dict entries => exact .dict rfl

theorem kept_record (found : Data Scalar) : Kept id found (redact library found) := by
  cases found with
  | leaf content => exact kept_self _
  | list items =>
      rw [redact, redactItems_map]
      exact .list (by simp)
  | tuple items => exact .tuple rfl
  | dict entries =>
      rw [redact, redactEntries_map]
      exact .dict (by simp)

theorem faithful_of_plain (plain : Plain library maxString value) :
    Faithful library maxString value where
  logSpelling := by
    intro path route found walked other otherPath otherRoute otherFound otherWalked alike
    have clean := plain.keys path route found walked
    exact iff_of_false (not_withheld_log walked clean)
      (not_withheld_log otherWalked (clean_spelled alike clean))
  recordSpelling := by
    intro path route found walked other otherPath otherRoute otherFound otherWalked alike
    have clean := plain.keys path route found walked
    exact iff_of_false (not_withheld_record walked clean)
      (not_withheld_record otherWalked (clean_spelled alike clean))
  agree := by
    intro path route found walked
    have clean := plain.keys path route found walked
    exact iff_of_false (not_withheld_log walked clean) (not_withheld_record walked clean)
  logKeeps := by
    intro path route found walked _
    obtain ⟨steps, reached⟩ := walk_log walked (plain.keys path route found walked)
    exact ⟨steps, _, reached, kept_log plain walked⟩
  recordKeeps := by
    intro path route found walked _
    have clean := plain.keys path route found walked
    obtain ⟨steps, reached⟩ := walk_redact (recordRedactor library) walked
      ((@clean_visible library 0 Scalar _ _ clean).2 rfl)
    refine ⟨steps, _, reached, ?_⟩
    unfold Redactor.shown
    split
    · exact kept_record found
    · exact kept_self found

/-- Redaction does with a value what it should exactly when the value holds nothing to redact
and no text that the log shows otherwise. -/
theorem redaction_faithful_iff (library : Library) (maxString : Nat) (value : Data Scalar) :
    Faithful library maxString value ↔ Plain library maxString value :=
  ⟨plain_of_faithful, faithful_of_plain⟩

theorem toLower_toLower (char : Char) : char.toLower.toLower = char.toLower := by
  by_cases large : 'A'.val ≤ char.val ∧ char.val ≤ 'Z'.val
  · have small : ¬ (char.toLower.val ≤ 'Z'.val) := by
      have moved : char.toLower.val = char.val + ('a'.val - 'A'.val) :=
        congrArg Char.val (dif_pos large)
      grind
    exact dif_neg fun both => small both.2
  · have same : char.toLower = char := dif_neg large
    rw [same, same]

def asciiLibrary : Library where
  lower := lowerAscii
  lower_empty := lowerAscii_empty
  repr text := String.ofList text
  bracketsFault _ := none
  normalFault _ := none
  lower_ascii _ _ := rfl
  lower_lowered := by
    intro text char member
    obtain ⟨letter, _, rfl⟩ := List.mem_map.mp member
    rw [lowerAscii, List.map_singleton, toLower_toLower]
  lower_fixed := by
    intro text fixed
    have each : text.map Char.toLower = text.map id :=
      List.map_inj_left.mpr fun char member => List.singleton_inj.mp (fixed char member)
    rwa [List.map_id] at each

example : safeUrl asciiLibrary "https://example.test/a/b?token=abc#frag".toList =
    "https://example.test/a/b".toList := by decide

def tokenUnder (key : List Char) : Data Unit := nest (.leaf (.text "s3cr3t".toList)) [.entry key]

/-- `access-token` is shown where `access_token` is redacted. -/
theorem hyphenated_token_shown :
    ¬ Faithful asciiLibrary 512 (tokenUnder "access-token".toList) := by
  intro faithful
  have there (key : List Char) : (tokenUnder key).walk [0] = some ([] ++ [.entry key],
      .leaf (.text "s3cr3t".toList)) := walk_nest _ [.entry key]
  have same := faithful.logSpelling _ _ _ (there _) _ _ _ _ (there "access_token".toList)
    (by decide)
  rw [withheld_log_entry (there _) rfl, withheld_log_entry (there _) rfl] at same
  revert same
  decide

end Properties

end AgentTaskPlatform.Redaction
