import AgentTaskPlatform.JsonCharacters
import AgentTaskPlatform.JsonRoundTrip
import Mathlib.Data.List.Chain

/-!
The JSON texts of a value in any layout: blanks between the tokens, any escapes, any numerals,
repeated keys. The reader returns the value of each of them.
-/

namespace AgentTaskPlatform.JsonText

variable {Number : Type}

section Grammar

def Blank (gap : List Char) : Prop := ∀ c ∈ gap, isSpace c = true

/-- The characters between quotation marks, and the points that they stand for one by one. -/
inductive Spells : List Char → Text → Prop
  | done : Spells [] []
  | plain {c : Char} {raw : List Char} {text : Text} : c ≠ '"' → c ≠ '\\' → ¬ c.toNat < 32 →
      Spells raw text → Spells (c :: raw) (.scalar c :: text)
  | short {letter c : Char} {raw : List Char} {text : Text} : simpleEscape letter = some c →
      Spells raw text → Spells ('\\' :: letter :: raw) (.scalar c :: text)
  | unicode {a b c d : Char} {unit : Nat} {raw : List Char} {text : Text} :
      hexUnit a b c d = some unit → Spells raw text →
      Spells ('\\' :: 'u' :: a :: b :: c :: d :: raw) (unitPoint unit :: text)

variable (number : List Char → Option Number)

mutual

/-- A text of a value, with at most `depth` brackets around each other. -/
inductive Document : Nat → Value Number → List Char → Prop
  | null {depth : Nat} : Document depth .null ['n', 'u', 'l', 'l']
  | yes {depth : Nat} : Document depth (.bool true) ['t', 'r', 'u', 'e']
  | no {depth : Nat} : Document depth (.bool false) ['f', 'a', 'l', 's', 'e']
  | number {depth : Nat} {token : List Char} {value : Number} : Numeral token →
      number token = some value → Document depth (.number value) token
  | string {depth : Nat} {raw : List Char} {text : Text} : Spells raw text →
      Document depth (.string (joined text)) ('"' :: (raw ++ ['"']))
  | emptyArray {depth : Nat} {gap : List Char} : Blank gap →
      Document (depth + 1) (.array []) ('[' :: (gap ++ [']']))
  | array {depth : Nat} {gap own rest : List Char} {first : Value Number}
      {others : List (Value Number)} : Blank gap → Document depth first own →
      Items depth others rest →
      Document (depth + 1) (.array (first :: others)) ('[' :: (gap ++ (own ++ rest)))
  | emptyObject {depth : Nat} {gap : List Char} : Blank gap →
      Document (depth + 1) (.object []) ('\x7b' :: (gap ++ ['\x7d']))
  | object {depth : Nat} {gap own rest : List Char} {first : Text × Value Number}
      {others : List (Text × Value Number)} : Blank gap → Entry depth first own →
      Entries depth others rest →
      Document (depth + 1) (dictionary (first :: others)) ('\x7b' :: (gap ++ (own ++ rest)))

inductive Items : Nat → List (Value Number) → List Char → Prop
  | last {depth : Nat} {gap : List Char} : Blank gap → Items depth [] (gap ++ [']'])
  | next {depth : Nat} {gap inner own rest : List Char} {first : Value Number}
      {others : List (Value Number)} : Blank gap → Blank inner → Document depth first own →
      Items depth others rest →
      Items depth (first :: others) (gap ++ ',' :: (inner ++ (own ++ rest)))

inductive Entry : Nat → Text × Value Number → List Char → Prop
  | colon {depth : Nat} {raw gap inner own : List Char} {key : Text} {value : Value Number} :
      Spells raw key → Blank gap → Blank inner → Document depth value own →
      Entry depth (joined key, value) ('"' :: (raw ++ '"' :: (gap ++ ':' :: (inner ++ own))))

inductive Entries : Nat → List (Text × Value Number) → List Char → Prop
  | last {depth : Nat} {gap : List Char} : Blank gap → Entries depth [] (gap ++ ['\x7d'])
  | next {depth : Nat} {gap inner own rest : List Char} {first : Text × Value Number}
      {others : List (Text × Value Number)} : Blank gap → Blank inner → Entry depth first own →
      Entries depth others rest →
      Entries depth (first :: others) (gap ++ ',' :: (inner ++ (own ++ rest)))

end

end Grammar

section Reading

def Inked (c : Char) : Prop := 32 < c.toNat ∧ c.toNat < 127

instance (c : Char) : Decidable (Inked c) := inferInstanceAs (Decidable (_ ∧ _))

theorem Inked.dense {c : Char} (inked : Inked c) : isSpace c = false := by
  by_contra space
  rw [Bool.not_eq_false] at space
  simp only [isSpace, Bool.or_eq_true, beq_iff_eq] at space
  rcases space with ((rfl | rfl) | rfl) | rfl <;> exact absurd inked (by decide)

theorem numeral_inked {c : Char} (numeral : isNumeral c = true) : Inked c := by
  obtain ⟨low, high⟩ := isNumeral_printable numeral
  have dense : c ≠ ' ' := by
    rintro rfl
    cases numeral
  have apart : c.toNat ≠ 32 := fun same => dense (Char.toNat_inj.mp same)
  exact ⟨by omega, high⟩

theorem blank_nil : Blank [] := fun _ member => by cases member

theorem skip_blank {gap : List Char} (blank : Blank gap) (rest : List Char) :
    skip (gap ++ rest) = skip rest := by
  rw [skip, List.dropWhile_append_of_pos blank]
  rfl

theorem scanString_spells {raw : List Char} {text : Text} (spells : Spells raw text)
    (rest : List Char) : scanString (raw ++ '"' :: rest) = some (text, rest) := by
  induction spells with
  | done => rfl
  | plain quotation backslash graphic _ ih =>
      rw [List.cons_append, scanString_plain quotation backslash graphic, ih]
      rfl
  | @short letter c raw text meant _ ih =>
      rw [List.cons_append, List.cons_append, scanString]
      · rw [meant, ih]
        rfl
      · intro a b c d after same
        cases same
        cases meant
  | unicode unit _ ih =>
      simp only [List.cons_append, scanString, unit, ih]
      rfl

theorem readString_spells {raw : List Char} {text : Text} (spells : Spells raw text)
    (rest : List Char) : readString (raw ++ '"' :: rest) = some (joined text, rest) := by
  rw [readString, scanString_spells spells]
  rfl

variable {number : List Char → Option Number}

/-- A value starts with a character that is no blank and closes no bracket. -/
theorem Document.head {depth : Nat} {value : Value Number} {text : List Char}
    (document : Document number depth value text) :
    ∃ c tail, text = c :: tail ∧ Inked c ∧ c ≠ ']' := by
  cases document with
  | number shape _ =>
      obtain ⟨some, all⟩ := shape
      cases text with
      | nil => exact absurd rfl some
      | cons c tail =>
          have own : isNumeral c = true := all c List.mem_cons_self
          obtain ⟨_, _, _, _, _, _, bracket, _⟩ := isNumeral_other own
          exact ⟨c, tail, rfl, numeral_inked own, bracket⟩
  | _ => exact ⟨_, _, rfl, by decide, by decide⟩

theorem stops_blank {gap rest : List Char} (blank : Blank gap) (stops : Stops rest) :
    Stops (gap ++ rest) := by
  cases gap with
  | nil => exact stops
  | cons c later =>
      apply stops_cons
      by_contra other
      rw [Bool.not_eq_false] at other
      have space := blank c List.mem_cons_self
      rw [(isNumeral_other other).1] at space
      cases space

theorem Items.stops {depth : Nat} {items : List (Value Number)} {text : List Char}
    (spelled : Items number depth items text) (rest : List Char) : Stops (text ++ rest) := by
  cases spelled with
  | last blank =>
      rw [List.append_assoc]
      exact stops_blank blank (stops_cons rfl _)
  | next blank _ _ _ =>
      rw [List.append_assoc]
      exact stops_blank blank (stops_cons rfl _)

theorem Entries.stops {depth : Nat} {entries : List (Text × Value Number)} {text : List Char}
    (spelled : Entries number depth entries text) (rest : List Char) : Stops (text ++ rest) := by
  cases spelled with
  | last blank =>
      rw [List.append_assoc]
      exact stops_blank blank (stops_cons rfl _)
  | next blank _ _ _ =>
      rw [List.append_assoc]
      exact stops_blank blank (stops_cons rfl _)

theorem readValue_blank {gap : List Char} (blank : Blank gap) (fuel depth : Nat)
    (text : List Char) :
    readValue number fuel depth (gap ++ text) = readValue number fuel depth text := by
  cases fuel with
  | zero => rw [readValue, readValue]
  | succ fuel => rw [readValue, readValue, skip_blank blank]

/-- Blanks after an opening bracket or brace do not count either. -/
theorem readValue_opened {gap : List Char} (blank : Blank gap) {c : Char}
    (opening : c = '[' ∨ c = '\x7b') (fuel depth : Nat) (text : List Char) :
    readValue number fuel depth (c :: (gap ++ text)) = readValue number fuel depth (c :: text) := by
  cases fuel with
  | zero => rw [readValue, readValue]
  | succ fuel =>
      rcases opening with rfl | rfl
      · rw [readValue, readValue, skip_cons rfl, skip_cons rfl]
        cases depth with
        | zero => rfl
        | succ depth => simp only [skip_blank blank]
      · rw [readValue, readValue, skip_cons rfl, skip_cons rfl]
        cases depth with
        | zero => rfl
        | succ depth => simp only [skip_blank blank]

theorem readEntry_blank {gap : List Char} (blank : Blank gap) (fuel depth : Nat)
    (text : List Char) :
    readEntry number fuel depth (gap ++ text) = readEntry number fuel depth text := by
  cases fuel with
  | zero => rw [readEntry, readEntry]
  | succ fuel => rw [readEntry, readEntry, skip_blank blank]

theorem Entry.head {depth : Nat} {entry : Text × Value Number} {text : List Char}
    (spelled : Entry number depth entry text) : ∃ tail, text = '"' :: tail := by
  cases spelled with
  | colon _ _ _ _ => exact ⟨_, rfl⟩

mutual

theorem readValue_document {depth : Nat} {value : Value Number} {text : List Char} :
    Document number depth value text → ∀ (fuel : Nat) (rest : List Char), text.length < fuel →
      Stops rest → readValue number fuel depth (text ++ rest) = some (value, rest)
  | .null, fuel + 1, rest, _, _ => by
      simp [readValue, skip, isSpace]
  | .yes, fuel + 1, rest, _, _ => by
      simp [readValue, skip, isSpace]
  | .no, fuel + 1, rest, _, _ => by
      simp [readValue, skip, isSpace]
  | .number shape same, fuel + 1, rest, _, stops => by
      rw [readValue_number shape stops, same]
      rfl
  | .string spells, fuel + 1, rest, _, _ => by
      rw [List.cons_append, List.append_assoc, readValue, skip_cons rfl]
      simp only [List.singleton_append, readString_spells spells]
      rfl
  | .emptyArray blank, fuel + 1, rest, _, _ => by
      rw [List.cons_append, List.append_assoc, readValue_opened blank (Or.inl rfl)]
      simp [readValue, skip, isSpace]
  | .array blank first others, fuel + 1, rest, enough, _ => by
      simp only [List.length_cons, List.length_append] at enough
      obtain ⟨c, tail, head, inked, bracket⟩ := first.head
      have one := readValue_document first fuel _ (by omega) (others.stops rest)
      have more := readItems_items others fuel rest (by omega)
      rw [List.cons_append, List.append_assoc, List.append_assoc,
        readValue_opened blank (Or.inl rfl)]
      rw [head, List.cons_append] at one ⊢
      simp [readValue_items inked.dense bracket, one, more]
  | .emptyObject blank, fuel + 1, rest, _, _ => by
      rw [List.cons_append, List.append_assoc, readValue_opened blank (Or.inr rfl)]
      simp [readValue, skip, isSpace]
  | .object blank first others, fuel + 1, rest, enough, _ => by
      simp only [List.length_cons, List.length_append] at enough
      obtain ⟨tail, head⟩ := first.head
      have one := readEntry_entry first fuel _ (by omega) (others.stops rest)
      have more := readEntries_entries others fuel rest (by omega)
      rw [List.cons_append, List.append_assoc, List.append_assoc,
        readValue_opened blank (Or.inr rfl)]
      rw [head, List.cons_append] at one ⊢
      simp [readValue_entries, one, more]

theorem readItems_items {depth : Nat} {items : List (Value Number)} {text : List Char} :
    Items number depth items text → ∀ (fuel : Nat) (rest : List Char), text.length < fuel →
      readItems number fuel depth (text ++ rest) = some (items, rest)
  | .last blank, fuel + 1, rest, _ => by
      rw [List.append_assoc, readItems, skip_blank blank]
      simp [skip, isSpace]
  | .next blank inner first others, fuel + 1, rest, enough => by
      simp only [List.length_cons, List.length_append] at enough
      have one := readValue_document first fuel _ (by omega) (others.stops rest)
      have more := readItems_items others fuel rest (by omega)
      rw [List.append_assoc, readItems, skip_blank blank, List.cons_append, skip_cons rfl]
      simp [readValue_blank inner, one, more]

theorem readEntry_entry {depth : Nat} {entry : Text × Value Number} {text : List Char} :
    Entry number depth entry text → ∀ (fuel : Nat) (rest : List Char), text.length < fuel →
      Stops rest → readEntry number fuel depth (text ++ rest) = some (entry, rest)
  | .colon spells gap inner own, fuel + 1, rest, enough, stops => by
      simp only [List.length_cons, List.length_append] at enough
      have one := readValue_document own fuel rest (by omega) stops
      rw [List.cons_append, readEntry, skip_cons rfl]
      simp [readString_spells spells, skip_blank gap, skip_cons (rfl : isSpace ':' = false),
        readValue_blank inner, one]

theorem readEntries_entries {depth : Nat} {entries : List (Text × Value Number)}
    {text : List Char} : Entries number depth entries text → ∀ (fuel : Nat) (rest : List Char),
      text.length < fuel →
      readEntries number fuel depth (text ++ rest) = some (entries, rest)
  | .last blank, fuel + 1, rest, _ => by
      rw [List.append_assoc, readEntries, skip_blank blank]
      simp [skip, isSpace]
  | .next blank inner first others, fuel + 1, rest, enough => by
      simp only [List.length_cons, List.length_append] at enough
      have one := readEntry_entry first fuel _ (by omega) (others.stops rest)
      have more := readEntries_entries others fuel rest (by omega)
      rw [List.append_assoc, readEntries, skip_blank blank, List.cons_append, skip_cons rfl]
      simp [readEntry_blank inner, one, more]

end

theorem read_document {depth : Nat} {value : Value Number} {text before after : List Char}
    (document : Document number depth value text) (open_ : Blank before) (close : Blank after) :
    read number depth (before ++ (text ++ after)) = some value := by
  have stops : Stops after := by
    have ends : Stops (after ++ []) := stops_blank close fun _ none => by cases none
    rwa [List.append_nil] at ends
  have skipped : skip after = [] := by
    have left := skip_blank close []
    rwa [List.append_nil] at left
  have enough : text.length < (before ++ (text ++ after)).length + 1 := by
    simp only [List.length_append]
    omega
  rw [read, readValue_blank open_, readValue_document document _ after enough stops]
  simp [skipped]

end Reading

section Layout

variable {number : List Char → Option Number}

def opens (c : Char) : Bool :=
  isSpace c || isNumeral c || c == '"' || c == 'n' || c == 't' || c == 'f' || c == '[' ||
    c == ']' || c == '\x7b' || c == '\x7d' || c == ':' || c == ','

/-- Control characters stand between tokens only. -/
structure Laid (text : List Char) : Prop where
  chain : text.IsChain fun before c => before.toNat < 32 → opens c = true
  start : ∀ c ∈ text.head?, opens c = true

theorem Laid.append {one two : List Char} (first : Laid one) (second : Laid two) :
    Laid (one ++ two) where
  chain := List.isChain_append.mpr
    ⟨first.chain, second.chain, fun _ _ c next _ => second.start c next⟩
  start := by
    cases one with
    | nil => exact second.start
    | cons c rest => exact first.start

theorem laid_open {text : List Char} (all : ∀ c ∈ text, opens c = true) : Laid text where
  chain := by
    induction text with
    | nil => exact .nil
    | cons c rest ih =>
        have later := ih fun other member => all other (List.mem_cons_of_mem c member)
        exact later.cons fun next member _ =>
          all next (List.mem_cons_of_mem c (List.mem_of_mem_head? member))
  start c member := all c (List.mem_of_mem_head? member)

theorem laid_blank {gap : List Char} (blank : Blank gap) : Laid gap :=
  laid_open fun c member => by simp [opens, blank c member]

theorem laid_token {c : Char} {rest : List Char} (start : opens c = true)
    (graphic : ∀ other ∈ c :: rest, ¬ other.toNat < 32) : Laid (c :: rest) where
  chain := by
    clear start
    induction rest generalizing c with
    | nil => exact .singleton c
    | cons next rest ih =>
        have later := ih fun other member => graphic other (List.mem_cons_of_mem c member)
        exact later.cons fun _ _ control => absurd control (graphic c List.mem_cons_self)
  start other same := by
    cases same
    exact start

theorem laid_single {c : Char} (start : opens c = true) : Laid [c] :=
  laid_open fun other member => by rwa [List.mem_singleton.mp member]

theorem laid_mark {c : Char} {rest : List Char} (start : opens c = true) (later : Laid rest) :
    Laid (c :: rest) := (laid_single start).append later

theorem simpleEscape_graphic {letter c : Char} (meant : simpleEscape letter = some c) :
    ¬ letter.toNat < 32 := by
  intro control
  have other {d : Char} (graphic : ¬ d.toNat < 32) : letter ≠ d := by
    rintro rfl
    exact graphic control
  have none : simpleEscape letter = none := by
    unfold simpleEscape
    rw [if_neg (other (by decide)), if_neg (other (by decide)), if_neg (other (by decide)),
      if_neg (other (by decide)), if_neg (other (by decide)), if_neg (other (by decide)),
      if_neg (other (by decide)), if_neg (other (by decide))]
  rw [none] at meant
  cases meant

theorem hexValue_graphic {c : Char} {value : Nat} (hex : hexValue c = some value) :
    ¬ c.toNat < 32 := by
  intro control
  have below {d : Char} (graphic : ¬ d.toNat < 32) : ¬ d ≤ c := by
    intro le
    have order : d.toNat ≤ c.toNat := le
    omega
  have none : hexValue c = none := by
    unfold hexValue
    rw [if_neg fun digit => below (by decide) digit.1, if_neg fun digit => below (by decide) digit.1,
      if_neg fun digit => below (by decide) digit.1]
  rw [none] at hex
  cases hex

theorem hexUnit_graphic {a b c d : Char} {unit : Nat} (hex : hexUnit a b c d = some unit) :
    ¬ a.toNat < 32 ∧ ¬ b.toNat < 32 ∧ ¬ c.toNat < 32 ∧ ¬ d.toNat < 32 := by
  simp only [hexUnit, Option.bind_eq_bind, Option.bind_eq_some_iff] at hex
  obtain ⟨_, first, _, second, _, third, _, fourth, _⟩ := hex
  exact ⟨hexValue_graphic first, hexValue_graphic second, hexValue_graphic third,
    hexValue_graphic fourth⟩

theorem Spells.graphic {raw : List Char} {text : Text} (spells : Spells raw text) :
    ∀ c ∈ raw, ¬ c.toNat < 32 := by
  induction spells with
  | done => intro c member; cases member
  | plain _ _ own _ ih =>
      rw [List.forall_mem_cons]
      exact ⟨own, ih⟩
  | short meant _ ih =>
      rw [List.forall_mem_cons, List.forall_mem_cons]
      exact ⟨by decide, simpleEscape_graphic meant, ih⟩
  | unicode unit _ ih =>
      obtain ⟨first, second, third, fourth⟩ := hexUnit_graphic unit
      simp only [List.forall_mem_cons]
      exact ⟨by decide, by decide, first, second, third, fourth, ih⟩

theorem Spells.quoted {raw : List Char} {text : Text} (spells : Spells raw text) :
    Laid ('"' :: (raw ++ ['"'])) := by
  apply laid_token rfl
  intro c member
  simp only [List.mem_cons, List.mem_append, List.not_mem_nil, or_false] at member
  rcases member with rfl | inside | rfl
  · decide
  · exact spells.graphic c inside
  · decide

mutual

theorem Document.laid {depth : Nat} {value : Value Number} {text : List Char} :
    Document number depth value text → Laid text
  | .null => laid_token rfl (by simp)
  | .yes => laid_token rfl (by simp)
  | .no => laid_token rfl (by simp)
  | .number shape _ => laid_open fun c member => by simp [opens, shape.2 c member]
  | .string spells => spells.quoted
  | .emptyArray blank => laid_mark rfl ((laid_blank blank).append (laid_single rfl))
  | .array blank first others =>
      laid_mark rfl ((laid_blank blank).append (first.laid.append others.laid))
  | .emptyObject blank => laid_mark rfl ((laid_blank blank).append (laid_single rfl))
  | .object blank first others =>
      laid_mark rfl ((laid_blank blank).append (first.laid.append others.laid))

theorem Items.laid {depth : Nat} {items : List (Value Number)} {text : List Char} :
    Items number depth items text → Laid text
  | .last blank => (laid_blank blank).append (laid_single rfl)
  | .next blank inner first others => (laid_blank blank).append
      (laid_mark rfl ((laid_blank inner).append (first.laid.append others.laid)))

theorem Entry.laid {depth : Nat} {entry : Text × Value Number} {text : List Char} :
    Entry number depth entry text → Laid text
  | .colon spells gap inner own => by
      have value := laid_mark (rfl : opens ':' = true) ((laid_blank inner).append own.laid)
      simpa using spells.quoted.append ((laid_blank gap).append value)

theorem Entries.laid {depth : Nat} {entries : List (Text × Value Number)} {text : List Char} :
    Entries number depth entries text → Laid text
  | .last blank => (laid_blank blank).append (laid_single rfl)
  | .next blank inner first others => (laid_blank blank).append
      (laid_mark rfl ((laid_blank inner).append (first.laid.append others.laid)))

end

theorem Items.ending {depth : Nat} {items : List (Value Number)} {text : List Char} :
    Items number depth items text → text.getLast? = some ']'
  | .last _ => by simp
  | .next _ _ _ others => by simp [List.getLast?_append, List.getLast?_cons, others.ending]

theorem Entries.ending {depth : Nat} {entries : List (Text × Value Number)} {text : List Char} :
    Entries number depth entries text → text.getLast? = some '\x7d'
  | .last _ => by simp
  | .next _ _ _ others => by simp [List.getLast?_append, List.getLast?_cons, others.ending]

theorem Document.ending {depth : Nat} {value : Value Number} {text : List Char}
    (document : Document number depth value text) : ∃ c, text.getLast? = some c ∧ Inked c := by
  cases document with
  | null => exact ⟨'l', rfl, by decide⟩
  | yes => exact ⟨'e', rfl, by decide⟩
  | no => exact ⟨'e', rfl, by decide⟩
  | number shape _ =>
      exact ⟨_, List.getLast?_eq_some_getLast shape.1,
        numeral_inked (shape.2 _ (List.getLast_mem shape.1))⟩
  | string _ => exact ⟨'"', by simp [List.getLast?_cons], by decide⟩
  | emptyArray _ => exact ⟨']', by simp [List.getLast?_cons], by decide⟩
  | array _ _ others =>
      exact ⟨']', by simp [List.getLast?_append, List.getLast?_cons, others.ending], by decide⟩
  | emptyObject _ => exact ⟨'\x7d', by simp [List.getLast?_cons], by decide⟩
  | object _ _ others =>
      exact ⟨'\x7d', by simp [List.getLast?_append, List.getLast?_cons, others.ending], by decide⟩

end Layout

end AgentTaskPlatform.JsonText
