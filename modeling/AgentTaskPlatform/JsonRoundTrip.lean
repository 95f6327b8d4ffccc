import AgentTaskPlatform.JsonText

/-!
The reader of JSON texts inverts the writer, up to the limit of nesting of the reader.
-/

namespace AgentTaskPlatform.JsonText

variable {Number : Type}

section RoundTrip

theorem skip_cons {c : Char} (dense : isSpace c = false) (rest : List Char) :
    skip (c :: rest) = c :: rest := by
  simp [skip, dense]

theorem assign_fresh {entries : List (Text × Value Number)} {entry : Text × Value Number}
    (fresh : entry.1 ∉ entries.map Prod.fst) : assign entries entry = entries ++ [entry] := by
  unfold assign
  rw [if_neg]
  intro held
  obtain ⟨other, member, same⟩ := List.any_eq_true.mp held
  apply fresh
  rw [← of_decide_eq_true same]
  exact List.mem_map_of_mem member

theorem foldl_assign {before entries : List (Text × Value Number)}
    (once : ((before ++ entries).map Prod.fst).Nodup) :
    entries.foldl assign before = before ++ entries := by
  induction entries generalizing before with
  | nil => simp
  | cons entry rest ih =>
      have fresh : entry.1 ∉ before.map Prod.fst := by
        rw [List.map_append, List.nodup_append] at once
        intro member
        exact once.2.2 _ member _ (by simp) rfl
      rw [List.foldl_cons, assign_fresh fresh, ih (by simpa using once)]
      simp

theorem dictionary_once {entries : List (Text × Value Number)}
    (once : (entries.map Prod.fst).Nodup) : dictionary entries = .object entries := by
  have same : entries.foldl assign [] = [] ++ entries := foldl_assign once
  rw [dictionary, same, List.nil_append]

def Stops (rest : List Char) : Prop := ∀ c ∈ rest.head?, isNumeral c = false

theorem stops_cons {c : Char} (other : isNumeral c = false) (rest : List Char) :
    Stops (c :: rest) := by
  intro first same
  cases same
  exact other

theorem numeral_span {token rest : List Char} (all : ∀ c ∈ token, isNumeral c = true)
    (stops : Stops rest) : (token ++ rest).takeWhile isNumeral = token ∧
      (token ++ rest).dropWhile isNumeral = rest := by
  induction token with
  | nil =>
      cases rest with
      | nil => exact ⟨rfl, rfl⟩
      | cons c later =>
          have other : isNumeral c = false := stops c rfl
          simp [other]
  | cons c later ih =>
      have own : isNumeral c = true := all c List.mem_cons_self
      obtain ⟨taken, dropped⟩ := ih fun other member => all other (List.mem_cons_of_mem c member)
      simp [own, taken, dropped]

/-- A character of a numeral opens nothing else. -/
theorem isNumeral_other {c : Char} (numeral : isNumeral c = true) :
    isSpace c = false ∧ c ≠ '"' ∧ c ≠ 'n' ∧ c ≠ 't' ∧ c ≠ 'f' ∧ c ≠ '[' ∧ c ≠ ']' ∧
      c ≠ '\x7b' := by
  refine ⟨?_, ?_, ?_, ?_, ?_, ?_, ?_, ?_⟩
  · by_contra space
    rw [Bool.not_eq_false] at space
    simp only [isSpace, Bool.or_eq_true, beq_iff_eq] at space
    rcases space with ((rfl | rfl) | rfl) | rfl <;> cases numeral
  all_goals
    rintro rfl
    cases numeral

section Values

variable {Meaning : Type} {numeral : Number → List Char} {number : List Char → Option Meaning}
  {meaning : Number → Meaning}

theorem render_head (numerals : ∀ value, Numeral (numeral value)) (value : Value Number) :
    ∃ c tail, render numeral value = c :: tail ∧ isSpace c = false ∧ c ≠ ']' := by
  cases value with
  | null => exact ⟨'n', _, rfl, rfl, by decide⟩
  | bool value =>
      cases value with
      | true => exact ⟨'t', _, rfl, rfl, by decide⟩
      | false => exact ⟨'f', _, rfl, rfl, by decide⟩
  | number value =>
      obtain ⟨some, all⟩ := numerals value
      cases token : numeral value with
      | nil => exact absurd token some
      | cons c tail =>
          have own : isNumeral c = true := all c (by rw [token]; exact List.mem_cons_self)
          obtain ⟨space, _, _, _, _, _, bracket, _⟩ := isNumeral_other own
          exact ⟨c, tail, by rw [render, token], space, bracket⟩
  | string value => exact ⟨'"', _, rfl, rfl, by decide⟩
  | array items =>
      cases items with
      | nil => exact ⟨'[', _, rfl, rfl, by decide⟩
      | cons first rest => exact ⟨'[', _, rfl, rfl, by decide⟩
  | object entries =>
      cases entries with
      | nil => exact ⟨'\x7b', _, rfl, rfl, by decide⟩
      | cons first rest => exact ⟨'\x7b', _, rfl, rfl, by decide⟩

theorem readValue_number {fuel depth : Nat} {token rest : List Char} (shape : Numeral token)
    (stops : Stops rest) : readValue number (fuel + 1) depth (token ++ rest) =
      (number token).map fun value => (.number value, rest) := by
  obtain ⟨taken, dropped⟩ := numeral_span shape.2 stops
  cases token with
  | nil => exact absurd rfl shape.1
  | cons c tail =>
      obtain ⟨space, quotation, n, t, f, bracket, _, brace⟩ :=
        isNumeral_other (shape.2 c List.mem_cons_self)
      rw [List.cons_append] at taken dropped ⊢
      rw [readValue, skip_cons space]
      split
      · next same => exact absurd (List.cons.inj same).1 quotation
      · next same => exact absurd (List.cons.inj same).1 n
      · next same => exact absurd (List.cons.inj same).1 t
      · next same => exact absurd (List.cons.inj same).1 f
      · next same => exact absurd (List.cons.inj same).1 bracket
      · next same => exact absurd (List.cons.inj same).1 brace
      · rw [taken, dropped]

theorem readString_quoted {text : Text} (proper : joined text = text) (rest : List Char) :
    readString (List.flatMap escape text ++ ['"'] ++ rest) = some (text, rest) := by
  rw [List.append_assoc]
  exact readString_quote proper rest

theorem readValue_items {fuel depth : Nat} {c : Char} {inside : List Char}
    (space : isSpace c = false) (bracket : c ≠ ']') :
    readValue number (fuel + 1) (depth + 1) ('[' :: c :: inside) = (do
      let (first, more) ← readValue number fuel depth (c :: inside)
      let (items, after) ← readItems number fuel depth more
      return (.array (first :: items), after)) := by
  rw [readValue, skip_cons rfl]
  simp only [skip_cons space]
  split
  · next same => exact absurd (List.cons.inj same).1 bracket
  · rfl

theorem readValue_entries {fuel depth : Nat} {inside : List Char} :
    readValue number (fuel + 1) (depth + 1) ('\x7b' :: '"' :: inside) = (do
      let (first, more) ← readEntry number fuel depth ('"' :: inside)
      let (entries, after) ← readEntries number fuel depth more
      return (dictionary (first :: entries), after)) := by
  rw [readValue, skip_cons rfl]
  simp only [skip_cons (rfl : isSpace '"' = false)]
  rfl

def upTo {Result : Type} (nesting depth : Nat) (result : Result) : Option Result :=
  if nesting ≤ depth then some result else none

theorem upTo_bind {First Second : Type} {one two depth : Nat} {first : First} {second : Second}
    {next : First → Option Second} (later : next first = upTo two depth second) :
    (upTo one depth first).bind next = upTo (max one two) depth second := by
  unfold upTo at later ⊢
  by_cases left : one ≤ depth
  · rw [if_pos left, Option.bind_some, later]
    by_cases right : two ≤ depth
    · rw [if_pos right, if_pos (by omega)]
    · rw [if_neg right, if_neg (by omega)]
  · rw [if_neg left, if_neg (by omega)]
    rfl

theorem upTo_map {First Second : Type} {nesting depth : Nat} {first : First}
    (make : First → Second) :
    (upTo nesting depth first).bind (fun value => some (make value)) =
      upTo nesting depth (make first) := by
  unfold upTo
  split <;> rfl

theorem upTo_succ {Result : Type} (nesting depth : Nat) (result : Result) :
    upTo (nesting + 1) (depth + 1) result = upTo nesting depth result := by
  simp [upTo]

theorem readEntry_quote {fuel depth nesting : Nat} {key : Text} (proper : joined key = key)
    {rest after : List Char} {value : Value Meaning}
    (one : readValue number fuel depth rest = upTo nesting depth (value, after)) :
    readEntry number (fuel + 1) depth (quote key ++ ':' :: rest) =
      upTo nesting depth ((key, value), after) := by
  rw [quote, List.cons_append, List.cons_append, readEntry, skip_cons rfl]
  simp only [readString_quoted proper, Option.bind_eq_bind, Option.bind_some,
    skip_cons (rfl : isSpace ':' = false), one]
  exact upTo_map fun read : Value Meaning × List Char => ((key, read.1), read.2)

theorem renderItems_stops (items : List (Value Number)) (rest : List Char) :
    Stops (renderItems numeral items ++ rest) := by
  cases items with
  | nil => exact stops_cons rfl _
  | cons item others => exact stops_cons rfl _

theorem renderEntries_stops (entries : List (Text × Value Number)) (rest : List Char) :
    Stops (renderEntries numeral entries ++ rest) := by
  cases entries with
  | nil => exact stops_cons rfl _
  | cons entry others => exact stops_cons rfl _

theorem mapEntries_keys (entries : List (Text × Value Number)) :
    (mapEntries meaning entries).map Prod.fst = entries.map Prod.fst := by
  induction entries with
  | nil => rfl
  | cons entry rest ih => simp [mapEntries, ih]

mutual

theorem readValue_render (numerals : ∀ value, Numeral (numeral value)) :
    ∀ (value : Value Number) (fuel depth : Nat) (rest : List Char),
      (render numeral value).length ≤ fuel → value.Proper →
      (∀ one ∈ value.numbers, number (numeral one) = some (meaning one)) → Stops rest →
      readValue number fuel depth (render numeral value ++ rest) =
        upTo value.depth depth (value.map meaning, rest)
  | value, 0, depth, rest, enough, _, _, _ => by
      obtain ⟨c, tail, same, _⟩ := render_head numerals value
      rw [same] at enough
      cases enough
  | .null, fuel + 1, depth, rest, _, _, _, _ => by
      simp [render, readValue, skip, isSpace, upTo, Value.depth, Value.map]
  | .bool true, fuel + 1, depth, rest, _, _, _, _ => by
      simp [render, readValue, skip, isSpace, upTo, Value.depth, Value.map]
  | .bool false, fuel + 1, depth, rest, _, _, _, _ => by
      simp [render, readValue, skip, isSpace, upTo, Value.depth, Value.map]
  | .number value, fuel + 1, depth, rest, _, _, numbers, stops => by
      have own : number (numeral value) = some (meaning value) := numbers value (by simp [Value.numbers])
      rw [render, readValue_number (numerals value) stops, own]
      simp [upTo, Value.depth, Value.map]
  | .string text, fuel + 1, depth, rest, _, proper, _, _ => by
      have joined : joined text = text := proper
      rw [render, quote, List.cons_append, List.cons_append, readValue, skip_cons rfl]
      simp only [readString_quoted joined]
      simp [upTo, Value.depth, Value.map]
  | .array [], fuel + 1, depth, rest, _, _, _, _ => by
      cases depth with
      | zero => simp [render, readValue, skip, isSpace, upTo, Value.depth]
      | succ depth =>
          simp [render, readValue, skip, isSpace, upTo, Value.depth, depthItems, Value.map, mapItems]
  | .array (first :: others), fuel + 1, depth, rest, enough, proper, numbers, stops => by
      obtain ⟨c, tail, head, space, bracket⟩ := render_head numerals first
      simp only [render, List.length_cons, List.length_append] at enough
      obtain ⟨own, ofOthers⟩ := proper
      have text : render numeral (.array (first :: others)) ++ rest =
          '[' :: (render numeral first ++ (renderItems numeral others ++ rest)) := by
        simp [render]
      cases depth with
      | zero =>
          rw [text, readValue, skip_cons rfl]
          rfl
      | succ depth =>
          have one := readValue_render numerals first fuel depth
            (renderItems numeral others ++ rest) (by omega) own
            (fun value member => numbers value (List.mem_append_left _ member))
            (renderItems_stops others rest)
          have more := readItems_render numerals others fuel depth rest (by omega) ofOthers
            fun value member => numbers value (List.mem_append_right _ member)
          rw [text, head, List.cons_append, readValue_items space bracket, ← List.cons_append,
            ← head, one, Value.depth, upTo_succ]
          apply upTo_bind
          simp only [more]
          exact upTo_map fun items : List (Value Meaning) × List Char =>
            (Value.array (first.map meaning :: items.1), items.2)
  | .object [], fuel + 1, depth, rest, _, _, _, _ => by
      cases depth with
      | zero => simp [render, readValue, skip, isSpace, upTo, Value.depth]
      | succ depth =>
          simp [render, readValue, skip, isSpace, upTo, Value.depth, depthEntries, Value.map,
            mapEntries]
  | .object ((key, first) :: others), fuel + 1, depth, rest, enough, proper, numbers, stops => by
      simp only [render, quote, List.length_cons, List.length_append] at enough
      obtain ⟨once, joined, own, ofOthers⟩ := proper
      have text : render numeral (.object ((key, first) :: others)) ++ rest =
          '\x7b' :: (quote key ++ ':' :: (render numeral first ++
            (renderEntries numeral others ++ rest))) := by
        simp [render]
      cases depth with
      | zero =>
          rw [text, readValue, skip_cons rfl]
          rfl
      | succ depth =>
          obtain ⟨fuel, rfl⟩ : ∃ less, fuel = less + 1 := ⟨fuel - 1, by omega⟩
          have one := readValue_render numerals first fuel depth
            (renderEntries numeral others ++ rest) (by omega) own
            (fun value member => numbers value (List.mem_append_left _ member))
            (renderEntries_stops others rest)
          have more := readEntries_render numerals others (fuel + 1) depth rest (by omega) ofOthers
            fun value member => numbers value (List.mem_append_right _ member)
          have keys : ((key, first.map meaning) :: mapEntries meaning others).map Prod.fst =
              ((key, first) :: others).map Prod.fst := by
            rw [List.map_cons, mapEntries_keys, List.map_cons]
          rw [text, quote, List.cons_append, List.cons_append, readValue_entries,
            ← List.cons_append, ← List.cons_append, ← quote, readEntry_quote joined one,
            Value.depth, upTo_succ]
          apply upTo_bind
          simp only [more]
          rw [← keys] at once
          rw [Value.map, mapEntries, ← dictionary_once once]
          exact upTo_map fun entries : List (Text × Value Meaning) × List Char =>
            (dictionary ((key, first.map meaning) :: entries.1), entries.2)

theorem readItems_render (numerals : ∀ value, Numeral (numeral value)) :
    ∀ (items : List (Value Number)) (fuel depth : Nat) (rest : List Char),
      (renderItems numeral items).length ≤ fuel → ProperItems items →
      (∀ one ∈ numbersOf items, number (numeral one) = some (meaning one)) →
      readItems number fuel depth (renderItems numeral items ++ rest) =
        upTo (depthItems items) depth (mapItems meaning items, rest)
  | [], 0, _, _, enough, _, _ => by cases enough
  | item :: others, 0, _, _, enough, _, _ => by cases enough
  | [], fuel + 1, depth, rest, _, _, _ => by
      simp [renderItems, readItems, skip, isSpace, upTo, depthItems, mapItems]
  | item :: others, fuel + 1, depth, rest, enough, proper, numbers => by
      simp only [renderItems, List.length_cons, List.length_append] at enough
      obtain ⟨own, ofOthers⟩ := proper
      have one := readValue_render numerals item fuel depth
        (renderItems numeral others ++ rest) (by omega) own
        (fun value member => numbers value (List.mem_append_left _ member))
        (renderItems_stops others rest)
      have more := readItems_render numerals others fuel depth rest (by omega) ofOthers
        fun value member => numbers value (List.mem_append_right _ member)
      rw [renderItems, List.cons_append, List.cons_append, List.append_assoc, readItems, skip_cons rfl]
      simp only [one]
      apply upTo_bind
      simp only [more]
      exact upTo_map fun items : List (Value Meaning) × List Char =>
        (item.map meaning :: items.1, items.2)

theorem readEntries_render (numerals : ∀ value, Numeral (numeral value)) :
    ∀ (entries : List (Text × Value Number)) (fuel depth : Nat) (rest : List Char),
      (renderEntries numeral entries).length ≤ fuel → ProperEntries entries →
      (∀ one ∈ numbersIn entries, number (numeral one) = some (meaning one)) →
      readEntries number fuel depth (renderEntries numeral entries ++ rest) =
        upTo (depthEntries entries) depth (mapEntries meaning entries, rest)
  | [], 0, _, _, enough, _, _ => by cases enough
  | entry :: others, 0, _, _, enough, _, _ => by cases enough
  | [], fuel + 1, depth, rest, _, _, _ => by
      simp [renderEntries, readEntries, skip, isSpace, upTo, depthEntries, mapEntries]
  | (key, value) :: others, fuel + 1, depth, rest, enough, proper, numbers => by
      simp only [renderEntries, quote, List.length_cons, List.length_append] at enough
      obtain ⟨joined, own, ofOthers⟩ := proper
      obtain ⟨fuel, rfl⟩ : ∃ less, fuel = less + 1 := ⟨fuel - 1, by omega⟩
      have one := readValue_render numerals value fuel depth
        (renderEntries numeral others ++ rest) (by omega) own
        (fun value member => numbers value (List.mem_append_left _ member))
        (renderEntries_stops others rest)
      have more := readEntries_render numerals others (fuel + 1) depth rest (by omega) ofOthers
        fun value member => numbers value (List.mem_append_right _ member)
      have text : renderEntries numeral ((key, value) :: others) ++ rest =
          ',' :: (quote key ++ ':' :: (render numeral value ++
            (renderEntries numeral others ++ rest))) := by
        simp [renderEntries]
      rw [text, readEntries, skip_cons rfl]
      simp only [readEntry_quote joined one]
      apply upTo_bind
      simp only [more]
      exact upTo_map fun entries : List (Text × Value Meaning) × List Char =>
        ((key, value.map meaning) :: entries.1, entries.2)

end

/-- The reader inverts the writer up to its limit of nesting. -/
theorem read_render (numerals : ∀ value, Numeral (numeral value)) {value : Value Number}
    (proper : value.Proper)
    (numbers : ∀ one ∈ value.numbers, number (numeral one) = some (meaning one)) (depth : Nat)
    {rest : List Char} (spaces : ∀ c ∈ rest, isSpace c = true) :
    read number depth (render numeral value ++ rest) =
      upTo value.depth depth (value.map meaning) := by
  have stops : Stops rest := by
    intro c first
    have space := spaces c (List.mem_of_mem_head? first)
    by_contra other
    rw [Bool.not_eq_false] at other
    rw [(isNumeral_other other).1] at space
    cases space
  have skipped : skip rest = [] := by
    clear stops
    induction rest with
    | nil => rfl
    | cons c later ih =>
        have own : isSpace c = true := spaces c List.mem_cons_self
        rw [skip, List.dropWhile_cons_of_pos own]
        exact ih (fun other member => spaces other (List.mem_cons_of_mem c member))
  have enough : (render numeral value).length ≤ (render numeral value ++ rest).length + 1 := by
    simp only [List.length_append]
    omega
  rw [read, readValue_render numerals value _ depth rest enough proper numbers stops]
  unfold upTo
  by_cases shallow : value.depth ≤ depth
  · simp [shallow, skipped]
  · simp [shallow]

mutual

/-- Every level of nesting takes a character. -/
theorem depth_le_length (numeral : Number → List Char) :
    ∀ value : Value Number, value.depth ≤ (render numeral value).length
  | .null | .bool _ | .number _ | .string _ => Nat.zero_le _
  | .array [] => by simp [Value.depth, depthItems, render]
  | .array (first :: others) => by
      have own := depth_le_length numeral first
      have rest := depthItems_le_length numeral others
      simp only [Value.depth, depthItems, render, List.cons_append, List.length_cons,
        List.length_append]
      omega
  | .object [] => by simp [Value.depth, depthEntries, render]
  | .object ((key, first) :: others) => by
      have own := depth_le_length numeral first
      have rest := depthEntries_le_length numeral others
      simp only [Value.depth, depthEntries, render, List.cons_append, List.length_cons,
        List.length_append]
      omega

theorem depthItems_le_length (numeral : Number → List Char) :
    ∀ items : List (Value Number), depthItems items ≤ (renderItems numeral items).length
  | [] => Nat.zero_le _
  | item :: others => by
      have own := depth_le_length numeral item
      have rest := depthItems_le_length numeral others
      simp only [depthItems, renderItems, List.cons_append, List.length_cons, List.length_append]
      omega

theorem depthEntries_le_length (numeral : Number → List Char) :
    ∀ entries : List (Text × Value Number),
      depthEntries entries ≤ (renderEntries numeral entries).length
  | [] => Nat.zero_le _
  | (key, value) :: others => by
      have own := depth_le_length numeral value
      have rest := depthEntries_le_length numeral others
      simp only [depthEntries, renderEntries, List.cons_append, List.length_cons,
        List.length_append]
      omega

end

end Values

end RoundTrip

section Meanings

variable {Meaning : Type}

mutual

theorem map_eq_iff (left right : Number → Meaning) : ∀ value : Value Number,
    value.map left = value.map right ↔ ∀ one ∈ value.numbers, left one = right one
  | .null => by simp [Value.map, Value.numbers]
  | .bool _ => by simp [Value.map, Value.numbers]
  | .number _ => by simp [Value.map, Value.numbers]
  | .string _ => by simp [Value.map, Value.numbers]
  | .array items => by
      rw [Value.map, Value.map, Value.array.injEq, mapItems_eq_iff left right items]
      rfl
  | .object entries => by
      rw [Value.map, Value.map, Value.object.injEq, mapEntries_eq_iff left right entries]
      rfl

theorem mapItems_eq_iff (left right : Number → Meaning) : ∀ items : List (Value Number),
    mapItems left items = mapItems right items ↔ ∀ one ∈ numbersOf items, left one = right one
  | [] => by simp [mapItems, numbersOf]
  | item :: rest => by
      simp only [mapItems, numbersOf, List.cons.injEq, List.forall_mem_append,
        map_eq_iff left right item, mapItems_eq_iff left right rest]

theorem mapEntries_eq_iff (left right : Number → Meaning) :
    ∀ entries : List (Text × Value Number), mapEntries left entries = mapEntries right entries ↔
      ∀ one ∈ numbersIn entries, left one = right one
  | [] => by simp [mapEntries, numbersIn]
  | (key, value) :: rest => by
      simp only [mapEntries, numbersIn, List.cons.injEq, Prod.mk.injEq, true_and,
        List.forall_mem_append, map_eq_iff left right value, mapEntries_eq_iff left right rest]

end

mutual

theorem map_map {Last : Type} (first : Number → Meaning) (second : Meaning → Last) :
    ∀ value : Value Number, (value.map first).map second = value.map (second ∘ first)
  | .null | .bool _ | .number _ | .string _ => rfl
  | .array items => congrArg Value.array (mapItems_map first second items)
  | .object entries => congrArg Value.object (mapEntries_map first second entries)

theorem mapItems_map {Last : Type} (first : Number → Meaning) (second : Meaning → Last) :
    ∀ items : List (Value Number),
      mapItems second (mapItems first items) = mapItems (second ∘ first) items
  | [] => rfl
  | item :: rest => by
      rw [mapItems, mapItems, mapItems, map_map first second item, mapItems_map first second rest]

theorem mapEntries_map {Last : Type} (first : Number → Meaning) (second : Meaning → Last) :
    ∀ entries : List (Text × Value Number),
      mapEntries second (mapEntries first entries) = mapEntries (second ∘ first) entries
  | [] => rfl
  | (key, value) :: rest => by
      rw [mapEntries, mapEntries, mapEntries, map_map first second value,
        mapEntries_map first second rest]

end

mutual

@[simp] theorem numbers_map (meaning : Number → Meaning) :
    ∀ value : Value Number, (value.map meaning).numbers = value.numbers.map meaning
  | .null | .bool _ | .number _ | .string _ => rfl
  | .array items => numbersOf_map meaning items
  | .object entries => numbersIn_map meaning entries

theorem numbersOf_map (meaning : Number → Meaning) : ∀ items : List (Value Number),
    numbersOf (mapItems meaning items) = (numbersOf items).map meaning
  | [] => rfl
  | item :: rest => by
      rw [mapItems, numbersOf, numbersOf, List.map_append, numbers_map meaning item,
        numbersOf_map meaning rest]

theorem numbersIn_map (meaning : Number → Meaning) : ∀ entries : List (Text × Value Number),
    numbersIn (mapEntries meaning entries) = (numbersIn entries).map meaning
  | [] => rfl
  | (key, value) :: rest => by
      rw [mapEntries, numbersIn, numbersIn, List.map_append, numbers_map meaning value,
        numbersIn_map meaning rest]

end

end Meanings

section Missing

mutual

/-- A number that is missing becomes a null. -/
def Value.present : Value (Option Number) → Value Number
  | .null => .null
  | .bool value => .bool value
  | .number (some value) => .number value
  | .number none => .null
  | .string text => .string text
  | .array items => .array (presentItems items)
  | .object entries => .object (presentEntries entries)

def presentItems : List (Value (Option Number)) → List (Value Number)
  | [] => []
  | item :: rest => item.present :: presentItems rest

def presentEntries : List (Text × Value (Option Number)) → List (Text × Value Number)
  | [] => []
  | (key, value) :: rest => (key, value.present) :: presentEntries rest

end

def orNull (numeral : Number → List Char) : Option Number → List Char
  | some number => numeral number
  | none => ['n', 'u', 'l', 'l']

mutual

theorem render_present (numeral : Number → List Char) : ∀ value : Value (Option Number),
    render (orNull numeral) value = render numeral value.present
  | .null | .bool true | .bool false | .string _ => rfl
  | .number (some _) | .number none => rfl
  | .array [] | .object [] => rfl
  | .array (item :: rest) => by
      rw [Value.present, presentItems, render, render, render_present numeral item,
        renderItems_present numeral rest]
  | .object ((key, value) :: rest) => by
      rw [Value.present, presentEntries, render, render, render_present numeral value,
        renderEntries_present numeral rest]

theorem renderItems_present (numeral : Number → List Char) :
    ∀ items : List (Value (Option Number)),
      renderItems (orNull numeral) items = renderItems numeral (presentItems items)
  | [] => rfl
  | item :: rest => by
      rw [presentItems, renderItems, renderItems, render_present numeral item,
        renderItems_present numeral rest]

theorem renderEntries_present (numeral : Number → List Char) :
    ∀ entries : List (Text × Value (Option Number)),
      renderEntries (orNull numeral) entries = renderEntries numeral (presentEntries entries)
  | [] => rfl
  | (key, value) :: rest => by
      rw [presentEntries, renderEntries, renderEntries, render_present numeral value,
        renderEntries_present numeral rest]

end

mutual

@[simp] theorem depth_present : ∀ value : Value (Option Number), value.present.depth = value.depth
  | .null | .bool _ | .string _ => rfl
  | .number (some _) | .number none => rfl
  | .array items => congrArg (· + 1) (depthItems_present items)
  | .object entries => congrArg (· + 1) (depthEntries_present entries)

theorem depthItems_present : ∀ items : List (Value (Option Number)),
    depthItems (presentItems items) = depthItems items
  | [] => rfl
  | item :: rest => by
      rw [presentItems, depthItems, depthItems, depth_present item, depthItems_present rest]

theorem depthEntries_present : ∀ entries : List (Text × Value (Option Number)),
    depthEntries (presentEntries entries) = depthEntries entries
  | [] => rfl
  | (key, value) :: rest => by
      rw [presentEntries, depthEntries, depthEntries, depth_present value,
        depthEntries_present rest]

end

theorem presentEntries_keys : ∀ entries : List (Text × Value (Option Number)),
    (presentEntries entries).map Prod.fst = entries.map Prod.fst
  | [] => rfl
  | (key, value) :: rest => by
      rw [presentEntries, List.map_cons, List.map_cons, presentEntries_keys rest]

mutual

theorem proper_present : ∀ value : Value (Option Number), value.Proper → value.present.Proper
  | .null, _ | .bool _, _ | .number (some _), _ | .number none, _ => trivial
  | .string _, proper => proper
  | .array items, proper => properItems_present items proper
  | .object entries, ⟨keys, proper⟩ =>
      ⟨(presentEntries_keys entries).symm ▸ keys, properEntries_present entries proper⟩

theorem properItems_present : ∀ items : List (Value (Option Number)),
    ProperItems items → ProperItems (presentItems items)
  | [], _ => trivial
  | item :: rest, ⟨own, later⟩ => ⟨proper_present item own, properItems_present rest later⟩

theorem properEntries_present : ∀ entries : List (Text × Value (Option Number)),
    ProperEntries entries → ProperEntries (presentEntries entries)
  | [], _ => trivial
  | (_, value) :: rest, ⟨key, own, later⟩ =>
      ⟨key, proper_present value own, properEntries_present rest later⟩

end

mutual

/-- Nothing is lost where no number is missing. -/
theorem present_map : ∀ value : Value (Option Number), (∀ number ∈ value.numbers, number ≠ none) →
    value.present.map some = value
  | .null, _ | .bool _, _ | .string _, _ | .number (some _), _ => rfl
  | .number none, given => absurd rfl (given none (List.mem_singleton_self none))
  | .array items, given => congrArg Value.array (presentItems_map items given)
  | .object entries, given => congrArg Value.object (presentEntries_map entries given)

theorem presentItems_map : ∀ items : List (Value (Option Number)),
    (∀ number ∈ numbersOf items, number ≠ none) → mapItems some (presentItems items) = items
  | [], _ => rfl
  | item :: rest, given => by
      obtain ⟨own, later⟩ := List.forall_mem_append.mp given
      rw [presentItems, mapItems, present_map item own, presentItems_map rest later]

theorem presentEntries_map : ∀ entries : List (Text × Value (Option Number)),
    (∀ number ∈ numbersIn entries, number ≠ none) → mapEntries some (presentEntries entries) = entries
  | [], _ => rfl
  | (key, value) :: rest, given => by
      obtain ⟨own, later⟩ := List.forall_mem_append.mp given
      rw [presentEntries, mapEntries, present_map value own, presentEntries_map rest later]

end

end Missing

end AgentTaskPlatform.JsonText
