import AgentTaskPlatform.PiFraming

/-!
What arrives of the records between `PiProcess` and the Node worker. Both writers put down
the same compact text; the line and paragraph separators and the numbers beyond binary64
are what the two ends disagree on.
-/

namespace AgentTaskPlatform.PiFraming

open JsonText JsonNumbers

section Accepted

variable {runtimes : Runtimes}

def written : List Chunk → Option (List Char)
  | [] => some []
  | none :: _ => none
  | some chunk :: rest => do
      let fragment ← encodeUtf8 chunk
      let later ← written rest
      return fragment ++ later

theorem written_cons {chunk : Text} {rest : List Chunk} {text : List Char} :
    written (some chunk :: rest) = some text ↔ ∃ fragment later,
      encodeUtf8 chunk = some fragment ∧ written rest = some later ∧ text = fragment ++ later := by
  cases encoded : encodeUtf8 chunk with
  | none => simp [written, encoded]
  | some fragment =>
      cases remaining : written rest with
      | none => simp [written, encoded, remaining]
      | some later => simp [written, encoded, remaining, eq_comm]

theorem written_append {left right : List Chunk} {text : List Char}
    (whole : written (left ++ right) = some text) : ∃ before after,
      written left = some before ∧ written right = some after ∧ text = before ++ after := by
  induction left generalizing text with
  | nil => exact ⟨[], text, rfl, whole, rfl⟩
  | cons chunk rest ih =>
      cases chunk with
      | none => cases whole
      | some points =>
          obtain ⟨fragment, later, encoded, remaining, rfl⟩ := written_cons.mp whole
          obtain ⟨before, after, first, second, rfl⟩ := ih remaining
          exact ⟨fragment ++ before, after, written_cons.mpr ⟨_, _, encoded, first, rfl⟩, second,
            (List.append_assoc fragment before after).symm⟩

@[simp] theorem encodeUtf8_points (text : List Char) : encodeUtf8 (points text) = some text := by
  induction text with
  | nil => rfl
  | cons c rest ih =>
      have tail : encodeUtf8 (List.map Point.scalar rest) = some rest := ih
      simp [points, encodeUtf8, tail]

theorem encodeUtf8_append {left right : Text} {text : List Char}
    (whole : encodeUtf8 (left ++ right) = some text) : ∃ before after,
      encodeUtf8 left = some before ∧ encodeUtf8 right = some after ∧ text = before ++ after := by
  induction left generalizing text with
  | nil => exact ⟨[], text, rfl, whole, rfl⟩
  | cons point rest ih =>
      cases point with
      | surrogate high bits => cases whole
      | scalar c =>
          obtain ⟨later, remaining, rfl⟩ := Option.map_eq_some_iff.mp whole
          obtain ⟨before, after, first, second, rfl⟩ := ih remaining
          exact ⟨c :: before, after, by simp [encodeUtf8, first], second, rfl⟩

theorem encodeUtf8_escaped {text : Text} {encoded : List Char}
    (whole : encodeUtf8 (text.flatMap pyEscape) = some encoded) :
    (∀ point ∈ text, IsScalar point) ∧ encoded = text.flatMap escape := by
  induction text generalizing encoded with
  | nil =>
      cases whole
      exact ⟨nofun, rfl⟩
  | cons point rest ih =>
      rw [List.flatMap_cons] at whole
      obtain ⟨before, after, first, second, rfl⟩ := encodeUtf8_append whole
      cases point with
      | surrogate high bits => cases first
      | scalar c =>
          obtain ⟨scalars, rfl⟩ := ih second
          rw [pyEscape, encodeUtf8_points] at first
          cases first
          exact ⟨List.forall_mem_cons.mpr ⟨⟨c, rfl⟩, scalars⟩, rfl⟩

/-- A string that is encoded holds no surrogate, and is quoted as `JSON.stringify` does. -/
theorem encodeUtf8_pyQuote {text : Text} {encoded : List Char}
    (whole : encodeUtf8 (pyQuote text) = some encoded) :
    (∀ point ∈ text, IsScalar point) ∧ encoded = quote text := by
  obtain ⟨before, last, start, ending, rfl⟩ := encodeUtf8_append whole
  obtain ⟨first, middle, opening, escaped, rfl⟩ := encodeUtf8_append start
  rw [encodeUtf8_points] at opening ending
  cases opening
  cases ending
  obtain ⟨scalars, rfl⟩ := encodeUtf8_escaped escaped
  exact ⟨scalars, rfl⟩

theorem written_one {text encoded : List Char} (whole : written [some (points text)] = some encoded) :
    encoded = text := by
  obtain ⟨fragment, later, encoded, rest, rfl⟩ := written_cons.mp whole
  rw [encodeUtf8_points] at encoded
  cases encoded
  cases rest
  exact List.append_nil text

theorem written_number {value : PyNumber} {encoded : List Char}
    (whole : written [numberChunk runtimes value] = some encoded) :
    encoded = pyNumeral runtimes value := by
  cases value with
  | int n =>
      simp only [numberChunk] at whole
      split at whole
      · cases whole
      · exact written_one whole
  | float value => exact written_one whole

theorem written_quote {text : Text} {encoded : List Char}
    (whole : written [some (pyQuote text)] = some encoded) :
    (∀ point ∈ text, IsScalar point) ∧ encoded = quote text := by
  obtain ⟨fragment, later, encoded, rest, rfl⟩ := written_cons.mp whole
  cases rest
  rw [List.append_nil]
  exact encodeUtf8_pyQuote encoded

theorem simpleChunk_iterencode {value : Value PyNumber} {chunk : Chunk}
    (simple : simpleChunk runtimes value = some chunk) (depth : Nat) :
    iterencode runtimes depth value = [chunk] := by
  cases value with
  | null | number _ | string _ =>
      cases simple
      rfl
  | bool value =>
      cases value <;>
        · cases simple
          rfl
  | array _ | object _ => cases simple

theorem written_item {depth : Nat} {separator : Char} {item : Value PyNumber} {text : List Char}
    (whole : written (separatedBy separator (simpleChunk runtimes item)
      (iterencode runtimes depth item)) = some text) :
    ∃ own, written (iterencode runtimes depth item) = some own ∧ text = separator :: own := by
  cases simple : simpleChunk runtimes item with
  | none =>
      rw [simple] at whole
      obtain ⟨fragment, own, encoded, rest, rfl⟩ := written_cons.mp whole
      rw [encodeUtf8_points] at encoded
      cases encoded
      exact ⟨own, rest, rfl⟩
  | some chunk =>
      rw [simple] at whole
      rw [simpleChunk_iterencode simple]
      cases chunk with
      | none => cases whole
      | some text =>
          obtain ⟨fragment, rest, encoded, last, rfl⟩ := written_cons.mp whole
          obtain ⟨before, own, first, second, rfl⟩ := encodeUtf8_append encoded
          rw [encodeUtf8_points] at first
          cases first
          exact ⟨own ++ rest, written_cons.mpr ⟨own, rest, second, last, rfl⟩, rfl⟩

theorem written_key {key : Text} {chunks : List Chunk} {text : List Char}
    (whole : written (some (pyQuote key) :: some (points [':']) :: chunks) = some text) :
    ∃ rest, (∀ point ∈ key, IsScalar point) ∧ written chunks = some rest ∧
      text = quote key ++ ':' :: rest := by
  obtain ⟨quoted, later, encoded, after, rfl⟩ := written_cons.mp whole
  obtain ⟨colon, rest, second, last, rfl⟩ := written_cons.mp after
  obtain ⟨scalars, rfl⟩ := encodeUtf8_pyQuote encoded
  rw [encodeUtf8_points] at second
  cases second
  exact ⟨rest, scalars, last, rfl⟩

mutual

/-- A record that is encoded is written as its compact text, without surrogates. -/
theorem written_iterencode : ∀ (value : Value PyNumber) (depth : Nat) (text : List Char),
    written (iterencode runtimes depth value) = some text →
      (∀ point ∈ value.points, IsScalar point) ∧ text = render (pyNumeral runtimes) value
  | .null, _, _, whole => by
      simp only [iterencode] at whole
      exact ⟨nofun, written_one whole⟩
  | .bool true, _, _, whole => by
      simp only [iterencode] at whole
      exact ⟨nofun, written_one whole⟩
  | .bool false, _, _, whole => by
      simp only [iterencode] at whole
      exact ⟨nofun, written_one whole⟩
  | .number _, _, _, whole => by
      simp only [iterencode] at whole
      exact ⟨nofun, written_number whole⟩
  | .string _, _, _, whole => by
      simp only [iterencode] at whole
      exact written_quote whole
  | .array _, 0, _, whole => by cases whole
  | .array [], _ + 1, _, whole => ⟨nofun, written_one whole⟩
  | .array (first :: others), depth + 1, text, whole => by
      obtain ⟨before, after, one, rest, rfl⟩ := written_append whole
      obtain ⟨own, encoded, rfl⟩ := written_item one
      obtain ⟨scalars, rfl⟩ := written_iterencode first depth own encoded
      obtain ⟨others, rfl⟩ := written_items others depth after rest
      exact ⟨List.forall_mem_append.mpr ⟨scalars, others⟩, rfl⟩
  | .object _, 0, _, whole => by cases whole
  | .object [], _ + 1, _, whole => ⟨nofun, written_one whole⟩
  | .object ((key, first) :: others), depth + 1, text, whole => by
      obtain ⟨brace, entries, opening, inside, rfl⟩ := written_cons.mp whole
      rw [encodeUtf8_points] at opening
      cases opening
      obtain ⟨before, after, one, rest, rfl⟩ := written_append inside
      obtain ⟨own, named, encoded, rfl⟩ := written_key one
      obtain ⟨scalars, rfl⟩ := written_iterencode first depth own encoded
      obtain ⟨others, rfl⟩ := written_entries others depth after rest
      exact ⟨List.forall_mem_append.mpr ⟨List.forall_mem_append.mpr ⟨named, scalars⟩, others⟩,
        by simp [render]⟩

theorem written_items : ∀ (items : List (Value PyNumber)) (depth : Nat) (text : List Char),
    written (iterencodeItems runtimes depth ',' items) = some text →
      (∀ point ∈ pointsOf items, IsScalar point) ∧ text = renderItems (pyNumeral runtimes) items
  | [], _, _, whole => ⟨nofun, written_one whole⟩
  | item :: others, depth, text, whole => by
      obtain ⟨before, after, one, rest, rfl⟩ := written_append whole
      obtain ⟨own, encoded, rfl⟩ := written_item one
      obtain ⟨scalars, rfl⟩ := written_iterencode item depth own encoded
      obtain ⟨others, rfl⟩ := written_items others depth after rest
      exact ⟨List.forall_mem_append.mpr ⟨scalars, others⟩, rfl⟩

theorem written_entries : ∀ (entries : List (Text × Value PyNumber)) (depth : Nat)
    (text : List Char), written (iterencodeEntries runtimes depth true entries) = some text →
      (∀ point ∈ pointsIn entries, IsScalar point) ∧
        text = renderEntries (pyNumeral runtimes) entries
  | [], _, _, whole => ⟨nofun, written_one whole⟩
  | (key, value) :: others, depth, text, whole => by
      obtain ⟨comma, entries, opening, inside, rfl⟩ := written_cons.mp whole
      rw [encodeUtf8_points] at opening
      cases opening
      obtain ⟨before, after, one, rest, rfl⟩ := written_append inside
      obtain ⟨own, named, encoded, rfl⟩ := written_key one
      obtain ⟨scalars, rfl⟩ := written_iterencode value depth own encoded
      obtain ⟨others, rfl⟩ := written_entries others depth after rest
      exact ⟨List.forall_mem_append.mpr ⟨List.forall_mem_append.mpr ⟨named, scalars⟩, others⟩,
        by simp [renderEntries]⟩

end

theorem encodeChunks_ok {size : Nat} {chunks : List Chunk} {text : List Char}
    (encoded : encodeChunks size chunks = .ok text) (fits : size ≤ maxRecordBytes - 1) :
    written chunks = some text ∧ size + utf8Size text ≤ maxRecordBytes - 1 := by
  induction chunks generalizing size text with
  | nil =>
      cases encoded
      exact ⟨rfl, fits⟩
  | cons chunk rest ih =>
      cases chunk with
      | none => cases encoded
      | some chunk =>
          simp only [encodeChunks] at encoded
          split at encoded
          · cases encoded
          · cases fragmentOf : encodeUtf8 chunk with
            | none => simp [fragmentOf] at encoded
            | some fragment =>
                simp only [fragmentOf] at encoded
                split at encoded
                · cases encoded
                · next small =>
                    cases laterOf : encodeChunks (size + utf8Size fragment) rest with
                    | error error => simp [laterOf, Bind.bind, Except.bind] at encoded
                    | ok later =>
                        simp only [laterOf, Bind.bind, Except.bind, Pure.pure, Except.pure]
                          at encoded
                        cases encoded
                        obtain ⟨whole, bounded⟩ := ih laterOf (by omega)
                        refine ⟨written_cons.mpr ⟨_, _, fragmentOf, whole, rfl⟩, ?_⟩
                        simp only [utf8Size, List.map_append, List.sum_append] at bounded ⊢
                        omega

/-- What `_encode` returns: the compact text in one line feed, within the bound. -/
theorem encode_ok {record : Value PyNumber} {framed : List Char}
    (encoded : encode runtimes record = .ok framed) :
    (∀ point ∈ record.points, IsScalar point) ∧
      framed = render (pyNumeral runtimes) record ++ ['\n'] ∧
      utf8Size (render (pyNumeral runtimes) record) ≤ maxRecordBytes - 1 := by
  unfold encode at encoded
  cases textOf : encodeChunks 0 (iterencode runtimes runtimes.encoderDepth record) with
  | error error => simp [textOf, Bind.bind, Except.bind] at encoded
  | ok text =>
      simp only [textOf, Bind.bind, Except.bind, Pure.pure, Except.pure] at encoded
      cases encoded
      have empty : 0 ≤ maxRecordBytes - 1 := Nat.zero_le _
      obtain ⟨whole, bounded⟩ := encodeChunks_ok textOf empty
      rw [Nat.zero_add] at bounded
      obtain ⟨scalars, rfl⟩ := written_iterencode record _ text whole
      exact ⟨scalars, rfl, bounded⟩

end Accepted

section Lines

theorem nodeLines_cons {c : Char} (inside : endsLine c = false) (rest : List Char) :
    nodeLines (c :: rest) = continueLine c (nodeLines rest) := by
  rw [nodeLines.eq_def]
  split
  · next same => cases same
  · next same =>
      cases same
      cases inside
  · next same =>
      cases same
      rw [if_neg (by simp [inside])]

theorem nodeLines_plain {text : List Char} (plain : ∀ c ∈ text, endsLine c = false) :
    nodeLines (text ++ ['\n']) = [text] := by
  induction text with
  | nil => decide
  | cons c rest ih =>
      have own : endsLine c = false := plain c List.mem_cons_self
      rw [List.cons_append, nodeLines_cons own,
        ih fun other member => plain other (List.mem_cons_of_mem c member)]
      rfl

theorem nodeLines_length {text : List Char} (noReturn : '\r' ∉ text) :
    (nodeLines text).length = text.countP endsLine := by
  fun_induction nodeLines text with
  | case1 => rfl
  | case2 => exact absurd List.mem_cons_self noReturn
  | case3 c rest _ ended ih =>
      rw [List.countP_cons_of_pos ended, List.length_cons,
        ih fun member => noReturn (List.mem_cons_of_mem c member)]
  | case4 c rest _ inside ih =>
      have later := ih fun member => noReturn (List.mem_cons_of_mem c member)
      rw [List.countP_cons_of_neg inside, ← later]
      cases nodeLines rest with
      | nil => rfl
      | cons line lines => rfl

/-- Only one line means that nothing before the line feed ends a line. -/
theorem nodeLines_single {text line : List Char} (noReturn : '\r' ∉ text)
    (single : nodeLines (text ++ ['\n']) = [line]) : ∀ c ∈ text, endsLine c = false := by
  have counted : (nodeLines (text ++ ['\n'])).length = (text ++ ['\n']).countP endsLine :=
    nodeLines_length (by simp [noReturn])
  have last : ['\n'].countP endsLine = 1 := rfl
  rw [single, List.countP_append, last, List.length_singleton] at counted
  have none : text.countP endsLine = 0 := by omega
  intro c member
  exact Bool.eq_false_of_not_eq_true (List.countP_eq_zero.mp none c member)

end Lines

section Numerals

variable {runtimes : Runtimes}

theorem pyNumeral_numeral (documented : runtimes.Documented) (number : PyNumber) :
    Numeral (pyNumeral runtimes number) := by
  cases number with
  | int n => exact integerText_numeral n
  | float value => exact (documented.repr value).1

/-- `JSON.parse` rounds what Python writes. -/
theorem nodeNumber_pyNumeral (documented : runtimes.Documented) (number : PyNumber) :
    nodeNumber (pyNumeral runtimes number) = some (nearest number.value) := by
  cases number with
  | int n => rw [pyNumeral, nodeNumber, readLiteral_integerText, Option.map_some, PyNumber.value]
  | float value =>
      obtain ⟨_, literal, read, near⟩ := documented.repr value
      have exact : nearest value.1 = some value.1 := value.2
      rw [pyNumeral, nodeNumber, read, Option.map_some, near, PyNumber.value, exact]

theorem nodeParse_render (documented : runtimes.Documented) {record : Value PyNumber}
    (proper : record.Proper) :
    nodeParse (render (pyNumeral runtimes) record) =
      some (record.map fun number => nearest number.value) := by
  have whole : read nodeNumber (render (pyNumeral runtimes) record).length
      (render (pyNumeral runtimes) record ++ []) = upTo record.depth
        (render (pyNumeral runtimes) record).length
        (record.map fun number => nearest number.value) :=
    read_render (pyNumeral_numeral documented) proper
      (fun number _ => nodeNumber_pyNumeral documented number) _ nofun
  rw [List.append_nil] at whole
  rw [nodeParse, whole, upTo, if_pos (depth_le_length _ record)]

end Numerals

section Delivery

variable {runtimes : Runtimes}

def Delivered (framed : List Char) (record : Value PyNumber) : Prop :=
  ∃ line, nodeLines framed = [line] ∧ utf8Size line ≤ maxRecordBytes ∧
    nodeParse line = some (record.map fun number => some number.value)

/-- No string holds a line or paragraph separator, and every number is a binary64 one. -/
def Plain (record : Value PyNumber) : Prop :=
  .scalar (Char.ofNat 8232) ∉ record.points ∧ .scalar (Char.ofNat 8233) ∉ record.points ∧
    ∀ number ∈ record.numbers, Exact number.value

theorem printable_inside {c : Char} (printable : Printable c) : endsLine c = false := by
  by_contra ended
  rw [Bool.not_eq_false] at ended
  simp only [endsLine, Bool.or_eq_true, beq_iff_eq] at ended
  rcases ended with ((rfl | rfl) | rfl) | rfl <;> revert printable <;> decide

/-- The separators are the only line ends that a text can hold. -/
theorem render_inside {Number : Type} {numeral : Number → List Char}
    (numerals : ∀ number, Numeral (numeral number)) (record : Value Number) :
    (∀ c ∈ render numeral record, endsLine c = false) ↔
      .scalar (Char.ofNat 8232) ∉ record.points ∧ .scalar (Char.ofNat 8233) ∉ record.points := by
  constructor
  · intro inside
    have absent (c : Char) (wide : 127 ≤ c.toNat) (ended : endsLine c = true) :
        .scalar c ∉ record.points := by
      intro member
      rw [inside c (render_wide wide record member)] at ended
      cases ended
    exact ⟨absent _ (by decide) (by decide), absent _ (by decide) (by decide)⟩
  · rintro ⟨line, paragraph⟩ c member
    rcases render_characters numerals record member with printable | ⟨wide, point⟩
    · exact printable_inside printable
    · by_contra ended
      rw [Bool.not_eq_false] at ended
      simp only [endsLine, Bool.or_eq_true, beq_iff_eq] at ended
      rcases ended with ((rfl | rfl) | rfl) | rfl
      · exact absurd wide (by decide)
      · exact absurd wide (by decide)
      · exact line point
      · exact paragraph point

theorem render_noControl {Number : Type} {numeral : Number → List Char}
    (numerals : ∀ number, Numeral (numeral number)) (record : Value Number) {c : Char}
    (control : c.toNat < 32) : c ∉ render numeral record := by
  intro member
  rcases render_characters numerals record member with printable | ⟨wide, _⟩
  · exact absurd printable.1 (by omega)
  · omega

theorem delivered_iff (documented : runtimes.Documented) {record : Value PyNumber}
    {framed : List Char} (keyed : record.Keyed) (encoded : encode runtimes record = .ok framed) :
    Delivered framed record ↔ Plain record := by
  obtain ⟨scalars, rfl, bounded⟩ := encode_ok encoded
  have numerals := pyNumeral_numeral documented
  have parsed := nodeParse_render documented (proper_of_scalars record keyed scalars)
  constructor
  · rintro ⟨line, single, _, same⟩
    have noReturn := render_noControl numerals record (by decide : '\r'.toNat < 32)
    have inside := nodeLines_single noReturn single
    rw [nodeLines_plain inside, List.cons.injEq] at single
    rw [← single.1, parsed, Option.some.injEq] at same
    obtain ⟨line, paragraph⟩ := (render_inside numerals record).mp inside
    exact ⟨line, paragraph, (map_eq_iff _ _ record).mp same⟩
  · rintro ⟨line, paragraph, exact⟩
    have inside := (render_inside numerals record).mpr ⟨line, paragraph⟩
    refine ⟨_, nodeLines_plain inside, Nat.le_trans bounded (Nat.sub_le _ _), ?_⟩
    rw [parsed, (map_eq_iff _ _ record).mpr exact]

end Delivery

section Reception

variable {runtimes : Runtimes}

theorem readUnsigned_whole {text : List Char} {literal : Literal}
    (read : readUnsigned text = some literal) (integral : literal.integral = true) :
    ∃ n : Nat, literal.value = n := by
  have exponent {value : ℚ} {rest : List Char} (read : readExponent value rest = some literal) :
      False := by
    cases rest with
    | nil => cases read
    | cons mark rest =>
        simp only [readExponent] at read
        repeat' split at read
        all_goals cases read
        all_goals cases integral
  simp only [readUnsigned] at read
  split at read
  · cases read
  · split at read
    · cases read
      exact ⟨_, rfl⟩
    · simp only [readFraction] at read
      split at read
      · cases read
      · split at read
        · cases read
          cases integral
        · exact (exponent read).elim
    · exact (exponent read).elim

theorem readLiteral_whole {token : List Char} {literal : Literal}
    (read : readLiteral token = some literal) (integral : literal.integral = true) :
    (literal.value.num : ℚ) = literal.value := by
  unfold readLiteral at read
  split at read
  · obtain ⟨positive, unsigned, rfl⟩ := Option.map_eq_some_iff.mp read
    obtain ⟨n, same⟩ := readUnsigned_whole unsigned integral
    rw [same]
    simp
  · obtain ⟨n, same⟩ := readUnsigned_whole read integral
    rw [same]
    simp

def Faithful (runtimes : Runtimes) (number : Double) : Prop :=
  ∀ literal, readLiteral (runtimes.numberText number) = some literal →
    literal.integral = true → literal.value = number.1

theorem pyNumber_numberText (documented : runtimes.Documented) (number : Double) :
    ∃ decoded, pyNumber (runtimes.numberText number) = some decoded ∧
      (decoded.value = number.1 ↔ Faithful runtimes number) := by
  obtain ⟨_, literal, read, near⟩ := documented.numberText number
  have short := documented.short number literal read
  unfold pyNumber
  rw [read]
  simp only
  by_cases integral : literal.integral = true
  · have few : ((runtimes.numberText number).filter (· ≠ '-')).length ≤ 22 :=
      Nat.le_trans (List.length_filter_le _ _) (short integral)
    rw [if_pos integral, if_neg (by unfold maxDigits; omega)]
    refine ⟨_, rfl, ?_⟩
    rw [PyNumber.value, readLiteral_whole read integral]
    constructor
    · intro same other again _
      rw [read] at again
      cases again
      exact same
    · intro faithful
      exact faithful literal read integral
  · rw [if_neg integral]
    split
    · next infinite =>
        rw [near] at infinite
        cases infinite
    · next rounded same =>
        refine ⟨_, rfl, ?_⟩
        rw [near] at same
        constructor
        · intro _ other again whole
          rw [read] at again
          cases again
          exact absurd whole integral
        · intro _
          exact (Option.some.inj same).symm

def decoded (runtimes : Runtimes) (number : Double) : PyNumber :=
  (pyNumber (runtimes.numberText number)).getD (.int 0)

theorem pyNumber_decoded (documented : runtimes.Documented) (number : Double) :
    pyNumber (runtimes.numberText number) = some (decoded runtimes number) ∧
      ((decoded runtimes number).value = number.1 ↔ Faithful runtimes number) := by
  obtain ⟨value, read, faithful⟩ := pyNumber_numberText documented number
  have same : decoded runtimes number = value := by rw [decoded, read, Option.getD_some]
  rw [same]
  exact ⟨read, faithful⟩

/-- The worker writes one line feed, at the end. -/
theorem readline_sent {text : List Char} (inside : '\n' ∉ text)
    (small : utf8Size (text ++ ['\n']) ≤ maxRecordBytes) :
    readline (text ++ ['\n']) = .ok (text ++ ['\n'], []) := by
  have before : ∀ c ∈ text, decide (c ≠ '\n') = true := by
    intro c member
    apply decide_eq_true
    rintro rfl
    exact inside member
  have taken : (text ++ ['\n']).takeWhile (· ≠ '\n') = text := by
    rw [List.takeWhile_append_of_pos before]
    exact List.append_nil text
  have dropped : (text ++ ['\n']).dropWhile (· ≠ '\n') = ['\n'] :=
    List.dropWhile_append_of_pos before
  have less : utf8Size text ≤ maxRecordBytes := by
    simp only [utf8Size, List.map_append, List.sum_append] at small ⊢
    omega
  simp only [readline, taken, dropped]
  rw [if_neg (Nat.not_lt.mpr less)]

theorem stringify_present (record : Value NodeNumber) :
    stringify runtimes record = render runtimes.numberText record.present :=
  render_present runtimes.numberText record

theorem loads_stringify (documented : runtimes.Documented) {record : Value NodeNumber}
    (proper : record.Proper) : loads runtimes (stringify runtimes record ++ ['\n']) =
      upTo record.depth runtimes.decoderDepth (record.present.map (decoded runtimes)) := by
  have numerals : ∀ number, Numeral (runtimes.numberText number) := fun number =>
    (documented.numberText number).1
  have spaces : ∀ c ∈ ['\n'], isSpace c = true := List.all_eq_true.mp (by decide)
  rw [stringify_present, ← depth_present]
  exact read_render numerals (proper_present record proper)
    (fun number _ => (pyNumber_decoded documented number).1) _ spaces

theorem receive_sent (documented : runtimes.Documented) {entries : List (Text × Value NodeNumber)}
    {framed : List Char} (proper : (Value.object entries).Proper)
    (sent : send runtimes (.object entries) = .ok framed) :
    readline framed = .ok (framed, []) ∧ receive runtimes framed =
      if (Value.object entries).depth ≤ runtimes.decoderDepth then
        .ok (mapEntries (decoded runtimes) (presentEntries entries), [])
      else .error (protocolError "Pi worker returned invalid JSON") := by
  have numerals : ∀ number, Numeral (runtimes.numberText number) := fun number =>
    (documented.numberText number).1
  simp only [send] at sent
  split at sent
  · cases sent
  · next small =>
      cases sent
      have inside : '\n' ∉ stringify runtimes (.object entries) := by
        rw [stringify_present]
        exact render_noControl numerals _ (by decide)
      have whole := readline_sent inside (Nat.not_lt.mp small)
      have fits : (decide (utf8Size (stringify runtimes (.object entries) ++ ['\n']) >
          maxRecordBytes) || decide ((stringify runtimes (.object entries) ++ ['\n']).getLast? ≠
            some '\n')) = false := by
        simp only [small, decide_false, Bool.false_or, List.getLast?_append, List.getLast?_singleton]
        rfl
      have written : (stringify runtimes (.object entries) ++ ['\n']).isEmpty = false := by
        simp
      refine ⟨whole, ?_⟩
      simp only [receive, whole, Bind.bind, Except.bind, written, Bool.false_eq_true, if_false,
        fits, loads_stringify documented proper, upTo]
      by_cases shallow : (Value.object entries).depth ≤ runtimes.decoderDepth
      · simp only [if_pos shallow]
        rfl
      · simp only [if_neg shallow]
        rfl

/-- The value that a number of Python stands for, and that of a finite number of JavaScript. -/
def SameRecord (read : Value PyNumber) (record : Value NodeNumber) : Prop :=
  read.map (fun number => some number.value) = record.map fun number => number.map Subtype.val

def Received (runtimes : Runtimes) (framed : List Char)
    (entries : List (Text × Value NodeNumber)) : Prop :=
  readline framed = .ok (framed, []) ∧
    ((∃ error, receive runtimes framed = .error error) ∨
      ∃ read, receive runtimes framed = .ok (read, []) ∧ SameRecord (.object read) (.object entries))

/-- A number that is finite, and whose text has its value if it is one of whole digits. -/
def Kept (runtimes : Runtimes) (number : NodeNumber) : Prop :=
  ∃ value, number = some value ∧ Faithful runtimes value

theorem sameRecord_finite (documented : runtimes.Documented) (record : Value Double) :
    SameRecord (record.map (decoded runtimes)) (record.map some) ↔
      ∀ number ∈ record.numbers, Faithful runtimes number := by
  rw [SameRecord, map_map, map_map, map_eq_iff]
  refine forall₂_congr fun number _ => ?_
  simp only [Function.comp_apply, Option.map_some, Option.some.injEq]
  exact (pyNumber_decoded documented number).2

theorem sameRecord_iff (documented : runtimes.Documented) (record : Value NodeNumber) :
    SameRecord (record.present.map (decoded runtimes)) record ↔
      ∀ number ∈ record.numbers, Kept runtimes number := by
  have kept (given : ∀ number ∈ record.numbers, number ≠ none) :
      SameRecord (record.present.map (decoded runtimes)) record ↔
        ∀ number ∈ record.numbers, Kept runtimes number := by
    have whole := present_map record given
    have finite := sameRecord_finite documented record.present
    rw [whole] at finite
    rw [finite]
    constructor
    · intro all number member
      rw [← whole, numbers_map] at member
      obtain ⟨value, inside, rfl⟩ := List.mem_map.mp member
      exact ⟨value, rfl, all value inside⟩
    · intro all value member
      have inside : some value ∈ record.numbers := by
        rw [← whole, numbers_map]
        exact List.mem_map_of_mem member
      obtain ⟨_, same, faithful⟩ := all _ inside
      cases same
      exact faithful
  constructor
  · intro same
    refine (kept ?_).mp same
    -- A null that Python reads is no number.
    intro number member missing
    have numbers := congrArg Value.numbers same
    simp only [numbers_map, List.map_map] at numbers
    have image : none ∈ record.numbers.map fun number => number.map Subtype.val :=
      List.mem_map.mpr ⟨number, member, by rw [missing, Option.map_none]⟩
    rw [← numbers] at image
    obtain ⟨_, _, impossible⟩ := List.mem_map.mp image
    cases impossible
  · intro all
    refine (kept ?_).mpr all
    intro number member missing
    obtain ⟨value, same, _⟩ := all number member
    cases missing.symm.trans same

theorem received_iff (documented : runtimes.Documented)
    {entries : List (Text × Value NodeNumber)} {framed : List Char}
    (proper : (Value.object entries).Proper)
    (sent : send runtimes (.object entries) = .ok framed) :
    Received runtimes framed entries ↔
      (Value.object entries).depth ≤ runtimes.decoderDepth →
        ∀ number ∈ (Value.object entries).numbers, Kept runtimes number := by
  obtain ⟨whole, received⟩ := receive_sent documented proper sent
  have meaning := sameRecord_iff documented (.object entries)
  unfold Received
  by_cases shallow : (Value.object entries).depth ≤ runtimes.decoderDepth
  · rw [received, if_pos shallow]
    constructor
    · rintro ⟨_, ⟨error, failed⟩ | ⟨read, same, equal⟩⟩ _
      · cases failed
      · cases same
        exact meaning.mp equal
    · intro faithful
      exact ⟨whole, Or.inr ⟨_, rfl, meaning.mpr (faithful shallow)⟩⟩
  · rw [received, if_neg shallow]
    constructor
    · intro _ deep
      exact absurd deep shallow
    · intro _
      exact ⟨whole, Or.inl ⟨_, rfl⟩⟩

end Reception

/-- A record of Python arrives as it is exactly when its strings hold no line or paragraph
separator and its integers are binary64 values; one of the worker when it is nested too
deep to be read or its numbers are finite and have their exact value as text. -/
theorem framing_lossless_iff {runtimes : Runtimes} (documented : runtimes.Documented) :
    (∀ (record : Value PyNumber) (framed : List Char), record.Keyed →
      encode runtimes record = .ok framed → (Delivered framed record ↔ Plain record)) ∧
    ∀ (entries : List (Text × Value NodeNumber)) (framed : List Char),
      (Value.object entries).Proper → send runtimes (.object entries) = .ok framed →
      (Received runtimes framed entries ↔
        ((Value.object entries).depth ≤ runtimes.decoderDepth →
          ∀ number ∈ (Value.object entries).numbers, Kept runtimes number)) :=
  ⟨fun _ _ keyed encoded => delivered_iff documented keyed encoded,
    fun _ _ proper sent => received_iff documented proper sent⟩

section Samples

/-- Numerals of binary64: whole numbers below `10 ^ 21` as they are, others scaled. -/
def sampleText (value : Double) : List Char :=
  if value.1.den = 1 ∧ value.1.num.natAbs < 10 ^ 21 then integerText value.1.num
  else scaledText ((value.1 * 2 ^ (1074 : ℕ)).num * 5 ^ (1074 : ℕ)) 1074

def sampleRuntimes : Runtimes := ⟨sampleText, sampleText, 1000, 1000⟩

theorem sampleText_scaled (value : Double) :
    (((value.1 * 2 ^ (1074 : ℕ)).num * 5 ^ (1074 : ℕ) : ℤ) : ℚ) / 10 ^ (1074 : ℕ) = value.1 := by
  obtain ⟨n, scaled⟩ := exact_scaled value.2
  have ten : (10 : ℚ) ^ (1074 : ℕ) = 2 ^ (1074 : ℕ) * 5 ^ (1074 : ℕ) := by
    rw [← mul_pow]
    norm_num
  rw [scaled, Rat.num_intCast, ten, Int.cast_mul, Int.cast_pow, Int.cast_ofNat, ← scaled]
  have five : (5 : ℚ) ^ (1074 : ℕ) ≠ 0 := pow_ne_zero _ (by norm_num)
  have two : (2 : ℚ) ^ (1074 : ℕ) ≠ 0 := pow_ne_zero _ (by norm_num)
  rw [mul_div_mul_right _ _ five, mul_div_cancel_right₀ _ two]

theorem sampleText_reads (value : Double) : ∃ integral,
    readLiteral (sampleText value) = some ⟨value.1, integral⟩ := by
  unfold sampleText
  split
  · next whole =>
      refine ⟨true, ?_⟩
      rw [readLiteral_integerText, Rat.coe_int_num_of_den_eq_one whole.1]
  · refine ⟨false, ?_⟩
    rw [readLiteral_scaled, sampleText_scaled]

theorem sampleText_writesBack : WritesBack sampleText := by
  intro value
  obtain ⟨integral, read⟩ := sampleText_reads value
  refine ⟨?_, _, read, value.2⟩
  unfold sampleText
  split
  · exact integerText_numeral _
  · exact scaledText_numeral _ _

theorem sampleText_short (value : Double) (literal : Literal)
    (read : readLiteral (sampleText value) = some literal) (integral : literal.integral = true) :
    (sampleText value).length ≤ 22 := by
  unfold sampleText at read ⊢
  split
  · next whole =>
      have digits : (naturalText value.1.num.natAbs).length ≤ 21 :=
        (Nat.length_toDigits_le_iff (by decide) (by decide)).mpr whole.2
      unfold integerText
      split
      · rw [List.length_cons]
        omega
      · omega
  · next other =>
      rw [if_neg other, readLiteral_scaled] at read
      cases read
      cases integral

theorem sampleRuntimes_documented : sampleRuntimes.Documented :=
  ⟨sampleText_writesBack, sampleText_writesBack, sampleText_short⟩

def toolRecord (text : List Char) : Value PyNumber :=
  .object [(points ['t', 'e', 'x', 't'], .string (points text)),
    (points ['t', 'u', 'r', 'n'], .number (.int 1))]

def resultEntries : List (Text × Value NodeNumber) :=
  [(points ['t', 'y', 'p', 'e'], .string (points ['r', 'e', 's', 'u', 'l', 't'])),
    (points ['t', 'u', 'r', 'n', 's'], .number (some ⟨(1 : ℤ), exact_one⟩))]

end Samples

/-- A line separator in a document breaks the line that the worker gets. -/
theorem separated_text_broken : ∃ framed,
    encode sampleRuntimes (toolRecord ['a', Char.ofNat 8232, 'b']) = .ok framed ∧
    ¬ Delivered framed (toolRecord ['a', Char.ofNat 8232, 'b']) := by
  have two : (encode sampleRuntimes (toolRecord ['a', Char.ofNat 8232, 'b'])).toOption.any
      (fun framed => (nodeLines framed).length == 2) = true := by
    decide +kernel
  cases encoded : encode sampleRuntimes (toolRecord ['a', Char.ofNat 8232, 'b']) with
  | error error =>
      rw [encoded] at two
      cases two
  | ok framed =>
      refine ⟨framed, rfl, ?_⟩
      rintro ⟨line, single, _⟩
      rw [encoded] at two
      simp [Except.toOption, single] at two

/-- A text with another wide character, and the final record of the worker. -/
theorem framing_lossless_iff_text : ∃ framed sent,
    encode sampleRuntimes (toolRecord ['a', Char.ofNat 233, '\n']) = .ok framed ∧
    Delivered framed (toolRecord ['a', Char.ofNat 233, '\n']) ∧
    send sampleRuntimes (.object resultEntries) = .ok sent ∧
    Received sampleRuntimes sent resultEntries := by
  have lossless := framing_lossless_iff sampleRuntimes_documented
  have accepted : (encode sampleRuntimes (toolRecord ['a', Char.ofNat 233, '\n'])).isOk = true := by
    decide +kernel
  have passed : (send sampleRuntimes (.object resultEntries)).isOk = true := by decide +kernel
  cases encoded : encode sampleRuntimes (toolRecord ['a', Char.ofNat 233, '\n']) with
  | error error =>
      rw [encoded] at accepted
      cases accepted
  | ok framed =>
      cases sending : send sampleRuntimes (.object resultEntries) with
      | error error =>
          rw [sending] at passed
          cases passed
      | ok sent =>
          have keyed : (toolRecord ['a', Char.ofNat 233, '\n']).Keyed :=
            ⟨by decide, trivial, trivial, trivial⟩
          have plain : Plain (toolRecord ['a', Char.ofNat 233, '\n']) := by
            refine ⟨by decide, by decide, ?_⟩
            intro number member
            rw [List.mem_singleton.mp member]
            exact exact_of_small (by decide)
          have proper : (Value.object resultEntries).Proper :=
            ⟨by decide, rfl, rfl, rfl, trivial, trivial⟩
          refine ⟨framed, sent, rfl, (lossless.1 _ _ keyed encoded).mpr plain, rfl,
            (lossless.2 _ _ proper sending).mpr ?_⟩
          intro _ number member
          obtain ⟨value, rfl⟩ : ∃ value, number = some value :=
            ⟨_, List.mem_singleton.mp member⟩
          refine ⟨value, rfl, fun literal read _ => ?_⟩
          obtain ⟨integral, same⟩ := sampleText_reads value
          cases read.symm.trans same
          rfl

end AgentTaskPlatform.PiFraming
