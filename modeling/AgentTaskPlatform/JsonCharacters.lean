import AgentTaskPlatform.JsonText

/-!
Which characters a JSON text consists of: printable ones that the writer puts down, and the
wide points of its strings and keys as they are.
-/

namespace AgentTaskPlatform.JsonText

variable {Number : Type}

section Characters

def Printable (c : Char) : Prop := 32 ≤ c.toNat ∧ c.toNat < 127

instance (c : Char) : Decidable (Printable c) := inferInstanceAs (Decidable (_ ∧ _))

theorem hexDigit_printable : ∀ value, value < 16 → Printable (hexDigit value) := by
  decide

theorem unicodeEscape_printable {value : Nat} (small : value < 65536) :
    ∀ c ∈ unicodeEscape value, Printable c := by
  have first : value / 4096 < 16 := by omega
  have rest (number : Nat) : Printable (hexDigit (number % 16)) :=
    hexDigit_printable _ (Nat.mod_lt _ (by decide))
  intro c member
  simp only [unicodeEscape, hex4, List.mem_cons, List.not_mem_nil, or_false] at member
  rcases member with rfl | rfl | rfl | rfl | rfl | rfl
  · decide
  · decide
  · exact hexDigit_printable _ first
  · exact rest _
  · exact rest _
  · exact rest _

theorem escape_characters {point : Point} {c : Char} (member : c ∈ escape point) :
    Printable c ∨ 127 ≤ c.toNat ∧ point = .scalar c := by
  cases point with
  | surrogate high bits =>
      have small : surrogateUnit high bits < 65536 := by
        cases high <;> simp only [surrogateUnit, if_true, Bool.false_eq_true, if_false] <;> omega
      exact Or.inl (unicodeEscape_printable small c member)
  | scalar own =>
      have pair {letter : Char} (printable : Printable letter) (inside : c ∈ ['\\', letter]) :
          Printable c ∨ 127 ≤ c.toNat ∧ Point.scalar own = .scalar c := by
        simp only [List.mem_cons, List.not_mem_nil, or_false] at inside
        rcases inside with rfl | rfl
        · exact Or.inl (by decide)
        · exact Or.inl printable
      simp only [escape, escapeScalar] at member
      split at member
      · exact pair (by decide) member
      split at member
      · exact pair (by decide) member
      split at member
      · exact pair (by decide) member
      split at member
      · exact pair (by decide) member
      split at member
      · exact pair (by decide) member
      split at member
      · exact pair (by decide) member
      split at member
      · exact pair (by decide) member
      split at member
      · next control => exact Or.inl (unicodeEscape_printable (by omega) c member)
      · next graphic =>
          rw [List.mem_singleton.mp member]
          by_cases wide : 127 ≤ own.toNat
          · exact Or.inr ⟨wide, rfl⟩
          · exact Or.inl ⟨by omega, by omega⟩

theorem escapeScalar_wide {c : Char} (wide : 127 ≤ c.toNat) : escapeScalar c = [c] := by
  have other {d : Char} (narrow : d.toNat < 127) : c ≠ d := by
    rintro rfl
    omega
  unfold escapeScalar
  rw [if_neg (other (by decide)), if_neg (other (by decide)), if_neg (other (by decide)),
    if_neg (other (by decide)), if_neg (other (by decide)), if_neg (other (by decide)),
    if_neg (other (by decide)), if_neg (by omega)]

theorem quote_characters {text : Text} {c : Char} (member : c ∈ quote text) :
    Printable c ∨ 127 ≤ c.toNat ∧ .scalar c ∈ text := by
  simp only [quote, List.cons_append, List.mem_cons, List.mem_append, List.mem_flatMap,
    List.not_mem_nil, or_false] at member
  rcases member with rfl | ⟨point, inside, written⟩ | rfl
  · exact Or.inl (by decide)
  · rcases escape_characters written with printable | ⟨wide, rfl⟩
    · exact Or.inl printable
    · exact Or.inr ⟨wide, inside⟩
  · exact Or.inl (by decide)

theorem quote_wide {text : Text} {c : Char} (wide : 127 ≤ c.toNat) (member : .scalar c ∈ text) :
    c ∈ quote text := by
  simp only [quote, List.cons_append, List.mem_cons, List.mem_append, List.mem_flatMap]
  refine Or.inr (Or.inl ⟨.scalar c, member, ?_⟩)
  rw [escape, escapeScalar_wide wide]
  exact List.mem_singleton_self c

theorem isNumeral_printable {c : Char} (numeral : isNumeral c = true) : Printable c := by
  simp only [isNumeral, Bool.or_eq_true, beq_iff_eq] at numeral
  rcases numeral with ((((digit | rfl) | rfl) | rfl) | rfl) | rfl
  · simp only [Char.isDigit, Bool.and_eq_true, decide_eq_true_eq] at digit
    obtain ⟨low, high⟩ := digit
    have above : 48 ≤ c.toNat := low
    have below : c.toNat ≤ 57 := high
    exact ⟨by omega, by omega⟩
  all_goals decide

variable {numeral : Number → List Char}

mutual

/-- Besides what the writer itself puts down, a document has wide points of its strings. -/
theorem render_characters (numerals : ∀ value, Numeral (numeral value)) {c : Char} :
    ∀ value : Value Number,
      c ∈ render numeral value → Printable c ∨ 127 ≤ c.toNat ∧ .scalar c ∈ value.points
  | .null, member => Or.inl (by
      simp only [render, List.mem_cons, List.not_mem_nil, or_false] at member
      rcases member with rfl | rfl | rfl | rfl <;> decide)
  | .bool true, member => Or.inl (by
      simp only [render, List.mem_cons, List.not_mem_nil, or_false] at member
      rcases member with rfl | rfl | rfl | rfl <;> decide)
  | .bool false, member => Or.inl (by
      simp only [render, List.mem_cons, List.not_mem_nil, or_false] at member
      rcases member with rfl | rfl | rfl | rfl | rfl <;> decide)
  | .number value, member => Or.inl (isNumeral_printable ((numerals value).2 c member))
  | .string _, member => quote_characters member
  | .array [], member => Or.inl (by
      simp only [render, List.mem_cons, List.not_mem_nil, or_false] at member
      rcases member with rfl | rfl <;> decide)
  | .array (first :: others), member => by
      simp only [render, List.cons_append, List.mem_cons, List.mem_append] at member
      simp only [Value.points, pointsOf, List.mem_append]
      rcases member with rfl | own | rest
      · exact Or.inl (by decide)
      · have := render_characters numerals first own
        tauto
      · have := renderItems_characters numerals others rest
        tauto
  | .object [], member => Or.inl (by
      simp only [render, List.mem_cons, List.not_mem_nil, or_false] at member
      rcases member with rfl | rfl <;> decide)
  | .object ((key, first) :: others), member => by
      simp only [render, List.cons_append, List.append_assoc, List.mem_cons, List.mem_append]
        at member
      simp only [Value.points, pointsIn, List.mem_append]
      rcases member with rfl | quoted | rfl | own | rest
      · exact Or.inl (by decide)
      · have := quote_characters quoted
        tauto
      · exact Or.inl (by decide)
      · have := render_characters numerals first own
        tauto
      · have := renderEntries_characters numerals others rest
        tauto

theorem renderItems_characters (numerals : ∀ value, Numeral (numeral value)) {c : Char} :
    ∀ items : List (Value Number),
      c ∈ renderItems numeral items → Printable c ∨ 127 ≤ c.toNat ∧ .scalar c ∈ pointsOf items
  | [], member => Or.inl (by
      rw [renderItems, List.mem_singleton] at member
      rw [member]
      decide)
  | item :: others, member => by
      simp only [renderItems, List.cons_append, List.mem_cons, List.mem_append] at member
      simp only [pointsOf, List.mem_append]
      rcases member with rfl | own | rest
      · exact Or.inl (by decide)
      · have := render_characters numerals item own
        tauto
      · have := renderItems_characters numerals others rest
        tauto

theorem renderEntries_characters (numerals : ∀ value, Numeral (numeral value)) {c : Char} :
    ∀ entries : List (Text × Value Number),
      c ∈ renderEntries numeral entries →
        Printable c ∨ 127 ≤ c.toNat ∧ .scalar c ∈ pointsIn entries
  | [], member => Or.inl (by
      rw [renderEntries, List.mem_singleton] at member
      rw [member]
      decide)
  | (key, value) :: others, member => by
      simp only [renderEntries, List.cons_append, List.append_assoc, List.mem_cons,
        List.mem_append] at member
      simp only [pointsIn, List.mem_append]
      rcases member with rfl | quoted | rfl | own | rest
      · exact Or.inl (by decide)
      · have := quote_characters quoted
        tauto
      · exact Or.inl (by decide)
      · have := render_characters numerals value own
        tauto
      · have := renderEntries_characters numerals others rest
        tauto

end

mutual

theorem render_wide {c : Char} (wide : 127 ≤ c.toNat) :
    ∀ value : Value Number, .scalar c ∈ value.points → c ∈ render numeral value
  | .null, member | .bool _, member | .number _, member => by cases member
  | .string _, member => quote_wide wide member
  | .array [], member => by cases member
  | .array (first :: others), member => by
      simp only [render, List.cons_append, List.mem_cons, List.mem_append]
      rcases List.mem_append.mp member with own | rest
      · exact Or.inr (Or.inl (render_wide wide first own))
      · exact Or.inr (Or.inr (renderItems_wide wide others rest))
  | .object [], member => by cases member
  | .object ((key, first) :: others), member => by
      simp only [render, List.cons_append, List.append_assoc, List.mem_cons, List.mem_append]
      rcases List.mem_append.mp member with before | rest
      · rcases List.mem_append.mp before with inside | own
        · exact Or.inr (Or.inl (quote_wide wide inside))
        · exact Or.inr (Or.inr (Or.inr (Or.inl (render_wide wide first own))))
      · exact Or.inr (Or.inr (Or.inr (Or.inr (renderEntries_wide wide others rest))))

theorem renderItems_wide {c : Char} (wide : 127 ≤ c.toNat) :
    ∀ items : List (Value Number), .scalar c ∈ pointsOf items → c ∈ renderItems numeral items
  | [], member => by cases member
  | item :: others, member => by
      simp only [renderItems, List.cons_append, List.mem_cons, List.mem_append]
      rcases List.mem_append.mp member with own | rest
      · exact Or.inr (Or.inl (render_wide wide item own))
      · exact Or.inr (Or.inr (renderItems_wide wide others rest))

theorem renderEntries_wide {c : Char} (wide : 127 ≤ c.toNat) :
    ∀ entries : List (Text × Value Number),
      .scalar c ∈ pointsIn entries → c ∈ renderEntries numeral entries
  | [], member => by cases member
  | (key, value) :: others, member => by
      simp only [renderEntries, List.cons_append, List.append_assoc, List.mem_cons,
        List.mem_append]
      rcases List.mem_append.mp member with before | rest
      · rcases List.mem_append.mp before with inside | own
        · exact Or.inr (Or.inl (quote_wide wide inside))
        · exact Or.inr (Or.inr (Or.inr (Or.inl (render_wide wide value own))))
      · exact Or.inr (Or.inr (Or.inr (Or.inr (renderEntries_wide wide others rest))))

end

end Characters

section Scalars

def IsScalar (point : Point) : Prop := ∃ c, point = .scalar c

theorem joined_scalars {text : Text} (scalars : ∀ point ∈ text, IsScalar point) :
    joined text = text := by
  induction text with
  | nil => rfl
  | cons point rest ih =>
      obtain ⟨c, rfl⟩ := scalars point List.mem_cons_self
      rw [joined, ih fun other member => scalars other (List.mem_cons_of_mem _ member)]
      nofun

mutual

theorem proper_of_scalars : ∀ value : Value Number,
    value.Keyed → (∀ point ∈ value.points, IsScalar point) → value.Proper
  | .null, _, _ | .bool _, _, _ | .number _, _, _ => trivial
  | .string _, _, scalars => joined_scalars scalars
  | .array items, keyed, scalars => properItems_of_scalars items keyed scalars
  | .object entries, keyed, scalars =>
      ⟨keyed.1, properEntries_of_scalars entries keyed.2 scalars⟩

theorem properItems_of_scalars : ∀ items : List (Value Number),
    KeyedItems items → (∀ point ∈ pointsOf items, IsScalar point) → ProperItems items
  | [], _, _ => trivial
  | item :: rest, keyed, scalars =>
      ⟨proper_of_scalars item keyed.1 fun point member =>
          scalars point (List.mem_append_left _ member),
        properItems_of_scalars rest keyed.2 fun point member =>
          scalars point (List.mem_append_right _ member)⟩

theorem properEntries_of_scalars : ∀ entries : List (Text × Value Number),
    KeyedEntries entries → (∀ point ∈ pointsIn entries, IsScalar point) → ProperEntries entries
  | [], _, _ => trivial
  | (_, value) :: rest, keyed, scalars =>
      ⟨joined_scalars fun point member =>
          scalars point (List.mem_append_left _ (List.mem_append_left _ member)),
        proper_of_scalars value keyed.1 fun point member =>
          scalars point (List.mem_append_left _ (List.mem_append_right _ member)),
        properEntries_of_scalars rest keyed.2 fun point member =>
          scalars point (List.mem_append_right _ member)⟩

end

end Scalars

end AgentTaskPlatform.JsonText
