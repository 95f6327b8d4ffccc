import AgentTaskPlatform.ArtifactHash
import AgentTaskPlatform.PiDelivery
import AgentTaskPlatform.Stripping

/-!
The keys of stages and the request ids of children: `safe_stage_key`, the pattern that a
stage key has to match, and what tells two keys apart.
-/

namespace AgentTaskPlatform.StageKeys

open JsonText Stripping
open PiFraming (points encodeUtf8)
open Skills (Bytes)

structure Sha256 where
  hexdigest : Bytes → List Char
  length : ∀ data, (hexdigest data).length = 64
  hexadecimal : ∀ data, ∀ c ∈ hexdigest data, c.isDigit ∨ 'a' ≤ c ∧ c ≤ 'f'

section Characters

def spacePoint : Point → Bool
  | .scalar c => isspace c
  | .surrogate _ _ => false

def strip (text : Text) : Text := stripBy spacePoint text

def alphanumeric (c : Char) : Bool :=
  ('a' ≤ c && c ≤ 'z') || ('A' ≤ c && c ≤ 'Z') || ('0' ≤ c && c ≤ '9')

def plain (c : Char) : Bool := alphanumeric c || c == '_' || c == '-'

/-- `re.sub(r"[^a-zA-Z0-9_\-]", "_", text)` -/
def sanitize (text : Text) : List Char :=
  text.map fun point => match point with
    | .scalar c => if plain c then c else '_'
    | .surrogate _ _ => '_'

end Characters

section Keys

variable (sha : Sha256)

def safePrefix (pre : Text) : List Char :=
  let safe := stripBy (· == '_') (sanitize pre)
  if safe.isEmpty then ['s', 't', 'a', 'g', 'e'] else safe

def identHash (text : List Char) : List Char :=
  (sha.hexdigest (Skills.encode (String.ofList text))).take 16

def cleaned (raw : Text) : List Char := stripBy (· == '_') ((sanitize raw).take 24)

def unencodable : Exc := ⟨.exception, "UnicodeEncodeError", "surrogates not allowed"⟩

def safeStageKey (pre identifier : Text) : Except Exc (List Char) :=
  let raw := strip identifier
  match encodeUtf8 raw with
  | none => .error unencodable
  | some text =>
      let rest := if (cleaned raw).isEmpty then identHash sha text
        else cleaned raw ++ '_' :: identHash sha text
      .ok (safePrefix pre ++ ':' :: rest)

def keyCharacter (c : Char) : Bool :=
  alphanumeric c || c == '_' || c == '.' || c == ':' || c == '-'

def keyPoint : Point → Bool
  | .scalar c => keyCharacter c
  | .surrogate _ _ => false

def validKey (key : Text) : Bool :=
  match key with
  | [] => false
  | .surrogate _ _ :: _ => false
  | .scalar first :: rest => alphanumeric first && rest.length ≤ 127 && rest.all keyPoint

end Keys

section Children

variable (sha : Sha256)

structure ChildName where
  agentName : Text
  stageKey : Option Text
  identifier : Option Text

def childPrefix (agentName : Text) : Text :=
  points ['c', 'h', 'i', 'l', 'd', '-', 'a', 'g', 'e', 'n', 't', ':'] ++ agentName

def effectiveStageKey (child : ChildName) : Except Exc Text :=
  match child.stageKey, child.identifier with
  | some key, some identifier =>
      if identifier.isEmpty then .ok key else (safeStageKey sha key identifier).map points
  | some key, none => .ok key
  | none, some identifier =>
      (safeStageKey sha (childPrefix child.agentName) identifier).map points
  | none, none => .ok (childPrefix child.agentName)

def childRequestId (runId stageKey : Text) : Except Exc (List Char) :=
  safeStageKey sha (points ['c', 'h', 'i', 'l', 'd', ':'] ++ runId) stageKey

end Children

section Parts

variable {sha : Sha256}

theorem sanitize_plain {text : Text} : ∀ c ∈ sanitize text, plain c = true := by
  intro c member
  obtain ⟨point, _, rfl⟩ := List.mem_map.mp member
  cases point with
  | surrogate high bits => rfl
  | scalar own =>
      dsimp only
      split
      · assumption
      · rfl

theorem safePrefix_plain {pre : Text} : ∀ c ∈ safePrefix pre, plain c = true := by
  intro c member
  simp only [safePrefix] at member
  split at member
  · exact List.all_eq_true.mp (by decide) c member
  · exact sanitize_plain c (mem_stripBy member)

theorem cleaned_plain {raw : Text} : ∀ c ∈ cleaned raw, plain c = true :=
  fun c member => sanitize_plain c (List.mem_of_mem_take (mem_stripBy member))

theorem identHash_length (text : List Char) : (identHash sha text).length = 16 := by
  simp [identHash, sha.length]

theorem identHash_alphanumeric {text : List Char} :
    ∀ c ∈ identHash sha text, alphanumeric c = true := by
  intro c member
  rcases sha.hexadecimal _ c (List.mem_of_mem_take member) with digit | ⟨low, high⟩
  · have range : '0' ≤ c ∧ c ≤ '9' := by
      simpa [Char.isDigit, UInt32.le_iff_toNat_le, Char.le_def] using digit
    simp [alphanumeric, range]
  · have range : c ≤ 'z' := high.trans (by decide)
    simp [alphanumeric, low, range]

theorem plain_key {c : Char} (holds : plain c = true) : keyCharacter c = true ∧ c ≠ ':' := by
  constructor
  · simp only [plain, Bool.or_eq_true] at holds
    rcases holds with (letter | score) | dash
    · simp [keyCharacter, letter]
    · simp [keyCharacter, score]
    · simp [keyCharacter, dash]
  · rintro rfl
    exact absurd holds (by decide)

theorem keyCharacter_space {c : Char} (known : keyCharacter c = true) : isspace c = false := by
  have range : 45 ≤ c.toNat ∧ c.toNat ≤ 122 := by
    simp only [keyCharacter, alphanumeric, Bool.or_eq_true, Bool.and_eq_true, decide_eq_true_eq,
      beq_iff_eq, Char.le_def, UInt32.le_iff_toNat_le] at known
    rcases known with
      (((((⟨low, high⟩ | ⟨low, high⟩) | ⟨low, high⟩) | rfl) | rfl) | rfl) | rfl
    · exact ⟨le_trans (by decide) low, high⟩
    · exact ⟨le_trans (by decide) low, le_trans high (by decide)⟩
    · exact ⟨le_trans (by decide) low, le_trans high (by decide)⟩
    all_goals decide
  simp only [isspace, Bool.or_eq_false_iff, Bool.and_eq_false_iff, decide_eq_false_iff_not,
    beq_eq_false_iff_ne]
  omega

theorem safePrefix_head {pre : Text} {first : Char}
    (head : (safePrefix pre).head? = some first) : alphanumeric first = true ↔ first ≠ '-' := by
  have known : plain first = true := safePrefix_plain first (List.mem_of_head? head)
  have other : first ≠ '_' := by
    simp only [safePrefix] at head
    split at head
    · cases head
      decide
    · simpa using stripBy_head head
  constructor
  · rintro letter rfl
    exact absurd letter (by decide)
  · intro differs
    simpa [plain, other, differs] using known

theorem safePrefix_ne_nil (pre : Text) : safePrefix pre ≠ [] := by
  simp only [safePrefix]
  split
  · exact List.cons_ne_nil _ _
  · next filled => simpa using filled

theorem encodeUtf8_some {text : Text} {encoded : List Char}
    (read : encodeUtf8 text = some encoded) : text = points encoded := by
  induction text generalizing encoded with
  | nil =>
      cases read
      rfl
  | cons point rest ih =>
      cases point with
      | surrogate high bits => cases read
      | scalar c =>
          simp only [encodeUtf8, Option.map_eq_some_iff] at read
          obtain ⟨tail, later, rfl⟩ := read
          rw [ih later]
          rfl

theorem cut_unique {separator : Char} {left right : List Char} {after later : List Char}
    (first : separator ∉ left) (second : separator ∉ right)
    (same : left ++ separator :: after = right ++ separator :: later) :
    left = right ∧ after = later := by
  induction left generalizing right with
  | nil =>
      cases right with
      | nil => exact ⟨rfl, (List.cons.inj same).2⟩
      | cons head tail =>
          have equal : separator = head := (List.cons.inj same).1
          exact absurd (equal ▸ List.mem_cons_self) second
  | cons head rest ih =>
      cases right with
      | nil =>
          have equal : head = separator := (List.cons.inj same).1
          exact absurd (equal ▸ List.mem_cons_self) first
      | cons other tail =>
          obtain ⟨rfl, tails⟩ := List.cons.inj same
          obtain ⟨rfl, rests⟩ := ih (fun member => first (List.mem_cons_of_mem _ member))
            (fun member => second (List.mem_cons_of_mem _ member)) tails
          exact ⟨rfl, rests⟩

end Parts

section Determined

variable {sha : Sha256} {p q i j : Text}

def hashed (identifier : Text) : Set (List Char) :=
  {text | encodeUtf8 (strip identifier) = some text}

def keyRest (sha : Sha256) (raw : Text) (text : List Char) : List Char :=
  if (cleaned raw).isEmpty then identHash sha text else cleaned raw ++ '_' :: identHash sha text

theorem safeStageKey_ok {key : List Char} (made : safeStageKey sha p i = .ok key) :
    ∃ text ∈ hashed i, key = safePrefix p ++ ':' :: keyRest sha (strip i) text := by
  simp only [safeStageKey] at made
  cases read : encodeUtf8 (strip i) with
  | none => simp [read] at made
  | some text =>
      simp only [read, Except.ok.injEq] at made
      exact ⟨text, read, made.symm⟩

theorem safeStageKey_hashed {text : List Char} (read : text ∈ hashed i) :
    safeStageKey sha p i = .ok (safePrefix p ++ ':' :: keyRest sha (strip i) text) := by
  have known : encodeUtf8 (strip i) = some text := read
  simp only [safeStageKey, known]
  rfl

theorem colon_notMem_safePrefix : ':' ∉ safePrefix p :=
  fun member => (plain_key (safePrefix_plain ':' member)).2 rfl

theorem keyRest_hash {raw other : Text} {text later : List Char}
    (same : keyRest sha raw text = keyRest sha other later) :
    identHash sha text = identHash sha later := by
  have ends (raw : Text) (text : List Char) : ∃ front,
      keyRest sha raw text = front ++ identHash sha text := by
    rw [keyRest]
    split
    · exact ⟨[], rfl⟩
    · exact ⟨cleaned raw ++ ['_'], by simp⟩
  obtain ⟨front, left⟩ := ends raw text
  obtain ⟨other, right⟩ := ends other later
  rw [left, right] at same
  exact (List.append_inj' same ((identHash_length text).trans (identHash_length later).symm)).2

theorem safeStageKey_eq_iff (faithful : Set.InjOn (identHash sha) (hashed i ∪ hashed j))
    {key : List Char} (made : safeStageKey sha p i = .ok key) :
    safeStageKey sha q j = .ok key ↔ safePrefix p = safePrefix q ∧ strip i = strip j := by
  obtain ⟨text, read, rfl⟩ := safeStageKey_ok made
  constructor
  · intro again
    obtain ⟨other, later, same⟩ := safeStageKey_ok again
    obtain ⟨prefixes, rests⟩ := cut_unique colon_notMem_safePrefix colon_notMem_safePrefix same
    have equal : text = other := faithful (Or.inl read) (Or.inr later) (keyRest_hash rests)
    refine ⟨prefixes, ?_⟩
    rw [encodeUtf8_some read, encodeUtf8_some later, equal]
  · rintro ⟨prefixes, raws⟩
    have later : text ∈ hashed j := by
      change encodeUtf8 (strip j) = some text
      rw [← raws]
      exact read
    rw [safeStageKey_hashed later, prefixes, raws]

end Determined

section Validity

variable {sha : Sha256} {p i : Text}

theorem keyRest_characters (raw : Text) (text : List Char) :
    ∀ c ∈ keyRest sha raw text, keyCharacter c = true := by
  have digits : ∀ c ∈ identHash sha text, keyCharacter c = true := by
    intro c member
    simp [keyCharacter, identHash_alphanumeric c member]
  intro c member
  rw [keyRest] at member
  split at member
  · exact digits c member
  · rcases List.mem_append.mp member with front | back
    · exact (plain_key (cleaned_plain c front)).1
    · rcases List.mem_cons.mp back with rfl | inside
      · rfl
      · exact digits c inside

theorem keyRest_length (raw : Text) (text : List Char) : (keyRest sha raw text).length =
    if (cleaned raw).isEmpty then 16 else (cleaned raw).length + 17 := by
  rw [keyRest]
  split
  · exact identHash_length text
  · simp [identHash_length]

def restLength (raw : Text) : Nat :=
  if (cleaned raw).isEmpty then 16 else (cleaned raw).length + 17

/-- The stripped identifier can be encoded, the sanitised prefix does not start with a
hyphen, and both leave the key within 128 characters. -/
def Clean (p i : Text) : Prop :=
  (∃ text, encodeUtf8 (strip i) = some text) ∧ (safePrefix p).head? ≠ some '-' ∧
    (safePrefix p).length + 1 + restLength (strip i) ≤ 128

def Accepted (sha : Sha256) (p i : Text) : Prop :=
  ∃ key, safeStageKey sha p i = .ok key ∧ validKey (points key) = true

theorem validKey_cons {first : Char} {rest : List Char}
    (characters : ∀ c ∈ rest, keyCharacter c = true) :
    validKey (points (first :: rest)) = true ↔ alphanumeric first = true ∧ rest.length ≤ 127 := by
  have all : (points rest).all keyPoint = true := by
    rw [List.all_eq_true]
    intro point member
    obtain ⟨c, inside, rfl⟩ := List.mem_map.mp member
    exact characters c inside
  have length : (points rest).length = rest.length := List.length_map _
  change (alphanumeric first && decide ((points rest).length ≤ 127) &&
    (points rest).all keyPoint) = true ↔ _
  rw [all, length]
  simp

theorem accepted_iff : Accepted sha p i ↔ Clean p i := by
  obtain ⟨first, rest, shape⟩ := List.exists_cons_of_ne_nil (safePrefix_ne_nil p)
  have head : (safePrefix p).head? = some first := by rw [shape]; rfl
  have letters := safePrefix_head head
  have valid_iff {text : List Char} :
      validKey (points (safePrefix p ++ ':' :: keyRest sha (strip i) text)) = true ↔
        first ≠ '-' ∧ (safePrefix p).length + 1 + restLength (strip i) ≤ 128 := by
    rw [shape, List.cons_append, validKey_cons, letters]
    · simp only [List.length_append, List.length_cons, keyRest_length, restLength]
      constructor
      · rintro ⟨differs, short⟩
        exact ⟨differs, by omega⟩
      · rintro ⟨differs, short⟩
        exact ⟨differs, by omega⟩
    · intro c member
      rcases List.mem_append.mp member with front | back
      · have inside : c ∈ safePrefix p := shape ▸ List.mem_cons_of_mem _ front
        exact (plain_key (safePrefix_plain c inside)).1
      · rcases List.mem_cons.mp back with rfl | last
        · rfl
        · exact keyRest_characters _ _ c last
  constructor
  · rintro ⟨key, made, valid⟩
    obtain ⟨text, read, rfl⟩ := safeStageKey_ok made
    obtain ⟨differs, short⟩ := valid_iff.mp valid
    refine ⟨⟨text, read⟩, ?_, short⟩
    rw [head]
    simpa using differs
  · rintro ⟨⟨text, read⟩, differs, short⟩
    refine ⟨_, safeStageKey_hashed read, valid_iff.mpr ⟨?_, short⟩⟩
    rw [head] at differs
    simpa using differs

end Validity

section Sharing

variable (sha : Sha256)

def KeysHold (p i q j : Text) : Prop :=
  Accepted sha p i ∧ Accepted sha q j ∧
    ((p, strip i) ≠ (q, strip j) → safeStageKey sha p i ≠ safeStageKey sha q j)

def Stage (child : ChildName) (key : Text) : Prop :=
  effectiveStageKey sha child = .ok key ∧ validKey key = true

def Requests (runId : Text) (child : ChildName) (request : List Char) : Prop :=
  ∃ key, Stage sha child key ∧ childRequestId sha runId key = .ok request

def ChildrenHold (runId : Text) (c d : ChildName) : Prop :=
  c.agentName ≠ d.agentName ∨ c.identifier ≠ d.identifier →
    (∀ key, ¬ (Stage sha c key ∧ Stage sha d key)) ∧
      ∀ request, ¬ (Requests sha runId c request ∧ Requests sha runId d request)

/-- Where the stage key of a child comes from: as it is given, or from a prefix and an
identifier. -/
inductive KeySource where
  | verbatim (key : Text)
  | derived (pre identifier : Text)

def keySource (child : ChildName) : KeySource :=
  match child.stageKey, child.identifier with
  | some key, some identifier =>
      if identifier.isEmpty then .verbatim key else .derived key identifier
  | some key, none => .verbatim key
  | none, some identifier => .derived (childPrefix child.agentName) identifier
  | none, none => .verbatim (childPrefix child.agentName)

/-- Two accepted keys differ: as they are given, by the sanitised prefix or the stripped
identifier, or as a given key is not spelled like a derived one. -/
def Separate : KeySource → KeySource → Prop
  | .verbatim key, .verbatim other => key = other → validKey key = false
  | .derived p i, .derived q j => safePrefix p = safePrefix q → strip i = strip j → ¬ Clean p i
  | .verbatim key, .derived q j | .derived q j, .verbatim key =>
      validKey key = true → (safeStageKey sha q j).map points ≠ .ok key

def childHashed (child : ChildName) : Set (List Char) :=
  {text | (∃ identifier, child.identifier = some identifier ∧ text ∈ hashed identifier) ∨
    ∃ key, effectiveStageKey sha child = .ok key ∧ text ∈ hashed key}

def sourceKey : KeySource → Except Exc Text
  | .verbatim key => .ok key
  | .derived p i => (safeStageKey sha p i).map points

variable {sha}

theorem effectiveStageKey_source (child : ChildName) :
    effectiveStageKey sha child = sourceKey sha (keySource child) := by
  rw [effectiveStageKey, keySource]
  cases child.stageKey with
  | none => cases child.identifier <;> rfl
  | some key =>
      cases child.identifier with
      | none => rfl
      | some identifier => by_cases empty : identifier.isEmpty = true <;> simp [empty, sourceKey]

theorem derived_hashed {child : ChildName} {p i : Text} (source : keySource child = .derived p i) :
    hashed i ⊆ childHashed sha child := by
  intro text read
  rw [keySource] at source
  have known : child.identifier = some i := by
    cases given : child.identifier with
    | none => cases key : child.stageKey <;> simp [given, key] at source
    | some identifier =>
        cases key : child.stageKey with
        | none =>
            simp only [given, key, KeySource.derived.injEq] at source
            rw [source.2]
        | some key =>
            simp only [given, key] at source
            split at source
            · cases source
            · rw [(KeySource.derived.inj source).2]
  exact Or.inl ⟨i, known, read⟩

theorem points_injective {left right : List Char} (same : points left = points right) :
    left = right :=
  List.map_injective_iff.mpr (fun _ _ => Point.scalar.inj) same

theorem validKey_points {key : Text} (valid : validKey key = true) :
    ∃ characters, key = points characters ∧ strip key = key := by
  have inside : ∀ point ∈ key, keyPoint point = true := by
    intro point member
    cases key with
    | nil => cases member
    | cons first rest =>
        cases first with
        | surrogate high bits => cases valid
        | scalar c =>
            simp only [validKey, Bool.and_eq_true, List.all_eq_true] at valid
            rcases List.mem_cons.mp member with rfl | later
            · simp [keyPoint, keyCharacter, valid.1.1]
            · exact valid.2 point later
  have scalars : ∀ list : Text, (∀ point ∈ list, keyPoint point = true) →
      ∃ characters, list = points characters := by
    intro list
    induction list with
    | nil => exact fun _ => ⟨[], rfl⟩
    | cons first rest ih =>
        intro known
        obtain ⟨characters, rfl⟩ := ih fun point member => known point (List.mem_cons_of_mem _ member)
        cases first with
        | surrogate high bits => exact absurd (known _ List.mem_cons_self) (by simp [keyPoint])
        | scalar c => exact ⟨c :: characters, rfl⟩
  obtain ⟨characters, same⟩ := scalars key inside
  refine ⟨characters, same, stripBy_self ?_⟩
  intro point member
  have known := inside point member
  cases point with
  | surrogate high bits => rfl
  | scalar c => exact keyCharacter_space known

variable {c d : ChildName}

theorem stage_hashed {child : ChildName} {key : Text} (stage : Stage sha child key)
    {text : List Char} (read : text ∈ hashed key) : text ∈ childHashed sha child :=
  Or.inr ⟨key, stage.1, read⟩

theorem shares_request_iff (runId : Text)
    (faithful : Set.InjOn (identHash sha) (childHashed sha c ∪ childHashed sha d)) :
    (∃ request, Requests sha runId c request ∧ Requests sha runId d request) ↔
      ∃ key, Stage sha c key ∧ Stage sha d key := by
  constructor
  · rintro ⟨request, ⟨key, stage, made⟩, other, second, again⟩
    obtain ⟨_, _, clean⟩ := validKey_points stage.2
    obtain ⟨_, _, tidy⟩ := validKey_points second.2
    have here : Set.InjOn (identHash sha) (hashed key ∪ hashed other) :=
      faithful.mono (Set.union_subset_union (fun text => stage_hashed stage)
        fun text => stage_hashed second)
    have same := ((safeStageKey_eq_iff here made).mp again).2
    rw [clean, tidy] at same
    exact ⟨key, stage, same ▸ second⟩
  · rintro ⟨key, first, second⟩
    obtain ⟨characters, same, clean⟩ := validKey_points first.2
    have read : characters ∈ hashed key := by
      change encodeUtf8 (strip key) = some characters
      rw [clean, same, PiFraming.encodeUtf8_points]
    have made : childRequestId sha runId key = .ok _ := safeStageKey_hashed read
    exact ⟨_, ⟨key, first, made⟩, key, second, made⟩

theorem stage_derived {child : ChildName} {p i key : Text}
    (source : keySource child = .derived p i) : Stage sha child key ↔
      ∃ characters, safeStageKey sha p i = .ok characters ∧ key = points characters ∧
        validKey (points characters) = true := by
  rw [Stage, effectiveStageKey_source, source, sourceKey]
  cases made : safeStageKey sha p i with
  | error error => simp [Except.map]
  | ok characters =>
      constructor
      · rintro ⟨same, valid⟩
        cases same
        exact ⟨characters, rfl, rfl, valid⟩
      · rintro ⟨_, ⟨rfl⟩, rfl, valid⟩
        exact ⟨rfl, valid⟩

theorem stage_verbatim {child : ChildName} {given key : Text}
    (source : keySource child = .verbatim given) :
    Stage sha child key ↔ key = given ∧ validKey given = true := by
  rw [Stage, effectiveStageKey_source, source, sourceKey, Except.ok.injEq]
  constructor
  · rintro ⟨rfl, valid⟩
    exact ⟨rfl, valid⟩
  · rintro ⟨rfl, valid⟩
    exact ⟨rfl, valid⟩

theorem shares_mixed_iff {given p i : Text} (first : keySource c = .verbatim given)
    (second : keySource d = .derived p i) :
    (∀ key, ¬ (Stage sha c key ∧ Stage sha d key)) ↔
      (validKey given = true → (safeStageKey sha p i).map points ≠ .ok given) := by
  constructor
  · intro apart valid same
    cases made : safeStageKey sha p i with
    | error error => simp [made, Except.map] at same
    | ok characters =>
        rw [made] at same
        cases same
        exact apart _ ⟨(stage_verbatim first).mpr ⟨rfl, valid⟩,
          (stage_derived second).mpr ⟨characters, made, rfl, valid⟩⟩
  · rintro differ key ⟨stage, other⟩
    obtain ⟨rfl, valid⟩ := (stage_verbatim first).mp stage
    obtain ⟨characters, made, same, _⟩ := (stage_derived second).mp other
    exact differ valid (by rw [made, same]; rfl)

theorem separate_iff
    (faithful : Set.InjOn (identHash sha) (childHashed sha c ∪ childHashed sha d)) :
    (∀ key, ¬ (Stage sha c key ∧ Stage sha d key)) ↔
      Separate sha (keySource c) (keySource d) := by
  cases first : keySource c with
  | verbatim given =>
      cases second : keySource d with
      | verbatim other =>
          rw [Separate]
          constructor
          · rintro apart rfl
            by_contra valid
            have accepted : validKey given = true := by simpa using valid
            exact apart given ⟨(stage_verbatim first).mpr ⟨rfl, accepted⟩,
              (stage_verbatim second).mpr ⟨rfl, accepted⟩⟩
          · rintro differ key ⟨stage, again⟩
            obtain ⟨rfl, valid⟩ := (stage_verbatim first).mp stage
            obtain ⟨same, _⟩ := (stage_verbatim second).mp again
            rw [differ same] at valid
            cases valid
      | derived p i => exact shares_mixed_iff first second
  | derived p i =>
      cases second : keySource d with
      | verbatim given =>
          rw [Separate, ← shares_mixed_iff second first]
          exact forall_congr' fun key => not_congr And.comm
      | derived q j =>
          have here : Set.InjOn (identHash sha) (hashed i ∪ hashed j) :=
            faithful.mono (Set.union_subset_union (derived_hashed first) (derived_hashed second))
          rw [Separate]
          constructor
          · rintro apart prefixes raws clean
            have accepted : Accepted sha p i := accepted_iff.mpr clean
            obtain ⟨characters, made, valid⟩ := accepted
            have again := (safeStageKey_eq_iff here made).mpr ⟨prefixes, raws⟩
            exact apart (points characters)
              ⟨(stage_derived first).mpr ⟨characters, made, rfl, valid⟩,
                (stage_derived second).mpr ⟨characters, again, rfl, valid⟩⟩
          · rintro differ key ⟨stage, other⟩
            obtain ⟨characters, made, rfl, valid⟩ := (stage_derived first).mp stage
            obtain ⟨others, again, same, _⟩ := (stage_derived second).mp other
            rw [points_injective same] at made valid
            obtain ⟨prefixes, raws⟩ := (safeStageKey_eq_iff here made).mp again
            exact differ prefixes raws (accepted_iff.mp ⟨_, made, valid⟩)

theorem keysHold_iff {p i q j : Text}
    (faithful : Set.InjOn (identHash sha) (hashed i ∪ hashed j)) :
    KeysHold sha p i q j ↔ Clean p i ∧ Clean q j ∧
      (p ≠ q → strip i = strip j → safePrefix p ≠ safePrefix q) := by
  rw [KeysHold, accepted_iff, accepted_iff]
  refine and_congr_right fun clean => and_congr_right fun _ => ?_
  have accepted : Accepted sha p i := accepted_iff.mpr clean
  obtain ⟨key, made, _⟩ := accepted
  have equal : safeStageKey sha p i = safeStageKey sha q j ↔
      safePrefix p = safePrefix q ∧ strip i = strip j := by
    rw [made, eq_comm, safeStageKey_eq_iff faithful made]
  rw [ne_eq, ne_eq, equal, Prod.mk.injEq]
  by_cases prefixes : p = q
  · subst prefixes
    simp
  · simp only [prefixes, false_and, not_false_iff, true_implies, ne_eq, not_and]
    exact ⟨fun apart raws same => apart same raws, fun apart same raws => apart raws same⟩

end Sharing

/-- Keys are accepted and tell the arguments apart exactly where the prefixes do once they
are sanitised; and so do the stages and the request ids of the children of a run. -/
theorem stage_keys_iff (sha : Sha256) (p i q j runId : Text) (c d : ChildName)
    (faithful : Set.InjOn (identHash sha)
      (hashed i ∪ hashed j ∪ (childHashed sha c ∪ childHashed sha d))) :
    (KeysHold sha p i q j ↔ Clean p i ∧ Clean q j ∧
      (p ≠ q → strip i = strip j → safePrefix p ≠ safePrefix q)) ∧
    (ChildrenHold sha runId c d ↔ (c.agentName ≠ d.agentName ∨ c.identifier ≠ d.identifier →
      Separate sha (keySource c) (keySource d))) := by
  have own := faithful.mono Set.subset_union_left
  have theirs := faithful.mono Set.subset_union_right
  refine ⟨keysHold_iff own, ?_⟩
  refine imp_congr_right fun _ => ?_
  have requests := shares_request_iff runId theirs
  rw [← separate_iff theirs]
  constructor
  · exact fun apart => apart.1
  · intro apart
    refine ⟨apart, fun request shared => ?_⟩
    obtain ⟨key, both⟩ := requests.mp ⟨request, shared⟩
    exact apart key both

section Samples

def text (characters : String) : Text := points characters.toList

def sampleDigest (data : Bytes) : String :=
  if data = Skills.encode "child-agent:x" then
    "e7b6dd79ee0c87dd34c19683eedb06375f59d1cbda072ddb32910aa0a9e452ab"
  else if data = Skills.encode "child-agent:y" then
    "4bc9243cd2ed36a767877f095749bd3f5fb1c35c6cba51f0f197993ba1fe3171"
  else "e3b0c44298fc1c149afbf4c8996fb92427ae41e4649b934ca495991b7852b855"

def sampleSha : Sha256 where
  hexdigest data := (sampleDigest data).toList
  length data := by
    simp only [sampleDigest]
    split
    · decide
    · split <;> decide
  hexadecimal data := by
    have digits : (sampleDigest data).toList.all (fun c =>
        c.isDigit || ('a' ≤ c && c ≤ 'f')) = true := by
      simp only [sampleDigest]
      split
      · decide
      · split <;> decide
    intro c member
    simpa using List.all_eq_true.mp digits c member

/-- Prefixes that differ in a replaced character. -/
theorem replaced_prefix_collides : ¬ KeysHold sampleSha (text "a/b") [] (text "a_b") [] := by
  have same : safeStageKey sampleSha (text "a/b") [] = safeStageKey sampleSha (text "a_b") [] := by
    decide +kernel
  rintro ⟨_, _, apart⟩
  exact apart (by decide +kernel) same

def firstChild : ChildName := { agentName := text "x", stageKey := none, identifier := none }

def secondChild : ChildName := { agentName := text "y", stageKey := none, identifier := none }

def sampleTexts : List (List Char) :=
  [[], "child-agent:x".toList, "child-agent:y".toList]

theorem sampleTexts_faithful : Set.InjOn (identHash sampleSha) {text | text ∈ sampleTexts} := by
  have distinct : ∀ left ∈ sampleTexts, ∀ right ∈ sampleTexts,
      identHash sampleSha left = identHash sampleSha right → left = right := by
    decide +kernel
  exact fun left first right second => distinct left first right second

theorem childHashed_verbatim {agentName : Text} (named : List Char) (listed : named ∈ sampleTexts)
    (read : encodeUtf8 (strip (childPrefix agentName)) = some named) :
    childHashed sampleSha { agentName, stageKey := none, identifier := none } ⊆
      {text | text ∈ sampleTexts} := by
  rintro text (⟨_, given, _⟩ | ⟨key, made, inside⟩)
  · cases given
  · cases made
    have same : some named = some text := read.symm.trans inside
    cases same
    exact listed

theorem stage_keys_iff_samples :
    KeysHold sampleSha (text "a/b") [] (text "c") [] ∧
      ChildrenHold sampleSha (text "r") firstChild secondChild := by
  have faithful : Set.InjOn (identHash sampleSha) (hashed [] ∪ hashed [] ∪
      (childHashed sampleSha firstChild ∪ childHashed sampleSha secondChild)) := by
    have first : childHashed sampleSha firstChild ⊆ {text | text ∈ sampleTexts} :=
      childHashed_verbatim "child-agent:x".toList (by decide +kernel) (by decide +kernel)
    have second : childHashed sampleSha secondChild ⊆ {text | text ∈ sampleTexts} :=
      childHashed_verbatim "child-agent:y".toList (by decide +kernel) (by decide +kernel)
    refine sampleTexts_faithful.mono
      (Set.union_subset (Set.union_subset ?_ ?_) (Set.union_subset first second))
    · rintro text ⟨rfl⟩
      exact List.mem_cons_self
    · rintro text ⟨rfl⟩
      exact List.mem_cons_self
  obtain ⟨keys, children⟩ := stage_keys_iff sampleSha (text "a/b") [] (text "c") [] (text "r")
    firstChild secondChild faithful
  constructor
  · refine keys.mpr ⟨⟨⟨[], rfl⟩, ?_, ?_⟩, ⟨⟨[], rfl⟩, ?_, ?_⟩, fun _ _ => ?_⟩ <;> decide +kernel
  · exact children.mpr fun _ same => absurd same (by decide +kernel)

end Samples

end AgentTaskPlatform.StageKeys
