import AgentTaskPlatform.JsonDocuments
import AgentTaskPlatform.PiFraming
import AgentTaskPlatform.Stripping

/-!
`extract_model_data`: what a prompt workflow takes from the answer of a model. A JSON text is
recovered from it in any layout, on its own or inside a fence of Markdown.
-/

namespace AgentTaskPlatform.ModelAnswers

open JsonText PiFraming Stripping

section Partition

variable {Item : Type} [DecidableEq Item]

/-- `text.partition(separator)` where the separator is there, and nothing elsewhere. -/
def partitionAt (separator : List Item) : List Item → Option (List Item × List Item)
  | [] => none
  | item :: rest =>
      if separator.isPrefixOf (item :: rest) then
        some ([], (item :: rest).drop separator.length)
      else (partitionAt separator rest).map fun (before, after) => (item :: before, after)

/-- The text is cut at a separator before which none starts. -/
theorem partitionAt_first {separator body rest : List Item} (some_ : separator ≠ [])
    (apart : ∀ one item two, body = one ++ item :: two →
      ¬ separator <+: item :: (two ++ (separator ++ rest))) :
    partitionAt separator (body ++ (separator ++ rest)) = some (body, rest) := by
  induction body with
  | nil =>
      cases whole : separator ++ rest with
      | nil => exact absurd (List.append_eq_nil_iff.mp whole).1 some_
      | cons item later =>
          have own : separator.isPrefixOf (item :: later) = true := by
            rw [List.isPrefixOf_iff_prefix, ← whole]
            exact List.prefix_append _ _
          have cut : (item :: later).drop separator.length = rest := by rw [← whole, List.drop_left]
          rw [List.nil_append, partitionAt, if_pos own, cut]
  | cons item body ih =>
      have not : ¬ separator.isPrefixOf (item :: (body ++ (separator ++ rest))) = true := by
        rw [List.isPrefixOf_iff_prefix]
        exact apart [] item body rfl
      have later := ih fun one other two same => apart (item :: one) other two (by rw [same]; rfl)
      rw [List.cons_append, partitionAt, if_neg not, later]
      rfl

end Partition

section Extraction

/-- What `json.loads` does: its value, a `JSONDecodeError`, or another exception. -/
inductive Loaded where
  | value (value : Value PyNumber)
  | decodeError
  | raised (error : Exc)

structure Python where
  /-- `str.lower` -/
  lower : Text → Text
  /-- `json.loads` -/
  loads : Text → Loaded

def newline : Point := .scalar '\n'

def tick : Point := .scalar (Char.ofNat 96)

def fence : Text := [tick, tick, tick]

def fences : List Text := [fence, fence ++ points "json".toList]

def spaced : Point → Bool
  | .scalar c => isspace c
  | .surrogate _ _ => false

variable (python : Python)

def candidate (data : Text) : Text :=
  let candidate := stripBy spaced data
  if fence.isPrefixOf candidate then
    match partitionAt [newline] candidate with
    | none => candidate
    | some (firstLine, remainder) =>
        if python.lower firstLine ∈ fences then
          match partitionAt (newline :: fence) remainder with
          | some (fencedJson, _) => stripBy spaced fencedJson
          | none => candidate
        else candidate
  else candidate

def answerKeys : List Text :=
  ["data".toList, "agent".toList, "model_call_id".toList, "annotations".toList].map points

def modelData (modelOutput : List (Text × Value PyNumber)) : Value PyNumber :=
  if modelOutput.all fun entry => entry.1 ∈ answerKeys then
    (modelOutput.lookup (points "data".toList)).getD .null
  else .object (modelOutput.filter fun entry =>
    entry.1 ∉ [points "agent".toList, points "model_call_id".toList])

def extractModelData (modelOutput : List (Text × Value PyNumber)) :
    Except Exc (Value PyNumber) :=
  match modelData modelOutput with
  | .string data =>
      match python.loads (candidate python data) with
      | .value value => .ok value
      | .decodeError => .ok (.string data)
      | .raised error => .error error
  | data => .ok data

/-- What Python says of them; `nesting` is the recursion that `json.loads` can take. -/
structure Python.Documented (nesting : Nat) : Prop where
  reads : ∀ chars value, read pyNumber nesting chars = some value →
    python.loads (points chars) = .value value
  ticked : ∀ rest, python.loads (tick :: rest) = .decodeError

end Extraction

section Recovery

def Spaced (gap : Text) : Prop := ∀ point ∈ gap, spaced point = true

def fenced (info body trailing : Text) : Text :=
  fence ++ (info ++ ([newline] ++ (body ++ (newline :: fence ++ trailing))))

theorem inked_kept {c : Char} (inked : Inked c) : spaced (.scalar c) = false := by
  obtain ⟨low, high⟩ := inked
  simp only [spaced, isspace, Bool.or_eq_false_iff, Bool.and_eq_false_iff, decide_eq_false_iff_not,
    beq_eq_false_iff_ne]
  omega

def Unticked (text : Text) : Prop := text.IsChain fun before after => before = newline → after ≠ tick

variable {number : List Char → Option PyNumber} {nesting : Nat} {value : Value PyNumber}
  {text : List Char}

theorem opens_unticked {c : Char} (start : opens c = true) : Point.scalar c ≠ tick := by
  intro same
  cases same
  cases start

theorem document_unticked (document : Document number nesting value text) :
    Unticked (points text) := by
  refine (List.isChain_map Point.scalar).mpr (document.laid.chain.imp fun before c laid own => ?_)
  cases own
  exact opens_unticked (laid (by decide))

theorem spaced_unticked {gap : Text} (spaces : Spaced gap) : Unticked gap := by
  induction gap with
  | nil => exact .nil
  | cons point rest ih =>
      have later := ih fun other member => spaces other (List.mem_cons_of_mem point member)
      refine later.cons fun next member _ same => ?_
      have own := spaces next (List.mem_cons_of_mem point (List.mem_of_mem_head? member))
      rw [same] at own
      cases own

theorem body_unticked (document : Document number nesting value text) {inner outer : Text}
    (before : Spaced inner) (after : Spaced outer) :
    Unticked (inner ++ (points text ++ outer)) := by
  have starts {gap : Text} (spaces : Spaced gap) : ∀ point ∈ gap.head?, point ≠ tick := by
    intro point member same
    have own := spaces point (List.mem_of_mem_head? member)
    rw [same] at own
    cases own
  have opening : ∀ point ∈ (points text ++ outer).head?, point ≠ tick := by
    obtain ⟨c, tail, rfl, _, _⟩ := document.head
    intro point member
    cases member
    exact opens_unticked (document.laid.start c rfl)
  refine List.isChain_append.mpr ⟨spaced_unticked before, ?_, fun _ _ point next _ =>
    opening point next⟩
  exact List.isChain_append.mpr ⟨document_unticked document, spaced_unticked after,
    fun _ _ point next _ => starts after point next⟩

theorem partitionAt_closing {body rest : Text} (unticked : Unticked body) :
    partitionAt (newline :: fence) (body ++ (newline :: fence ++ rest)) = some (body, rest) := by
  refine partitionAt_first (List.cons_ne_nil _ _) ?_
  intro one item two same ticked
  obtain ⟨own, later⟩ := List.cons_prefix_cons.mp ticked
  subst own
  cases two with
  | nil =>
      -- The next one is the line end of the closing line itself.
      have wrong := (List.cons_prefix_cons.mp later).1
      cases wrong
  | cons next two =>
      have ticks := (List.cons_prefix_cons.mp later).1
      rw [same] at unticked
      have chained := (List.isChain_append.mp unticked).2.1
      exact (List.isChain_cons_cons.mp chained).1 rfl ticks.symm

theorem partitionAt_line {line rest : Text} (single : newline ∉ line) :
    partitionAt [newline] (line ++ ([newline] ++ rest)) = some (line, rest) := by
  refine partitionAt_first (List.cons_ne_nil _ _) ?_
  intro one item two same started
  apply single
  rw [same, ← (List.cons_prefix_cons.mp started).1]
  exact List.mem_append_right one List.mem_cons_self

theorem strip_document (document : Document number nesting value text) {before after : Text}
    (front : Spaced before) (back : Spaced after) :
    stripBy spaced (before ++ (points text ++ after)) = points text := by
  obtain ⟨first, tail, head, inked, _⟩ := document.head
  obtain ⟨last, ending, dense⟩ := document.ending
  have stripped : stripBy spaced (before ++ (points text ++ after)) =
      points text ++ (after.reverse.dropWhile spaced).reverse :=
    stripBy_around front (by rw [head]; rfl) (inked_kept inked)
      (by rw [points, List.getLast?_map, ending]; rfl) (inked_kept dense)
  have none : after.reverse.dropWhile spaced = [] :=
    List.dropWhile_eq_nil_iff.mpr fun point member => back point (List.mem_reverse.mp member)
  rw [stripped, none, List.reverse_nil, List.append_nil]

variable {python : Python}

theorem candidate_bare (document : Document number nesting value text) {before after : Text}
    (front : Spaced before) (back : Spaced after) :
    candidate python (before ++ (points text ++ after)) = points text := by
  have unfenced : ¬ fence.isPrefixOf (points text) = true := by
    obtain ⟨c, tail, rfl, _, _⟩ := document.head
    rw [List.isPrefixOf_iff_prefix]
    intro ticked
    exact opens_unticked (document.laid.start c rfl) (List.cons_prefix_cons.mp ticked).1.symm
  simp only [candidate, strip_document document front back]
  rw [if_neg unfenced]

theorem strip_fenced {before : Text} (front : Spaced before) (info body trailing : Text) :
    ∃ rest, stripBy spaced (before ++ fenced info body trailing) = fenced info body rest := by
  have whole (rest : Text) : fenced info body rest =
      (fence ++ (info ++ ([newline] ++ (body ++ (newline :: fence))))) ++ rest := by
    simp [fenced]
  have closed : (fence ++ (info ++ ([newline] ++ (body ++ (newline :: fence))))).getLast? =
      some tick := by
    simp [fence, List.getLast?_append, List.getLast?_cons]
  refine ⟨(trailing.reverse.dropWhile spaced).reverse, ?_⟩
  rw [whole, whole]
  exact stripBy_around front (rfl : _ = some tick) rfl closed rfl

/-- A fence of a known kind gives up its document; with any other first line it stays. -/
theorem candidate_fenced (python : Python) (document : Document number nesting value text)
    {before inner outer info : Text} (trailing : Text) (front : Spaced before)
    (blank : Spaced inner) (close : Spaced outer) (line : newline ∉ info) :
    ∃ rest, candidate python (before ++ fenced info (inner ++ (points text ++ outer)) trailing) =
      if python.lower (fence ++ info) ∈ fences then points text else tick :: rest := by
  obtain ⟨left, stripped⟩ := strip_fenced front info (inner ++ (points text ++ outer)) trailing
  have ticked : fence.isPrefixOf (fenced info (inner ++ (points text ++ outer)) left) = true := by
    rw [List.isPrefixOf_iff_prefix]
    exact List.prefix_append _ _
  have single : newline ∉ fence ++ info := by
    rw [List.mem_append, not_or]
    exact ⟨by decide, line⟩
  have first : partitionAt [newline] (fenced info (inner ++ (points text ++ outer)) left) =
      some (fence ++ info, inner ++ (points text ++ outer) ++ (newline :: fence ++ left)) := by
    rw [fenced, ← List.append_assoc]
    exact partitionAt_line single
  refine ⟨[tick, tick] ++ (info ++ ([newline] ++ (inner ++ (points text ++ outer) ++
    (newline :: fence ++ left)))), ?_⟩
  simp only [candidate, stripped]
  rw [if_pos ticked, first]
  by_cases known : python.lower (fence ++ info) ∈ fences
  · simp only [if_pos known, partitionAt_closing (body_unticked document blank close)]
    exact strip_document document blank close
  · simp only [if_neg known]
    rfl

/-- The data is recovered from an answer that is a document in any layout, alone or in a fence
of a known kind, whatever follows the fence; an answer in another fence is returned as it is. -/
theorem answer_recovered (documented : python.Documented nesting)
    (document : Document pyNumber nesting value text) {before inner outer after info : Text}
    (trailing : Text) (front : Spaced before) (back : Spaced after) (blank : Spaced inner)
    (close : Spaced outer) (line : newline ∉ info)
    {modelOutput : List (Text × Value PyNumber)} {data : Text}
    (answered : modelData modelOutput = .string data) :
    (data = before ++ (points text ++ after) →
      extractModelData python modelOutput = .ok value) ∧
    (data = before ++ fenced info (inner ++ (points text ++ outer)) trailing →
      extractModelData python modelOutput =
        .ok (if python.lower (fence ++ info) ∈ fences then value else .string data)) := by
  have loaded : python.loads (points text) = .value value := by
    apply documented.reads
    have alone : read pyNumber nesting ([] ++ (text ++ [])) = some value :=
      read_document document blank_nil blank_nil
    rwa [List.nil_append, List.append_nil] at alone
  simp only [extractModelData, answered]
  constructor
  · rintro rfl
    rw [candidate_bare document front back, loaded]
  · rintro rfl
    have found := candidate_fenced python document trailing front blank close line
    obtain ⟨rest, same⟩ := found
    rw [same]
    by_cases known : python.lower (fence ++ info) ∈ fences
    · rw [if_pos known, if_pos known, loaded]
    · rw [if_neg known, if_neg known, documented.ticked]

end Recovery

section Samples

def scalarOf : Point → Option Char
  | .scalar c => some c
  | .surrogate _ _ => none

def samplePython : Python where
  lower text := text.map fun point => match point with
    | .scalar c => .scalar c.toLower
    | .surrogate high bits => .surrogate high bits
  loads text := match (text.mapM scalarOf).bind (read pyNumber 9) with
    | some value => .value value
    | none => .decodeError

theorem scalars_points (chars : List Char) : (points chars).mapM scalarOf = some chars := by
  induction chars with
  | nil => rfl
  | cons c rest ih =>
      have later : (rest.map Point.scalar).mapM scalarOf = some rest := ih
      simp [points, scalarOf, later]

theorem samplePython_documented : samplePython.Documented 9 where
  reads chars value found := by
    simp only [samplePython, scalars_points, Option.bind_some, found]
  ticked rest := by
    simp only [samplePython, tick, List.mapM_cons, scalarOf]
    cases rest.mapM scalarOf with
    | none => rfl
    | some chars =>
        have refused : JsonText.read pyNumber 9 (Char.ofNat 96 :: chars) = none := by
          have empty : pyNumber [] = none := rfl
          simp [JsonText.read, readValue, skip, isSpace, isNumeral, empty]
        simp [refused]

def sampleText : List Char :=
  ['\x7b', ' ', '"', 'o', 'k', '"', ' ', ':', '\n', 't', 'r', 'u', 'e', ' ', '\x7d']

def sampleValue : Value PyNumber := .object [(points ['o', 'k'], .bool true)]

theorem sampleText_document : Document pyNumber 9 sampleValue sampleText := by
  have blank : Blank [' '] := fun c member => by rw [List.mem_singleton.mp member]; rfl
  have line : Blank ['\n'] := fun c member => by rw [List.mem_singleton.mp member]; rfl
  have key : Spells ['o', 'k'] (points ['o', 'k']) :=
    .plain (by decide) (by decide) (by decide)
      (.plain (by decide) (by decide) (by decide) .done)
  have entry : Entry pyNumber 8 (points ['o', 'k'], .bool true)
      ('"' :: (['o', 'k'] ++ '"' :: ([' '] ++ ':' :: (['\n'] ++ ['t', 'r', 'u', 'e'])))) :=
    .colon key blank line .yes
  exact .object blank entry (.last blank)

def sampleAnswer : Text :=
  points ['\n'] ++ fenced (points ['J', 'S', 'O', 'N']) (points sampleText) (points ['!'])

theorem answer_recovered_fenced :
    extractModelData samplePython [(points "data".toList, .string sampleAnswer)] =
      .ok sampleValue := by
  have spaced_nil : Spaced [] := fun _ member => by cases member
  have front : Spaced (points ['\n']) := fun point member => by
    rw [List.mem_singleton.mp member]
    rfl
  have recovered := (answer_recovered samplePython_documented sampleText_document (points ['!'])
    front front spaced_nil spaced_nil (by decide : newline ∉ points ['J', 'S', 'O', 'N'])
    (rfl : modelData [(points "data".toList, .string sampleAnswer)] = .string sampleAnswer)).2
      (by simp [sampleAnswer])
  rw [recovered, if_pos (by decide)]

end Samples

end AgentTaskPlatform.ModelAnswers
