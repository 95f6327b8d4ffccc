import Mathlib.Data.List.Basic
import Mathlib.Data.List.TakeWhile
import Mathlib.Tactic.IntervalCases

/-!
Names of log files. A service writes a series of parts for each day, and finds the parts of
a day, and the days that have expired, by reading the names in the directory.
-/

namespace AgentTaskPlatform.LogFiles

section Dates

def isLeap (year : Nat) : Bool :=
  decide (year % 4 = 0) && (!decide (year % 100 = 0) || decide (year % 400 = 0))

def daysInMonth (year month : Nat) : Nat :=
  match month with
  | 2 => if isLeap year then 29 else 28
  | 4 | 6 | 9 | 11 => 30
  | _ => 31

def Valid (year month day : Nat) : Prop :=
  (1 ≤ year ∧ year ≤ 9999) ∧ (1 ≤ month ∧ month ≤ 12) ∧ 1 ≤ day ∧ day ≤ daysInMonth year month

instance (year month day : Nat) : Decidable (Valid year month day) :=
  inferInstanceAs (Decidable (_ ∧ _))

structure Date where
  year : Nat
  month : Nat
  day : Nat
  valid : Valid year month day
  deriving DecidableEq

def daysBeforeYear (year : Nat) : Nat :=
  (year - 1) * 365 + (year - 1) / 4 - (year - 1) / 100 + (year - 1) / 400

def daysBeforeMonth (year month : Nat) : Nat :=
  [0, 0, 31, 59, 90, 120, 151, 181, 212, 243, 273, 304, 334].getD month 0 +
    if 2 < month && isLeap year then 1 else 0

/-- Dates are ordered as their ordinals, and `timedelta(days=n)` counts in them. -/
def Date.toordinal (date : Date) : Nat :=
  daysBeforeYear date.year + daysBeforeMonth date.year date.month + date.day

def digits2 (n : Nat) : List Char := [(n / 10 % 10).digitChar, (n % 10).digitChar]

def digits4 (n : Nat) : List Char := digits2 (n / 100) ++ digits2 (n % 100)

def Date.isoformat (date : Date) : List Char :=
  digits4 date.year ++ '-' :: digits2 date.month ++ '-' :: digits2 date.day

def number (text : List Char) : Option Nat :=
  if text.all Char.isDigit then some (Nat.ofDigitChars 10 text 0) else none

def fromisoformat : List Char → Option Date
  | [a, b, c, d, '-', e, f, '-', g, h] =>
      match number [a, b, c, d], number [e, f], number [g, h] with
      | some year, some month, some day =>
          if valid : Valid year month day then some ⟨year, month, day, valid⟩ else none
      | _, _, _ => none
  | _ => none

theorem isDigit_digit (n : Nat) : (n % 10).digitChar.isDigit = true := by
  rw [Nat.isDigit_digitChar]
  exact decide_eq_true (Nat.mod_lt n (by decide))

theorem number_digits2 {n : Nat} (small : n < 100) : number (digits2 n) = some n := by
  simp only [number, digits2, List.all_cons, isDigit_digit, List.all_nil, Bool.and_self, if_true,
    Nat.ofDigitChars_cons_digitChar_of_lt_ten (Nat.mod_lt _ (by decide : 0 < 10)),
    Nat.ofDigitChars_nil, Option.some.injEq]
  omega

theorem number_digits4 {n : Nat} (small : n < 10000) : number (digits4 n) = some n := by
  simp only [number, digits4, digits2, List.cons_append, List.nil_append, List.all_cons,
    isDigit_digit, List.all_nil, Bool.and_self, if_true,
    Nat.ofDigitChars_cons_digitChar_of_lt_ten (Nat.mod_lt _ (by decide : 0 < 10)),
    Nat.ofDigitChars_nil, Option.some.injEq]
  omega

theorem fromisoformat_isoformat (date : Date) : fromisoformat date.isoformat = some date := by
  obtain ⟨year, month, day, valid⟩ := date
  have years := number_digits4 (n := year) (by have := valid.1; omega)
  have months := number_digits2 (n := month) (by have := valid.2.1; omega)
  have bound : daysInMonth year month ≤ 31 := by
    unfold daysInMonth
    split
    · split <;> decide
    all_goals decide
  have days := number_digits2 (n := day) (by have := valid.2.2; omega)
  simp only [digits4, digits2, List.cons_append, List.nil_append] at years months days
  simp only [Date.isoformat, digits4, digits2, List.cons_append, List.nil_append, fromisoformat,
    years, months, days, dif_pos valid]

theorem isoformat_length (date : Date) : date.isoformat.length = 10 := rfl

end Dates

section Names

abbrev Name := List Char

/-- The decimal digits of every script, as `\d` matches them and `int` reads them. -/
structure Decimals where
  value : Char → Option Nat
  digit : ∀ c, c.isDigit = true → value c = some (c.toNat - '0'.toNat)

def asciiDecimals : Decimals where
  value c := if c.isDigit then some (c.toNat - '0'.toNat) else none
  digit _ digit := if_pos digit

def extension : List Char := ['.', 'l', 'o', 'g']

/-- `re.fullmatch(r"[A-Za-z0-9_-]+", service_name)` -/
def plainName (serviceName : Name) : Bool :=
  !serviceName.isEmpty && serviceName.all fun c => c.isAlphanum || c = '_' || c = '-'

def seriesName (serviceName : Name) (logDate : Date) : Name :=
  serviceName ++ '.' :: logDate.isoformat

def pathFor (serviceName : Name) (logDate : Date) (part : Nat) : Name :=
  seriesName serviceName logDate ++
    (if part = 0 then [] else '.' :: Nat.toDigits 10 part) ++ extension

variable (decimals : Decimals)

def partNumber (digits : List Char) : Option Nat :=
  if digits = [] then none
  else digits.foldl (fun part c => part.bind fun n => (decimals.value c).map (10 * n + ·)) (some 0)

/-- `(?:\.(\d+))?\.log`, with 0 for a name without a number. -/
def partSuffix (text : List Char) : Option Nat :=
  if text = extension then some 0
  else match text with
    | '.' :: rest => (extension.isSuffixOf? rest).bind (partNumber decimals)
    | _ => none

def partOf (serviceName : Name) (logDate : Date) (name : Name) : Option Nat :=
  ((seriesName serviceName logDate).isPrefixOf? name).bind (partSuffix decimals)

def partsForDate (serviceName : Name) (logDate : Date) (names : List Name) : List Nat :=
  names.filterMap (partOf decimals serviceName logDate)

def latestPart (serviceName : Name) (logDate : Date) (names : List Name) : Nat :=
  (partsForDate decimals serviceName logDate names).max?.getD 0

def dayOf (serviceName : Name) (name : Name) : Option Date :=
  ((serviceName ++ ['.']).isPrefixOf? name).bind fun rest =>
    if (partSuffix decimals (rest.drop 10)).isSome then fromisoformat (rest.take 10) else none

variable {decimals} {serviceName other : Name} {logDate day : Date} {part : Nat}
  {names : List Name}

theorem partNumber_digits (n : Nat) : partNumber decimals (Nat.toDigits 10 n) = some n := by
  have read (digits : List Char) (ascii : ∀ c ∈ digits, c.isDigit = true) (start : Nat) :
      digits.foldl (fun part c => part.bind fun n => (decimals.value c).map (10 * n + ·))
        (some start) = some (Nat.ofDigitChars 10 digits start) := by
    induction digits generalizing start with
    | nil => simp
    | cons c rest ih =>
        have value := decimals.digit c (ascii c List.mem_cons_self)
        have later := ih (fun d member => ascii d (List.mem_cons_of_mem _ member))
        simp only [List.foldl_cons, Option.bind_some, value, Option.map_some, later,
          Nat.ofDigitChars_cons]
  have digits : ∀ c ∈ Nat.toDigits 10 n, c.isDigit = true := fun c member =>
    Nat.isDigit_of_mem_toDigits (by decide) (by decide) member
  rw [partNumber, if_neg Nat.toDigits_ne_nil, read _ digits, Nat.ofDigitChars_ten_toDigits]

theorem partSuffix_part :
    partSuffix decimals ((if part = 0 then [] else '.' :: Nat.toDigits 10 part) ++ extension) =
      some part := by
  by_cases first : part = 0
  · simp [first, partSuffix]
  · have cut : extension.isSuffixOf? (Nat.toDigits 10 part ++ extension) =
        some (Nat.toDigits 10 part) := by simp
    have longer : '.' :: (Nat.toDigits 10 part ++ extension) ≠ extension := by
      intro same
      have lengths := congrArg List.length same
      have digits : 0 < (Nat.toDigits 10 part).length :=
        List.length_pos_iff.mpr Nat.toDigits_ne_nil
      simp only [List.length_cons, List.length_append] at lengths
      omega
    simp only [if_neg first, List.cons_append, partSuffix, if_neg longer, cut, Option.bind_some,
      partNumber_digits]

theorem partOf_pathFor : partOf decimals serviceName logDate (pathFor serviceName logDate part) =
    some part := by
  have cut : (seriesName serviceName logDate).isPrefixOf? (pathFor serviceName logDate part) =
      some ((if part = 0 then [] else '.' :: Nat.toDigits 10 part) ++ extension) := by
    simp [pathFor]
  rw [partOf, cut, Option.bind_some, partSuffix_part]

theorem plain_dot (plain : plainName serviceName = true) : '.' ∉ serviceName := by
  intro member
  have letters := (Bool.and_eq_true_iff.mp plain).2
  have letter := List.all_eq_true.mp letters '.' member
  exact absurd letter (by decide)

theorem eq_of_dot {left right : List Char} (plain : '.' ∉ serviceName) (free : '.' ∉ other)
    (same : serviceName ++ '.' :: left = other ++ '.' :: right) :
    serviceName = other ∧ left = right := by
  induction serviceName generalizing other with
  | nil =>
      cases other with
      | nil => simpa using same
      | cons c rest =>
          have head := (List.cons.inj same).1
          exact absurd (head ▸ List.mem_cons_self) free
  | cons c rest ih =>
      cases other with
      | nil =>
          have head := (List.cons.inj same).1
          exact absurd (head ▸ List.mem_cons_self) plain
      | cons d rest' =>
          obtain ⟨head, tails⟩ := List.cons.inj same
          have shorter := ih (fun member => plain (List.mem_cons_of_mem _ member))
            (fun member => free (List.mem_cons_of_mem _ member)) tails
          exact ⟨by rw [head, shorter.1], shorter.2⟩

/-- The pruning of one service reads no day off another service's file. -/
theorem dayOf_pathFor (plain : plainName serviceName = true) (named : plainName other = true) :
    dayOf decimals other (pathFor serviceName logDate part) =
      if other = serviceName then some logDate else none := by
  have shape : pathFor serviceName logDate part = serviceName ++ '.' :: (logDate.isoformat ++
      ((if part = 0 then [] else '.' :: Nat.toDigits 10 part) ++ extension)) := by
    simp [pathFor, seriesName]
  by_cases same : other = serviceName
  · subst same
    have cut : (other ++ ['.']).isPrefixOf? (pathFor other logDate part) =
        some (logDate.isoformat ++
          ((if part = 0 then [] else '.' :: Nat.toDigits 10 part) ++ extension)) := by
      rw [shape]
      simp
    have long := isoformat_length logDate
    simp only [dayOf, cut, Option.bind_some, List.drop_left' long, List.take_left' long,
      partSuffix_part, Option.isSome_some, if_true, fromisoformat_isoformat]
  · rw [if_neg same, dayOf]
    cases cut : (other ++ ['.']).isPrefixOf? (pathFor serviceName logDate part) with
    | none => simp
    | some rest =>
        have apart := List.isPrefixOf?_eq_some_iff_append_eq.mp cut
        rw [shape, List.append_assoc, List.singleton_append] at apart
        exact absurd (eq_of_dot (plain_dot named) (plain_dot plain) apart).1 same

theorem pathFor_inj {part' : Nat} (plain : plainName serviceName = true)
    (named : plainName other = true)
    (same : pathFor serviceName logDate part = pathFor other day part') :
    serviceName = other ∧ logDate = day ∧ part = part' := by
  have read : dayOf asciiDecimals serviceName (pathFor other day part') = some logDate := by
    rw [← same, dayOf_pathFor plain plain, if_pos rfl]
  rw [dayOf_pathFor named plain] at read
  by_cases service : serviceName = other
  · subst service
    rw [if_pos rfl] at read
    have days := Option.some.inj read
    subst days
    have parts : partOf asciiDecimals serviceName day (pathFor serviceName day part) =
        some part := partOf_pathFor
    rw [same, partOf_pathFor] at parts
    exact ⟨rfl, rfl, (Option.some.inj parts).symm⟩
  · rw [if_neg service] at read
    cases read

theorem le_latestPart {name : Name} (member : name ∈ names)
    (parsed : partOf decimals serviceName logDate name = some part) :
    part ≤ latestPart decimals serviceName logDate names := by
  have found : part ∈ partsForDate decimals serviceName logDate names :=
    List.mem_filterMap.mpr ⟨name, member, parsed⟩
  exact List.le_max?_getD_of_mem found

theorem later_part_absent (later : latestPart decimals serviceName logDate names < part) :
    pathFor serviceName logDate part ∉ names := by
  intro member
  have bound : part ≤ latestPart decimals serviceName logDate names :=
    le_latestPart member partOf_pathFor
  omega

end Names

end AgentTaskPlatform.LogFiles
