import AgentTaskPlatform.FirstMaximum
import AgentTaskPlatform.RouteTable
import AgentTaskPlatform.SkillRegistry
import Mathlib.Data.List.Lex

/-!
The order of the version keys. As long as `packaging` orders its versions, the newest of
some versions is the first greatest one, and stays it when others go.
-/

namespace AgentTaskPlatform.Registry

open KeyedTable FirstMaximum RouteTable Skills

def Versioning.Ordered (versioning : Versioning) : Prop := Weak versioning.older

section Keys

theorem text_compares (left right : List Char) :
    (NaturalPart.text left).older (.text right) = true ↔ left < right := by
  simp [NaturalPart.older]

theorem number_compares (left right : Nat) :
    (NaturalPart.number left).older (.number right) = true ↔ left < right := by
  simp [NaturalPart.older]

theorem naturalPart_weak : Weak NaturalPart.older where
  asymm := by
    intro left right before
    cases left with
    | text left =>
        cases right with
        | text right => exact (weak_lt text_compares).asymm left right before
        | number right => rfl
    | number left =>
        cases right with
        | text right => cases before
        | number right => exact (weak_lt number_compares).asymm left right before
  negated := by
    intro first second third before after
    cases first with
    | text first =>
        cases second with
        | number second => cases before
        | text second =>
            cases third with
            | text third => exact (weak_lt text_compares).negated first second third before after
            | number third => cases after
    | number first =>
        cases third with
        | text third => rfl
        | number third =>
            cases second with
            | text second => cases after
            | number second =>
                exact (weak_lt number_compares).negated first second third before after

theorem naturalPart_trichotomous : Trichotomous NaturalPart.older := by
  intro left right before after
  cases left with
  | text left =>
      cases right with
      | text right => rw [trichotomous_lt text_compares left right before after]
      | number right => cases before
  | number left =>
      cases right with
      | text right => cases after
      | number right => rw [trichotomous_lt number_compares left right before after]

variable {versioning : Versioning}

theorem versionKey_weak (ordered : versioning.Ordered) : Weak (VersionKey.older versioning) where
  asymm := by
    intro left right before
    cases left with
    | natural left =>
        cases right with
        | natural right =>
            exact (weak_lex naturalPart_weak naturalPart_trichotomous).asymm left right before
        | parsed right => rfl
    | parsed left =>
        cases right with
        | natural right => cases before
        | parsed right => exact ordered.asymm left right before
  negated := by
    intro first second third before after
    cases first with
    | natural first =>
        cases second with
        | natural second =>
            cases third with
            | natural third =>
                exact (weak_lex naturalPart_weak naturalPart_trichotomous).negated first second
                  third before after
            | parsed third => cases after
        | parsed second => cases before
    | parsed first =>
        cases third with
        | natural third => rfl
        | parsed third =>
            cases second with
            | natural second => cases after
            | parsed second => exact ordered.negated first second third before after

variable (versioning) in
def keyOf (version : String) : VersionKey versioning :=
  (versionKey versioning version).toOption.getD (.natural [])

theorem versionKey_eq {version : String} (keyed : Keyed versioning version) :
    versionKey versioning version = .ok (keyOf versioning version) := by
  obtain ⟨key, read⟩ := keyed
  rw [keyOf, read]
  rfl

end Keys

section Newest

variable {versioning : Versioning} {Item : Type} {version : Item → String}

variable (versioning version) in
def firstNewest : List Item → Option Item
  | [] => none
  | first :: rest =>
      some (maximum (VersionKey.older versioning) (fun item => keyOf versioning (version item))
        first rest)

theorem newestFrom_eq {items : List Item} (keyed : ∀ item ∈ items, Keyed versioning (version item))
    (best : Item) :
    newestFrom versioning version best (keyOf versioning (version best)) items =
      .ok (maximum (VersionKey.older versioning) (fun item => keyOf versioning (version item))
        best items) := by
  induction items generalizing best with
  | nil => rfl
  | cons item rest ih =>
      have later : ∀ other ∈ rest, Keyed versioning (version other) :=
        fun other member => keyed other (List.mem_cons_of_mem _ member)
      simp only [newestFrom, versionKey_eq (keyed item List.mem_cons_self), Bind.bind,
        Except.bind, maximum]
      split
      · exact ih later item
      · exact ih later best

theorem newest_eq {items : List Item} (keyed : ∀ item ∈ items, Keyed versioning (version item)) :
    newest versioning version items = .ok (firstNewest versioning version items) := by
  cases items with
  | nil => rfl
  | cons first rest =>
      have later : ∀ other ∈ rest, Keyed versioning (version other) :=
        fun other member => keyed other (List.mem_cons_of_mem _ member)
      simp only [newest, versionKey_eq (keyed first List.mem_cons_self), Bind.bind, Except.bind,
        newestFrom_eq later]
      rfl

theorem firstNewest_leads (ordered : versioning.Ordered) {items : List Item} {winner : Item} :
    firstNewest versioning version items = some winner ↔
      Leads (VersionKey.older versioning) (fun item => keyOf versioning (version item)) items
        winner := by
  cases items with
  | nil => simp [firstNewest, Leads]
  | cons first rest =>
      have leads : Leads (VersionKey.older versioning)
          (fun item => keyOf versioning (version item)) (first :: rest)
          (maximum (VersionKey.older versioning) (fun item => keyOf versioning (version item))
            first rest) :=
        maximum_cons_leads (versionKey_weak ordered) first rest
      simp only [firstNewest, Option.some.injEq]
      constructor
      · rintro rfl
        exact leads
      · exact leads.unique

theorem firstNewest_newest (ordered : versioning.Ordered) {items : List Item} {winner item : Item}
    (won : firstNewest versioning version items = some winner) (member : item ∈ items) :
    (keyOf versioning (version winner)).older versioning (keyOf versioning (version item)) =
      false := by
  rw [firstNewest_leads ordered] at won
  exact won.greatest (versionKey_weak ordered) member

/-- Losers may go, as long as the winner stays. -/
theorem firstNewest_filter (ordered : versioning.Ordered) {items : List Item} {winner : Item}
    {kept : Item → Bool} (won : firstNewest versioning version items = some winner)
    (stays : kept winner = true) :
    firstNewest versioning version (items.filter kept) = some winner := by
  rw [firstNewest_leads ordered] at won ⊢
  exact won.filter stays

theorem firstNewest_mem {items : List Item} {winner : Item}
    (won : firstNewest versioning version items = some winner) : winner ∈ items := by
  cases items with
  | nil => cases won
  | cons first rest =>
      cases won
      exact maximum_mem _ _ first rest

theorem firstNewest_none {items : List Item} :
    firstNewest versioning version items = none ↔ items = [] := by
  cases items <;> simp [firstNewest]

end Newest

section Elections

variable {versioning : Versioning}

theorem maxVersionFrom_newest (items : List AgentSpec) (best : AgentSpec)
    (key : VersionKey versioning) :
    maxVersionFrom versioning best key items =
      newestFrom versioning AgentSpec.version best key items := by
  induction items generalizing best key with
  | nil => rfl
  | cons item rest ih => simp only [maxVersionFrom, newestFrom, ih]

theorem maxVersion_newest (items : List AgentSpec) :
    maxVersion versioning items = newest versioning AgentSpec.version items := by
  cases items with
  | nil => rfl
  | cons first rest => simp only [maxVersion, newest, maxVersionFrom_newest]

theorem latest_eq {registry : AgentRegistry} {routeTag : String}
    (readable : Readable versioning registry routeTag) :
    latest versioning registry routeTag =
      firstNewest versioning AgentSpec.version (registry.enabledFor routeTag) := by
  have keyed : ∀ agent ∈ registry.enabledFor routeTag, Keyed versioning agent.version :=
    fun agent member => readable agent (mem_enabledFor.mp member)
  rw [latest, maxVersion_newest, newest_eq keyed]

end Elections

end AgentTaskPlatform.Registry
