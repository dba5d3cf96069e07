import EntityQuery.Proofs.Meaning.Restrictions
import EntityQuery.Proofs.Storage.Rows

/-! # Filters by one attribute

A query that compares an attribute with a value is about the rows whose stored value compares with
the form in which the attribute would store it; a query for what has a value in an attribute asks for
equality.
-/

namespace EntityQuery

/-- The query for what compares with a value in an attribute. -/
def Query.comparing (entity aliasName : String) (attributes : AttributePath) (op : Comparison)
    (l : Literal) : Query where
  root := ⟨entity, aliasName⟩
  restriction := some (.compare (.ref ⟨aliasName, attributes⟩) op (.literal l))

/-- The query for what has a value in an attribute. -/
def Query.having (entity aliasName : String) (attributes : AttributePath) (l : Literal) : Query where
  root := ⟨entity, aliasName⟩
  restriction := some (.compare (.ref ⟨aliasName, attributes⟩) .eq (.literal l))

/-- The form in which the attribute stores the value of a literal, if it can. -/
def ConverterRegistry.form? (r : ConverterRegistry) (a : BasicAttribute) (l : Literal) :
    Option Value :=
  match r.inEffect? a with
  | none => some l.toValue
  | some c => (c.toDatabase l.toValue).toOption

variable {d : Domain} {tables : Tables} {e : Entity} {a : BasicAttribute} {name aliasName : String}
  {attributes : AttributePath} {l : Literal} {form : Value}

/-- An attribute is compared with a literal as it is stored, and the literal in its stored form. -/
theorem comparing_truth (tables : Tables) (op : Comparison)
    (leads : e.columnAt? ⟨aliasName, attributes⟩ = some a)
    (isForm : d.registry.form? a l = some form) (row : Row) :
    truthOfOptional d tables [⟨aliasName, e, row⟩]
        (some (.compare (.ref ⟨aliasName, attributes⟩) op (.literal l))) =
      .ok (Value.compareTruth (row.stored a.column) op form) := by
  have found : Environment.lookup? [⟨aliasName, e, row⟩] ⟨aliasName, attributes⟩ =
      some (row, a) := by
    simp [Environment.lookup?, Environment.frame?, leads]
  have own : Environment.comparand [⟨aliasName, e, row⟩] d.registry
      (.ref ⟨aliasName, attributes⟩) (.literal l) = row.stored a.column := by
    simp [Environment.comparand, Environment.value, Environment.stored, found]
  have other : Environment.comparand [⟨aliasName, e, row⟩] d.registry (.literal l)
      (.ref ⟨aliasName, attributes⟩) = form := by
    unfold ConverterRegistry.form? at isForm
    cases effective : d.registry.inEffect? a with
    | none =>
        simp only [effective, Option.some.injEq] at isForm
        simp [Environment.comparand, Environment.converter?, found, effective, Environment.value,
          isForm]
    | some c =>
        simp only [effective] at isForm
        simp [Environment.comparand, Environment.converter?, found, effective,
          toOption_eq_some.mp isForm]
  rw [truthOfOptional, Restriction.truth, own, other]

theorem passes_comparing (tables : Tables) (op : Comparison)
    (leads : e.columnAt? ⟨aliasName, attributes⟩ = some a)
    (isForm : d.registry.form? a l = some form) (row : Row) :
    passes (fun row => truthOfOptional d tables [⟨aliasName, e, row⟩]
        (some (.compare (.ref ⟨aliasName, attributes⟩) op (.literal l)))) row =
      decide (Value.compareTruth (row.stored a.column) op form = .holds) := by
  rw [passes_eq (comparing_truth tables op leads isForm row)]
  cases Value.compareTruth (row.stored a.column) op form <;> rfl

theorem solutions_comparing (op : Comparison) (known : d.model.entity? name = some e)
    (leads : e.columnAt? ⟨aliasName, attributes⟩ = some a)
    (isForm : d.registry.form? a l = some form) {rows : List Row}
    (stored : tables.rows? e.table = some rows) :
    solutions d tables [] (Query.comparing name aliasName attributes op l) =
      .ok (e, rows.filter fun row =>
        Value.compareTruth (row.stored a.column) op form = .holds) := by
  have unsorted : solutions d tables [] (Query.comparing name aliasName attributes op l) = (do
      let rows ← tables.rowsOf e
      let kept ← keepRows (fun row => truthOfOptional d tables [⟨aliasName, e, row⟩]
        (some (.compare (.ref ⟨aliasName, attributes⟩) op (.literal l)))) rows
      .ok (e, kept)) := solutions_unsorted known
  rw [unsorted, Tables.rowsOf_eq_ok.mpr stored, ok_bind,
    keepRows_of_total fun row _ => ⟨_, comparing_truth tables op leads isForm row⟩, ok_bind]
  congr 3
  funext row
  exact passes_comparing tables op leads isForm row

theorem solutions_having (known : d.model.entity? name = some e)
    (leads : e.columnAt? ⟨aliasName, attributes⟩ = some a)
    (isForm : d.registry.form? a l = some form) {rows : List Row}
    (stored : tables.rows? e.table = some rows) :
    solutions d tables [] (Query.having name aliasName attributes l) =
      .ok (e, rows.filter fun row =>
        Value.compareTruth (row.stored a.column) .eq form = .holds) :=
  solutions_comparing .eq known leads isForm stored

end EntityQuery
