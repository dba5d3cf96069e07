import EntityQuery.Proofs.Conversion.Codes
import EntityQuery.Proofs.Engine.Finding

/-! # Filtering agrees with reading

A filter by a value of an attribute compares stored forms, while a listing of the attribute shows
what stored values read as. Without a converter and for booleans and codes the two agree on every
table that can be read, unless several codes of a table stand for one name: a filter by the name
finds the first of them only.
-/

namespace EntityQuery

/-- The query for the values of an attribute. -/
def Query.column (entity aliasName : String) (attributes : AttributePath) : Query where
  root := ⟨entity, aliasName⟩
  selections := [{ operand := .ref ⟨aliasName, attributes⟩ }]

section Reading

variable {e : Entity} {a : BasicAttribute} {aliasName : String} {attributes : AttributePath}

/-- An attribute path is never empty. -/
theorem Entity.at?_not_nil {mapping : AttributeMapping} (located : e.at? attributes = some mapping) :
    (⟨aliasName, attributes⟩ : Path).isEntity = false := by
  cases attributes with
  | nil => cases located
  | cons name rest => rfl

theorem Entity.columnAt?_of_at? (located : e.at? attributes = some (.basic a)) :
    e.columnAt? ⟨aliasName, attributes⟩ = some a := by
  rw [columnAt?_eq_some, Entity.at?_not_nil located]
  exact located

theorem assembled_column (located : e.at? attributes = some (.basic a))
    (registry : ConverterRegistry) (name : String) (row : Row) :
    Environment.assembled [⟨aliasName, e, row⟩] registry
        (Query.column name aliasName attributes).selected =
      row.leafResult registry (.basic a) := by
  simp [Query.column, QueryOf.selected, Environment.assembled, Environment.result,
    Environment.frame?, Frame.result, Entity.at?_not_nil located, located]

theorem resultsFor_each {registry : ConverterRegistry} {selections : List Selection} {α : Type}
    {envOf : α → Environment} {xs : List α} {vs : List Value}
    (results : resultsFor registry selections (xs.map envOf) = .ok vs) :
    List.Forall₂ (fun x v => (envOf x).assembled registry selections = .ok v) xs vs := by
  induction xs generalizing vs with
  | nil =>
      cases results
      exact .nil
  | cons x rest ih =>
      rw [List.map_cons, resultsFor] at results
      obtain ⟨v, first, results⟩ := bind_eq_ok.mp results
      obtain ⟨others, later, results⟩ := bind_eq_ok.mp results
      cases results
      exact .cons first (ih later)

/-- Listing the values of an attribute reads its column in every row of the entity. -/
theorem Engine.list_column {engine : Engine} {name : String} {vs : List Value}
    (known : engine.domain.model.entity? name = some e)
    (located : e.at? attributes = some (.basic a))
    (listed : engine.list (Query.column name aliasName attributes) = .ok vs) :
    ∃ rows, engine.store.broken = false ∧ engine.store.tables.rows? e.table = some rows ∧
      List.Forall₂ (fun row v => row.leafResult engine.domain.registry (.basic a) = .ok v)
        rows vs := by
  have accepted : Succeeds ((Query.column name aliasName attributes).compile engine.domain) :=
    accepted_of_list listed
  have plain : ∀ selection ∈ (Query.column name aliasName attributes).selections,
      selection.operand.identity = selection.operand := by simp [Query.column, Term.identity]
  have made := (list_unrestricted known accepted plain).symm.trans listed
  obtain ⟨tables, access, made⟩ := bind_eq_ok.mp made
  obtain ⟨unbroken, rfl⟩ := Store.access_eq_ok.mp access
  obtain ⟨rows, stored, made⟩ := bind_eq_ok.mp made
  refine ⟨rows, unbroken, Tables.rowsOf_eq_ok.mp stored, ?_⟩
  have each := resultsFor_each (converting_eq_ok.mp made)
  exact each.imp fun row v result => (assembled_column located _ name row).symm.trans result

end Reading

section Filtering

variable {d : Domain} {tables : Tables} {e : Entity} {a : BasicAttribute} {name aliasName : String}
  {attributes : AttributePath} {l : Literal} {form : Value}

/-- A filter that compiles compares with the form in which its literal is stored. -/
theorem Query.having_form (known : d.model.entity? name = some e)
    (located : e.at? attributes = some (.basic a))
    (compiles : Succeeds ((Query.having name aliasName attributes l).compile d)) :
    ∃ form, d.registry.form? a l = some form := by
  have wellFormed := (Query.compile_succeeds _).mp compiles
  rw [Query.having, wellFormedQuery] at wellFormed
  obtain ⟨-, e', known', -, restricted, -⟩ := wellFormed
  cases known.symm.trans known'
  rw [wellFormedOptional, Restriction.WellFormed] at restricted
  obtain ⟨-, -, -, storable⟩ := restricted
  have converter : Visible.converter? [(aliasName, e)] d.registry (.ref ⟨aliasName, attributes⟩) =
      d.registry.inEffect? a := by
    simp [Visible.converter?, Visible.column?, Keyed.get?, Entity.columnAt?_of_at? located]
  rw [converter] at storable
  unfold ConverterRegistry.form?
  cases effective : d.registry.inEffect? a with
  | none => exact ⟨_, rfl⟩
  | some c =>
      obtain ⟨form, converted, -⟩ := storable l c rfl effective
      exact ⟨form, toOption_eq_some.mpr converted⟩

/-- A value that is stored as it is, or for a boolean or a name, has a form that is not null. A
    stored value that equals the form reads as the value; what reads as the value equals the form,
    unless the value is a name of several codes. -/
theorem leafResult_form {registry : ConverterRegistry}
    (discrete : ∀ c, registry.inEffect? a = some c → c.Discrete)
    (not_null : l.toValue.isNull = false) (isForm : registry.form? a l = some form) :
    form.isNull = false ∧ ∀ (row : Row) v, row.leafResult registry (.basic a) = .ok v →
      ((row.stored a.column).same form = true → v.same l.toValue = true) ∧
        ((∀ c, registry.inEffect? a = some c → ¬ c.Ambiguous l.toValue) →
          v.same l.toValue = true → (row.stored a.column).same form = true) := by
  unfold ConverterRegistry.form? at isForm
  unfold Row.leafResult
  cases effective : registry.inEffect? a with
  | none =>
      simp only [effective] at isForm ⊢
      cases isForm
      refine ⟨not_null, ?_⟩
      rintro row v read
      cases read
      exact ⟨id, fun _ => id⟩
  | some c =>
      simp only [effective] at isForm ⊢
      have isDiscrete := discrete c effective
      have converted := toOption_eq_some.mp isForm
      refine ⟨(isDiscrete.builtin.stored_single converted not_null).2, ?_⟩
      intro row v read
      exact ⟨isDiscrete.same_of_form converted not_null read,
        fun single => isDiscrete.form_of_same (single c rfl) converted not_null read⟩

/-- Picking out of a list what a test on paired elements picks out. -/
theorem filter_eq_zip {α β : Type} {R : α → β → Prop} {p : α → Bool} {q : α × β → Bool}
    {xs : List α} {ys : List β} (pairs : List.Forall₂ R xs ys)
    (agree : ∀ x y, R x y → p x = q (x, y)) :
    xs.filter p = ((xs.zip ys).filter q).map Prod.fst := by
  induction pairs with
  | nil => rfl
  | cons related _ ih =>
      rw [List.zip_cons_cons, List.filter_cons, List.filter_cons, agree _ _ related]
      split
      · rw [List.map_cons, ih]
      · exact ih

end Filtering

namespace Engine

variable {engine : Engine} {e : Entity} {a : BasicAttribute} {name aliasName : String}
  {attributes : AttributePath} {l : Literal} {vs : List Value}

/-- The values are what the rows of the entity show in the attribute, and the rows that were found
    are those which a filter by the literal is about. The filter lists what they read as. -/
structure Filters (engine : Engine) (name aliasName : String) (attributes : AttributePath)
    (l : Literal) (vs : List Value) (e : Entity) (a : BasicAttribute) (rows found : List Row) :
    Prop where
  stored : engine.store.tables.rows? e.table = some rows
  shown : List.Forall₂ (fun row v => row.leafResult engine.domain.registry (.basic a) = .ok v)
    rows vs
  about : solutions engine.domain engine.store.tables []
    (Query.having name aliasName attributes l) = .ok (e, found)
  lists : engine.list (Query.having name aliasName attributes l) =
    converting (resultsFor engine.domain.registry
      (Query.having name aliasName attributes l).selected
      (found.map fun row => [⟨aliasName, e, row⟩]))

/-- A filter by a value of an attribute without a converter, of a boolean or of a name finds the
    rows that show the value when the attribute is listed, and that store it in the form of the
    value. All rows that show the value do so, unless it is a name of several codes. -/
theorem list_having (known : engine.domain.model.entity? name = some e)
    (located : e.at? attributes = some (.basic a))
    (discrete : ∀ c, engine.domain.registry.inEffect? a = some c → c.Discrete)
    (not_null : l.toValue.isNull = false)
    (compiles : Succeeds ((Query.having name aliasName attributes l).compile engine.domain))
    (listed : engine.list (Query.column name aliasName attributes) = .ok vs) :
    ∃ rows found form, engine.Filters name aliasName attributes l vs e a rows found ∧
      engine.domain.registry.form? a l = some form ∧
      found = ((rows.zip vs).filter fun shown =>
        shown.2.same l.toValue && (shown.1.stored a.column).same form).map Prod.fst ∧
      ((∀ c, engine.domain.registry.inEffect? a = some c → ¬ c.Ambiguous l.toValue) →
        found = ((rows.zip vs).filter fun shown => shown.2.same l.toValue).map Prod.fst) := by
  obtain ⟨rows, unbroken, stored, shown⟩ := list_column known located listed
  obtain ⟨form, isForm⟩ := Query.having_form known located compiles
  obtain ⟨form_not_null, agree⟩ := leafResult_form discrete not_null isForm
  have about : solutions engine.domain engine.store.tables []
      (Query.having name aliasName attributes l) = .ok (e, _) :=
    solutions_having known (Entity.columnAt?_of_at? located) isForm stored
  obtain ⟨compiled, accepted⟩ := compiles
  have plain : ∀ selection ∈ (Query.having name aliasName attributes l).selections,
      selection.operand.identity = selection.operand := by simp [Query.having]
  have lists := list_evaluate_plain accepted plain
  rw [evaluate, Store.access_eq_ok.mpr ⟨unbroken, rfl⟩, ok_bind, Query.evaluate, about] at lists
  refine ⟨rows, _, form, ⟨stored, shown, about, lists⟩, isForm, ?_, ?_⟩
  · apply filter_eq_zip shown
    intro row v read
    rw [Bool.eq_iff_iff, decide_eq_true_iff, Value.eq_holds_iff_same form_not_null,
      Bool.and_eq_true]
    exact ⟨fun same => ⟨(agree row v read).1 same, same⟩, And.right⟩
  · intro single
    apply filter_eq_zip shown
    intro row v read
    rw [Bool.eq_iff_iff, decide_eq_true_iff, Value.eq_holds_iff_same form_not_null]
    exact ⟨(agree row v read).1, (agree row v read).2 single⟩

end Engine

namespace Sample

/-- The codes of states, of which two mean the same. -/
def stateNames : List (String × String) :=
  [("S", "sent"), ("D", "delivered"), ("H", "delivered")]

def stateCodes : Converter := .coded "state" (.ofPairs stateNames)

def state : BasicAttribute := { column := "state", kind := .string, converter := some "state" }

def parcel : Entity where
  name := "Parcel"
  table := "parcels"
  attributes := [("id", .basic { column := "id", kind := .int }), ("state", .basic state)]

/-- A parcel for each code. -/
def parcels : List Row :=
  [[("id", .int 1), ("state", .string "S")], [("id", .int 2), ("state", .string "D")],
    [("id", .int 3), ("state", .string "H")]]

def depot : Engine where
  domain :=
    { model := ⟨[("Parcel", parcel)]⟩
      registry := ConverterRegistry.standard.register stateCodes
      config := {} }
  store := { tables := [("parcels", parcels)] }

/-- What the parcels show as their states. -/
def states : List Value := [.string "sent", .string "delivered", .string "delivered"]

theorem list_states : depot.list (Query.column "Parcel" "p" ["state"]) = .ok states := by
  have compiles : Succeeds ((Query.column "Parcel" "p" ["state"]).compile depot.domain) :=
    isOk_iff.mp (by decide +kernel)
  have known : depot.domain.model.entity? "Parcel" = some parcel := rfl
  exact (Engine.list_unrestricted known compiles (by simp [Term.identity])).trans rfl

theorem eq_stateCodes {c : Converter} (effective : depot.domain.registry.inEffect? state = some c) :
    c = stateCodes := (Option.some.inj effective).symm

theorem sent_unambiguous : ¬ stateCodes.Ambiguous (.string "sent") := by
  have single : ∀ code, stateCodes.toDomain (.string code) = .ok (.string "sent") →
      code = "S" := by
    intro code read
    rcases Converter.Discrete.coded_toDomain read with ⟨null, -⟩ | ⟨code', s, same, known, named⟩
    · cases null
    · cases same
      cases named
      have table : Converter.CodeTable.ofPairs stateNames = stateNames := by decide +kernel
      rw [table] at known
      simp only [stateNames, Keyed.get?] at known
      split at known
      · next isSent => exact isSent.symm
      · split at known
        · simp at known
        · split at known <;> simp at known
  rintro ⟨code, code', different, one, other⟩
  exact different ((single code one).trans (single code' other).symm)

end Sample

theorem Engine.list_having_sent :
    ∃ rows found form,
      Sample.depot.Filters "Parcel" "p" ["state"] (.string "sent") Sample.states Sample.parcel
        Sample.state rows found ∧
      Sample.depot.domain.registry.form? Sample.state (.string "sent") = some form ∧
      found = ((rows.zip Sample.states).filter fun shown =>
        shown.2.same (.string "sent") &&
          (shown.1.stored Sample.state.column).same form).map Prod.fst ∧
      found = ((rows.zip Sample.states).filter fun shown =>
        shown.2.same (.string "sent")).map Prod.fst := by
  have compiles : Succeeds
      ((Query.having "Parcel" "p" ["state"] (.string "sent")).compile Sample.depot.domain) :=
    isOk_iff.mp (by decide +kernel)
  have discrete : ∀ c, Sample.depot.domain.registry.inEffect? Sample.state = some c →
      c.Discrete := by
    intro c effective
    rw [Sample.eq_stateCodes effective]
    exact .coded _ _
  obtain ⟨rows, found, form, filters, isForm, shown, all⟩ :=
    Engine.list_having rfl rfl discrete rfl compiles Sample.list_states
  refine ⟨rows, found, form, filters, isForm, shown, all ?_⟩
  intro c effective
  rw [Sample.eq_stateCodes effective]
  exact Sample.sent_unambiguous

/-- Two parcels show that they are delivered, and a filter finds the one with the first code. -/
theorem Engine.list_having_delivered :
    Sample.depot.store.tables.rows? Sample.parcel.table = some Sample.parcels ∧
      Sample.depot.list (Query.column "Parcel" "p" ["state"]) = .ok Sample.states ∧
      ((Sample.parcels.zip Sample.states).filter fun shown =>
        shown.2.same (.string "delivered")).map Prod.fst =
          [[("id", .int 2), ("state", .string "D")], [("id", .int 3), ("state", .string "H")]] ∧
      (Sample.depot.list
        (Query.having "Parcel" "p" ["state"] (.string "delivered"))).toOption =
          some [.object [("id", .int 2), ("state", .string "delivered")]] :=
  ⟨rfl, Sample.list_states, by decide +kernel, by decide +kernel⟩

end EntityQuery
