import EntityQuery.Proofs.Compilation.WellFormed
import EntityQuery.Proofs.Meaning.Restrictions
import EntityQuery.Proofs.Storage.Rows

/-! # What restrictions read

A restriction looks into tables only through the queries inside it. Its truth is a matter of these
tables alone, and whether it has a truth value at all is a matter of their being there: the rows
that its aliases stand for have no say in it.
-/

namespace EntityQuery

mutual

/-- The tables that queries inside the restriction read, at any depth. -/
def Restriction.reads (m : Model) : Restriction → List String
  | .and parts => readsOfAll m parts
  | .or parts => readsOfAll m parts
  | .not p => p.reads m
  | .existsQuery query _ => readsOfQuery m query
  | .inQuery _ query _ => readsOfQuery m query
  | .compare .. | .isNull .. | .like .. => []

def readsOfAll (m : Model) : List Restriction → List String
  | [] => []
  | p :: rest => p.reads m ++ readsOfAll m rest

def readsOfOptional (m : Model) : Option Restriction → List String
  | none => []
  | some p => p.reads m

def readsOfQuery (m : Model) : QueryOf Restriction → List String
  | ⟨root, _, restriction, _, _, _⟩ =>
      ((m.entity? root.entity).map (·.table)).toList ++ readsOfOptional m restriction

end

/-- The tables have the same rows where the names say so. -/
def Tables.AgreeOn (names : List String) (tables tables' : Tables) : Prop :=
  ∀ table ∈ names, tables.rows? table = tables'.rows? table

namespace Tables.AgreeOn

variable {names more : List String} {tables tables' : Tables}

theorem left (agree : AgreeOn (names ++ more) tables tables') : AgreeOn names tables tables' :=
  fun table inside => agree table (List.mem_append_left _ inside)

theorem right (agree : AgreeOn (names ++ more) tables tables') : AgreeOn more tables tables' :=
  fun table inside => agree table (List.mem_append_right _ inside)

theorem rowsOf {e : Entity} (agree : AgreeOn names tables tables') (inside : e.table ∈ names) :
    tables.rowsOf e = tables'.rowsOf e := by
  rw [Tables.rowsOf, Tables.rowsOf, agree e.table inside]

end Tables.AgreeOn

variable {d : Domain} {tables tables' : Tables}

section Agreement

mutual

/-- A restriction is as true in all tables that agree on what it reads. -/
theorem Restriction.truth_agree {p : Restriction} (env : Environment)
    (agree : tables.AgreeOn (p.reads d.model) tables') :
    p.truth d tables env = p.truth d tables' env := by
  cases p with
  | compare left op right => rw [Restriction.truth, Restriction.truth]
  | and parts =>
      rw [Restriction.reads] at agree
      rw [Restriction.truth, Restriction.truth]
      exact (truths_agree env agree).1
  | or parts =>
      rw [Restriction.reads] at agree
      rw [Restriction.truth, Restriction.truth]
      exact (truths_agree env agree).2
  | not p =>
      rw [Restriction.reads] at agree
      rw [Restriction.truth, Restriction.truth, Restriction.truth_agree env agree]
  | isNull e negated => rw [Restriction.truth, Restriction.truth]
  | like e pattern negated => rw [Restriction.truth, Restriction.truth]
  | existsQuery query negated =>
      rw [Restriction.reads] at agree
      rw [Restriction.truth, Restriction.truth, solutions_agree env agree]
  | inQuery e query negated =>
      rw [Restriction.reads] at agree
      rw [Restriction.truth, Restriction.truth, solutions_agree env agree]
termination_by sizeOf p

theorem truths_agree {parts : List Restriction} (env : Environment)
    (agree : tables.AgreeOn (readsOfAll d.model parts) tables') :
    truthOfEvery d tables env parts = truthOfEvery d tables' env parts ∧
      truthOfSome d tables env parts = truthOfSome d tables' env parts := by
  cases parts with
  | nil =>
      rw [truthOfEvery, truthOfEvery, truthOfSome, truthOfSome]
      exact ⟨rfl, rfl⟩
  | cons p rest =>
      rw [readsOfAll] at agree
      obtain ⟨every, any⟩ := truths_agree env agree.right
      rw [truthOfEvery, truthOfEvery, truthOfSome, truthOfSome,
        Restriction.truth_agree env agree.left, every, any]
      exact ⟨rfl, rfl⟩
termination_by sizeOf parts

theorem truthOfOptional_agree {restriction : Option Restriction} (env : Environment)
    (agree : tables.AgreeOn (readsOfOptional d.model restriction) tables') :
    truthOfOptional d tables env restriction = truthOfOptional d tables' env restriction := by
  cases restriction with
  | none => rw [truthOfOptional, truthOfOptional]
  | some p =>
      rw [readsOfOptional] at agree
      rw [truthOfOptional, truthOfOptional, Restriction.truth_agree env agree]
termination_by sizeOf restriction

theorem solutions_agree {q : QueryOf Restriction} (env : Environment)
    (agree : tables.AgreeOn (readsOfQuery d.model q) tables') :
    solutions d tables env q = solutions d tables' env q := by
  cases q with
  | mk root selections restriction orderings limit offset =>
      rw [readsOfQuery] at agree
      rw [solutions, solutions]
      cases known : d.model.entity? root.entity with
      | none => rw [Domain.entity, known]; rfl
      | some e =>
          rw [known] at agree
          have rows : tables.rowsOf e = tables'.rowsOf e := agree.left.rowsOf List.mem_cons_self
          have truth : ∀ row : Row,
              truthOfOptional d tables (⟨root.aliasName, e, row⟩ :: env) restriction =
                truthOfOptional d tables' (⟨root.aliasName, e, row⟩ :: env) restriction :=
            fun row => truthOfOptional_agree _ agree.right
          simp only [Domain.entity_eq_ok.mpr known, Engine.compiling, ok_bind, rows, truth]
termination_by sizeOf q

end

end Agreement

mutual

/-- The tables that have to be read for the restriction are there. What stands inside a query is
    only read if there is a row to try it on. -/
def Restriction.Answerable (d : Domain) (tables : Tables) : Restriction → Prop
  | .and parts => answerableAll d tables parts
  | .or parts => answerableAll d tables parts
  | .not p => p.Answerable d tables
  | .existsQuery query _ => answerableQuery d tables query
  | .inQuery _ query _ => answerableQuery d tables query
  | .compare .. | .isNull .. | .like .. => True

def answerableAll (d : Domain) (tables : Tables) : List Restriction → Prop
  | [] => True
  | p :: rest => p.Answerable d tables ∧ answerableAll d tables rest

def answerableOptional (d : Domain) (tables : Tables) : Option Restriction → Prop
  | none => True
  | some p => p.Answerable d tables

def answerableQuery (d : Domain) (tables : Tables) : QueryOf Restriction → Prop
  | ⟨root, _, restriction, _, _, _⟩ =>
      ∃ e rows, d.model.entity? root.entity = some e ∧ tables.rows? e.table = some rows ∧
        (rows = [] ∨ answerableOptional d tables restriction)

end

theorem succeeds_keepRows {test : Row → Except ExecutionError Truth} {rows : List Row} :
    Succeeds (keepRows test rows) ↔ ∀ row ∈ rows, Succeeds (test row) :=
  ⟨fun ⟨_, kept⟩ => (keepRows_ok kept).1, fun total => ⟨_, keepRows_of_total total⟩⟩

section Answering

mutual

/-- Whether a restriction has a truth value does not depend on the rows around it. -/
theorem Restriction.truth_succeeds (p : Restriction) (env : Environment) :
    Succeeds (p.truth d tables env) ↔ p.Answerable d tables := by
  cases p with
  | compare left op right =>
      rw [Restriction.truth, Restriction.Answerable]
      simp
  | and parts =>
      rw [Restriction.truth, Restriction.Answerable]
      exact (truths_succeed parts env).1
  | or parts =>
      rw [Restriction.truth, Restriction.Answerable]
      exact (truths_succeed parts env).2
  | not p =>
      rw [Restriction.truth, Restriction.Answerable, succeeds_bind (p := True) (by simp),
        Restriction.truth_succeeds p env, and_true]
  | isNull e negated =>
      rw [Restriction.truth, Restriction.Answerable]
      simp
  | like e pattern negated =>
      rw [Restriction.truth, Restriction.Answerable]
      simp
  | existsQuery query negated =>
      rw [Restriction.truth, Restriction.Answerable, succeeds_bind (p := True) (by simp),
        solutions_succeeds query env, and_true]
  | inQuery e query negated =>
      rw [Restriction.truth, Restriction.Answerable, succeeds_bind (p := True) (by simp),
        solutions_succeeds query env, and_true]
termination_by sizeOf p

theorem truths_succeed (parts : List Restriction) (env : Environment) :
    (Succeeds (truthOfEvery d tables env parts) ↔ answerableAll d tables parts) ∧
      (Succeeds (truthOfSome d tables env parts) ↔ answerableAll d tables parts) := by
  cases parts with
  | nil =>
      rw [truthOfEvery, truthOfSome, answerableAll]
      simp
  | cons p rest =>
      obtain ⟨every, any⟩ := truths_succeed rest env
      have first := Restriction.truth_succeeds p env
      rw [truthOfEvery, truthOfSome, answerableAll]
      constructor
      · rw [succeeds_bind (p := answerableAll d tables rest), first]
        intro t _
        rw [succeeds_bind (p := True) (by simp), every, and_true]
      · rw [succeeds_bind (p := answerableAll d tables rest), first]
        intro t _
        rw [succeeds_bind (p := True) (by simp), any, and_true]
termination_by sizeOf parts

theorem truthOfOptional_succeeds (restriction : Option Restriction) (env : Environment) :
    Succeeds (truthOfOptional d tables env restriction) ↔
      answerableOptional d tables restriction := by
  cases restriction with
  | none =>
      rw [truthOfOptional, answerableOptional]
      simp
  | some p =>
      rw [truthOfOptional, answerableOptional]
      exact Restriction.truth_succeeds p env
termination_by sizeOf restriction

theorem solutions_succeeds (q : QueryOf Restriction) (env : Environment) :
    Succeeds (solutions d tables env q) ↔ answerableQuery d tables q := by
  cases q with
  | mk root selections restriction orderings limit offset =>
      rw [solutions, answerableQuery]
      cases known : d.model.entity? root.entity with
      | none =>
          rw [Domain.entity, known]
          simp [Engine.compiling]
      | some e =>
          simp only [Domain.entity_eq_ok.mpr known, Engine.compiling, ok_bind, Option.some.injEq,
            ↓existsAndEq, true_and]
          cases stored : tables.rows? e.table with
          | none => simp [Tables.rowsOf, stored]
          | some rows =>
              rw [Tables.rowsOf_eq_ok.mpr stored, ok_bind, succeeds_bind (p := True) (by simp),
                and_true, succeeds_keepRows]
              have each : ∀ row : Row,
                  Succeeds (truthOfOptional d tables (⟨root.aliasName, e, row⟩ :: env)
                    restriction) ↔ answerableOptional d tables restriction :=
                fun row => truthOfOptional_succeeds restriction _
              simp only [each, Option.some.injEq, ↓existsAndEq, true_and]
              cases rows with
              | nil => simp
              | cons row rest => simp +contextual
termination_by sizeOf q

end

end Answering

section Provided

/-- Every entity that statements may name has its table. -/
def Tables.Provides (m : Model) (tables : Tables) : Prop :=
  ∀ name e, m.entity? name = some e → (tables.rows? e.table).isSome

mutual

/-- Where all entities have their tables, every well-formed restriction has a truth value. -/
theorem Restriction.WellFormed.answerable {p : Restriction} {visible : Visible}
    {enclosing : List Clause} (wellFormed : p.WellFormed d visible enclosing)
    (provided : tables.Provides d.model) : p.Answerable d tables := by
  cases p with
  | compare left op right => trivial
  | and parts =>
      rw [Restriction.WellFormed] at wellFormed
      rw [Restriction.Answerable]
      exact answerableAll_of_wellFormed wellFormed provided
  | or parts =>
      rw [Restriction.WellFormed] at wellFormed
      rw [Restriction.Answerable]
      exact answerableAll_of_wellFormed wellFormed provided
  | not p =>
      rw [Restriction.WellFormed] at wellFormed
      rw [Restriction.Answerable]
      exact Restriction.WellFormed.answerable wellFormed provided
  | isNull e negated => trivial
  | like e pattern negated => trivial
  | existsQuery query negated =>
      rw [Restriction.WellFormed] at wellFormed
      rw [Restriction.Answerable]
      exact answerableQuery_of_wellFormed wellFormed provided
  | inQuery e query negated =>
      rw [Restriction.WellFormed] at wellFormed
      rw [Restriction.Answerable]
      exact answerableQuery_of_wellFormed wellFormed.2 provided
termination_by sizeOf p

theorem answerableAll_of_wellFormed {parts : List Restriction} {visible : Visible}
    {enclosing : List Clause} (wellFormed : wellFormedAll d visible enclosing parts)
    (provided : tables.Provides d.model) : answerableAll d tables parts := by
  cases parts with
  | nil => trivial
  | cons p rest =>
      rw [wellFormedAll] at wellFormed
      rw [answerableAll]
      exact ⟨Restriction.WellFormed.answerable wellFormed.1 provided,
        answerableAll_of_wellFormed wellFormed.2 provided⟩
termination_by sizeOf parts

theorem answerableOptional_of_wellFormed {restriction : Option Restriction} {visible : Visible}
    {enclosing : List Clause} (wellFormed : wellFormedOptional d visible enclosing restriction)
    (provided : tables.Provides d.model) : answerableOptional d tables restriction := by
  cases restriction with
  | none => trivial
  | some p =>
      rw [wellFormedOptional] at wellFormed
      rw [answerableOptional]
      exact Restriction.WellFormed.answerable wellFormed provided
termination_by sizeOf restriction

theorem answerableQuery_of_wellFormed {q : QueryOf Restriction} {visible : Visible}
    {enclosing : List Clause} (wellFormed : wellFormedQuery d visible enclosing q)
    (provided : tables.Provides d.model) : answerableQuery d tables q := by
  cases q with
  | mk root selections restriction orderings limit offset =>
      rw [wellFormedQuery] at wellFormed
      obtain ⟨-, e, known, -, restricted, -⟩ := wellFormed
      obtain ⟨rows, stored⟩ := Option.isSome_iff_exists.mp (provided _ e known)
      rw [answerableQuery]
      exact ⟨e, rows, known, stored, .inr (answerableOptional_of_wellFormed restricted provided)⟩
termination_by sizeOf q

end

end Provided

end EntityQuery
