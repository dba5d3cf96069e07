import EntityQuery.Proofs.Engine.Filtering
import EntityQuery.Proofs.Meaning.Surroundings

/-! # Membership and existence

A value is among those that a query selects exactly if the query finds a row in which it stands.
Both predicates compare stored forms; but only the comparison with an attribute puts a literal into
the form in which the attribute stores it. Beside an attribute with a converter a literal that is
asked for among the stored values has to be given in that form.
-/

namespace EntityQuery

/-- The operand as it compares with the stored values of an attribute: a literal in the form in
    which the attribute would store it, if that has a literal, and everything else as it is. -/
def Operand.asStored? (registry : ConverterRegistry) (a : BasicAttribute) : Operand → Option Operand
  | .literal l =>
      match registry.inEffect? a with
      | some c => ((c.toDatabase l.toValue).toOption.bind Literal.ofValue?).map .literal
      | none => some (.literal l)
  | t => some t

namespace Restriction

/-- The value is among those of an attribute in the rows of the root that satisfy the
    restriction. -/
def among (root : Root) (attributes : AttributePath) (p : Restriction) (u : Operand) :
    Restriction :=
  .inQuery u
    { root := root
      selections := [{ operand := .ref ⟨root.aliasName, attributes⟩ }]
      restriction := some p } false

/-- One of the rows of the root that satisfy the restriction has the value in an attribute. -/
def matched (root : Root) (attributes : AttributePath) (p : Restriction) (u : Operand) :
    Restriction :=
  .existsQuery
    { root := root
      restriction := some (.and [p, .compare (.ref ⟨root.aliasName, attributes⟩) .eq u]) } false

/-- The restriction compiles to the predicate at some place in a statement, where the row under
    evaluation stands for the rows of the blocks around. -/
structure CompiledTo (d : Domain) (usage : Option ColumnUsage) (env : Environment) (row : Row)
    (p : Restriction) (predicate : Predicate) : Prop where
  place : ∃ scope enclosing s s',
    compileRestriction d scope enclosing p s = .ok (predicate, s') ∧ Covers usage s'.usage ∧
      Represents usage s.tables scope env row

theorem CompiledTo.truth {d : Domain} {usage : Option ColumnUsage} {env : Environment} {row : Row}
    {p : Restriction} {predicate : Predicate} (compiledTo : p.CompiledTo d usage env row predicate)
    (tables : Tables) : evalPredicate tables usage row predicate = p.truth d tables env := by
  obtain ⟨scope, enclosing, s, s', compiled, covers, represents⟩ := compiledTo.place
  exact compileRestriction_truth compiled covers represents

end Restriction

theorem Truth.isTrue_and (t u : Truth) : (t.and u).isTrue = (t.isTrue && u.isTrue) := by
  cases t <;> cases u <;> rfl

theorem Truth.isTrue_iff {t : Truth} : t.isTrue = true ↔ t = .holds := by
  cases t <;> simp [isTrue]

theorem Truth.and_holds (t : Truth) : t.and .holds = t := by
  cases t <;> rfl

theorem Truth.ofBool_filter {α : Type} {test : α → Bool} {xs : List α} :
    ofBool (!(xs.filter test).isEmpty) = .holds ↔ ∃ x ∈ xs, test x = true := by
  cases found : (xs.filter test).isEmpty with
  | true => simpa [ofBool] using found
  | false => simpa [ofBool] using found

/-- A further test that always answers leaves some of the rows that pass the first one. -/
theorem keepRows_and {both : Row → Except ExecutionError Truth} {further : Row → Truth}
    (test : Row → Except ExecutionError Truth)
    (each : ∀ row, both row = (test row).map (·.and (further row))) (rows : List Row) :
    keepRows both rows =
      (keepRows test rows).map (List.filter fun row => (further row).isTrue) := by
  induction rows with
  | nil => rfl
  | cons row rest ih =>
      rw [keepRows, keepRows, ih, each]
      cases test row with
      | error failure => rfl
      | ok t =>
          simp only [Except.map, ok_bind]
          cases keepRows test rest with
          | error failure => rfl
          | ok kept =>
              simp only [ok_bind, Truth.isTrue_and]
              cases t.isTrue <;> cases further : (further row).isTrue <;> simp [further]

theorem inValues_holds_iff {v : Value} {candidates : List Value} :
    inValues v candidates = .holds ↔
      ∃ c ∈ candidates, c.isNull = false ∧ v.same c = true := by
  unfold inValues
  by_cases found : candidates.any (fun c => !c.isNull && v.same c) = true
  · rw [if_pos found]
    simpa using found
  · rw [if_neg found]
    constructor
    · intro holds
      repeat' split at holds
      all_goals cases holds
    · intro member
      exact absurd (by simpa using member) found

/-- What equals a stored value is the same as it, and the stored value is not null. -/
theorem Value.eq_holds_stored {v stored : Value} :
    compareTruth stored .eq v = .holds ↔ stored.isNull = false ∧ v.same stored = true := by
  have swapped : compareTruth stored .eq v = .holds ↔ compareTruth v .eq stored = .holds := by
    rw [eq_holds_iff, eq_holds_iff]
    constructor <;>
      rintro (⟨x, left, right⟩ | ⟨s, left, right⟩ | ⟨m, left, right⟩) <;>
      simp [left, right]
  cases null : stored.isNull with
  | false =>
      rw [swapped, eq_holds_iff_same null]
      simp
  | true =>
      cases stored with
      | null => simp [eq_holds_iff, magnitude?, toBinary64?]
      | bool b | int i | float x | string s | array items | object fields => cases null

section Matching

variable {d : Domain} {tables : Tables} {env : Environment} {root : Root} {e : Entity}
  {a : BasicAttribute} {attributes : AttributePath} {u form : Operand}

/-- In a comparison with an attribute an operand that does not speak of the row compares like its
    stored form outside. -/
theorem comparand_asStored (located : e.at? attributes = some (.basic a))
    (absent : ∀ path ∈ u.refs, path.aliasName ≠ root.aliasName)
    (isForm : u.asStored? d.registry a = some form) (row : Row) :
    Value.Interchangeable (env.value form)
      (Environment.comparand (⟨root.aliasName, e, row⟩ :: env) d.registry u
        (.ref ⟨root.aliasName, attributes⟩)) := by
  have outside : Environment.value (⟨root.aliasName, e, row⟩ :: env) u = env.value u := by
    apply Environment.value_congr
    intro path member
    simp [Environment.frame?, Ne.symm (absent path member)]
  have converter : Environment.converter? (⟨root.aliasName, e, row⟩ :: env) d.registry
      (.ref ⟨root.aliasName, attributes⟩) = d.registry.inEffect? a := by
    simp [Environment.converter?, Environment.lookup?, Environment.frame?,
      Entity.columnAt?_of_at? located]
  unfold Environment.comparand
  rw [converter]
  cases u with
  | ref path | call name args =>
      cases isForm
      simp only [outside]
      exact .refl _
  | literal l =>
      cases effective : d.registry.inEffect? a with
      | none =>
          simp only [Operand.asStored?, effective, Option.some.injEq] at isForm
          subst isForm
          simp only [outside]
          exact .refl _
      | some c =>
          simp only [Operand.asStored?, effective, Option.map_eq_some_iff,
            Option.bind_eq_some_iff, toOption_eq_some] at isForm
          obtain ⟨l', ⟨v, converted, literal⟩, rfl⟩ := isForm
          simp only [converted, Environment.value]
          exact Literal.ofValue?_interchangeable literal

/-- The rows found for a value in an attribute are those found without it that hold the value. -/
theorem solutions_matched {p : Restriction} (known : d.model.entity? root.entity = some e) :
    solutions d tables env
        { root := root
          restriction := some (.and [p, .compare (.ref ⟨root.aliasName, attributes⟩) .eq u]) } =
      (do
        let rows ← tables.rowsOf e
        let kept ← keepRows (fun row => p.truth d tables (⟨root.aliasName, e, row⟩ :: env)) rows
        .ok (e, kept.filter fun row =>
          (Value.compareTruth
            (Environment.comparand (⟨root.aliasName, e, row⟩ :: env) d.registry
              (.ref ⟨root.aliasName, attributes⟩) u) .eq
            (Environment.comparand (⟨root.aliasName, e, row⟩ :: env) d.registry u
              (.ref ⟨root.aliasName, attributes⟩))).isTrue)) := by
  rw [solutions_unsorted known]
  apply bind_congr_ok
  intro rows _
  rw [keepRows_and fun row => p.truth d tables (⟨root.aliasName, e, row⟩ :: env)]
  · exact map_bind _ _ _
  · intro row
    simp only [truthOfOptional, Restriction.truth, truthOfEvery, ok_bind, Truth.and_holds]
    cases p.truth d tables (⟨root.aliasName, e, row⟩ :: env) <;> rfl

theorem firstSelected_column (located : e.at? attributes = some (.basic a)) (row : Row) :
    Environment.firstSelected (⟨root.aliasName, e, row⟩ :: env) root e
        [{ operand := .ref ⟨root.aliasName, attributes⟩ }] =
      some (row.stored a.column) := by
  simp [Environment.firstSelected, Environment.selected, Environment.frame?, Entity.leavesAt,
    Entity.at?_not_nil located, located, AttributeMapping.leaves, Row.storedLeaves]

/-- A value in its stored form is among the values of an attribute in the rows that satisfy a
    restriction exactly if one of these rows has the value in the attribute. -/
theorem Restriction.truth_among (known : d.model.entity? root.entity = some e)
    (located : e.at? attributes = some (.basic a))
    (absent : ∀ path ∈ u.refs, path.aliasName ≠ root.aliasName)
    (isForm : u.asStored? d.registry a = some form) (p : Restriction) :
    (among root attributes p form).truth d tables env = .ok .holds ↔
      (matched root attributes p u).truth d tables env = .ok .holds := by
  -- Both ask the same rows; what is left to compare are the two equalities.
  have equality : ∀ row : Row,
      (Value.compareTruth
          (Environment.comparand (⟨root.aliasName, e, row⟩ :: env) d.registry
            (.ref ⟨root.aliasName, attributes⟩) u) .eq
          (Environment.comparand (⟨root.aliasName, e, row⟩ :: env) d.registry u
            (.ref ⟨root.aliasName, attributes⟩))).isTrue = true ↔
        (row.stored a.column).isNull = false ∧
          (env.value form).same (row.stored a.column) = true := by
    intro row
    have column : Environment.comparand (⟨root.aliasName, e, row⟩ :: env) d.registry
        (.ref ⟨root.aliasName, attributes⟩) u = row.stored a.column := by
      simp [Environment.comparand, Environment.value, Environment.stored, Environment.lookup?,
        Environment.frame?, Entity.columnAt?_of_at? located]
    rw [Truth.isTrue_iff, column, ← (comparand_asStored located absent isForm row .eq _).2,
      Value.eq_holds_stored]
  rw [among, matched, Restriction.truth, Restriction.truth, solutions_matched known,
    solutions_unsorted known]
  cases tables.rowsOf e with
  | error failure => simp
  | ok rows =>
      simp only [truthOfOptional, ok_bind]
      cases keepRows (fun row => p.truth d tables (⟨root.aliasName, e, row⟩ :: env)) rows with
      | error failure => simp
      | ok kept =>
          simp only [ok_bind, Truth.negateIf, Bool.false_eq_true, if_false, Except.ok.injEq,
            inValues_holds_iff, firstSelected_column located,
            List.filterMap_eq_map', List.mem_map, Truth.ofBool_filter]
          constructor
          · rintro ⟨_, ⟨row, inside, rfl⟩, alike⟩
            exact ⟨row, inside, (equality row).mpr alike⟩
          · rintro ⟨row, inside, matching⟩
            exact ⟨_, ⟨row, inside, rfl⟩, (equality row).mp matching⟩

/-- Wherever both compile, a value in its stored form is among the values of an attribute exactly
    if the attribute of one of the rows matches it. So the two agree for every operand where nothing
    converts the attribute, and for every path and every function anyway. -/
theorem Restriction.among_iff_matched {usage usage' : Option ColumnUsage} {row row' : Row}
    {p : Restriction} {membership existence : Predicate}
    (known : d.model.entity? root.entity = some e)
    (located : e.at? attributes = some (.basic a))
    (absent : ∀ path ∈ u.refs, path.aliasName ≠ root.aliasName)
    (isForm : u.asStored? d.registry a = some form)
    (isMembership : (among root attributes p form).CompiledTo d usage env row membership)
    (isExistence : (matched root attributes p u).CompiledTo d usage' env row' existence) :
    evalPredicate tables usage row membership = .ok .holds ↔
      evalPredicate tables usage' row' existence = .ok .holds := by
  rw [isMembership.truth tables, isExistence.truth tables]
  exact truth_among known located absent isForm p

end Matching

namespace Sample

/-- The same row, seen from the query around it. -/
def itself : Restriction := .compare (.ref ⟨"x", ["id"]⟩) .eq (.ref ⟨"p", ["id"]⟩)

/-- Whether the person is among those who are as active as the literal says. -/
def activeAmong (l : Literal) : Restriction :=
  .among ⟨"Person", "x"⟩ ["active"] itself (.literal l)

def activeMatched (l : Literal) : Restriction :=
  .matched ⟨"Person", "x"⟩ ["active"] itself (.literal l)

/-- The ids of the people for whom a restriction is true. -/
def idsWhere (p : Restriction) : Query where
  root := ⟨"Person", "p"⟩
  selections := [{ operand := .ref ⟨"p", ["id"]⟩ }]
  restriction := some p

/-- The table of the query around. -/
def peopleTable : TableRef := CompileState.newTable {} people.domain.config person

/-- What compiles for the query around has a predicate for each of its rows. -/
theorem compiledTo {p : Restriction} (row : Row)
    (compiles : (compileRestriction people.domain (Scope.within [] "p" person peopleTable)
      [.restriction] p { tables := 1 }).isOk = true) :
    ∃ predicate, p.CompiledTo people.domain none [⟨"p", person, row⟩]
      (scanRow none peopleTable [] row) predicate := by
  obtain ⟨⟨predicate, s'⟩, compiled⟩ := isOk_iff.mp compiles
  have represents : Represents none 1 (Scope.within [] "p" person peopleTable)
      [⟨"p", person, row⟩] (scanRow none peopleTable [] row) :=
    Represents.enter (s := {}) (.empty none 0) people.domain.config "p" person row
  exact ⟨predicate, _, _, _, s', compiled, covers_none _, represents⟩

end Sample

/-- Whether somebody is active is stored as a number, and a number is to be given where the literal
    stands beside the stored values. -/
theorem Restriction.among_iff_matched_active :
    ∃ membership existence,
      (Sample.activeAmong (.int 1)).CompiledTo Sample.people.domain none
        [⟨"p", Sample.person, [("active", .int 1), ("id", .int 1)]⟩]
        (scanRow none Sample.peopleTable [] [("active", .int 1), ("id", .int 1)]) membership ∧
      (Sample.activeMatched (.bool true)).CompiledTo Sample.people.domain none
        [⟨"p", Sample.person, [("active", .int 1), ("id", .int 1)]⟩]
        (scanRow none Sample.peopleTable [] [("active", .int 1), ("id", .int 1)]) existence ∧
      (evalPredicate Sample.people.store.tables none
          (scanRow none Sample.peopleTable [] [("active", .int 1), ("id", .int 1)]) membership =
            .ok .holds ↔
        evalPredicate Sample.people.store.tables none
          (scanRow none Sample.peopleTable [] [("active", .int 1), ("id", .int 1)]) existence =
            .ok .holds) := by
  obtain ⟨membership, isMembership⟩ := Sample.compiledTo (p := Sample.activeAmong (.int 1))
    [("active", .int 1), ("id", .int 1)] (by decide +kernel)
  obtain ⟨existence, isExistence⟩ := Sample.compiledTo (p := Sample.activeMatched (.bool true))
    [("active", .int 1), ("id", .int 1)] (by decide +kernel)
  have located : Sample.person.at? ["active"] =
      some (.basic { column := "active", kind := .bool, converter := some "boolean_int" }) := rfl
  have absent : ∀ path ∈ (Term.literal (.bool true) : Operand).refs, path.aliasName ≠ "x" := by
    simp [Term.refs]
  refine ⟨membership, existence, isMembership, isExistence, ?_⟩
  exact Restriction.among_iff_matched (by rfl) located absent (by rfl) isMembership isExistence

/-- Given as it stands, the literal is among no stored values, though a row matches it. -/
theorem Restriction.among_literal :
    (Sample.loner.list (Sample.idsWhere (Sample.activeAmong (.bool false)))).toOption = some [] ∧
      (Sample.loner.list (Sample.idsWhere (Sample.activeMatched (.bool false)))).toOption =
        some [.int 2] :=
  ⟨by decide +kernel, by decide +kernel⟩

end EntityQuery
