import EntityQuery.Proofs.Engine.Filtering
import EntityQuery.Proofs.Meaning.Surroundings

/-! # Selected functions

What is listed for a selected function is the function of what its arguments hold as stored. This is
what selecting the arguments shows exactly where nothing converts them: converters belong to
selected attributes, and a function has none.
-/

namespace EntityQuery

mutual

/-- The value of an operand where its paths have the given values. -/
def Operand.evalWith (shown : Path → Value) : Operand → Value
  | .ref path => shown path
  | .literal l => l.toValue
  | .call name args => applyFunction name.toLower (Operand.evalEachWith shown args)

def Operand.evalEachWith (shown : Path → Value) : List Operand → List Value
  | [] => []
  | t :: rest => Operand.evalWith shown t :: Operand.evalEachWith shown rest

end

mutual

theorem Operand.evalWith_congr {shown shown' : Path → Value} {t : Operand}
    (agree : ∀ path ∈ t.refs, shown path = shown' path) : evalWith shown t = evalWith shown' t := by
  cases t with
  | ref path => simp only [evalWith, agree path List.mem_cons_self]
  | literal l => simp only [evalWith]
  | call name args => rw [evalWith, evalWith, evalEachWith_congr agree]
termination_by sizeOf t

theorem Operand.evalEachWith_congr {shown shown' : Path → Value} {args : List Operand}
    (agree : ∀ path ∈ Term.refsOfList args, shown path = shown' path) :
    evalEachWith shown args = evalEachWith shown' args := by
  cases args with
  | nil => simp only [evalEachWith]
  | cons t rest =>
      rw [Term.refsOfList] at agree
      rw [evalEachWith, evalEachWith,
        evalWith_congr fun path own => agree path (List.mem_append_left _ own),
        evalEachWith_congr fun path later => agree path (List.mem_append_right _ later)]
termination_by sizeOf args

end

mutual

theorem Environment.value_evalWith (env : Environment) (t : Operand) :
    env.value t = Operand.evalWith env.stored t := by
  cases t with
  | ref path | literal l => simp only [value, Operand.evalWith]
  | call name args => rw [value, Operand.evalWith, values_evalWith env args]
termination_by sizeOf t

theorem Environment.values_evalWith (env : Environment) (args : List Operand) :
    env.values args = Operand.evalEachWith env.stored args := by
  cases args with
  | nil => simp only [values, Operand.evalEachWith]
  | cons t rest => rw [values, Operand.evalEachWith, value_evalWith env t, values_evalWith env rest]
termination_by sizeOf args

end

/-- The stored value that a path from an alias of the entity leads to in a row. -/
def Entity.storedAt (e : Entity) (row : Row) (path : Path) : Value :=
  match e.columnAt? path with
  | some a => row.stored a.column
  | none => .null

theorem Environment.stored_single (e : Entity) (row : Row) (path : Path) :
    Environment.stored [⟨path.aliasName, e, row⟩] path = e.storedAt row path := by
  simp only [stored, lookup?, frame?, List.find?_cons, decide_true, Option.bind_some,
    Entity.storedAt]
  cases e.columnAt? path <;> rfl

theorem Entity.at?_of_columnAt? {e : Entity} {path : Path} {a : BasicAttribute}
    (further : path.isEntity = false) (column : e.columnAt? path = some a) :
    e.at? path.attributes = some (.basic a) := by
  simpa [further] using columnAt?_eq_some.mp column

section Listing

variable {d : Domain} {q : Query} {compiled : CompiledSelect} {usage : Option ColumnUsage}
  {selection : Selection} {e : Entity}

/-- The only selection, if it is no path, is read as its own value. -/
theorem Query.readRow_single (accepted : q.compile d = .ok compiled)
    (single : q.selections = [selection]) (noPath : ∀ path, selection.operand ≠ .ref path)
    (covers : Covers usage compiled.usage) (known : d.model.entity? q.root.entity = some e)
    (source : Row) :
    readRow compiled.slots compiled.results (compiled.block.resultRow usage [] source) =
      .ok (Environment.value [⟨q.root.aliasName, e, source⟩] selection.operand) := by
  obtain ⟨e', st, known', selected, table, select, slots, within⟩ := Query.compile_selected accepted
  cases known'.symm.trans known
  have only : q.selected = [selection] := by simp [QueryOf.selected, single]
  rw [only] at selected
  obtain ⟨part, st₁, others, one, rest, parts⟩ := selectEach_cons_ok selected
  cases rest
  rcases selectOne_ok one with ⟨path, isPath, -⟩ | ⟨-, expression, s, operand, rfl, rfl⟩
  · exact absurd isPath (noPath path)
  · have value := compileExpression_value operand (covers.mono within)
      (represents_outermost source)
    rw [← value, parts, slots]
    unfold BlockOf.resultRow
    rw [select, table]
    rfl

/-- The paths in a function that an accepted query selects lead to columns of its entity. -/
theorem Query.selected_leads (accepted : Succeeds (q.compile d))
    (member : selection ∈ q.selections) (noPath : ∀ path, selection.operand ≠ .ref path) :
    ∃ e, d.model.entity? q.root.entity = some e ∧ ∀ path ∈ selection.operand.refs,
      path.aliasName = q.root.aliasName ∧
        ∃ a, e.columnAt? path = some a ∧ d.registry.Knows a := by
  have wellFormed := (Query.compile_succeeds q).mp accepted
  obtain ⟨root, selections, restriction, orderings, limit, offset⟩ := q
  obtain ⟨-, e, known, selects, -, -⟩ := wellFormed
  refine ⟨e, known, ?_⟩
  have explicit : wantedSelections root e [] selections = selections :=
    if_neg (by simpa using List.ne_nil_of_mem member)
  have own := selects.each selection (explicit.symm ▸ member)
  have admits : Visible.Admits d [(root.aliasName, e)] selection.operand := by
    cases operand : selection.operand with
    | ref path => exact absurd operand (noPath path)
    | literal l | call name args =>
        rw [operand] at own
        exact own
  intro path member
  obtain ⟨a, leads, knows⟩ := admits path member
  obtain ⟨f, visible, column⟩ := Option.bind_eq_some_iff.mp leads
  rw [Keyed.get?] at visible
  split at visible
  · next same =>
    cases visible
    exact ⟨same.symm, a, column, knows⟩
  · cases visible

/-- An attribute whose converter is known can be selected. -/
theorem Query.column_compiles {a : BasicAttribute} {name aliasName : String}
    {attributes : AttributePath} (known : d.model.entity? name = some e)
    (located : e.at? attributes = some (.basic a)) (knows : d.registry.Knows a) :
    Succeeds ((Query.column name aliasName attributes).compile d) := by
  have leaves : Visible.leaves? [(aliasName, e)] ⟨aliasName, attributes⟩ = some [.basic a] := by
    simp [Visible.leaves?, Keyed.get?, Entity.at?_not_nil located, located,
      AttributeMapping.leaves]
  refine (Query.compile_succeeds _).mpr ⟨Nat.zero_le _, e, known, ⟨?_, ?_⟩, trivial, by simp⟩
  · intro selection member
    cases List.mem_singleton.mp member
    exact ⟨_, leaves, fun b inside => by
      cases List.mem_singleton.mp inside
      exact knows⟩
  · simp [wantedSelections, Visible.columns, leaves, Leaf.isStored]

end Listing

namespace Engine

variable {engine : Engine} {q : Query} {compiled : CompiledSelect} {selection : Selection}
  {e : Entity} {a : BasicAttribute} {name : String} {path : Path} {row : Row} {v : Value}

/-- The engine with the row as the only one of its entity. -/
def withOnly (engine : Engine) (e : Entity) (row : Row) : Engine :=
  { engine with store := { tables := Keyed.put engine.store.tables e.table [row] } }

theorem readRows_single {d : Domain} {compiled : CompiledSelect} {usage : Option ColumnUsage}
    (accepted : q.compile d = .ok compiled) (single : q.selections = [selection])
    (noPath : ∀ path, selection.operand ≠ .ref path) (covers : Covers usage compiled.usage)
    (known : d.model.entity? q.root.entity = some e) (rows : List Row) :
    readRows compiled.slots compiled.results
        (rows.map (compiled.block.resultRow usage [])) =
      .ok (rows.map fun row =>
        Environment.value [⟨q.root.aliasName, e, row⟩] selection.operand) := by
  induction rows with
  | nil => rfl
  | cons row rest ih =>
      rw [List.map_cons, readRows, Query.readRow_single accepted single noPath covers known, ih]
      rfl

/-- Selecting the path returns the value for the row. -/
def Shows (engine : Engine) (name : String) (e : Entity) (path : Path) (row : Row) (v : Value) :
    Prop :=
  (engine.withOnly e row).list (Query.column name path.aliasName path.attributes) = .ok [v]

/-- A selected attribute shows its stored value as the converter in effect reads it. -/
theorem shows_iff (known : engine.domain.model.entity? name = some e)
    (located : e.at? path.attributes = some (.basic a)) (knows : engine.domain.registry.Knows a) :
    engine.Shows name e path row v ↔
      (row.stored a.column).readBy (engine.domain.registry.inEffect? a) = .ok v := by
  have plain : ∀ selection ∈ (Query.column name path.aliasName path.attributes).selections,
      selection.operand.identity = selection.operand := by simp [Query.column, Term.identity]
  have stored : (engine.withOnly e row).store.tables.rowsOf e = .ok [row] :=
    Tables.rowsOf_eq_ok.mpr (Tables.replaces_put engine.store.tables e.table [row]).own
  have known' : (engine.withOnly e row).domain.model.entity? name = some e := known
  have listed : (engine.withOnly e row).list
      (Query.column name path.aliasName path.attributes) = (do
        let tables ← (engine.withOnly e row).store.access
        let rows ← tables.rowsOf e
        converting (resultsFor engine.domain.registry
          (Query.column name path.aliasName path.attributes).selected
          (rows.map fun row => [⟨path.aliasName, e, row⟩]))) :=
    list_unrestricted known' (Query.column_compiles known' located knows) plain
  rw [Shows, listed, Store.access_eq_ok.mpr ⟨rfl, rfl⟩, ok_bind, stored, ok_bind, List.map_cons,
    List.map_nil, resultsFor, assembled_column located, converting_eq_ok]
  show (do
      let shown ← (row.stored a.column).readBy (engine.domain.registry.inEffect? a)
      .ok [shown]) = _ ↔ _
  cases (row.stored a.column).readBy (engine.domain.registry.inEffect? a) <;> simp

/-- What is listed for a function that a query selects. -/
structure ListsFunction (engine : Engine) (q : Query) (e : Entity) (t : Operand) : Prop where
  /-- Whatever else is selected, the selection has for each row the function of the stored values
      that its paths lead to. -/
  result : ∀ row, Environment.result [⟨q.root.aliasName, e, row⟩] engine.domain.registry t =
    .ok (t.evalWith (e.storedAt row))
  listed : (engine.list q).map (List.map Value.unsignedZeros) =
    (engine.evaluate q).map (List.map Value.unsignedZeros)
  /-- Selected alone, it is what is listed for the rows that the query is about. -/
  alone : q.selections.map (·.operand) = [t] → engine.list q = (do
    let tables ← engine.store.access
    let found ← solutions engine.domain tables [] q
    .ok (found.2.map fun row => t.evalWith (e.storedAt row)))
  /-- Selecting a path itself shows the stored value as the converter in effect reads it. -/
  shows : ∀ path ∈ t.refs, path.isEntity = false →
    ∃ a, e.at? path.attributes = some (.basic a) ∧ ∀ row,
      e.storedAt row path = row.stored a.column ∧
        ∀ v, engine.Shows q.root.entity e path row v ↔
          (row.stored a.column).readBy (engine.domain.registry.inEffect? a) = .ok v
  /-- So it is the function of what the paths show, unless something converts one of them. -/
  agrees : ∀ row (shown : Path → Value),
    (∀ path ∈ t.refs, path.isEntity = false ∧ engine.Shows q.root.entity e path row (shown path) ∧
      ∀ a, e.at? path.attributes = some (.basic a) →
        engine.domain.registry.inEffect? a = none) →
    t.evalWith (e.storedAt row) = t.evalWith shown
  coalesce : ∀ name path, t = .call name [.ref path] → name.toLower = "coalesce" → ∀ row,
    t.evalWith (e.storedAt row) = e.storedAt row path

/-- The list of a query that selects nothing but a function. -/
theorem list_single (accepted : q.compile engine.domain = .ok compiled)
    (single : q.selections = [selection]) (noPath : ∀ path, selection.operand ≠ .ref path)
    (known : engine.domain.model.entity? q.root.entity = some e) :
    engine.list q = (do
      let tables ← engine.store.access
      let found ← solutions engine.domain tables [] q
      .ok (found.2.map fun row =>
        Environment.value [⟨q.root.aliasName, e, row⟩] selection.operand)) := by
  have covers := engine.pruning_covers compiled.usage
  unfold list Store.select
  rw [accepted]
  simp only [compiling, ok_bind]
  cases engine.store.access with
  | error failure => rfl
  | ok tables =>
      simp only [ok_bind, Query.runBlock_compiled accepted covers]
      cases found : solutions engine.domain tables [] q with
      | error failure => rfl
      | ok result =>
          obtain ⟨e', rows⟩ := result
          cases known.symm.trans (solutions_entity found)
          simp only [Except.map, ok_bind]
          rw [readRows_single accepted single noPath covers known, converting]

/-- A selected function is computed of what its arguments hold as stored, however deep it nests and
    whatever converts them when they are selected themselves. -/
theorem list_function (accepted : Succeeds (q.compile engine.domain))
    (member : selection ∈ q.selections)
    (isFunction : ∃ name args, selection.operand = .call name args) :
    ∃ e, engine.domain.model.entity? q.root.entity = some e ∧
      engine.ListsFunction q e selection.operand := by
  obtain ⟨name, args, isCall⟩ := isFunction
  have noPath : ∀ path, selection.operand ≠ .ref path := by simp [isCall]
  obtain ⟨e, known, leads⟩ := Query.selected_leads accepted member noPath
  obtain ⟨compiled, accepted⟩ := accepted
  have value : ∀ row, Environment.value [⟨q.root.aliasName, e, row⟩] selection.operand =
      selection.operand.evalWith (e.storedAt row) := by
    intro row
    rw [Environment.value_evalWith]
    apply Operand.evalWith_congr
    intro path inside
    rw [← (leads path inside).1]
    exact Environment.stored_single e row path
  have shows : ∀ path ∈ selection.operand.refs, path.isEntity = false →
      ∃ a, e.at? path.attributes = some (.basic a) ∧ ∀ row,
        e.storedAt row path = row.stored a.column ∧
          ∀ v, engine.Shows q.root.entity e path row v ↔
            (row.stored a.column).readBy (engine.domain.registry.inEffect? a) = .ok v := by
    intro path inside further
    obtain ⟨-, a, column, knows⟩ := leads path inside
    have located := Entity.at?_of_columnAt? further column
    refine ⟨a, located, fun row => ⟨?_, fun v => shows_iff known located knows⟩⟩
    simp only [Entity.storedAt, column]
  refine ⟨e, known, ?_, list_viewed accepted (View.zeros_suits engine.domain q), ?_, shows, ?_, ?_⟩
  · intro row
    rw [← value row, isCall]
    rfl
  · intro only
    obtain ⟨first, single, same⟩ := List.map_eq_singleton_iff.mp only
    rw [← same] at noPath
    simp only [list_single accepted single noPath known, same, value]
  · intro row shown each
    apply Operand.evalWith_congr
    intro path inside
    obtain ⟨further, isShown, unconverted⟩ := each path inside
    obtain ⟨a, located, reads⟩ := shows path inside further
    obtain ⟨stored, read⟩ := reads row
    have asStored := (read (shown path)).mp isShown
    rw [unconverted a located] at asStored
    rw [stored]
    exact Except.ok.inj asStored
  · intro name path isCoalesce lower row
    rw [isCoalesce]
    simp only [Operand.evalWith, Operand.evalEachWith, lower, applyFunction, if_true]
    cases e.storedAt row path <;> rfl

end Engine

namespace Sample

/-- The town of the only person, in capitals, or a word for it. -/
def towns : Query where
  root := ⟨"Person", "p"⟩
  selections :=
    [{ operand := .call "Upper"
        [.call "coalesce" [.ref ⟨"p", ["address", "city"]⟩, .literal (.string "unknown")]] }]

/-- The first value there is of whether a person is active. -/
def firstActive : Query where
  root := ⟨"Person", "p"⟩
  selections := [{ operand := .call "coalesce" [.ref ⟨"p", ["active"]⟩] }]

end Sample

theorem Engine.list_function_towns :
    ∃ e, Sample.loner.domain.model.entity? Sample.towns.root.entity = some e ∧
      Sample.loner.ListsFunction Sample.towns e
        (.call "Upper"
          [.call "coalesce"
            [.ref ⟨"p", ["address", "city"]⟩, .literal (.string "unknown")]]) := by
  have accepted : Succeeds (Sample.towns.compile Sample.loner.domain) :=
    isOk_iff.mp (by decide +kernel)
  exact Engine.list_function accepted List.mem_cons_self ⟨_, _, rfl⟩

/-- Whether somebody is active is shown as a boolean, and the first of one such value as the number
    that is stored. -/
theorem Engine.list_function_converted :
    (Sample.loner.list (Query.column "Person" "p" ["active"])).toOption = some [.bool false] ∧
      (Sample.loner.list Sample.firstActive).toOption = some [.int 0] :=
  ⟨by decide +kernel, by decide +kernel⟩

end EntityQuery
