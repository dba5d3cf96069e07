import EntityQuery.Engine.Basic

/-! # What queries mean

Statements over entities evaluated as they stand, on the stored rows: an alias stands for a row, a
path for a stored column, and a query inside a restriction is evaluated anew for every row around
it. Nothing here knows of aliases of tables, slots, buffers or the columns in use.
-/

namespace EntityQuery

/-- A row that an alias of a statement stands for. -/
structure Frame where
  aliasName : String
  entity : Entity
  row : Row

/-- The attribute with a single column that a path from an alias of the entity leads to; the alias
    by itself stands for the id attribute. -/
def Entity.columnAt? (e : Entity) (path : Path) : Option BasicAttribute :=
  match e.at? (if path.isEntity then [e.idAttribute] else path.attributes) with
  | some (.basic a) => some a
  | _ => none

theorem Entity.columnAt?_eq_some {e : Entity} {path : Path} {a : BasicAttribute} :
    e.columnAt? path = some a ↔
      e.at? (if path.isEntity then [e.idAttribute] else path.attributes) = some (.basic a) := by
  unfold columnAt?
  split
  · next located => simp [located]
  · next other => exact ⟨nofun, fun located => absurd located (other a)⟩

/-- The leaves that a path from an alias of the entity selects, with their paths in the result. -/
def Entity.leavesAt (e : Entity) (path : Path) : List (AttributePath × Leaf) :=
  if path.isEntity then e.leaves else ((e.at? path.attributes).map (·.leaves)).getD []

/-- The converter in effect for an attribute, none if it names one that is not registered. -/
def ConverterRegistry.inEffect? (r : ConverterRegistry) (a : BasicAttribute) : Option Converter :=
  match r.converterFor a with
  | .ok c => c
  | .error _ => none

/-- The stored value in a column of a row, null where the row lacks the column. -/
def Row.stored (row : Row) (column : String) : Value := (Keyed.get? row column).getD .null

def Row.storedLeaves (row : Row) (leaves : List (AttributePath × Leaf)) : List Value :=
  leaves.filterMap fun leaf =>
    match leaf.2 with
    | .basic a => some (row.stored a.column)
    | .transient _ => none

/-- The rows of the blocks around a place in a statement, innermost first. -/
abbrev Environment := List Frame

namespace Environment

/-- The row that an alias stands for: that of the innermost block that declares it. -/
def frame? (env : Environment) (aliasName : String) : Option Frame :=
  env.find? (·.aliasName = aliasName)

/-- The row and the attribute that a path leads to. -/
def lookup? (env : Environment) (path : Path) : Option (Row × BasicAttribute) :=
  (env.frame? path.aliasName).bind fun f => (f.entity.columnAt? path).map fun a => (f.row, a)

def stored (env : Environment) (path : Path) : Value :=
  match env.lookup? path with
  | some (row, a) => row.stored a.column
  | none => .null

mutual

/-- The value of an operand, in the form in which its attributes are stored. -/
def value (env : Environment) : Term Path → Value
  | .ref path => env.stored path
  | .literal l => l.toValue
  | .call name args => applyFunction name.toLower (values env args)

def values (env : Environment) : List (Term Path) → List Value
  | [] => []
  | t :: rest => value env t :: values env rest

end

/-- The converter of an operand: that of the attribute, if it is a path. -/
def converter? (env : Environment) (registry : ConverterRegistry) : Operand → Option Converter
  | .ref path => (env.lookup? path).bind fun found => registry.inEffect? found.2
  | _ => none

/-- The value of an operand that is compared with another one. A literal beside an attribute with a
    converter takes the form in which the converter stores it. -/
def comparand (env : Environment) (registry : ConverterRegistry) (t other : Operand) : Value :=
  match t, env.converter? registry other with
  | .literal l, some c =>
      match c.toDatabase l.toValue with
      | .ok stored => stored
      | .error _ => .null
  | t, _ => env.value t

/-- What is sorted by: a bare name that is no alias of a block may be that of a selection. -/
def sortOperand (env : Environment) (selections : List Selection) (t : Operand) : Operand :=
  match t with
  | .ref path =>
      if path.isEntity && (env.frame? path.aliasName).isNone then
        match selections.find? (·.aliasName = some path.aliasName) with
        | some selection => selection.operand
        | none => t
      else t
  | t => t

/-- The order of two environments by several operands, the first one that tells them apart
    deciding. -/
def compareBy (selections : List Selection) : List OrderBy → Environment → Environment → Ordering
  | [], _, _ => .eq
  | o :: rest, a, b =>
      match Value.sortCompare o.ascending (a.value (a.sortOperand selections o.operand))
          (b.value (b.sortOperand selections o.operand)) with
      | .eq => compareBy selections rest a b
      | order => order

/-- The stored values that an operand selects. -/
def selected (env : Environment) : Operand → List Value
  | .ref path =>
      match env.frame? path.aliasName with
      | some f => f.row.storedLeaves (f.entity.leavesAt path)
      | none => []
  | t => [env.value t]

/-- The first of the stored values that a query inside a restriction selects, by default the id. -/
def firstSelected (env : Environment) (root : Root) (entity : Entity)
    (selections : List Selection) : Option Value :=
  if selections.isEmpty then (env.selected (.ref ⟨root.aliasName, [entity.idAttribute]⟩)).head?
  else (selections.flatMap fun selection => env.selected selection.operand).head?

end Environment

def Tables.rowsOf (tables : Tables) (e : Entity) : Except ExecutionError (List Row) :=
  match tables.rows? e.table with
  | some rows => .ok rows
  | none => .error (.unknownTable e.table)

mutual

/-- The truth of a restriction. -/
def Restriction.truth (d : Domain) (tables : Tables) (env : Environment) :
    Restriction → Except ExecutionError Truth
  | .compare left op right =>
      .ok (Value.compareTruth (env.comparand d.registry left right) op
        (env.comparand d.registry right left))
  | .and parts => truthOfEvery d tables env parts
  | .or parts => truthOfSome d tables env parts
  | .not p => do
      let t ← p.truth d tables env
      .ok t.not
  | .isNull e negated => .ok ((Truth.ofBool (env.value e).isNull).negateIf negated)
  | .like e pattern negated =>
      .ok ((Value.likeTruth (env.value e) (env.value pattern)).negateIf negated)
  | .existsQuery query negated => do
      let (_, rows) ← solutions d tables env query
      .ok ((Truth.ofBool !rows.isEmpty).negateIf negated)
  | .inQuery e query negated => do
      let (entity, rows) ← solutions d tables env query
      let candidates := rows.filterMap fun row =>
        Environment.firstSelected (⟨query.root.aliasName, entity, row⟩ :: env) query.root entity
          query.selections
      .ok ((inValues (env.value e) candidates).negateIf negated)

def truthOfEvery (d : Domain) (tables : Tables) (env : Environment) :
    List Restriction → Except ExecutionError Truth
  | [] => .ok .holds
  | p :: rest => do
      let t ← p.truth d tables env
      let u ← truthOfEvery d tables env rest
      .ok (t.and u)

def truthOfSome (d : Domain) (tables : Tables) (env : Environment) :
    List Restriction → Except ExecutionError Truth
  | [] => .ok .fails
  | p :: rest => do
      let t ← p.truth d tables env
      let u ← truthOfSome d tables env rest
      .ok (t.or u)

def truthOfOptional (d : Domain) (tables : Tables) (env : Environment) :
    Option Restriction → Except ExecutionError Truth
  | none => .ok .holds
  | some p => p.truth d tables env

/-- The entity of a query's root, and those of its stored rows that the query is about, sorted and
    paged. -/
def solutions (d : Domain) (tables : Tables) (env : Environment) :
    QueryOf Restriction → Except ExecutionError (Entity × List Row)
  | ⟨root, selections, restriction, orderings, limit, offset⟩ => do
      let entity ← Engine.compiling (d.entity root.entity)
      let rows ← tables.rowsOf entity
      let within := fun row : Row => (⟨root.aliasName, entity, row⟩ :: env : Environment)
      let kept ← keepRows (fun row => truthOfOptional d tables (within row) restriction) rows
      let sorted := kept.mergeSort fun a b =>
        Environment.compareBy selections orderings (within a) (within b) != .gt
      .ok (entity, page offset limit sorted)

end

/-- The domain value of a leaf. -/
def Row.leafResult (row : Row) (registry : ConverterRegistry) : Leaf → Except ConversionError Value
  | .transient _ => .ok .null
  | .basic a =>
      match registry.inEffect? a with
      | some c => c.toDomain (row.stored a.column)
      | none => .ok (row.stored a.column)

/-- The object with the domain values of leaves at their paths, added to the fields before. -/
def Row.objectResult (row : Row) (registry : ConverterRegistry) :
    List (AttributePath × Leaf) → Fields → Except ConversionError Fields
  | [], fields => .ok fields
  | (path, leaf) :: rest, fields => do
      let v ← row.leafResult registry leaf
      row.objectResult registry rest (placeAt fields path v)

/-- The domain value at an attribute path of an entity: an object for an entity or an embedded
    value. -/
def Frame.result (f : Frame) (registry : ConverterRegistry) (path : Path) :
    Except ConversionError Value :=
  if path.isEntity then (f.row.objectResult registry f.entity.leaves []).map Value.object
  else
    match f.entity.at? path.attributes with
    | some (.embedded attributes) =>
        (f.row.objectResult registry (leavesOf attributes) []).map Value.object
    | some (.basic a) => f.row.leafResult registry (.basic a)
    | some (.transient kind) => f.row.leafResult registry (.transient kind)
    | none => .ok .null

def Environment.result (env : Environment) (registry : ConverterRegistry) :
    Operand → Except ConversionError Value
  | .ref path =>
      match env.frame? path.aliasName with
      | some f => f.result registry path
      | none => .ok .null
  | t => .ok (env.value t)

def Environment.results (env : Environment) (registry : ConverterRegistry) :
    List Selection → Except ConversionError (List Value)
  | [] => .ok []
  | selection :: rest => do
      let v ← env.result registry selection.operand
      let vs ← env.results registry rest
      .ok (v :: vs)

/-- One result of a query: a single selection as it is, several as an object if all of them have
    names, otherwise as a list. -/
def Environment.assembled (env : Environment) (registry : ConverterRegistry)
    (selections : List Selection) : Except ConversionError Value :=
  match selections with
  | [single] => env.result registry single.operand
  | _ => do
      let values ← env.results registry selections
      match selections.mapM (·.aliasName) with
      | some names => .ok (.object (Keyed.ofList (names.zip values)))
      | none => .ok (.array values)

/-- What the outermost block of a query selects, by default its root entity. -/
def QueryOf.selected {π : Type} (q : QueryOf π) : List Selection :=
  if q.selections.isEmpty then [{ operand := .ref ⟨q.root.aliasName, []⟩ }] else q.selections

def resultsFor (registry : ConverterRegistry) (selections : List Selection) :
    List Environment → Except ConversionError (List Value)
  | [] => .ok []
  | env :: rest => do
      let v ← env.assembled registry selections
      let vs ← resultsFor registry selections rest
      .ok (v :: vs)

/-- The results of a query on stored rows. -/
def Query.evaluate (d : Domain) (tables : Tables) (q : Query) :
    Except ExecutionError (List Value) := do
  let (entity, rows) ← solutions d tables [] q
  Engine.converting
    (resultsFor d.registry q.selected (rows.map fun row => [⟨q.root.aliasName, entity, row⟩]))

def Engine.evaluate (engine : Engine) (q : Query) : Except ExecutionError (List Value) := do
  let tables ← engine.store.access
  q.evaluate engine.domain tables

end EntityQuery
