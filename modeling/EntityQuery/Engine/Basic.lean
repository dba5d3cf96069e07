import EntityQuery.Compilation.Statement
import EntityQuery.Engine.Assembly
import EntityQuery.Storage.Execution

/-! # Engines

An engine keeps the entities of an application in a store: it persists domain values, and runs
statements over entities by compiling them first.
-/

namespace EntityQuery

/-- A store with what is known about its contents. -/
structure Engine where
  domain : Domain
  store : Store
  /-- The state of id generation by entity name, from the first use on. -/
  generators : Keyed IdGenerator := []

namespace Engine

/-- An engine on a store, in which every entity without a table gets an empty one. -/
def start (store : Store) (domain : Domain) : Except ExecutionError Engine := do
  let store ← domain.model.entities.foldlM (fun store e => store.createTable e.2.table) store
  .ok { domain := domain, store := store }

def compiling {α : Type} : Except CompileError α → Except ExecutionError α
  | .ok a => .ok a
  | .error e => .error (.compile e)

def converting {α : Type} : Except ConversionError α → Except ExecutionError α
  | .ok a => .ok a
  | .error e => .error (.conversion e)

/-- The generator of an entity after it has taken note of the ids in the store. -/
def generatorFor (engine : Engine) (e : Entity) (existing : List Row) : IdGenerator :=
  let generator :=
    (Keyed.get? engine.generators e.name).getD { generation := e.idGeneration }
  existing.foldl
    (fun g row =>
      match Keyed.get? row e.idColumn with
      | some id => g.observe id
      | none => g)
    generator

/-- The id of a new row: the one that was supplied, otherwise a generated one, if there is any. The
    generator takes note of it in either case. A universally unique identifier is drawn from outside
    and handed in, whether it is needed or not. -/
def assignId (engine : Engine) (e : Entity) (fields : Fields) (existing : List Row)
    (uuid : String) : Option Value × Engine :=
  let generator := engine.generatorFor e existing
  match (Keyed.get? fields e.idAttribute).filter (!·.isNull) with
  | some id =>
      (some id,
        { engine with generators := Keyed.put engine.generators e.name (generator.observe id) })
  | none =>
      let (id, generator) := generator.next uuid
      (id, { engine with generators := Keyed.put engine.generators e.name generator })

/-- The stored value of a leaf whose domain value is given. -/
def storedValue (registry : ConverterRegistry) (entity : String) (path : AttributePath)
    (a : BasicAttribute) (domain : Value) : Except ExecutionError Value :=
  if a.kind.accepts domain.kind then
    match registry.converterFor a with
    | .error name => .error (.compile (.unknownConverter path name))
    | .ok none => .ok domain
    | .ok (some c) => converting (c.toDatabase domain)
  else .error (.invalidData (.wrongKind entity path a.kind domain))

/-- The columns of a new row, added to those of the leaves before; leaves that are not stored leave
    no trace. -/
def storedRow (registry : ConverterRegistry) (e : Entity) (id : Value) (v : Value) :
    List (AttributePath × Leaf) → Row → Except ExecutionError Row
  | [], row => .ok row
  | (_, .transient _) :: rest, row => storedRow registry e id v rest row
  | (path, .basic a) :: rest, row => do
      let domain := if path = [e.idAttribute] then id else v.atPath path
      let stored ← storedValue registry e.name path a domain
      storedRow registry e id v rest (Keyed.insert row a.column stored)

/-- Whether a stored id is that of one of the rows. -/
def isTaken (e : Entity) (existing : List Row) (storedId : Value) : Bool :=
  existing.any fun row =>
    match Keyed.get? row e.idColumn with
    | some id => id.same storedId
    | none => false

/-- The row for a new entity value with the given id, unless the id is taken. -/
def newRow (registry : ConverterRegistry) (e : Entity) (id : Value) (v : Value)
    (existing : List Row) : Except ExecutionError Row := do
  let row ← storedRow registry e id v e.leaves []
  if isTaken e existing ((Keyed.get? row e.idColumn).getD .null) then
    .error (.duplicateId e.name id)
  else .ok row

/-- Store a domain value as a new row of an entity, and answer with its id. The generator of the
    entity keeps what it has seen even when the value is refused afterwards. -/
def persist (engine : Engine) (entity : String) (v : Value) (uuid : String) :
    Except ExecutionError Value × Engine :=
  match engine.domain.model.entity? entity with
  | none => (.error (.compile (.unknownEntity entity)), engine)
  | some e =>
      match v with
      | .object fields =>
          match engine.store.access with
          | .error failure => (.error failure, engine)
          | .ok tables =>
              let existing := (tables.rows? e.table).getD []
              match engine.assignId e fields existing uuid with
              | (none, engine) => (.error (.missingId e.name), engine)
              | (some id, engine) =>
                  match newRow engine.domain.registry e id v existing with
                  | .error failure => (.error failure, engine)
                  | .ok row =>
                      (.ok id,
                        { engine with
                          store := { engine.store with tables := tables.append e.table [row] } })
      | _ => (.error (.invalidData (.notAnObject entity v)), engine)

/-- The columns that scans are reduced to, if they are. -/
def pruning (engine : Engine) (usage : ColumnUsage) : Option ColumnUsage :=
  if engine.domain.config.pruneColumns then some usage else none

def readRows (slots : List Slot) (results : List ResultPart) :
    List (List Value) → Except ConversionError (List Value)
  | [] => .ok []
  | row :: rest => do
      let v ← readRow slots results row
      let vs ← readRows slots results rest
      .ok (v :: vs)

def list (engine : Engine) (q : Query) : Except ExecutionError (List Value) := do
  let compiled ← compiling (q.compile engine.domain)
  let rows ← engine.store.select (engine.pruning compiled.usage) compiled.block
  converting (readRows compiled.slots compiled.results rows)

/-- The only result of a query, if it has one. -/
def uniqueResult (engine : Engine) (q : Query) : Except ExecutionError (Option Value) := do
  let results ← engine.list q
  match results with
  | [] => .ok none
  | [v] => .ok (some v)
  | _ => .error (.nonUniqueResult results.length)

/-- Remove the entities of a delete statement, and count them. -/
def delete (engine : Engine) (q : DeleteQuery) : Except ExecutionError Nat × Engine :=
  match compiling (q.compile engine.domain) with
  | .error failure => (.error failure, engine)
  | .ok compiled =>
      match engine.store.delete (engine.pruning compiled.usage) compiled.statement with
      | .error failure => (.error failure, engine)
      | .ok (count, store) => (.ok count, { engine with store := store })

end Engine

end EntityQuery
