import EntityQuery.Compilation.Compiled
import EntityQuery.Storage.Store

/-! # Running compiled statements

A block scans its table and works on rows that hold the columns of all enclosing blocks as well,
each under its qualified name. With a column usage at hand a scan takes over only the columns that
the statement refers to.
-/

namespace EntityQuery

/-- The columns of a stored row that a scan takes over: those in use, if the usage knows the table,
    otherwise all of them. -/
def scannedColumns (usage : Option ColumnUsage) (table : TableRef) (source : Row) : List String :=
  (usage.bind (·.columnsOf? table.aliasName)).getD (Keyed.names source)

/-- The row under evaluation for a row of a table: the columns of the table that the scan takes
    over, added to the columns of the enclosing blocks. -/
def scanRow (usage : Option ColumnUsage) (table : TableRef) (outer source : Row) : Row :=
  (scannedColumns usage table source).foldl
    (fun row c =>
      Keyed.insert row (qualifiedName table.aliasName c) ((Keyed.get? source c).getD .null))
    outer

def scan (tables : Tables) (usage : Option ColumnUsage) (table : TableRef) (outer : Row) :
    Except ExecutionError (List Row) :=
  match tables.rows? table.table with
  | some rows => .ok (rows.map (scanRow usage table outer))
  | none => .error (.unknownTable table.table)

/-- The rows that pass a test, which may fail. -/
def keepRows (test : Row → Except ExecutionError Truth) :
    List Row → Except ExecutionError (List Row)
  | [] => .ok []
  | row :: rest => do
      let t ← test row
      let kept ← keepRows test rest
      .ok (if t.isTrue then row :: kept else kept)

/-- Whether a value is among others: true if it equals one of them, otherwise unknown if it or one
    of them is null and there is any. -/
def inValues (v : Value) (candidates : List Value) : Truth :=
  if candidates.any fun c => !c.isNull && v.same c then .holds
  else if candidates.isEmpty then .fails
  else if candidates.any Value.isNull || v.isNull then .unknown
  else .fails

/-- The order of two rows by several sort keys, the first one that tells them apart deciding. -/
def compareRows : List SortKey → Row → Row → Ordering
  | [], _, _ => .eq
  | key :: rest, a, b =>
      match Value.sortCompare key.ascending (key.expression.eval a) (key.expression.eval b) with
      | .eq => compareRows rest a b
      | o => o

/-- The rows in the order of the sort keys; rows that these do not tell apart keep their order. -/
def sortRows (order : List SortKey) (rows : List Row) : List Row :=
  rows.mergeSort fun a b => compareRows order a b != .gt

/-- The rows that remain when the first `offset` are left out and at most `limit` are taken; a
    negative number counts as zero. -/
def page {α : Type} (offset limit : Option Int) (rows : List α) : List α :=
  let rest := rows.drop (offset.getD 0).toNat
  match limit with
  | some n => rest.take n.toNat
  | none => rest

mutual

/-- The truth of a predicate on a row. Every part is evaluated, even when the others decide. -/
def evalPredicate (tables : Tables) (usage : Option ColumnUsage) (row : Row) :
    Predicate → Except ExecutionError Truth
  | .and parts => evalEvery tables usage row parts
  | .or parts => evalSome tables usage row parts
  | .not p => do
      let t ← evalPredicate tables usage row p
      .ok t.not
  | .compare left op right => .ok (Value.compareTruth (left.eval row) op (right.eval row))
  | .isNull e negated => .ok ((Truth.ofBool (e.eval row).isNull).negateIf negated)
  | .like e pattern negated =>
      .ok ((Value.likeTruth (e.eval row) (pattern.eval row)).negateIf negated)
  | .existsQuery query negated => do
      let rows ← runBlock tables usage row query
      .ok ((Truth.ofBool !rows.isEmpty).negateIf negated)
  | .inQuery e query negated => do
      let rows ← runBlock tables usage row query
      .ok ((inValues (e.eval row) (rows.filterMap List.head?)).negateIf negated)
  | .constant t => .ok t

def evalEvery (tables : Tables) (usage : Option ColumnUsage) (row : Row) :
    List Predicate → Except ExecutionError Truth
  | [] => .ok .holds
  | p :: rest => do
      let t ← evalPredicate tables usage row p
      let u ← evalEvery tables usage row rest
      .ok (t.and u)

def evalSome (tables : Tables) (usage : Option ColumnUsage) (row : Row) :
    List Predicate → Except ExecutionError Truth
  | [] => .ok .fails
  | p :: rest => do
      let t ← evalPredicate tables usage row p
      let u ← evalSome tables usage row rest
      .ok (t.or u)

/-- The truth of a restriction; where there is none, every row passes. -/
def evalRestriction (tables : Tables) (usage : Option ColumnUsage) (row : Row) :
    Option Predicate → Except ExecutionError Truth
  | none => .ok .holds
  | some p => evalPredicate tables usage row p

/-- The result rows of a block inside a row of the enclosing blocks. -/
def runBlock (tables : Tables) (usage : Option ColumnUsage) (outer : Row) :
    BlockOf Predicate → Except ExecutionError (List (List Value))
  | ⟨_, table, select, restriction, order, limit, offset⟩ => do
      let scanned ← scan tables usage table outer
      let kept ← keepRows (fun row => evalRestriction tables usage row restriction) scanned
      .ok ((page offset limit (sortRows order kept)).map fun row =>
        (resultColumns select).map (·.eval row))

end

/-- The places of the rows that a restriction is true of; `start` is the place of the first row. -/
def matchingPositions (test : Row → Except ExecutionError Truth) :
    Nat → List Row → Except ExecutionError (List Nat)
  | _, [] => .ok []
  | start, row :: rest => do
      let t ← test row
      let positions ← matchingPositions test (start + 1) rest
      .ok (if t.isTrue then start :: positions else positions)

namespace Store

def select (store : Store) (usage : Option ColumnUsage) (block : QueryBlock) :
    Except ExecutionError (List (List Value)) := do
  let tables ← store.access
  runBlock tables usage [] block

/-- Remove the rows of a delete statement, and count them. All rows are tested before the first one
    goes. -/
def delete (store : Store) (usage : Option ColumnUsage) (statement : DeleteStatement) :
    Except ExecutionError (Nat × Store) := do
  let tables ← store.access
  let rows ← scan tables usage statement.target []
  let positions ←
    matchingPositions (fun row => evalRestriction tables usage row statement.restriction) 0 rows
  store.removePositions statement.target.table positions

end Store

end EntityQuery
