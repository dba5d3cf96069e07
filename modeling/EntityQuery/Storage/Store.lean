import EntityQuery.Json.Reading
import EntityQuery.Storage.Error

/-! # Stores

Tables of rows in the order of their creation, and the operations that read and change them
directly. A store in which an operation broke off refuses all further ones.
-/

namespace EntityQuery

/-- The columns of a row in ascending order of their names. -/
abbrev Row := Fields

/-- The rows of all tables, the tables in the order of their creation. -/
abbrev Tables := Keyed (List Row)

namespace Tables

def rows? (tables : Tables) (table : String) : Option (List Row) := Keyed.get? tables table

/-- Create a table without rows, unless it exists. -/
def create (tables : Tables) (table : String) : Tables :=
  match tables.rows? table with
  | some _ => tables
  | none => Keyed.put tables table []

/-- Append rows to a table, which is created if it does not exist. -/
def append (tables : Tables) (table : String) (rows : List Row) : Tables :=
  Keyed.put tables table ((tables.rows? table).getD [] ++ rows)

/-- The rows at other places than the given ones; `start` is the place of the first row. -/
def rowsExcept (positions : List Nat) : Nat → List Row → List Row
  | _, [] => []
  | start, row :: rest =>
      if start ∈ positions then rowsExcept positions (start + 1) rest
      else row :: rowsExcept positions (start + 1) rest

/-- Remove the rows at the given places of a table, and count them. -/
def removePositions (tables : Tables) (table : String) (positions : List Nat) : Nat × Tables :=
  match tables.rows? table with
  | none => (0, tables)
  | some rows =>
      let kept := rowsExcept positions 0 rows
      (rows.length - kept.length, Keyed.put tables table kept)

end Tables

structure Store where
  tables : Tables := []
  /-- Whether an operation broke off in the middle of a change. -/
  broken : Bool := false

namespace Store

/-- The tables, if they may still be used. -/
def access (store : Store) : Except ExecutionError Tables :=
  if store.broken then .error .storeUnavailable else .ok store.tables

def breakOff (store : Store) : Store := { store with broken := true }

def createTable (store : Store) (table : String) : Except ExecutionError Store := do
  let tables ← store.access
  .ok { store with tables := tables.create table }

def insert (store : Store) (table : String) (row : Row) : Except ExecutionError Store := do
  let tables ← store.access
  .ok { store with tables := tables.append table [row] }

def rows (store : Store) (table : String) : Except ExecutionError (List Row) := do
  let tables ← store.access
  match tables.rows? table with
  | some rows => .ok rows
  | none => .error (.unknownTable table)

def tableNames (store : Store) : Except ExecutionError (List String) := do
  let tables ← store.access
  .ok (Keyed.names tables)

/-- Remove the rows at the given places of a table, and count them. -/
def removePositions (store : Store) (table : String) (positions : List Nat) :
    Except ExecutionError (Nat × Store) := do
  let tables ← store.access
  let (count, tables) := tables.removePositions table positions
  .ok (count, { store with tables := tables })

def rowsOfItems (table : String) : List Value → Except ExecutionError (List Row)
  | [] => .ok []
  | .object fields :: rest => do
      let rows ← rowsOfItems table rest
      .ok (fields :: rows)
  | v :: _ => .error (.invalidData (.rowNotAnObject table v))

/-- Append all rows of a list to a table, and count them. -/
def load (store : Store) (table : String) (data : Value) : Except ExecutionError (Nat × Store) :=
  match data with
  | .array items => do
      let rows ← rowsOfItems table items
      let tables ← store.access
      .ok (rows.length, { store with tables := tables.append table rows })
  | _ => .error (.invalidData (.notAnArray table))

/-- Append the rows that a file holds as a JSON list to a table, and count them; no contents means
    that there is no such file. -/
def loadFile (store : Store) (table : String) (contents : Option ByteArray) :
    Except ExecutionError (Nat × Store) :=
  match contents with
  | none => .error (.file .missing)
  | some bytes =>
      match String.fromUTF8? bytes with
      | none => .error (.file .notText)
      | some text =>
          match Json.read text with
          | .error fault => .error (.invalidData (.malformed fault))
          | .ok data => store.load table data

end Store

end EntityQuery
