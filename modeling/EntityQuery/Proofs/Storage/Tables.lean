import EntityQuery.Proofs.Outcome
import EntityQuery.Storage.Store

/-! # Changes of single tables

Whatever is written to a store goes to one table and leaves the others alone. A load appends the
objects of a list, all of them or none.
-/

namespace EntityQuery

/-- The table has the given rows now, and all other tables are as they were. -/
structure Tables.Replaces (before : Tables) (table : String) (rows : List Row) (after : Tables) :
    Prop where
  own : after.rows? table = some rows
  others : ∀ other, other ≠ table → after.rows? other = before.rows? other

theorem Tables.replaces_put (tables : Tables) (table : String) (rows : List Row) :
    tables.Replaces table rows (Keyed.put tables table rows) where
  own := by rw [rows?, Keyed.get?_put, if_pos rfl]
  others := by
    intro other different
    rw [rows?, Keyed.get?_put, if_neg (Ne.symm different)]
    rfl

theorem Tables.replaces_append (tables : Tables) (table : String) (rows : List Row) :
    tables.Replaces table ((tables.rows? table).getD [] ++ rows) (tables.append table rows) :=
  tables.replaces_put table _

theorem Tables.rows?_create (tables : Tables) (table other : String) :
    (tables.create table).rows? other =
      if table = other then some ((tables.rows? table).getD []) else tables.rows? other := by
  unfold create
  cases known : tables.rows? table with
  | none =>
      rw [rows?, Keyed.get?_put]
      rfl
  | some rows =>
      by_cases same : table = other
      · rw [if_pos same, ← same]
        exact known
      · rw [if_neg same]

/-- All tables are still there, and the store may be used if it could be used before. -/
structure Store.Retains (before after : Store) : Prop where
  broken : after.broken = before.broken
  tables : ∀ table, (before.tables.rows? table).isSome → (after.tables.rows? table).isSome

namespace Store.Retains

variable {before after : Store}

theorem of_eq (unchanged : after = before) : before.Retains after := by
  rw [unchanged]
  exact ⟨rfl, fun _ there => there⟩

theorem trans {later : Store} (first : before.Retains after) (second : after.Retains later) :
    before.Retains later :=
  ⟨second.broken.trans first.broken, fun table there => second.tables table (first.tables table there)⟩

theorem of_replaces {table : String} {rows : List Row} (broken : after.broken = before.broken)
    (replaces : before.tables.Replaces table rows after.tables) : before.Retains after where
  broken := broken
  tables := by
    intro other there
    by_cases own : other = table
    · rw [own, replaces.own]
      rfl
    · rwa [replaces.others other own]

end Store.Retains

/-- No table has any rows. -/
def Tables.Unfilled (tables : Tables) : Prop :=
  ∀ table rows, tables.rows? table = some rows → rows = []

namespace Tables.Unfilled

variable {tables : Tables}

theorem nil : Unfilled [] := fun _ _ present => nomatch present

theorem created (unfilled : tables.Unfilled) (table : String) :
    (tables.create table).rows? table = some [] := by
  rw [rows?_create, if_pos rfl]
  cases present : tables.rows? table with
  | none => rfl
  | some rows => rw [unfilled table rows present, Option.getD_some]

theorem create (unfilled : tables.Unfilled) (table : String) :
    (tables.create table).Unfilled := by
  intro other rows present
  by_cases same : table = other
  · rw [← same, unfilled.created table] at present
    exact (Option.some.inj present).symm
  · rw [rows?_create, if_neg same] at present
    exact unfilled other rows present

theorem kept (unfilled : tables.Unfilled) {other : String}
    (there : tables.rows? other = some []) (table : String) :
    (tables.create table).rows? other = some [] := by
  by_cases same : table = other
  · rw [← same]
    exact unfilled.created table
  · rw [rows?_create, if_neg same]
    exact there

end Tables.Unfilled

namespace Store

theorem access_eq_ok {store : Store} {tables : Tables} :
    store.access = .ok tables ↔ store.broken = false ∧ store.tables = tables := by
  unfold access
  cases store.broken <;> simp

theorem rowsOfItems_eq_ok {table : String} {items : List Value} {rows : List Row} :
    rowsOfItems table items = .ok rows ↔ items = rows.map Value.object := by
  induction items generalizing rows with
  | nil => simp [rowsOfItems, eq_comm]
  | cons item rest ih =>
      cases item with
      | object fields =>
          rw [rowsOfItems, bind_eq_ok]
          constructor
          · rintro ⟨others, later, ok⟩
            cases ok
            rw [ih.mp later, List.map_cons]
          · intro same
            cases rows with
            | nil => cases same
            | cons row others =>
                cases same
                exact ⟨others, ih.mpr rfl, rfl⟩
      | null | bool b | int i | float x | string s | array inner =>
          cases rows <;> simp [rowsOfItems]

theorem load_ok {store store' : Store} {table : String} {data : Value} {count : Nat}
    (loaded : store.load table data = .ok (count, store')) :
    ∃ rows, data = .array (rows.map Value.object) ∧ count = rows.length ∧
      store' = { store with tables := store.tables.append table rows } := by
  cases data with
  | array items =>
      unfold load at loaded
      obtain ⟨rows, objects, loaded⟩ := bind_eq_ok.mp loaded
      obtain ⟨tables, access, loaded⟩ := bind_eq_ok.mp loaded
      cases loaded
      refine ⟨rows, ?_, rfl, ?_⟩
      · rw [rowsOfItems_eq_ok.mp objects]
      · rw [(access_eq_ok.mp access).2]
  | null | bool b | int i | float x | string s | object fields => cases loaded

/-- A file that is loaded holds the text of the data that is loaded. -/
theorem loadFile_ok {store store' : Store} {table : String} {contents : Option ByteArray}
    {count : Nat} (loaded : store.loadFile table contents = .ok (count, store')) :
    ∃ bytes text data, contents = some bytes ∧ String.fromUTF8? bytes = some text ∧
      Json.read text = .ok data ∧ store.load table data = .ok (count, store') := by
  unfold loadFile at loaded
  split at loaded
  · cases loaded
  · next bytes =>
    split at loaded
    · cases loaded
    · next text readable =>
      split at loaded
      · cases loaded
      · next data parsed => exact ⟨bytes, text, data, rfl, readable, parsed, loaded⟩

end Store

end EntityQuery
