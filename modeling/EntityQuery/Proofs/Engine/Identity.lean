import EntityQuery.Proofs.Engine.Requests
import EntityQuery.Proofs.Mapping.Leaves

/-! # Ids stay apart

No two rows of an entity's table ever have the same id: the check of a new row against the stored
ones keeps this, and removing rows does no harm. `KeyedBy` is the invariant of one table; every call
that loads nothing keeps it for the table of an entity that shares its table with no other.
-/

namespace EntityQuery

/-- Every row has the column, and no two rows hold the same value in it. -/
structure KeyedBy (column : String) (rows : List Row) : Prop where
  present : ∀ row ∈ rows, (Keyed.get? row column).isSome
  apart : rows.Pairwise fun a b => (a.stored column).same (b.stored column) = false

namespace KeyedBy

variable {column : String} {rows : List Row}

theorem nil : KeyedBy column [] := ⟨by simp, .nil⟩

theorem filter (keyed : KeyedBy column rows) (test : Row → Bool) :
    KeyedBy column (rows.filter test) where
  present := fun row inside => keyed.present row (List.mem_filter.mp inside).1
  apart := keyed.apart.filter test

theorem concat (keyed : KeyedBy column rows) {row : Row} (present : (Keyed.get? row column).isSome)
    (fresh : ∀ other ∈ rows, (other.stored column).same (row.stored column) = false) :
    KeyedBy column (rows ++ [row]) where
  present := by
    intro other inside
    rcases List.mem_append.mp inside with old | new
    · exact keyed.present other old
    · exact List.mem_singleton.mp new ▸ present
  apart := by
    refine List.pairwise_append.mpr ⟨keyed.apart, List.pairwise_singleton _ _, ?_⟩
    intro other old new isNew
    exact List.mem_singleton.mp isNew ▸ fresh other old

end KeyedBy

section Rows

variable {e : Entity} {registry : ConverterRegistry} {id v : Value}

/-- A new row has the columns it had and those of the leaves. -/
theorem storedRow_present {leaves : List (AttributePath × Leaf)} {row row' : Row}
    (ok : Engine.storedRow registry e id v leaves row = .ok row') :
    (∀ column, (Keyed.get? row column).isSome → (Keyed.get? row' column).isSome) ∧
      ∀ path a, (path, Leaf.basic a) ∈ leaves → (Keyed.get? row' a.column).isSome := by
  induction leaves generalizing row with
  | nil =>
      cases ok
      simp
  | cons first rest ih =>
      obtain ⟨path, leaf⟩ := first
      cases leaf with
      | transient kind =>
          obtain ⟨kept, later⟩ := ih ok
          refine ⟨kept, ?_⟩
          intro path' a member
          rcases List.mem_cons.mp member with same | inside
          · cases same
          · exact later path' a inside
      | basic a =>
          rw [Engine.storedRow] at ok
          obtain ⟨stored, -, ok⟩ := bind_eq_ok.mp ok
          obtain ⟨kept, later⟩ := ih ok
          constructor
          · intro column present
            apply kept
            rw [Keyed.get?_insert]
            split
            · rfl
            · exact present
          · intro path' a' member
            rcases List.mem_cons.mp member with same | inside
            · cases same
              exact kept a.column (by rw [Keyed.get?_insert, if_pos rfl]; rfl)
            · exact later path' a' inside

theorem isTaken_eq_false {rows : List Row} {storedId : Value}
    (keyed : KeyedBy e.idColumn rows) (free : Engine.isTaken e rows storedId = false) :
    ∀ row ∈ rows, (row.stored e.idColumn).same storedId = false := by
  intro row inside
  obtain ⟨id, present⟩ := Option.isSome_iff_exists.mp (keyed.present row inside)
  have other := List.any_eq_false.mp free row inside
  simpa [Row.stored, present] using other

end Rows

/-- No two entities of the model share a table. -/
def Model.OwnTables (m : Model) : Prop :=
  ∀ name other e f, m.entity? name = some e → m.entity? other = some f → e.table = f.table → e = f

theorem Model.OwnTables.only {m : Model} {name : String} {e : Entity} (own : m.OwnTables)
    (known : m.entity? name = some e) :
    ∀ other f, m.entity? other = some f → f.table = e.table → f = e :=
  fun other f isKnown shared => own other name f e isKnown known shared

namespace Engine

variable {engine engine' : Engine} {d : Domain} {e : Entity}

/-- The table of the entity is there, and its rows are told apart by their ids. -/
def Identifies (engine : Engine) (e : Entity) : Prop :=
  ∃ rows, engine.store.tables.rows? e.table = some rows ∧ KeyedBy e.idColumn rows

/-- Ids stay apart when rows are removed, and when a row is added after the check. -/
theorem keyedBy_lasting (mapped : e.idMapping?.isSome) :
    Lasting d e (KeyedBy e.idColumn) where
  empty := .nil
  removed := fun test keyed => keyed.filter test
  added := by
    intro rows id v row stored fresh keyed
    obtain ⟨a, isId⟩ := Option.isSome_iff_exists.mp mapped
    have present : (Keyed.get? row e.idColumn).isSome := by
      rw [Entity.idColumn_eq isId]
      exact (storedRow_present stored).2 _ a (Entity.id_leaf isId)
    exact keyed.concat present (isTaken_eq_false keyed fresh)

/-- The engine works in the domain on a store in order, and tells the rows of the entity apart. -/
structure Sound (engine : Engine) (d : Domain) (e : Entity) : Prop where
  domain : engine.domain = d
  unbroken : engine.store.broken = false
  identifies : engine.Identifies e

/-- Every call that loads nothing keeps the ids of an entity with a table of its own apart. -/
theorem Sound.serve {call : Call}
    (own : ∀ name f, d.model.entity? name = some f → f.table = e.table → f = e)
    (mapped : e.idMapping?.isSome) (unloaded : call.request.loads = false)
    (before : engine.Sound d e) : (engine.serve call).2.Sound d e := by
  obtain ⟨domain, unbroken, rows, stored, keyed⟩ := before
  exact ⟨(serve_domain engine call).trans domain,
    (engine.serve_retains call).broken.trans unbroken,
    (keyedBy_lasting mapped).serve own unloaded domain stored keyed⟩

theorem Sound.run {calls : List Call}
    (own : ∀ name f, d.model.entity? name = some f → f.table = e.table → f = e)
    (mapped : e.idMapping?.isSome) (unloaded : ∀ call ∈ calls, call.request.loads = false)
    (before : engine.Sound d e) : (engine.run calls).Sound d e := by
  induction calls generalizing engine with
  | nil => rwa [run_nil]
  | cons call rest ih =>
      rw [run_cons]
      exact ih (fun later inside => unloaded later (List.mem_cons_of_mem _ inside))
        (before.serve own mapped (unloaded call List.mem_cons_self))

section Start

theorem foldl_create_empty {entities : Keyed Entity} {tables : Tables}
    (unfilled : tables.Unfilled) {name : String}
    (known : Keyed.get? entities name = some e ∨ tables.rows? e.table = some []) :
    (entities.foldl (fun tables f => tables.create f.2.table) tables).rows? e.table = some [] := by
  induction entities generalizing tables with
  | nil =>
      rcases known with known | there
      · cases known
      · exact there
  | cons entry rest ih =>
      rw [List.foldl_cons]
      apply ih (unfilled.create _)
      rcases known with known | there
      · rw [Keyed.get?] at known
        split at known
        · cases known
          exact .inr (unfilled.created _)
        · exact .inl known
      · exact .inr (unfilled.kept there _)

theorem foldlM_createTable (entities : Keyed Entity) {store : Store}
    (unbroken : store.broken = false) :
    entities.foldlM (fun store e => store.createTable e.2.table) store =
      (.ok { store with
        tables := entities.foldl (fun tables e => tables.create e.2.table) store.tables } :
        Except ExecutionError Store) := by
  induction entities generalizing store with
  | nil => rfl
  | cons entry rest ih =>
      have created : store.createTable entry.2.table =
          .ok { store with tables := store.tables.create entry.2.table } := by
        rw [Store.createTable, Store.access_eq_ok.mpr ⟨unbroken, rfl⟩, ok_bind]
      rw [List.foldlM_cons, created, ok_bind]
      exact ih unbroken

/-- An engine on an empty store has an empty table for every entity. -/
theorem start_empty {fresh : Engine} {name : String} (started : Engine.start {} d = .ok fresh)
    (known : d.model.entity? name = some e) :
    fresh.domain = d ∧ fresh.store.broken = false ∧
      fresh.store.tables.rows? e.table = some [] := by
  unfold start at started
  rw [foldlM_createTable _ rfl] at started
  cases started
  exact ⟨rfl, rfl, foldl_create_empty .nil (.inl known)⟩

theorem start_sound {fresh : Engine} {name : String} (started : Engine.start {} d = .ok fresh)
    (known : d.model.entity? name = some e) : fresh.Sound d e := by
  obtain ⟨domain, unbroken, stored⟩ := start_empty started known
  exact ⟨domain, unbroken, [], stored, .nil⟩

end Start

/-- From an empty store on, whatever calls are made except loads, the rows of an entity's table are
    told apart by their ids. -/
theorem run_ids_apart {fresh : Engine} {calls : List Call} {name : String} (own : d.model.OwnTables)
    (mapped : ∀ name e, d.model.entity? name = some e → e.idMapping?.isSome)
    (started : Engine.start {} d = .ok fresh)
    (unloaded : ∀ call ∈ calls, call.request.loads = false)
    (known : d.model.entity? name = some e) :
    ∃ rows, (fresh.run calls).store.tables.rows? e.table = some rows ∧
      (∀ row ∈ rows, (Keyed.get? row e.idColumn).isSome) ∧
      rows.Pairwise fun a b => (a.stored e.idColumn).same (b.stored e.idColumn) = false := by
  have sound : (fresh.run calls).Sound d e :=
    (start_sound started known).run (own.only known) (mapped name e known) unloaded
  obtain ⟨rows, table, keyed⟩ := sound.identifies
  exact ⟨rows, table, keyed.present, keyed.apart⟩

end Engine

namespace Sample

/-- An engine for people, of whom there are none yet. -/
def deserted : Engine := { domain := people.domain, store := { tables := [("people", [])] } }

def inhabitant (id : Int) (city : String) : Value :=
  .object [("active", .bool true), ("address", .object [("city", .string city)]), ("id", .int id)]

def arrival (id : Int) (city : String) : Call := ⟨.persist "Person" (inhabitant id city), uuid⟩

def departure (city : String) : Call where
  request := .delete
    { target := ⟨"Person", "p"⟩
      restriction := some
        (.compare (.ref ⟨"p", ["address", "city"]⟩) .eq (.literal (.string city))) }
  uuid := uuid

/-- A number beyond the integer literals; comparisons do not tell it apart from the one before. -/
def beyond : Int := 0x8000000000000001

/-- The second arrival has an id that is taken, and so has the fourth. -/
def travels : List Call :=
  [arrival 4 "Bari", arrival 4 "Turin", arrival (beyond - 1) "Turin", arrival beyond "Bari",
    arrival 5 "Bari", departure "Turin", arrival beyond "Turin"]

theorem eq_person {name : String} {e : Entity}
    (known : people.domain.model.entity? name = some e) : e = person := by
  simp only [people, Model.entity?, Keyed.get?, Option.ite_none_right_eq_some,
    Option.some.injEq] at known
  exact known.2.symm

theorem people_ownTables : people.domain.model.OwnTables :=
  fun _ _ _ _ known known' _ => (eq_person known).trans (eq_person known').symm

end Sample

theorem Engine.run_ids_apart_travels :
    ((Sample.deserted.run Sample.travels).store.tables.rows? "people").map List.length = some 3 ∧
      ∃ rows,
        (Sample.deserted.run Sample.travels).store.tables.rows? Sample.person.table = some rows ∧
        (∀ row ∈ rows, (Keyed.get? row Sample.person.idColumn).isSome) ∧
        rows.Pairwise fun a b =>
          (a.stored Sample.person.idColumn).same (b.stored Sample.person.idColumn) = false := by
  have known : Sample.people.domain.model.entity? "Person" = some Sample.person := rfl
  have mapped : ∀ name e, Sample.people.domain.model.entity? name = some e →
      e.idMapping?.isSome := by
    intro name e isKnown
    rw [Sample.eq_person isKnown]
    rfl
  have started : Engine.start {} Sample.people.domain = .ok Sample.deserted := rfl
  have unloaded : ∀ call ∈ Sample.travels, call.request.loads = false := by
    simp [Sample.travels, Sample.arrival, Sample.departure, Request.loads]
  exact ⟨by decide +kernel,
    Engine.run_ids_apart Sample.people_ownTables mapped started unloaded known⟩

end EntityQuery
