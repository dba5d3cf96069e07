import EntityQuery.Proofs.Engine.Steps

/-! # Requests to an engine

The operations of an engine and of its store as one function, and what each of them does to the
tables: a request that fails does nothing, and one that succeeds changes one table at most, in the
way of its kind.
-/

namespace EntityQuery

/-- A call of one of the operations. -/
inductive Request where
  | persist (entity : String) (v : Value)
  | delete (q : DeleteQuery)
  | list (q : Query)
  | uniqueResult (q : Query)
  | load (table : String) (data : Value)
  /-- The contents are missing if there is no such file. -/
  | loadFile (table : String) (contents : Option ByteArray)

/-- Whether rows are written to the store as they are given. -/
def Request.loads : Request → Bool
  | .load .. | .loadFile .. => true
  | .persist .. | .delete _ | .list _ | .uniqueResult _ => false

inductive Answer where
  | id (v : Value)
  | count (n : Nat)
  | values (vs : List Value)
  | value (v : Option Value)
  deriving DecidableEq

namespace Engine

/-- The engine after rows were loaded into its store. -/
def loaded (engine : Engine) :
    Except ExecutionError (Nat × Store) → Except ExecutionError Answer × Engine
  | .error failure => (.error failure, engine)
  | .ok (count, store) => (.ok (.count count), { engine with store := store })

def perform (engine : Engine) (request : Request) (uuid : String) :
    Except ExecutionError Answer × Engine :=
  match request with
  | .persist name v =>
      let (id, engine) := engine.persist name v uuid
      (id.map .id, engine)
  | .delete q =>
      let (count, engine) := engine.delete q
      (count.map .count, engine)
  | .list q => ((engine.list q).map .values, engine)
  | .uniqueResult q => ((engine.uniqueResult q).map .value, engine)
  | .load table data => engine.loaded (engine.store.load table data)
  | .loadFile table contents => engine.loaded (engine.store.loadFile table contents)

end Engine

/-- What an answered request has made of the tables. -/
inductive Request.Effect (d : Domain) (before after : Tables) : Request → Answer → Prop where
  | persist {name : String} {v id : Value} {e : Entity} {row : Row}
      (known : d.model.entity? name = some e)
      (appended : before.Replaces e.table ((before.rows? e.table).getD [] ++ [row]) after) :
      Effect d before after (.persist name v) (.id id)
  | delete {q : DeleteQuery} {e : Entity} {rows kept : List Row} {count : Nat}
      (known : d.model.entity? q.target.entity = some e)
      (stored : before.rows? e.table = some rows) (sublist : kept.Sublist rows)
      (removed : kept.length + count = rows.length)
      (replaced : before.Replaces e.table kept after) :
      Effect d before after (.delete q) (.count count)
  | list {q : Query} {vs : List Value} (unchanged : after = before) :
      Effect d before after (.list q) (.values vs)
  | uniqueResult {q : Query} {v : Option Value} (unchanged : after = before) :
      Effect d before after (.uniqueResult q) (.value v)
  | load {table : String} {rows : List Row}
      (appended : before.Replaces table ((before.rows? table).getD [] ++ rows) after) :
      Effect d before after (.load table (.array (rows.map Value.object))) (.count rows.length)
  | loadFile {table : String} {bytes : ByteArray} {text : String} {rows : List Row}
      (readable : String.fromUTF8? bytes = some text)
      (parsed : Json.read text = .ok (.array (rows.map Value.object)))
      (appended : before.Replaces table ((before.rows? table).getD [] ++ rows) after) :
      Effect d before after (.loadFile table (some bytes)) (.count rows.length)

namespace Engine

/-- A request that fails leaves the store as it is, and one that succeeds has the effect of its kind
    on its own table and no effect on any other. -/
theorem perform_atomic (engine : Engine) (request : Request) (uuid : String) :
    match engine.perform request uuid with
    | (.error _, after) => after.store = engine.store
    | (.ok answer, after) =>
        request.Effect engine.domain engine.store.tables after.store.tables answer := by
  cases request with
  | persist name v =>
      rcases engine.persist_cases name v uuid with ⟨failure, after, refused, -, unchanged⟩ |
        ⟨e, id, row, after, done, known, stores⟩
      · simpa only [perform, refused, Except.map] using unchanged
      · simp only [perform, done, Except.map]
        exact .persist known stores.appended
  | delete q =>
      rcases engine.delete_cases q with ⟨failure, refused⟩ |
        ⟨e, rows, count, after, done, known, deletes⟩
      · simp only [perform, refused, Except.map]
      · simp only [perform, done, Except.map]
        exact .delete known deletes.stored List.filter_sublist deletes.removed deletes.replaced
  | list q =>
      cases listed : engine.list q with
      | error failure => simp only [perform, listed, Except.map]
      | ok vs =>
          simp only [perform, listed, Except.map]
          exact .list rfl
  | uniqueResult q =>
      cases found : engine.uniqueResult q with
      | error failure => simp only [perform, found, Except.map]
      | ok v =>
          simp only [perform, found, Except.map]
          exact .uniqueResult rfl
  | load table data =>
      cases done : engine.store.load table data with
      | error failure => simp only [perform, done, loaded]
      | ok result =>
          obtain ⟨rows, rfl, count, store⟩ := Store.load_ok done
          simp only [perform, done, loaded, count, store]
          exact .load (Tables.replaces_append _ _ _)
  | loadFile table contents =>
      cases done : engine.store.loadFile table contents with
      | error failure => simp only [perform, done, loaded]
      | ok result =>
          obtain ⟨bytes, text, data, rfl, readable, parsed, loading⟩ := Store.loadFile_ok done
          obtain ⟨rows, rfl, count, store⟩ := Store.load_ok loading
          simp only [perform, done, loaded, count, store]
          exact .loadFile readable parsed (Tables.replaces_append _ _ _)

end Engine

/-- A request, with the universally unique identifier at hand for it, whatever that is. -/
structure Call where
  request : Request
  uuid : String

namespace Engine

def serve (engine : Engine) (call : Call) : Except ExecutionError Answer × Engine :=
  engine.perform call.request call.uuid

/-- The engine after several calls, one after the other; the failing ones count as well. -/
def run (engine : Engine) (calls : List Call) : Engine :=
  calls.foldl (fun engine call => (engine.serve call).2) engine

@[simp] theorem run_nil (engine : Engine) : engine.run [] = engine := rfl

@[simp] theorem run_cons (engine : Engine) (call : Call) (rest : List Call) :
    engine.run (call :: rest) = (engine.serve call).2.run rest := rfl

theorem loaded_domain (engine : Engine) (result : Except ExecutionError (Nat × Store)) :
    (engine.loaded result).2.domain = engine.domain := by
  cases result <;> rfl

theorem serve_domain (engine : Engine) (call : Call) :
    (engine.serve call).2.domain = engine.domain := by
  obtain ⟨request, uuid⟩ := call
  cases request with
  | persist name v =>
      rcases engine.persist_cases name v uuid with ⟨failure, after, refused, domain, -⟩ |
        ⟨e, id, row, after, done, -, stores⟩
      · simpa only [serve, perform, refused] using domain
      · simpa only [serve, perform, done] using stores.domain
  | delete q =>
      rcases engine.delete_cases q with ⟨failure, refused⟩ |
        ⟨e, rows, count, after, done, -, deletes⟩
      · simp only [serve, perform, refused]
      · simpa only [serve, perform, done] using deletes.domain
  | list q => rfl
  | uniqueResult q => rfl
  | load table data => exact loaded_domain _ _
  | loadFile table contents => exact loaded_domain _ _

/-- A call that loads nothing leaves the store as it is, adds a row, or removes some. -/
theorem serve_cases (engine : Engine) {call : Call} (unloaded : call.request.loads = false) :
    (engine.serve call).2.store = engine.store ∨
      (∃ name v e id row, call.request = .persist name v ∧
        engine.domain.model.entity? name = some e ∧
        engine.Stores e v id row (engine.serve call).2) ∨
      ∃ q e rows count, call.request = .delete q ∧
        engine.domain.model.entity? q.target.entity = some e ∧
        engine.Deletes q e rows count (engine.serve call).2 := by
  obtain ⟨request, uuid⟩ := call
  cases request with
  | persist name v =>
      rcases engine.persist_cases name v uuid with ⟨failure, after, refused, -, unchanged⟩ |
        ⟨e, id, row, after, done, known, stores⟩
      · simp only [serve, perform, refused]
        exact .inl unchanged
      · simp only [serve, perform, done]
        exact .inr (.inl ⟨name, v, e, id, row, rfl, known, stores⟩)
  | delete q =>
      rcases engine.delete_cases q with ⟨failure, refused⟩ |
        ⟨e, rows, count, after, done, known, deletes⟩
      · left
        simp only [serve, perform, refused]
      · simp only [serve, perform, done]
        exact .inr (.inr ⟨q, e, rows, count, rfl, known, deletes⟩)
  | list q => exact .inl rfl
  | uniqueResult q => exact .inl rfl
  | load table data => cases unloaded
  | loadFile table contents => cases unloaded

theorem loaded_retains (engine : Engine) {result : Except ExecutionError (Nat × Store)}
    (loading : ∀ count store, result = .ok (count, store) →
      ∃ table data, engine.store.load table data = .ok (count, store)) :
    engine.store.Retains (engine.loaded result).2.store := by
  cases result with
  | error failure => exact .of_eq rfl
  | ok result =>
      obtain ⟨table, data, loaded⟩ := loading result.1 result.2 rfl
      obtain ⟨rows, -, -, store⟩ := Store.load_ok loaded
      simp only [Engine.loaded, store]
      exact .of_replaces rfl (Tables.replaces_append _ _ _)

/-- No call takes a table away or breaks off in the middle of a change. -/
theorem serve_retains (engine : Engine) (call : Call) :
    engine.store.Retains (engine.serve call).2.store := by
  cases loads : call.request.loads with
  | false =>
      rcases engine.serve_cases loads with unchanged | ⟨name, v, e, id, row, -, -, stores⟩ |
        ⟨q, e, rows, count, -, -, deletes⟩
      · exact .of_eq unchanged
      · exact .of_replaces (by rw [stores.store]) stores.appended
      · exact .of_replaces (by rw [deletes.store]) deletes.replaced
  | true =>
      obtain ⟨request, uuid⟩ := call
      cases request with
      | persist name v | delete q | list q | uniqueResult q => cases loads
      | load table data => exact engine.loaded_retains fun count store done => ⟨table, data, done⟩
      | loadFile table contents =>
          apply engine.loaded_retains
          intro count store done
          obtain ⟨bytes, text, data, -, -, -, loading⟩ := Store.loadFile_ok done
          exact ⟨table, data, loading⟩

section Tables

variable {d : Domain} {e : Entity} {engine : Engine} {rows : List Row}

/-- The property of the rows of the entity's table holds at the beginning, and goes on to hold when
    rows are removed and when a row of the entity is added. -/
structure Lasting (d : Domain) (e : Entity) (P : List Row → Prop) : Prop where
  empty : P []
  removed : ∀ {rows : List Row} (test : Row → Bool), P rows → P (rows.filter test)
  added : ∀ {rows : List Row} {id v : Value} {row : Row},
    storedRow d.registry e id v e.leaves [] = .ok row →
      isTaken e rows (row.stored e.idColumn) = false → P rows → P (rows ++ [row])

/-- Calls that load nothing keep what lasts in a table that no other entity shares. -/
theorem Lasting.serve {P : List Row → Prop} {call : Call} (lasting : Lasting d e P)
    (own : ∀ name f, d.model.entity? name = some f → f.table = e.table → f = e)
    (unloaded : call.request.loads = false) (domain : engine.domain = d)
    (stored : engine.store.tables.rows? e.table = some rows) (holds : P rows) :
    ∃ rows', (engine.serve call).2.store.tables.rows? e.table = some rows' ∧ P rows' := by
  subst domain
  rcases engine.serve_cases unloaded with unchanged | ⟨name, v, f, id, row, -, known, stores⟩ |
    ⟨q, f, rows', count, -, known, deletes⟩
  · exact ⟨rows, by rwa [unchanged], holds⟩
  · by_cases shared : f.table = e.table
    · -- Only values of the entity itself are stored in its table.
      cases own name f known shared
      have fresh := stores.fresh
      have appended := stores.appended.own
      rw [stored, Option.getD_some] at fresh appended
      exact ⟨_, appended, lasting.added stores.stored fresh holds⟩
    · exact ⟨rows, by rwa [stores.appended.others _ (Ne.symm shared)], holds⟩
  · by_cases shared : f.table = e.table
    · cases own q.target.entity f known shared
      cases stored.symm.trans deletes.stored
      exact ⟨_, deletes.replaced.own, lasting.removed _ holds⟩
    · exact ⟨rows, by rwa [deletes.replaced.others _ (Ne.symm shared)], holds⟩

theorem Lasting.run {P : List Row → Prop} {calls : List Call} (lasting : Lasting d e P)
    (own : ∀ name f, d.model.entity? name = some f → f.table = e.table → f = e)
    (unloaded : ∀ call ∈ calls, call.request.loads = false) (domain : engine.domain = d)
    (stored : engine.store.tables.rows? e.table = some rows) (holds : P rows) :
    ∃ rows', (engine.run calls).store.tables.rows? e.table = some rows' ∧ P rows' := by
  induction calls generalizing engine rows with
  | nil => exact ⟨rows, stored, holds⟩
  | cons call rest ih =>
      obtain ⟨rows', stored', holds'⟩ :=
        lasting.serve own (unloaded call List.mem_cons_self) domain stored holds
      exact ih (fun later inside => unloaded later (List.mem_cons_of_mem _ inside))
        ((serve_domain engine call).trans domain) stored' holds'

end Tables

end Engine

end EntityQuery
