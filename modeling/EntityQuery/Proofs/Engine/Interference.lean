import EntityQuery.Proofs.Engine.Independence
import EntityQuery.Proofs.Engine.Persisting

/-! # What a request has nothing to do with

A request that neither reads nor changes the table of an entity, nor asks for an id of it, leaves
this table and the generator of the entity as they are, and answers the same whatever they are.
-/

namespace EntityQuery

/-- The request neither reads nor changes the table of the entity, nor asks for an id of it. -/
def Request.avoids (m : Model) (e : Entity) : Request → Prop
  | .persist name _ => ∀ f, m.entity? name = some f → f.name ≠ e.name ∧ f.table ≠ e.table
  | .delete q => e.table ∉ (q.table? m).toList ++ q.reads m
  | .list q | .uniqueResult q => e.table ∉ readsOfQuery m q
  | .load table _ | .loadFile table _ => table ≠ e.table

namespace Engine

/-- Two engines that differ at most in the table of the entity and in its generator. -/
structure Elsewhere (e : Entity) (engine engine' : Engine) : Prop where
  domain : engine'.domain = engine.domain
  broken : engine'.store.broken = engine.store.broken
  tables : ∀ table, table ≠ e.table →
    engine'.store.tables.rows? table = engine.store.tables.rows? table
  generators : ∀ f : Entity, f.name ≠ e.name → engine'.generator f = engine.generator f

variable {engine engine' last after after' : Engine} {e f : Entity} {name : String} {v : Value}
  {fields : Fields} {uuid : String}

namespace Elsewhere

theorem refl (e : Entity) (engine : Engine) : engine.Elsewhere e engine :=
  ⟨rfl, rfl, fun _ _ => rfl, fun _ _ => rfl⟩

theorem symm (elsewhere : engine.Elsewhere e engine') : engine'.Elsewhere e engine :=
  ⟨elsewhere.domain.symm, elsewhere.broken.symm,
    fun table other => (elsewhere.tables table other).symm,
    fun f other => (elsewhere.generators f other).symm⟩

theorem trans (first : engine.Elsewhere e engine') (second : engine'.Elsewhere e last) :
    engine.Elsewhere e last :=
  ⟨second.domain.trans first.domain, second.broken.trans first.broken,
    fun table other => (second.tables table other).trans (first.tables table other),
    fun f other => (second.generators f other).trans (first.generators f other)⟩

/-- Two engines still agree elsewhere when neither has changed there. -/
theorem both (elsewhere : engine.Elsewhere e engine') (first : engine.Elsewhere e after)
    (second : engine'.Elsewhere e after') : after.Elsewhere e after' :=
  first.symm.trans (elsewhere.trans second)

theorem agree (elsewhere : engine.Elsewhere e engine') {names : List String}
    (avoided : e.table ∉ names) :
    Tables.AgreeOn names engine.store.tables engine'.store.tables := by
  intro table inside
  exact (elsewhere.tables table fun same => avoided (same ▸ inside)).symm

end Elsewhere

/-- A settled value is refused, or it is stored behind the others. -/
theorem settle_cases (engine : Engine) (e : Entity) (fields : Fields) (id : Option Value) :
    (∃ failure, engine.settle e fields id = (.error failure, engine.store)) ∨
      ∃ given row, id = some given ∧
        newRow engine.domain.registry e given (.object fields) (engine.rowsBefore e) = .ok row ∧
        engine.settle e fields id =
          (.ok given,
            { engine.store with tables := engine.store.tables.append e.table [row] }) := by
  cases id with
  | none => exact .inl ⟨_, rfl⟩
  | some given =>
      cases created : newRow engine.domain.registry e given (.object fields)
          (engine.rowsBefore e) with
      | error failure => exact .inl ⟨failure, by simp only [settle, created]⟩
      | ok row => exact .inr ⟨given, row, rfl, created, by simp only [settle, created]⟩

/-- Persisting a value changes nothing but the table and the generator of its entity. -/
theorem persist_elsewhere (known : engine.domain.model.entity? name = some e) :
    engine.Elsewhere e (engine.persist name v uuid).2 := by
  cases idle : idle? engine.domain.model engine.store.broken name v with
  | some failure =>
      rw [persist_idle idle]
      exact .refl e engine
  | none =>
      obtain ⟨f, fields, known', rfl, unbroken⟩ := idle?_eq_none idle
      cases known.symm.trans known'
      obtain ⟨-, domain, store, generators⟩ := persist_given known unbroken fields uuid
      refine ⟨domain, ?_, ?_, ?_⟩
      · rw [store]
        rcases engine.settle_cases e fields (engine.given e fields uuid).1 with ⟨failure, settled⟩ |
          ⟨id, row, -, -, settled⟩ <;> rw [settled]
      · intro table other
        rw [store]
        rcases engine.settle_cases e fields (engine.given e fields uuid).1 with ⟨failure, settled⟩ |
          ⟨id, row, -, -, settled⟩
        · rw [settled]
        · rw [settled]
          exact (Tables.replaces_append _ _ _).others table other
      · intro f other
        rw [generator_put generators, if_neg (Ne.symm other)]

/-- What a generator gives is a matter of the generator, the stored rows and what it is handed. -/
theorem given_congr (generator : engine'.generator f = engine.generator f)
    (rows : engine'.rowsBefore f = engine.rowsBefore f) (fields : Fields) (uuid : String) :
    engine'.given f fields uuid = engine.given f fields uuid := by
  unfold given
  rw [generatorFor_eq, generatorFor_eq, generator, rows]

/-- Calls that persist nothing have nothing to do with generators. -/
theorem perform_generators (engine : Engine) {request : Request}
    (other : ∀ name v, request ≠ .persist name v) (uuid : String) :
    (engine.perform request uuid).2.generators = engine.generators := by
  cases request with
  | persist name v => exact absurd rfl (other name v)
  | list q | uniqueResult q => rfl
  | delete q => exact delete_generators engine q
  | load table data =>
      simp only [perform]
      cases engine.store.load table data <;> rfl
  | loadFile table contents =>
      simp only [perform]
      cases engine.store.loadFile table contents <;> rfl

theorem generator_of_eq (generators : engine'.generators = engine.generators) (f : Entity) :
    engine'.generator f = engine.generator f := by
  unfold generator
  rw [generators]

section Avoiding

theorem rows?_append {tables tables' : Tables} {table other : String} (rows : List Row)
    (same : tables'.rows? table = tables.rows? table)
    (alike : tables'.rows? other = tables.rows? other) :
    (tables'.append table rows).rows? other = (tables.append table rows).rows? other := by
  by_cases own : other = table
  · subst own
    rw [(Tables.replaces_append _ _ _).own, (Tables.replaces_append _ _ _).own, same]
  · rw [(Tables.replaces_append _ _ _).others other own,
      (Tables.replaces_append _ _ _).others other own, alike]

theorem rows?_put {tables tables' : Tables} {table other : String} (rows : List Row)
    (alike : tables'.rows? other = tables.rows? other) :
    Tables.rows? (Keyed.put tables' table rows) other =
      Tables.rows? (Keyed.put tables table rows) other := by
  unfold Tables.rows? at alike ⊢
  rw [Keyed.get?_put, Keyed.get?_put, alike]

/-- A request that avoids the table of the entity leaves it and the generator as they are. -/
theorem perform_untouched (engine : Engine) {request : Request}
    (avoids : request.avoids engine.domain.model e) :
    (engine.perform request uuid).2.generator e = engine.generator e ∧
      (engine.perform request uuid).2.store.tables.rows? e.table =
        engine.store.tables.rows? e.table := by
  cases request with
  | list q | uniqueResult q => exact ⟨rfl, rfl⟩
  | persist name v =>
      cases known : engine.domain.model.entity? name with
      | none =>
          have idle : idle? engine.domain.model engine.store.broken name v =
              some (.compile (.unknownEntity name)) := by simp only [idle?, known]
          simp only [perform, persist_idle idle]
          exact ⟨trivial, trivial⟩
      | some f =>
          obtain ⟨name', table⟩ := avoids f known
          have elsewhere : engine.Elsewhere f (engine.persist name v uuid).2 :=
            persist_elsewhere known
          exact ⟨elsewhere.generators e (Ne.symm name'), elsewhere.tables _ (Ne.symm table)⟩
  | delete q =>
      refine ⟨generator_of_eq (delete_generators engine q) e, ?_⟩
      rcases engine.delete_cases q with ⟨failure, refused⟩ |
        ⟨f, rows, count, after, done, known, deletes⟩
      · simp only [perform, refused]
      · simp only [perform, done]
        apply deletes.replaced.others
        rintro same
        apply avoids
        rw [DeleteQuery.table?, known, same]
        exact List.mem_cons_self
  | load table data =>
      refine ⟨generator_of_eq (perform_generators engine (by simp) uuid) e, ?_⟩
      simp only [perform]
      cases loading : engine.store.load table data with
      | error failure => rfl
      | ok result =>
          obtain ⟨rows, -, -, store⟩ := Store.load_ok loading
          simp only [loaded, store]
          exact (Tables.replaces_append _ _ _).others _ (Ne.symm avoids)
  | loadFile table contents =>
      refine ⟨generator_of_eq (perform_generators engine (by simp) uuid) e, ?_⟩
      simp only [perform]
      cases loading : engine.store.loadFile table contents with
      | error failure => rfl
      | ok result =>
          obtain ⟨bytes, text, data, -, -, -, loading⟩ := Store.loadFile_ok loading
          obtain ⟨rows, -, -, store⟩ := Store.load_ok loading
          simp only [loaded, store]
          exact (Tables.replaces_append _ _ _).others _ (Ne.symm avoids)

/-- Two stores of which both or none can be used refuse the same rows and append the same. -/
theorem load_alike {store store' : Store} (broken : store'.broken = store.broken)
    (table : String) (data : Value) :
    (∃ failure, store.load table data = .error failure ∧
        store'.load table data = .error failure) ∨
      ∃ rows : List Row,
        store.load table data =
            .ok (rows.length, { store with tables := store.tables.append table rows }) ∧
          store'.load table data =
            .ok (rows.length, { store' with tables := store'.tables.append table rows }) := by
  cases data with
  | null | bool b | int i | float x | string s | object fields => exact .inl ⟨_, rfl, rfl⟩
  | array items =>
      simp only [Store.load, Store.access, broken]
      cases Store.rowsOfItems table items with
      | error failure => exact .inl ⟨failure, rfl, rfl⟩
      | ok rows =>
          cases store.broken with
          | true => exact .inl ⟨_, rfl, rfl⟩
          | false => exact .inr ⟨rows, rfl, rfl⟩

theorem loadFile_alike {store store' : Store} (broken : store'.broken = store.broken)
    (table : String) (contents : Option ByteArray) :
    (∃ failure, store.loadFile table contents = .error failure ∧
        store'.loadFile table contents = .error failure) ∨
      ∃ rows : List Row,
        store.loadFile table contents =
            .ok (rows.length, { store with tables := store.tables.append table rows }) ∧
          store'.loadFile table contents =
            .ok (rows.length, { store' with tables := store'.tables.append table rows }) := by
  unfold Store.loadFile
  cases contents with
  | none => exact .inl ⟨_, rfl, rfl⟩
  | some bytes =>
      simp only
      cases String.fromUTF8? bytes with
      | none => exact .inl ⟨_, rfl, rfl⟩
      | some text =>
          simp only
          cases Json.read text with
          | error fault => exact .inl ⟨_, rfl, rfl⟩
          | ok data => exact load_alike broken table data

namespace Elsewhere

variable (elsewhere : engine.Elsewhere e engine')
include elsewhere

theorem loaded {result result' : Except ExecutionError (Nat × Store)} {table : String}
    (alike : (∃ failure, result = .error failure ∧ result' = .error failure) ∨
      ∃ rows : List Row,
        result = .ok (rows.length,
          { engine.store with tables := engine.store.tables.append table rows }) ∧
        result' = .ok (rows.length,
          { engine'.store with tables := engine'.store.tables.append table rows }))
    (avoids : table ≠ e.table) :
    (engine'.loaded result').1 = (engine.loaded result).1 ∧
      (engine.loaded result).2.Elsewhere e (engine'.loaded result').2 := by
  rcases alike with ⟨failure, rfl, rfl⟩ | ⟨rows, rfl, rfl⟩
  · exact ⟨rfl, elsewhere⟩
  · refine ⟨rfl, elsewhere.domain, elsewhere.broken, ?_, elsewhere.generators⟩
    exact fun other different =>
      rows?_append rows (elsewhere.tables table avoids) (elsewhere.tables other different)

theorem list {q : Query} (avoids : e.table ∉ readsOfQuery engine.domain.model q) :
    engine'.list q = engine.list q := by
  have store : engine'.store.broken = engine.store.broken := elsewhere.broken
  unfold Engine.list Store.select Engine.pruning Store.access
  rw [elsewhere.domain, store]
  apply bind_congr_ok
  intro compiled accepted
  have accepted : q.compile engine.domain = .ok compiled := by
    cases ok : q.compile engine.domain with
    | error failure =>
        rw [ok] at accepted
        cases accepted
    | ok other =>
        rw [ok] at accepted
        cases accepted
        rfl
  cases engine.store.broken with
  | true => rfl
  | false =>
      simp only [Bool.false_eq_true, if_false, ok_bind]
      have covers := engine.pruning_covers compiled.usage
      unfold Engine.pruning at covers
      rw [Query.runBlock_compiled accepted covers, Query.runBlock_compiled accepted covers,
        solutions_agree [] (elsewhere.agree avoids)]

theorem delete {q : DeleteQuery}
    (avoids : e.table ∉ (q.table? engine.domain.model).toList ++ q.reads engine.domain.model) :
    (engine'.delete q).1 = (engine.delete q).1 ∧
      (engine.delete q).2.Elsewhere e (engine'.delete q).2 := by
  have domain := elsewhere.domain
  have broken := elsewhere.broken
  obtain ⟨table, reads⟩ := not_or.mp (mt List.mem_append.mpr avoids)
  unfold Engine.delete
  rw [domain]
  cases accepted : q.compile engine.domain with
  | error failure => exact ⟨rfl, elsewhere⟩
  | ok compiled =>
      obtain ⟨f, -, -, known, -⟩ := DeleteQuery.compile_ok accepted
      have other : f.table ≠ e.table := by
        rintro same
        simp [DeleteQuery.table?, known, same] at table
      have truth : q.truth engine.domain engine'.store.tables f =
          q.truth engine.domain engine.store.tables f :=
        funext fun row => (truthOfOptional_agree _ (elsewhere.agree reads)).symm
      have rows : engine'.store.tables.rowsOf f = engine.store.tables.rowsOf f := by
        unfold Tables.rowsOf
        rw [elsewhere.tables f.table other]
      have covers := engine.pruning_covers compiled.usage
      have covers' := engine'.pruning_covers compiled.usage
      simp only [compiling,
        DeleteQuery.delete_compiled accepted covers known,
        DeleteQuery.delete_compiled accepted covers' known, Store.access, broken]
      cases engine.store.broken with
      | true => exact ⟨rfl, elsewhere⟩
      | false =>
          simp only [Bool.false_eq_true, if_false, ok_bind, rows, truth]
          cases engine.store.tables.rowsOf f with
          | error failure => exact ⟨rfl, elsewhere⟩
          | ok stored =>
              simp only [ok_bind]
              cases keepRows (q.truth engine.domain engine.store.tables f) stored with
              | error failure => exact ⟨rfl, elsewhere⟩
              | ok found =>
                  refine ⟨rfl, rfl, rfl, ?_, elsewhere.generators⟩
                  exact fun name different => rows?_put _ (elsewhere.tables name different)

theorem settle (rows : engine'.rowsBefore f = engine.rowsBefore f)
    (own : engine'.store.tables.rows? f.table = engine.store.tables.rows? f.table)
    (fields : Fields) (id : Option Value) :
    (engine'.settle f fields id).1 = (engine.settle f fields id).1 ∧
      (engine'.settle f fields id).2.broken = (engine.settle f fields id).2.broken ∧
      ∀ table, table ≠ e.table → (engine'.settle f fields id).2.tables.rows? table =
        (engine.settle f fields id).2.tables.rows? table := by
  unfold Engine.settle
  rw [elsewhere.domain, rows]
  cases id with
  | none => exact ⟨rfl, elsewhere.broken, elsewhere.tables⟩
  | some given =>
      simp only
      cases newRow engine.domain.registry f given (.object fields) (engine.rowsBefore f) with
      | error failure => exact ⟨rfl, elsewhere.broken, elsewhere.tables⟩
      | ok row =>
          exact ⟨rfl, elsewhere.broken,
            fun table other => rows?_append _ own (elsewhere.tables table other)⟩

theorem persist (avoids : ∀ f, engine.domain.model.entity? name = some f →
      f.name ≠ e.name ∧ f.table ≠ e.table) (v : Value) (uuid : String) :
    (engine'.persist name v uuid).1 = (engine.persist name v uuid).1 ∧
      (engine.persist name v uuid).2.Elsewhere e (engine'.persist name v uuid).2 := by
  have domain := elsewhere.domain
  have broken := elsewhere.broken
  cases idle : idle? engine.domain.model engine.store.broken name v with
  | some failure =>
      have idle' : idle? engine'.domain.model engine'.store.broken name v = some failure := by
        rw [domain, broken, idle]
      rw [persist_idle idle, persist_idle idle']
      exact ⟨rfl, elsewhere⟩
  | none =>
      obtain ⟨f, fields, known, rfl, unbroken⟩ := idle?_eq_none idle
      obtain ⟨differs, apart⟩ := avoids f known
      have own := elsewhere.tables f.table apart
      have rows : engine'.rowsBefore f = engine.rowsBefore f := congrArg (·.getD []) own
      obtain ⟨answer, domain₁, store₁, generators⟩ := persist_given known unbroken fields uuid
      obtain ⟨answer', domain₁', store₁', generators'⟩ :=
        persist_given (domain ▸ known) (broken.trans unbroken) fields uuid
      rw [given_congr (elsewhere.generators f differs) rows] at answer' store₁' generators'
      obtain ⟨same, broken', tables⟩ :=
        elsewhere.settle rows own fields (engine.given f fields uuid).1
      refine ⟨by rw [answer, answer', same], ?_, ?_, ?_, ?_⟩
      · rw [domain₁, domain₁', domain]
      · rw [store₁, store₁', broken']
      · rw [store₁, store₁']
        exact tables
      · intro h other
        rw [generator_put generators, generator_put generators', elsewhere.generators h other]

/-- A call that avoids the table has the same answer whatever the table holds and its generator has
    come to, and changes nothing of that. -/
theorem serve {call : Call} (avoids : call.request.avoids engine.domain.model e) :
    (engine'.serve call).1 = (engine.serve call).1 ∧
      (engine.serve call).2.Elsewhere e (engine'.serve call).2 := by
  obtain ⟨request, uuid⟩ := call
  simp only [Engine.serve]
  cases request with
  | persist name v =>
      obtain ⟨answer, after⟩ := elsewhere.persist avoids v uuid
      exact ⟨congrArg (Except.map Answer.id) answer, after⟩
  | delete q =>
      obtain ⟨answer, after⟩ := elsewhere.delete avoids
      exact ⟨congrArg (Except.map Answer.count) answer, after⟩
  | list q => exact ⟨congrArg (Except.map Answer.values) (elsewhere.list avoids), elsewhere⟩
  | uniqueResult q =>
      refine ⟨congrArg (Except.map Answer.value) ?_, elsewhere⟩
      unfold Engine.uniqueResult
      rw [elsewhere.list avoids]
  | load table data => exact elsewhere.loaded (load_alike elsewhere.broken table data) avoids
  | loadFile table contents =>
      exact elsewhere.loaded (loadFile_alike elsewhere.broken table contents) avoids

end Elsewhere

end Avoiding

end Engine

end EntityQuery
