import EntityQuery.Proofs.Compilation.Acceptance
import EntityQuery.Proofs.Conversion.Builtin
import EntityQuery.Proofs.Engine.Identity
import EntityQuery.Proofs.Engine.RoundTrip
import EntityQuery.Proofs.Meaning.Filters

/-! # Finding a persisted value by its id

As long as its row is not deleted, a persisted value is the only result of the query for its id.
Such a query compiles, since every converter it needs was there when the value was stored; its
literal is stored like the id, so that the row is found; and ids are apart, so that no other row is.
-/

namespace EntityQuery

/-- The query for what has an id. -/
def Entity.byId (e : Entity) (name aliasName : String) (l : Literal) : Query where
  root := ⟨name, aliasName⟩
  restriction := some (.compare (.ref ⟨aliasName, [e.idAttribute]⟩) .eq (.literal l))

/-- The id of the entity is the first of its leaves, of a kind of single values, and stored as it is
    or by one of the converters at hand. -/
structure Entity.Identified (e : Entity) (registry : ConverterRegistry) (a : BasicAttribute) :
    Prop where
  mapped : e.idMapping? = some a
  first : e.leaves.head? = some ([e.idAttribute], .basic a)
  single : a.kind = .bool ∨ a.kind = .int ∨ a.kind = .float ∨ a.kind = .string
  builtin : ∀ c, registry.inEffect? a = some c → c.Builtin

variable {e : Entity} {a : BasicAttribute} {registry : ConverterRegistry} {name aliasName : String}
  {id v : Value} {l : Literal}

section Ids

theorem Entity.columnAt?_id (mapped : e.idMapping? = some a) (aliasName : String) :
    e.columnAt? ⟨aliasName, [e.idAttribute]⟩ = some a := by
  unfold idMapping? at mapped
  split at mapped
  · next declared =>
    cases mapped
    simp [columnAt?, Path.isEntity, at?, Attributes.at?, declared, AttributeMapping.at?]
  · cases mapped

/-- A stored id, the literal for the id, and the form in which the literal is compared with stored
    ids. -/
structure Comparable (registry : ConverterRegistry) (a : BasicAttribute) (stored : Value)
    (l : Literal) (form : Value) : Prop where
  converted : (registry.inEffect? a = none ∧ form = l.toValue) ∨
    ∃ c, registry.inEffect? a = some c ∧ c.toDatabase l.toValue = .ok form ∧
      (Literal.ofValue? form).isSome
  equal : Value.compareTruth stored .eq form = .holds

theorem Comparable.form {stored form : Value} (comparable : Comparable registry a stored l form) :
    registry.form? a l = some form := by
  unfold ConverterRegistry.form?
  rcases comparable.converted with ⟨none, rfl⟩ | ⟨c, some, converted, -⟩
  · rw [none]
  · rw [some]
    exact toOption_eq_some.mpr converted

/-- An id that was stored has a literal, and the literal is compared like the stored id. -/
theorem Entity.Identified.comparable (identified : e.Identified registry a) {stored : Value}
    (not_null : id.isNull = false)
    (ok : Engine.storedValue registry e.name [e.idAttribute] a id = .ok stored) :
    ∃ l form, Literal.ofValue? id = some l ∧ Comparable registry a stored l form := by
  obtain ⟨fits, converter, effective, how⟩ := Engine.storedValue_ok ok
  have inEffect : registry.inEffect? a = converter := by
    rw [ConverterRegistry.inEffect?, effective]
  have kinds : id.kind ≠ .array ∧ id.kind ≠ .object := by
    rcases identified.single with kind | kind | kind | kind <;>
      constructor <;> intro isKind <;> simp [kind, isKind, Kind.accepts] at fits
  have literal := Literal.ofValue?_isSome kinds.1 kinds.2
  obtain ⟨l, isLiteral⟩ := Option.isSome_iff_exists.mp literal
  rcases how with ⟨rfl, rfl⟩ | ⟨c, rfl, converted⟩
  · -- The literal may be the float next to the id, and comparisons see the two alike.
    refine ⟨l, l.toValue, isLiteral, .inl ⟨inEffect, rfl⟩, ?_⟩
    rw [(Literal.ofValue?_interchangeable isLiteral .eq stored).2]
    exact Value.eq_self_holds literal not_null
  · have builtin := identified.builtin c inEffect
    obtain ⟨single, present⟩ := builtin.stored_single converted not_null
    have same := builtin.toDatabase_literal isLiteral converted
    exact ⟨l, stored, isLiteral, .inr ⟨c, inEffect, same, single⟩,
      Value.eq_self_holds single present⟩

end Ids

section Compiling

variable {d : Domain} {stored form : Value}

/-- The converter that a stored value needed was known. -/
theorem storedValue_knows {entity : String} {path : AttributePath}
    (ok : Engine.storedValue registry entity path a v = .ok stored) : registry.Knows a := by
  obtain ⟨-, converter, effective, -⟩ := Engine.storedValue_ok ok
  exact ConverterRegistry.succeeds_converterFor.mp ⟨converter, effective⟩

theorem Comparable.storable (comparable : Comparable registry a stored l form) :
    Operand.Storable (registry.inEffect? a) (.literal l) := by
  rintro l' c isLiteral inEffect
  cases isLiteral
  rcases comparable.converted with ⟨none, -⟩ | ⟨c', some, converted, single⟩
  · rw [inEffect] at none
    cases none
  · rw [inEffect] at some
    cases some
    exact ⟨form, converted, single⟩

/-- The query for an id compiles if the id comes first and all converters are known. -/
theorem Entity.Identified.byId_compiles (identified : e.Identified d.registry a)
    (aliasName : String) (known : d.model.entity? name = some e)
    (knows : ∀ a, .basic a ∈ e.leaves.map (·.2) → d.registry.Knows a)
    (storable : Operand.Storable (d.registry.inEffect? a) (.literal l)) :
    Succeeds ((e.byId name aliasName l).compile d) := by
  have column : Visible.column? [(aliasName, e)] ⟨aliasName, [e.idAttribute]⟩ = some a := by
    simp [Visible.column?, Keyed.get?, Entity.columnAt?_id identified.mapped]
  have leaves : Visible.leaves? [(aliasName, e)] ⟨aliasName, []⟩ = some (e.leaves.map (·.2)) := by
    simp [Visible.leaves?, Keyed.get?, Path.isEntity]
  have idKnown : d.registry.Knows a :=
    knows a (List.mem_map.mpr ⟨_, Entity.id_leaf identified.mapped, rfl⟩)
  rw [Query.compile_succeeds, byId, wellFormedQuery]
  refine ⟨Nat.zero_le _, e, known, ⟨?_, ?_⟩, ?_, by simp⟩
  · intro selection member
    cases List.mem_singleton.mp member
    exact ⟨_, leaves, knows⟩
  · simp [wantedSelections, defaultSelection, Visible.columns, leaves, identified.first,
      Leaf.isStored]
  · rw [wellFormedOptional, Restriction.WellFormed]
    refine ⟨?_, ?_, ?_, ?_⟩
    · simpa [Visible.Admits, Term.refs] using ⟨a, column, idKnown⟩
    · simp [Visible.Admits, Term.refs]
    · simp [Operand.Storable]
    · simpa [Visible.converter?, column] using storable

end Compiling

section Listing

variable {d : Domain} {tables : Tables} {form : Value}

/-- Where no two rows are alike, the only one to pass a test that no two rows pass is what is left
    of the rows. -/
theorem filter_eq_singleton {α : Type} {R : α → α → Prop} {test : α → Bool} {rows : List α} {x : α}
    (apart : rows.Pairwise R) (inside : x ∈ rows) (passed : test x = true)
    (clash : ∀ y z, test y = true → test z = true → ¬ R y z) : rows.filter test = [x] := by
  have kept : x ∈ rows.filter test := List.mem_filter.mpr ⟨inside, passed⟩
  have all : ∀ y ∈ rows.filter test, test y = true := fun y member => (List.mem_filter.mp member).2
  have pairs := apart.filter test
  cases left : rows.filter test with
  | nil =>
      rw [left] at kept
      cases kept
  | cons first rest =>
      rw [left] at kept all pairs
      cases rest with
      | nil => rw [List.mem_singleton.mp kept]
      | cons second others =>
          have alike := (List.pairwise_cons.mp pairs).1 second List.mem_cons_self
          exact absurd alike (clash _ _ (all _ List.mem_cons_self)
            (all _ (List.mem_cons_of_mem _ List.mem_cons_self)))

/-- Among rows with ids of their own the query for a stored id is about the one row that has it. -/
theorem solutions_byId (mapped : e.idMapping? = some a) (known : d.model.entity? name = some e)
    {rows : List Row} {row : Row} (stored : tables.rows? e.table = some rows)
    (keyed : KeyedBy e.idColumn rows) (inside : row ∈ rows)
    (comparable : Comparable d.registry a (row.stored a.column) l form) :
    solutions d tables [] (e.byId name aliasName l) = .ok (e, [row]) := by
  have about : solutions d tables [] (e.byId name aliasName l) = .ok (e, rows.filter _) :=
    solutions_having known (Entity.columnAt?_id mapped aliasName) comparable.form stored
  rw [about, filter_eq_singleton keyed.apart inside]
  · exact decide_eq_true comparable.equal
  · intro y z left right apart
    rw [Entity.idColumn_eq mapped,
      Value.same_of_eq_holds (of_decide_eq_true left) (of_decide_eq_true right)] at apart
    cases apart

/-- The value with a stored id is the only result of the query for the id. -/
theorem Engine.uniqueResult_byId {engine : Engine} {rows : List Row} {row : Row}
    (compiles : Succeeds ((e.byId name aliasName l).compile engine.domain))
    (unbroken : engine.store.broken = false) (mapped : e.idMapping? = some a)
    (known : engine.domain.model.entity? name = some e)
    (stored : engine.store.tables.rows? e.table = some rows) (keyed : KeyedBy e.idColumn rows)
    (inside : row ∈ rows)
    (comparable : Comparable engine.domain.registry a (row.stored a.column) l form) :
    engine.uniqueResult (e.byId name aliasName l) =
      (converting ((row.objectResult engine.domain.registry e.leaves []).map Value.object)).map
        some := by
  obtain ⟨compiled, accepted⟩ := compiles
  have plain : ∀ selection ∈ (e.byId name aliasName l).selections,
      selection.operand.identity = selection.operand := by simp [Entity.byId]
  have listed : engine.list (e.byId name aliasName l) =
      (converting ((row.objectResult engine.domain.registry e.leaves []).map Value.object)).map
        fun w => [w] := by
    rw [list_evaluate_plain accepted plain, evaluate, Store.access_eq_ok.mpr ⟨unbroken, rfl⟩,
      ok_bind, Query.evaluate, solutions_byId mapped known stored keyed inside comparable, ok_bind]
    show converting (do
      let v ← Environment.assembled [⟨aliasName, e, row⟩] engine.domain.registry
        (Query.everything name aliasName).selected
      let vs ← resultsFor _ _ []
      .ok (v :: vs)) = _
    rw [assembled_everything]
    cases row.objectResult engine.domain.registry e.leaves [] <;> rfl
  rw [uniqueResult, listed]
  cases row.objectResult engine.domain.registry e.leaves [] <;> rfl

end Listing

namespace Engine

variable {engine engine' : Engine} {table : String} {row : Row} {call : Call}

/-- The call is a delete statement that takes the row out of the table. -/
structure Removes (engine : Engine) (call : Call) (table : String) (row : Row) : Prop where
  deletes : ∃ q, call.request = .delete q
  before : row ∈ (engine.store.tables.rows? table).getD []
  after : row ∉ ((engine.serve call).2.store.tables.rows? table).getD []

/-- None of the calls, made one after the other, removes the row. -/
def Spares (table : String) (row : Row) : Engine → List Call → Prop
  | _, [] => True
  | engine, call :: rest =>
      ¬ engine.Removes call table row ∧ Spares table row (engine.serve call).2 rest

/-- Rows only go by being deleted. -/
theorem serve_keeps (unloaded : call.request.loads = false)
    (spared : ¬ engine.Removes call table row)
    (inside : row ∈ (engine.store.tables.rows? table).getD []) :
    row ∈ ((engine.serve call).2.store.tables.rows? table).getD [] := by
  rcases engine.serve_cases unloaded with unchanged | ⟨name, v, f, id, new, -, -, stores⟩ |
    ⟨q, f, rows, count, isDelete, -, -⟩
  · rwa [unchanged]
  · by_cases own : table = f.table
    · subst own
      rw [stores.appended.own]
      exact List.mem_append_left _ inside
    · rwa [stores.appended.others table own]
  · -- A delete statement that took the row out would have removed it.
    apply Decidable.byContradiction
    intro gone
    exact spared ⟨⟨q, isDelete⟩, inside, gone⟩

theorem run_keeps {calls : List Call} (unloaded : ∀ call ∈ calls, call.request.loads = false)
    (spared : engine.Spares table row calls)
    (inside : row ∈ (engine.store.tables.rows? table).getD []) :
    row ∈ ((engine.run calls).store.tables.rows? table).getD [] := by
  induction calls generalizing engine with
  | nil => rwa [run_nil]
  | cons call rest ih =>
      rw [run_cons]
      exact ih (fun later member => unloaded later (List.mem_cons_of_mem _ member)) spared.2
        (serve_keeps (unloaded call List.mem_cons_self) spared.1 inside)

/-- A call that persists a value stores a row for it. -/
theorem serve_persist_stores {uuid : String} {stored : Engine}
    (known : engine.domain.model.entity? name = some e)
    (persisted : engine.serve ⟨.persist name v, uuid⟩ = (.ok (.id id), stored)) :
    ∃ row, engine.Stores e v id row stored := by
  unfold serve perform at persisted
  cases done : engine.persist name v uuid with
  | mk answer after =>
      simp only [done] at persisted
      cases answer with
      | error failure => cases persisted
      | ok given =>
          cases persisted
          exact persist_stores known done

/-- Where the row of a value is still in its table, the query for the id finds what the value reads
    as. -/
theorem Sound.finds {d : Domain} (sound : engine.Sound d e)
    (known : d.model.entity? name = some e) (columns : (leafColumns e.leaves).Nodup)
    (identified : e.Identified d.registry a) (not_null : id.isNull = false)
    (made : storedRow d.registry e id v e.leaves [] = .ok row)
    (inside : row ∈ (engine.store.tables.rows? e.table).getD []) (aliasName : String) :
    ∃ l, Literal.ofValue? id = some l ∧
      engine.uniqueResult (e.byId name aliasName l) =
        (converting (e.readBack d.registry id v)).map some := by
  obtain ⟨rfl, unbroken, rows, present, keyed⟩ := sound
  rw [present, Option.getD_some] at inside
  have held := (storedRow_stored columns made).2
  have heldId := held _ a (Entity.id_leaf identified.mapped)
  rw [Entity.domainValue, if_pos rfl] at heldId
  obtain ⟨l, form, literal, comparable⟩ := identified.comparable not_null heldId
  have knows : ∀ b, .basic b ∈ e.leaves.map (·.2) → engine.domain.registry.Knows b := by
    intro b member
    obtain ⟨⟨path, leaf⟩, declared, same⟩ := List.mem_map.mp member
    cases same
    exact storedValue_knows (held path b declared)
  have compiles := identified.byId_compiles aliasName known knows comparable.storable
  refine ⟨l, literal, ?_⟩
  rw [uniqueResult_byId compiles unbroken identified.mapped known present keyed inside comparable,
    objectResult_readBack held]
  rfl

/-- A value that was persisted at some time, and whose row was not deleted since, is what the query
    for its id finds, as it reads after the conversions there and back. -/
theorem uniqueResult_persisted {d : Domain} {fresh stored : Engine} {earlier later : List Call}
    {uuid : String} {rows : List Row} (own : d.model.OwnTables)
    (known : d.model.entity? name = some e) (named : NamedApart e.attributes)
    (columns : (leafColumns e.leaves).Nodup) (identified : e.Identified d.registry a)
    (started : Engine.start {} d = .ok fresh)
    (unloaded : ∀ call ∈ earlier ++ later, call.request.loads = false)
    (persisted : (fresh.run earlier).serve ⟨.persist name v, uuid⟩ = (.ok (.id id), stored))
    (added : stored.store.tables.rows? e.table = some (rows ++ [row]))
    (spared : stored.Spares e.table row later) :
    ∃ l, Literal.ofValue? id = some l ∧
      (stored.run later).uniqueResult (e.byId name aliasName l) =
        (converting (e.readBack d.registry id v)).map some ∧
      ∀ w, e.readBack d.registry id v = .ok w → e.ReadsBack d.registry id v w := by
  have mapped : e.idMapping?.isSome := by
    rw [identified.mapped]
    rfl
  have unloadedLater : ∀ call ∈ later, call.request.loads = false :=
    fun call member => unloaded call (List.mem_append_right _ member)
  have before : (fresh.run earlier).Sound d e :=
    (start_sound started known).run (own.only known) mapped
      fun call member => unloaded call (List.mem_append_left _ member)
  have between : stored.Sound d e := by
    have served := @Sound.serve _ _ _ ⟨.persist name v, uuid⟩ (own.only known) mapped rfl before
    rwa [persisted] at served
  have after : (stored.run later).Sound d e := between.run (own.only known) mapped unloadedLater
  obtain ⟨row', stores⟩ := serve_persist_stores (before.domain ▸ known) persisted
  -- The row that was added is the last of its table, and so is the one that was stored.
  have same : row' = row := by
    have appended := Option.some.inj (stores.appended.own.symm.trans added)
    simpa using List.append_inj_right' appended rfl
  subst same
  have inside : row' ∈ ((stored.run later).store.tables.rows? e.table).getD [] := by
    apply run_keeps unloadedLater spared
    rw [added]
    exact List.mem_append_right _ List.mem_cons_self
  have made := stores.stored
  rw [before.domain] at made
  obtain ⟨l, literal, found⟩ :=
    after.finds known columns identified stores.not_null made inside aliasName
  exact ⟨l, literal, found, fun w read => Entity.readBack_readsBack named read⟩

end Engine

namespace Sample

theorem person_identified :
    person.Identified people.domain.registry { column := "id", kind := .int } where
  mapped := rfl
  first := rfl
  single := .inr (.inl rfl)
  builtin := nofun

/-- The row of an inhabitant. -/
def entry (id : Int) (city : String) : Row :=
  [("active", .int 1), ("city", .string city), ("id", .int id)]

/-- An engine with two people, the second of whom has an id beyond the integer literals. -/
def settled : Engine := ((deserted.run [arrival 4 "Bari"]).serve (arrival beyond "Turin")).2

/-- What happens then: an arrival that is refused, a departure of others, and another arrival. -/
def aftermath : List Call := [arrival (beyond - 1) "Bari", departure "Bari", arrival 6 "Bari"]

end Sample

theorem Engine.uniqueResult_persisted_settled :
    Sample.settled.store.tables.rows? Sample.person.table =
        some ([Sample.entry 4 "Bari"] ++ [Sample.entry Sample.beyond "Turin"]) ∧
      Sample.settled.Spares Sample.person.table (Sample.entry Sample.beyond "Turin")
        Sample.aftermath ∧
      ∃ l, Literal.ofValue? (.int Sample.beyond) = some l ∧
        (Sample.settled.run Sample.aftermath).uniqueResult (Sample.person.byId "Person" "p" l) =
          (Engine.converting (Sample.person.readBack Sample.people.domain.registry
            (.int Sample.beyond) (Sample.inhabitant Sample.beyond "Turin"))).map some ∧
        ∀ w, Sample.person.readBack Sample.people.domain.registry (.int Sample.beyond)
            (Sample.inhabitant Sample.beyond "Turin") = .ok w →
          Sample.person.ReadsBack Sample.people.domain.registry (.int Sample.beyond)
            (Sample.inhabitant Sample.beyond "Turin") w := by
  have known : Sample.people.domain.model.entity? "Person" = some Sample.person := rfl
  have named : NamedApart Sample.person.attributes := by
    simp [Sample.person, NamedApart, AttributeMapping.Named]
  have columns : (leafColumns Sample.person.leaves).Nodup := by decide
  have started : Engine.start {} Sample.people.domain = .ok Sample.deserted := rfl
  have unloaded : ∀ call ∈ [Sample.arrival 4 "Bari"] ++ Sample.aftermath,
      call.request.loads = false := by
    simp [Sample.aftermath, Sample.arrival, Sample.departure, Request.loads]
  have answered : ((Sample.deserted.run [Sample.arrival 4 "Bari"]).serve
      (Sample.arrival Sample.beyond "Turin")).1 = .ok (.id (.int Sample.beyond)) :=
    toOption_eq_some.mp (by decide +kernel)
  have persisted : (Sample.deserted.run [Sample.arrival 4 "Bari"]).serve
      (Sample.arrival Sample.beyond "Turin") =
        (.ok (.id (.int Sample.beyond)), Sample.settled) :=
    Prod.ext answered (by rw [Sample.settled])
  have added : Sample.settled.store.tables.rows? Sample.person.table =
      some ([Sample.entry 4 "Bari"] ++ [Sample.entry Sample.beyond "Turin"]) := by
    decide +kernel
  have spared : Sample.settled.Spares Sample.person.table (Sample.entry Sample.beyond "Turin")
      Sample.aftermath := by
    refine ⟨?_, ?_, ?_, trivial⟩
    · rintro ⟨⟨q, isDelete⟩, -, -⟩
      cases isDelete
    · rintro ⟨-, -, gone⟩
      exact gone (by decide +kernel)
    · rintro ⟨⟨q, isDelete⟩, -, -⟩
      cases isDelete
  exact ⟨added, spared, Engine.uniqueResult_persisted Sample.people_ownTables known named columns
    Sample.person_identified started unloaded persisted added spared⟩

end EntityQuery
