import EntityQuery.Proofs.Engine.Steps
import EntityQuery.Proofs.Mapping.Leaves

/-! # Writing an entity and reading it back

A persisted value is the last one that a listing of its type gives. What it reads as follows from
the value and its id alone: every leaf goes through the two conversions of its attribute.
-/

namespace EntityQuery

def Query.everything (entity aliasName : String) : Query := { root := ⟨entity, aliasName⟩ }

section Everything

variable {d : Domain} {tables : Tables} {name aliasName : String} {e : Entity}

theorem keepRows_all (rows : List Row) : keepRows (fun _ => .ok .holds) rows = .ok rows := by
  induction rows with
  | nil => rfl
  | cons row rest ih =>
      rw [keepRows, ih]
      rfl

theorem solutions_unrestricted (known : d.model.entity? name = some e)
    (selections : List Selection) :
    solutions d tables [] { root := ⟨name, aliasName⟩, selections := selections } =
      (tables.rowsOf e).map fun rows => (e, rows) := by
  rw [solutions_unsorted known]
  simp only [truthOfOptional, keepRows_all, ok_bind]
  cases tables.rowsOf e <;> rfl

theorem assembled_everything (registry : ConverterRegistry) (row : Row) :
    Environment.assembled [⟨aliasName, e, row⟩] registry (Query.everything name aliasName).selected =
      (row.objectResult registry e.leaves []).map Value.object := by
  simp [Query.everything, QueryOf.selected, Environment.assembled, Environment.result,
    Environment.frame?, Frame.result, Path.isEntity]

theorem resultsFor_concat (registry : ConverterRegistry) (selections : List Selection)
    (envs : List Environment) (env : Environment) :
    resultsFor registry selections (envs ++ [env]) = (do
      let vs ← resultsFor registry selections envs
      let v ← env.assembled registry selections
      .ok (vs ++ [v])) := by
  induction envs with
  | nil =>
      simp only [List.nil_append, resultsFor, ok_bind]
  | cons first rest ih =>
      rw [List.cons_append, resultsFor, resultsFor, ih]
      cases first.assembled registry selections with
      | error failure => rfl
      | ok v =>
          simp only [ok_bind]
          cases resultsFor registry selections rest with
          | error failure => rfl
          | ok vs =>
              simp only [ok_bind]
              cases env.assembled registry selections <;> rfl

theorem Tables.rowsOf_append {rows : List Row} {row : Row} (stored : tables.rowsOf e = .ok rows) :
    (tables.append e.table [row]).rowsOf e = .ok (rows ++ [row]) := by
  unfold Tables.rowsOf at stored ⊢
  cases found : tables.rows? e.table with
  | none =>
      rw [found] at stored
      cases stored
  | some old =>
      rw [found] at stored
      cases stored
      simp only [Tables.append, Tables.rows?, Keyed.get?_put, if_true] at found ⊢
      rw [found]
      rfl

end Everything

section ReadBack

/-- The domain value of a new entity at the path of a leaf. -/
def Entity.domainValue (e : Entity) (id v : Value) (path : AttributePath) : Value :=
  if path = [e.idAttribute] then id else v.atPath path

/-- What a leaf of a new entity reads as: null if it is not stored, otherwise what the conversions
    there and back make of its domain value. -/
def Entity.readBackLeaf (e : Entity) (registry : ConverterRegistry) (id v : Value)
    (path : AttributePath) : Leaf → Except ConversionError Value
  | .transient _ => .ok .null
  | .basic a =>
      match registry.inEffect? a with
      | some c => do
          let stored ← c.toDatabase (e.domainValue id v path)
          c.toDomain stored
      | none => .ok (e.domainValue id v path)

/-- The object with what the leaves read as, added to the fields before; the first leaf that cannot
    be read decides the error. -/
def Entity.readBackFields (e : Entity) (registry : ConverterRegistry) (id v : Value) :
    List (AttributePath × Leaf) → Fields → Except ConversionError Fields
  | [], fields => .ok fields
  | (path, leaf) :: rest, fields => do
      let value ← e.readBackLeaf registry id v path leaf
      e.readBackFields registry id v rest (placeAt fields path value)

/-- What a new entity reads as. -/
def Entity.readBack (e : Entity) (registry : ConverterRegistry) (id v : Value) :
    Except ConversionError Value :=
  (e.readBackFields registry id v e.leaves []).map Value.object

/-- The value has exactly the leaves of the entity, each with what it reads as. -/
structure Entity.ReadsBack (e : Entity) (registry : ConverterRegistry) (id v w : Value) :
    Prop where
  isObject : ∃ fields, w = .object fields
  leaf : ∀ leaf ∈ e.leaves, ∃ value,
    e.readBackLeaf registry id v leaf.1 leaf.2 = .ok value ∧ w.at? leaf.1 = some value
  only : ∀ path, path ≠ [] → (w.at? path).isSome →
    ∃ leaf ∈ e.leaves, path <+: leaf.1 ∨ leaf.1 <+: path

variable {registry : ConverterRegistry} {e : Entity} {id v : Value}

theorem Row.objectResult_eq (row : Row) (leaves : List (AttributePath × Leaf)) (fields : Fields) :
    row.objectResult registry leaves fields =
      assembleLeaves (fun leaf => row.leafResult registry leaf.2) leaves fields := by
  induction leaves generalizing fields with
  | nil => rfl
  | cons leaf rest ih =>
      rw [Row.objectResult, assembleLeaves]
      exact bind_congr_ok fun value _ => ih _

theorem Entity.readBackFields_eq (leaves : List (AttributePath × Leaf)) (fields : Fields) :
    e.readBackFields registry id v leaves fields =
      assembleLeaves (fun leaf => e.readBackLeaf registry id v leaf.1 leaf.2) leaves fields := by
  induction leaves generalizing fields with
  | nil => rfl
  | cons leaf rest ih =>
      rw [readBackFields, assembleLeaves]
      exact bind_congr_ok fun value _ => ih _

theorem Entity.readBack_readsBack {w : Value} (named : NamedApart e.attributes)
    (read : e.readBack registry id v = .ok w) : e.ReadsBack registry id v w := by
  unfold readBack at read
  cases fields : e.readBackFields registry id v e.leaves [] with
  | error failure =>
      rw [fields] at read
      cases read
  | ok object =>
      rw [fields] at read
      cases read
      rw [readBackFields_eq] at fields
      obtain ⟨reads, kept⟩ :=
        assembleLeaves_at? (leavesOf_apart named) (fun leaf => leavesOf_proper) fields
      refine ⟨⟨object, rfl⟩, reads, ?_⟩
      intro path ne present
      apply Classical.byContradiction
      intro unrelated
      have away : ∀ leaf ∈ e.leaves, Apart leaf.1 path := fun leaf member =>
        ⟨fun through => unrelated ⟨leaf, member, .inr through⟩,
          fun through => unrelated ⟨leaf, member, .inl through⟩⟩
      rw [kept path away] at present
      cases path with
      | nil => exact ne rfl
      | cons name rest => cases present

end ReadBack

/-- The columns of the leaves that are stored. -/
def leafColumns (leaves : List (AttributePath × Leaf)) : List String :=
  leaves.filterMap fun leaf =>
    match leaf.2 with
    | .basic a => some a.column
    | .transient _ => none

namespace Engine

section Stored

variable {registry : ConverterRegistry} {e : Entity} {id v : Value}
  {leaves before after : List (AttributePath × Leaf)} {row row' : Row}

/-- A value that is stored in the column of an attribute fits its kind and went through its
    converter. -/
theorem storedValue_ok {entity : String} {path : AttributePath} {a : BasicAttribute}
    {domain stored : Value} (ok : storedValue registry entity path a domain = .ok stored) :
    a.kind.accepts domain.kind = true ∧ ∃ converter, registry.converterFor a = .ok converter ∧
      (converter = none ∧ stored = domain ∨
        ∃ c, converter = some c ∧ c.toDatabase domain = .ok stored) := by
  unfold storedValue at ok
  split at ok
  · next fits =>
    refine ⟨fits, ?_⟩
    cases effective : registry.converterFor a with
    | error name =>
        rw [effective] at ok
        cases ok
    | ok converter =>
        simp only [effective] at ok
        cases converter with
        | none =>
            cases ok
            exact ⟨none, rfl, .inl ⟨rfl, rfl⟩⟩
        | some c =>
            cases converted : c.toDatabase domain with
            | error failure =>
                simp only [converted] at ok
                cases ok
            | ok w =>
                simp only [converted] at ok
                cases ok
                exact ⟨some c, rfl, .inr ⟨c, rfl, converted⟩⟩
  · cases ok

/-- What was stored for a leaf reads as the conversions there and back make of it. -/
theorem storedValue_readBy {path : AttributePath} {a : BasicAttribute} {stored : Value}
    (ok : storedValue registry e.name path a (e.domainValue id v path) = .ok stored) :
    stored.readBy (registry.inEffect? a) = e.readBackLeaf registry id v path (.basic a) := by
  obtain ⟨-, converter, effective, ⟨rfl, rfl⟩ | ⟨c, rfl, converted⟩⟩ := storedValue_ok ok
  · simp only [Entity.readBackLeaf, ConverterRegistry.inEffect?, effective]
    rfl
  · simp only [Entity.readBackLeaf, ConverterRegistry.inEffect?, effective, converted]
    rfl

theorem storedRow_append (registry : ConverterRegistry) (e : Entity) (id v : Value)
    (before after : List (AttributePath × Leaf)) (row : Row) :
    storedRow registry e id v (before ++ after) row =
      storedRow registry e id v before row >>= storedRow registry e id v after := by
  induction before generalizing row with
  | nil => rfl
  | cons first before ih =>
      obtain ⟨path, leaf⟩ := first
      cases leaf with
      | transient kind =>
          rw [List.cons_append, storedRow, storedRow]
          exact ih row
      | basic a =>
          rw [List.cons_append, storedRow, storedRow]
          cases storedValue registry e.name path a
              (if path = [e.idAttribute] then id else v.atPath path) with
          | error failure => rfl
          | ok stored => exact ih _

/-- Columns without a leaf stay as they are. -/
theorem storedRow_others {column : String} (absent : column ∉ leafColumns leaves)
    (ok : storedRow registry e id v leaves row = .ok row') :
    Keyed.get? row' column = Keyed.get? row column := by
  induction leaves generalizing row with
  | nil =>
      cases ok
      rfl
  | cons first rest ih =>
      obtain ⟨path, leaf⟩ := first
      cases leaf with
      | transient kind => exact ih absent ok
      | basic a =>
          rw [storedRow] at ok
          obtain ⟨stored, -, ok⟩ := bind_eq_ok.mp ok
          rw [ih (List.not_mem_of_not_mem_cons absent) ok, Keyed.get?_insert,
            if_neg (List.ne_of_not_mem_cons absent).symm]

/-- The last leaf of a column decides what the column holds. -/
theorem storedRow_last {path : AttributePath} {a : BasicAttribute}
    (last : a.column ∉ leafColumns after)
    (ok : storedRow registry e id v (before ++ (path, .basic a) :: after) row = .ok row') :
    storedValue registry e.name path a (e.domainValue id v path) = .ok (row'.stored a.column) := by
  rw [storedRow_append] at ok
  obtain ⟨row₁, -, ok⟩ := bind_eq_ok.mp ok
  rw [storedRow] at ok
  obtain ⟨stored, own, ok⟩ := bind_eq_ok.mp ok
  have kept : row'.stored a.column = stored := by
    rw [Row.stored, storedRow_others last ok, Keyed.get?_insert, if_pos rfl]
    rfl
  rw [kept]
  exact own

/-- A new row holds the stored values of the leaves in their columns and nothing more. -/
theorem storedRow_stored (columns : (leafColumns leaves).Nodup)
    (ok : storedRow registry e id v leaves row = .ok row') :
    (∀ column, column ∉ leafColumns leaves → Keyed.get? row' column = Keyed.get? row column) ∧
      ∀ path a, (path, Leaf.basic a) ∈ leaves →
        storedValue registry e.name path a (e.domainValue id v path) =
          .ok (row'.stored a.column) := by
  refine ⟨fun column absent => storedRow_others absent ok, fun path a inside => ?_⟩
  obtain ⟨before, after, rfl⟩ := List.append_of_mem inside
  rw [leafColumns, List.filterMap_append] at columns
  exact storedRow_last (List.nodup_cons.mp (List.nodup_append.mp columns).2.1).1 ok

theorem objectResult_readBack
    (held : ∀ path a, (path, Leaf.basic a) ∈ leaves →
      storedValue registry e.name path a (e.domainValue id v path) = .ok (row.stored a.column))
    (fields : Fields) :
    row.objectResult registry leaves fields = e.readBackFields registry id v leaves fields := by
  rw [Row.objectResult_eq, Entity.readBackFields_eq]
  refine assembleLeaves_congr ?_ fields
  rintro ⟨path, leaf⟩ inside
  cases leaf with
  | transient kind => rfl
  | basic a => exact storedValue_readBy (held path a inside)

end Stored

variable {engine engine' : Engine} {name aliasName : String} {e : Entity} {id v : Value}
  {uuid : String}

/-- A value that is persisted becomes a row behind those of its table. -/
theorem persist_ok (known : engine.domain.model.entity? name = some e)
    (persisted : engine.persist name v uuid = (.ok id, engine')) :
    ∃ tables row, engine.store.access = .ok tables ∧
      storedRow engine.domain.registry e id v e.leaves [] = .ok row ∧
      engine'.domain = engine.domain ∧
      engine'.store = { engine.store with tables := tables.append e.table [row] } := by
  obtain ⟨row, stores⟩ := persist_stores known persisted
  exact ⟨engine.store.tables, row, Store.access_eq_ok.mpr ⟨stores.unbroken, rfl⟩, stores.stored,
    stores.domain, stores.store⟩

theorem accepted_of_list {q : Query} {xs : List Value} (listed : engine.list q = .ok xs) :
    ∃ compiled, q.compile engine.domain = .ok compiled := by
  unfold list at listed
  obtain ⟨compiled, accepted, -⟩ := bind_eq_ok.mp listed
  cases ok : q.compile engine.domain with
  | error failure =>
      rw [ok] at accepted
      cases accepted
  | ok compiled => exact ⟨compiled, rfl⟩

/-- What is listed for a query without restriction is made of all rows of its entity. -/
theorem list_unrestricted {selections : List Selection}
    (known : engine.domain.model.entity? name = some e)
    (accepted : Succeeds (Query.compile engine.domain
      { root := ⟨name, aliasName⟩, selections := selections }))
    (plain : ∀ selection ∈ selections, selection.operand.identity = selection.operand) :
    engine.list { root := ⟨name, aliasName⟩, selections := selections } = (do
      let tables ← engine.store.access
      let rows ← tables.rowsOf e
      converting (resultsFor engine.domain.registry
        (QueryOf.selected
          ({ root := ⟨name, aliasName⟩, selections := selections } : QueryOf Restriction))
        (rows.map fun row => [⟨aliasName, e, row⟩]))) := by
  obtain ⟨compiled, accepted⟩ := accepted
  rw [list_evaluate_plain accepted plain]
  unfold evaluate Query.evaluate
  apply bind_congr_ok
  intro tables _
  rw [solutions_unrestricted known]
  cases tables.rowsOf e with
  | error failure => rfl
  | ok rows => rfl

/-- Listing a type evaluates to what the rows of its table read as. -/
theorem list_everything (known : engine.domain.model.entity? name = some e)
    (accepted : ∃ compiled, (Query.everything name aliasName).compile engine.domain = .ok compiled) :
    engine.list (Query.everything name aliasName) = (do
      let tables ← engine.store.access
      let rows ← tables.rowsOf e
      converting (resultsFor engine.domain.registry (Query.everything name aliasName).selected
        (rows.map fun row => [⟨aliasName, e, row⟩]))) :=
  list_unrestricted known accepted (by simp)

/-- A persisted value is listed behind all others of its type. It has the leaves of the type, each
    with its own value after the conversions there and back; where one of them fails, so does the
    listing. -/
theorem list_persist {xs : List Value} (known : engine.domain.model.entity? name = some e)
    (named : NamedApart e.attributes) (columns : (leafColumns e.leaves).Nodup)
    (listed : engine.list (Query.everything name aliasName) = .ok xs)
    (persisted : engine.persist name v uuid = (.ok id, engine')) :
    engine'.list (Query.everything name aliasName) =
        (converting (e.readBack engine.domain.registry id v)).map (fun w => xs ++ [w]) ∧
      ∀ w, e.readBack engine.domain.registry id v = .ok w →
        e.ReadsBack engine.domain.registry id v w := by
  refine ⟨?_, fun w read => Entity.readBack_readsBack named read⟩
  obtain ⟨tables, row, access, stored, sameDomain, newStore⟩ := persist_ok known persisted
  have accepted := accepted_of_list listed
  rw [list_everything known accepted, access, ok_bind] at listed
  obtain ⟨rows, before, read⟩ := bind_eq_ok.mp listed
  have unbroken : engine.store.broken = false ∧ engine.store.tables = tables := by
    unfold Store.access at access
    split at access
    · cases access
    · next fine =>
      cases access
      exact ⟨by simpa using fine, rfl⟩
  have access' : engine'.store.access = .ok (tables.append e.table [row]) := by
    rw [newStore, Store.access, if_neg (by simp [unbroken.1])]
  rw [← sameDomain] at known accepted
  rw [list_everything known accepted, access']
  simp only [ok_bind, Tables.rowsOf_append before, List.map_append, List.map_cons, List.map_nil,
    resultsFor_concat, sameDomain, assembled_everything]
  rw [objectResult_readBack (storedRow_stored columns stored).2]
  cases earlier : resultsFor engine.domain.registry (Query.everything name aliasName).selected
      (rows.map fun row => [⟨aliasName, e, row⟩]) with
  | error failure =>
      rw [earlier] at read
      cases read
  | ok vs =>
      rw [earlier] at read
      cases read
      unfold Entity.readBack
      cases e.readBackFields engine.domain.registry id v e.leaves [] <;> rfl

end Engine

namespace Sample

def loner : Engine :=
  { people with
    store :=
      { tables := [("people",
          [[("active", .int 0), ("city", .string "Turin"), ("id", .int 2)]])] } }

/-- Somebody new, with a label that is not stored. -/
def newcomer : Value :=
  .object
    [("active", .bool true),
      ("address", .object [("city", .string "Bari"), ("label", .string "home")]),
      ("id", .int 4)]

end Sample

theorem Engine.list_persist_newcomer :
    Sample.loner.domain.model.entity? "Person" = some Sample.person ∧
      NamedApart Sample.person.attributes ∧ (leafColumns Sample.person.leaves).Nodup ∧
      ∃ xs id engine', Sample.loner.list (Query.everything "Person" "p") = .ok xs ∧
        Sample.loner.persist "Person" Sample.newcomer Sample.uuid = (.ok id, engine') ∧
        engine'.list (Query.everything "Person" "p") =
          (Engine.converting
            (Sample.person.readBack Sample.loner.domain.registry id Sample.newcomer)).map
            (fun w => xs ++ [w]) ∧
        ∀ w, Sample.person.readBack Sample.loner.domain.registry id Sample.newcomer = .ok w →
          Sample.person.ReadsBack Sample.loner.domain.registry id Sample.newcomer w := by
  have named : NamedApart Sample.person.attributes := by
    simp [Sample.person, NamedApart, AttributeMapping.Named]
  have columns : (leafColumns Sample.person.leaves).Nodup := by decide
  obtain ⟨xs, listed⟩ : ∃ xs, Sample.loner.list (Query.everything "Person" "p") = .ok xs :=
    isOk_iff.mp (by decide +kernel)
  obtain ⟨id, stored⟩ : ∃ id,
      (Sample.loner.persist "Person" Sample.newcomer Sample.uuid).1 = .ok id :=
    isOk_iff.mp (by decide +kernel)
  have persisted : Sample.loner.persist "Person" Sample.newcomer Sample.uuid =
      (.ok id, (Sample.loner.persist "Person" Sample.newcomer Sample.uuid).2) := by
    rw [← stored]
  exact ⟨rfl, named, columns, xs, id, _, listed, persisted,
    Engine.list_persist rfl named columns listed persisted⟩

end EntityQuery
