import EntityQuery.Proofs.Conversion.Builtin
import EntityQuery.Proofs.Engine.Identity
import EntityQuery.Proofs.Engine.RoundTrip

/-! # Stored rows are well typed

A value is checked against the kinds of its attributes before it is converted, and yet it is the
converted values that are of the kinds of the columns. `Describes` is what holds of a single row;
every call that loads nothing keeps it for all rows of a table of the entity's own.
-/

namespace EntityQuery

/-- The row has the columns of the entity, each of them once and no others, and each holds null or a
    value of the kind in which its attribute is stored. -/
structure Entity.Describes (e : Entity) (registry : ConverterRegistry) (row : Row) : Prop where
  columns : (Keyed.names row).Perm (leafColumns e.leaves)
  kinds : ∀ path a, (path, Leaf.basic a) ∈ e.leaves → ∃ v, Keyed.get? row a.column = some v ∧
    (v.isNull = true ∨ (registry.storedKind a).accepts v.kind = true)

section Rows

variable {registry : ConverterRegistry} {e : Entity} {id v : Value}

theorem storedRow_names {leaves : List (AttributePath × Leaf)} {row row' : Row}
    (apart : (leafColumns leaves ++ Keyed.names row).Nodup)
    (ok : Engine.storedRow registry e id v leaves row = .ok row') :
    (Keyed.names row').Perm (leafColumns leaves ++ Keyed.names row) := by
  induction leaves generalizing row with
  | nil =>
      cases ok
      exact .refl _
  | cons first rest ih =>
      obtain ⟨path, leaf⟩ := first
      cases leaf with
      | transient kind => exact ih apart ok
      | basic a =>
          rw [Engine.storedRow] at ok
          obtain ⟨stored, -, ok⟩ := bind_eq_ok.mp ok
          change (a.column :: (leafColumns rest ++ Keyed.names row)).Nodup at apart
          have fresh : a.column ∉ Keyed.names row :=
            fun inside => (List.nodup_cons.mp apart).1 (List.mem_append_right _ inside)
          have added : (leafColumns rest ++ Keyed.names (Keyed.insert row a.column stored)).Perm
              (a.column :: (leafColumns rest ++ Keyed.names row)) :=
            ((Keyed.names_insert stored fresh).append_left _).trans List.perm_middle
          exact (ih (added.nodup_iff.mpr apart) ok).trans added

/-- A converter in effect is registered under some name. -/
theorem ConverterRegistry.converter?_of_converterFor {a : BasicAttribute} {c : Converter}
    (effective : registry.converterFor a = .ok (some c)) :
    ∃ name, registry.converter? name = some c := by
  unfold converterFor at effective
  split at effective
  · next name _ =>
    cases known : registry.converter? name with
    | none =>
        rw [known] at effective
        cases effective
    | some c' =>
        rw [known] at effective
        cases effective
        exact ⟨name, known⟩
  · split at effective
    · cases effective
    · obtain ⟨name, -, known⟩ := Option.bind_eq_some_iff.mp (Except.ok.inj effective)
      exact ⟨name, known⟩

/-- What is stored for an attribute is null or of the kind of its column, for the converter in
    effect is one of those that are registered. -/
theorem storedValue_kind {entity : String} {path : AttributePath} {a : BasicAttribute}
    {stored : Value} (ownKinds : ∀ name c, registry.converter? name = some c → c.StoresOwnKind)
    (ok : Engine.storedValue registry entity path a v = .ok stored) :
    stored.isNull = true ∨ (registry.storedKind a).accepts stored.kind = true := by
  obtain ⟨fits, converter, effective, how⟩ := Engine.storedValue_ok ok
  rcases how with ⟨rfl, rfl⟩ | ⟨c, rfl, converted⟩
  · right
    rwa [ConverterRegistry.storedKind, effective]
  · obtain ⟨name, registered⟩ := ConverterRegistry.converter?_of_converterFor effective
    rcases ownKinds name c registered v stored converted with null | own
    · exact .inl null
    · right
      simp [ConverterRegistry.storedKind, effective, own, Kind.accepts]

/-- A new row is described by its entity. -/
theorem storedRow_describes {row : Row} (columns : (leafColumns e.leaves).Nodup)
    (ownKinds : ∀ name c, registry.converter? name = some c → c.StoresOwnKind)
    (ok : Engine.storedRow registry e id v e.leaves [] = .ok row) : e.Describes registry row where
  columns := by
    have apart : (leafColumns e.leaves ++ Keyed.names ([] : Row)).Nodup := by
      simpa [Keyed.names] using columns
    simpa [Keyed.names] using storedRow_names apart ok
  kinds := by
    intro path a member
    obtain ⟨stored, present⟩ :=
      Option.isSome_iff_exists.mp ((storedRow_present ok).2 path a member)
    have held := (Engine.storedRow_stored columns ok).2 path a member
    rw [Row.stored, present, Option.getD_some] at held
    exact ⟨stored, present, storedValue_kind ownKinds held⟩

end Rows

namespace Engine

theorem describes_lasting {d : Domain} {e : Entity} (columns : (leafColumns e.leaves).Nodup)
    (ownKinds : ∀ name c, d.registry.converter? name = some c → c.StoresOwnKind) :
    Lasting d e fun rows => ∀ row ∈ rows, e.Describes d.registry row where
  empty := by simp
  removed := fun test described row inside => described row (List.mem_filter.mp inside).1
  added := by
    intro rows id v new stored _ described row inside
    rcases List.mem_append.mp inside with old | isNew
    · exact described row old
    · exact List.mem_singleton.mp isNew ▸ storedRow_describes columns ownKinds stored

/-- From an empty store on, whatever calls are made except loads, an entity describes all rows of
    its table, if the converters store nothing but null and values of their stored kinds; and the
    converters at hand do so. -/
theorem run_rows_described :
    (∀ c : Converter, c.Builtin → c.StoresOwnKind) ∧
      ∀ {d : Domain} {fresh : Engine} {calls : List Call} {name : String} {e : Entity},
        d.model.OwnTables → (leafColumns e.leaves).Nodup →
        (∀ name c, d.registry.converter? name = some c → c.StoresOwnKind) →
        Engine.start {} d = .ok fresh → (∀ call ∈ calls, call.request.loads = false) →
        d.model.entity? name = some e →
        ∃ rows, (fresh.run calls).store.tables.rows? e.table = some rows ∧
          ∀ row ∈ rows, e.Describes d.registry row := by
  refine ⟨fun c builtin => builtin.storesOwnKind, ?_⟩
  intro d fresh calls name e own columns ownKinds started unloaded known
  obtain ⟨domain, -, empty⟩ := start_empty started known
  exact (describes_lasting columns ownKinds).run (own.only known) unloaded domain empty (by simp)

end Engine

theorem Engine.run_rows_described_travels :
    ((Sample.deserted.run Sample.travels).store.tables.rows? "people").map List.length = some 3 ∧
      (leafColumns Sample.person.leaves).Nodup ∧
      (∀ name c, Sample.people.domain.registry.converter? name = some c → c.StoresOwnKind) ∧
      ∃ rows,
        (Sample.deserted.run Sample.travels).store.tables.rows? Sample.person.table = some rows ∧
        ∀ row ∈ rows, Sample.person.Describes Sample.people.domain.registry row := by
  have known : Sample.people.domain.model.entity? "Person" = some Sample.person := rfl
  have columns : (leafColumns Sample.person.leaves).Nodup := by decide
  have started : Engine.start {} Sample.people.domain = .ok Sample.deserted := rfl
  have ownKinds : ∀ name c, Sample.people.domain.registry.converter? name = some c →
      c.StoresOwnKind := by
    intro name c registered
    have only : c = .booleanInt := by
      simp only [Sample.people, ConverterRegistry.standard, ConverterRegistry.register,
        ConverterRegistry.converter?, Keyed.put, Keyed.get?, Option.ite_none_right_eq_some,
        Option.some.injEq] at registered
      exact registered.2.symm
    rw [only]
    exact Converter.Builtin.booleanInt.storesOwnKind
  have unloaded : ∀ call ∈ Sample.travels, call.request.loads = false := by
    simp [Sample.travels, Sample.arrival, Sample.departure, Request.loads]
  exact ⟨by decide +kernel, columns, ownKinds, Engine.run_rows_described.2 Sample.people_ownTables
    columns ownKinds started unloaded known⟩

end EntityQuery
