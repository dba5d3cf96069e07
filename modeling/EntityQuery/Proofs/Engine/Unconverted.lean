import EntityQuery.Proofs.Engine.Filtering

/-! # Attributes without conversion

An attribute without a converter in effect passes an engine unchanged: what is stored is the domain
value, what is read is the stored value, and neither its column nor a literal beside it is of
another kind than its own. An attribute may refuse the converters that apply by kind, and comes to
this; but it still gets a converter that it names itself.
-/

namespace EntityQuery

section Reading

variable {registry : ConverterRegistry} {row : Row}

/-- An object made of the leaves of a row holds what each of them reads as. -/
theorem Row.objectResult_at? {attributes : Attributes} {fields : Fields} {path : AttributePath}
    {leaf : Leaf} (named : NamedApart attributes) (inside : (path, leaf) ∈ leavesOf attributes)
    (read : row.objectResult registry (leavesOf attributes) [] = .ok fields) :
    ∃ value, row.leafResult registry leaf = .ok value ∧
      (Value.object fields).at? path = some value := by
  rw [objectResult_eq] at read
  exact (assembleLeaves_at? (leavesOf_apart named) (fun leaf => leavesOf_proper) read).1 _ inside

theorem Leaf.inside_of_at? {attributes : Attributes} {path : AttributePath} {leaf : Leaf}
    (located : Attributes.at? attributes path = some leaf.toMapping) :
    (path, leaf) ∈ leavesOf attributes := by
  have whole : ([], leaf) ∈ leaf.toMapping.leaves := by
    cases leaf <;> exact List.mem_cons_self
  cases path with
  | nil => cases located
  | cons name rest =>
      obtain ⟨mapping, declared, deeper⟩ := Option.bind_eq_some_iff.mp located
      simpa using leavesOf_mem declared (AttributeMapping.leaves_at? deeper whole)

/-- Whatever part of an entity is selected, a leaf in it is found there as it reads by itself. -/
theorem Frame.result_at? {f : Frame} {aliasName : String} {start rest : AttributePath} {leaf : Leaf}
    {v : Value} (named : NamedApart f.entity.attributes)
    (located : f.entity.at? (start ++ rest) = some leaf.toMapping)
    (read : f.result registry ⟨aliasName, start⟩ = .ok v) :
    ∃ value, f.row.leafResult registry leaf = .ok value ∧ v.at? rest = some value := by
  cases start with
  | nil =>
      obtain ⟨fields, object, rfl⟩ := map_eq_ok.mp read
      exact Row.objectResult_at? named (Leaf.inside_of_at? located) object
  | cons name start =>
      rw [Entity.at?_append _ (List.cons_ne_nil _ _)] at located
      obtain ⟨inner, part, deeper⟩ := Option.bind_eq_some_iff.mp located
      have innerNamed := Entity.named_at? named part
      simp only [Frame.result, Path.isEntity, List.isEmpty_cons, Bool.false_eq_true, if_false,
        part] at read
      cases inner with
      | embedded attributes =>
          obtain ⟨fields, object, rfl⟩ := map_eq_ok.mp read
          cases rest with
          | nil =>
              -- An embedded value is no leaf.
              rw [AttributeMapping.at?] at deeper
              cases leaf <;> cases deeper
          | cons next rest =>
              rw [AttributeMapping.at?_embedded] at deeper
              exact Row.objectResult_at? innerNamed (Leaf.inside_of_at? deeper) object
      | basic a | transient kind =>
          cases rest with
          | nil =>
              rw [AttributeMapping.at?] at deeper
              cases leaf <;> cases deeper
              exact ⟨v, read, rfl⟩
          | cons next rest => simp [AttributeMapping.at?] at deeper

end Reading

namespace ConverterRegistry

variable {registry : ConverterRegistry} {a : BasicAttribute}

/-- Refusing the converters that apply by kind leaves an attribute the one that it names. -/
theorem converterFor_disabled (disabled : a.disableConversion = true) :
    registry.converterFor a = .ok none ↔ a.converter = none := by
  unfold converterFor
  cases named : a.converter with
  | none => simp [disabled]
  | some name =>
      cases known : registry.converter? name <;> simp [known]

/-- An attribute that names a converter is treated as if it refused none. -/
theorem converterFor_named (named : a.converter.isSome = true) (disabled : Bool) :
    registry.converterFor { a with disableConversion := disabled } = registry.converterFor a := by
  obtain ⟨name, asked⟩ := Option.isSome_iff_exists.mp named
  simp only [converterFor, asked]

end ConverterRegistry

namespace Engine

/-- An attribute whose values, references and literals pass an engine without conversion. -/
structure PassesUnchanged (engine : Engine) (name : String) (e : Entity) (path : AttributePath)
    (a : BasicAttribute) : Prop where
  /-- The column that any reference names has the attribute's own kind. -/
  reference : ∀ (s : CompileState) table, (s.refer engine.domain.registry table a).1 =
    .column table.aliasName a.column a.kind
  /-- A literal that the attribute is compared with stays as it is, on either side. -/
  literal : ∀ (scope : Scope) enclosing (p : Path) (binding : Binding) op l s,
    scope.resolve? p.aliasName = some binding → binding.entity.columnAt? p = some a →
      let column : Expression := .column binding.table.aliasName a.column a.kind
      ∃ s', compileRestriction engine.domain scope enclosing
          (.compare (.ref p) op (.literal l)) s = .ok (.compare column op (.literal l), s') ∧
        compileRestriction engine.domain scope enclosing
          (.compare (.literal l) op (.ref p)) s = .ok (.compare (.literal l) op column, s')
  /-- What is to be stored is the domain value, if it is of the attribute's kind. -/
  storing : ∀ v, storedValue engine.domain.registry e.name path a v =
    if a.kind.accepts v.kind then .ok v
    else .error (.invalidData (.wrongKind e.name path a.kind v))
  /-- A new row holds the domain value, unless a later attribute has the same column. -/
  persisted : ∀ v uuid id engine' before after, engine.persist name v uuid = (.ok id, engine') →
    e.leaves = before ++ (path, .basic a) :: after → a.column ∉ leafColumns after →
      ∃ row, engine'.store.tables = engine.store.tables.append e.table [row] ∧
        row.stored a.column = e.domainValue id v path
  /-- What a row reads as at the path, or at a path on the way, holds the column as stored. -/
  reading : ∀ (row : Row) aliasName start rest v, path = start ++ rest →
    (Frame.mk aliasName e row).result engine.domain.registry ⟨aliasName, start⟩ = .ok v →
      v.at? rest = some (row.stored a.column)
  /-- A listing of the attribute by itself is a listing of the column as stored. -/
  alone : ∀ q : Query, q.root.entity = name → Succeeds (q.compile engine.domain) →
    q.selected.map (·.operand) = [.ref ⟨q.root.aliasName, path⟩] →
      engine.list q = (do
        let tables ← engine.store.access
        let found ← solutions engine.domain tables [] q
        .ok (found.2.map (·.stored a.column)))
  /-- A listing of the entity, or of an embedded value around the attribute, has it inside. -/
  within : ∀ (q : Query) start rest vs, q.root.entity = name → path = start ++ rest →
    q.selected.map (·.operand) = [.ref ⟨q.root.aliasName, start⟩] → engine.list q = .ok vs →
      ∃ tables rows, engine.store.access = .ok tables ∧
        solutions engine.domain tables [] q = .ok (e, rows) ∧
        List.Forall₂ (fun row v => v.at? rest = some (row.stored a.column)) rows vs

section Unconverted

variable {engine : Engine} {name : String} {e : Entity} {path : AttributePath} {a : BasicAttribute}

theorem refer_unconverted {registry : ConverterRegistry}
    (plain : registry.converterFor a = .ok none) (s : CompileState) (table : TableRef) :
    (s.refer registry table a).1 = .column table.aliasName a.column a.kind := by
  have own : registry.storedKind a = a.kind := by rw [ConverterRegistry.storedKind, plain]
  rw [CompileState.refer, own]

theorem compilePath_unconverted {d : Domain} (plain : d.registry.converterFor a = .ok none)
    {scope : Scope} {p : Path} {binding : Binding}
    (resolved : scope.resolve? p.aliasName = some binding)
    (leads : binding.entity.columnAt? p = some a) (clause : Clause) (s : CompileState) :
    compilePath d scope clause p s =
      .ok ((.column binding.table.aliasName a.column a.kind, none),
        (s.refer d.registry binding.table a).2) := by
  have effective (attributes : AttributePath) : d.converterFor a attributes = .ok none := by
    rw [Domain.converterFor, plain]
  rw [compilePath, Scope.resolve, resolved, ok_bind]
  simp only [Entity.columnAt?_eq_some.mp leads, effective, ok_bind,
    ← refer_unconverted plain s binding.table]

theorem compileRestriction_unconverted {d : Domain} (plain : d.registry.converterFor a = .ok none)
    {scope : Scope} {p : Path} {binding : Binding}
    (resolved : scope.resolve? p.aliasName = some binding)
    (leads : binding.entity.columnAt? p = some a) (enclosing : List Clause) (op : Comparison)
    (l : Literal) (s : CompileState) :
    ∃ s', compileRestriction d scope enclosing (.compare (.ref p) op (.literal l)) s =
        .ok (.compare (.column binding.table.aliasName a.column a.kind) op (.literal l), s') ∧
      compileRestriction d scope enclosing (.compare (.literal l) op (.ref p)) s =
        .ok (.compare (.literal l) op (.column binding.table.aliasName a.column a.kind), s') := by
  refine ⟨(s.refer d.registry binding.table a).2, ?_, ?_⟩
  · rw [compileRestriction]
    simp only [compileOperand, compilePath_unconverted plain resolved leads, ok_bind, storedForm]
    rfl
  · rw [compileRestriction]
    simp only [compileOperand, compilePath_unconverted plain resolved leads, ok_bind, storedForm]
    rfl

theorem leafResult_unconverted {registry : ConverterRegistry}
    (plain : registry.converterFor a = .ok none) (row : Row) :
    row.leafResult registry (.basic a) = .ok (row.stored a.column) :=
  Row.leafResult_basic plain row

theorem assembled_single {env : Environment} {registry : ConverterRegistry}
    {selections : List Selection} {operand : Operand}
    (single : selections.map (·.operand) = [operand]) :
    env.assembled registry selections = env.result registry operand := by
  obtain ⟨selection, rfl, rfl⟩ := List.map_eq_singleton_iff.mp single
  rfl

theorem result_root (aliasName : String) (e : Entity) (row : Row) (registry : ConverterRegistry)
    (attributes : AttributePath) :
    Environment.result [⟨aliasName, e, row⟩] registry (.ref ⟨aliasName, attributes⟩) =
      (Frame.mk aliasName e row).result registry ⟨aliasName, attributes⟩ := by
  simp [Environment.result, Environment.frame?]

/-- A query for a single path is evaluated row by row. -/
theorem list_path {q : Query} {attributes : AttributePath}
    (known : engine.domain.model.entity? q.root.entity = some e)
    (accepted : Succeeds (q.compile engine.domain))
    (single : q.selected.map (·.operand) = [.ref ⟨q.root.aliasName, attributes⟩]) :
    engine.list q = (do
      let tables ← engine.store.access
      let found ← solutions engine.domain tables [] q
      converting (resultsFor engine.domain.registry q.selected
        (found.2.map fun row => [⟨q.root.aliasName, e, row⟩]))) := by
  have plain : ∀ selection ∈ q.selections, selection.operand.identity = selection.operand := by
    intro selection member
    have isSelected : selection ∈ q.selected := by
      rw [QueryOf.selected, if_neg (by simpa using List.ne_nil_of_mem member)]
      exact member
    have isPath := List.mem_map_of_mem (f := (·.operand)) isSelected
    rw [single, List.mem_singleton] at isPath
    rw [isPath]
    rfl
  obtain ⟨compiled, accepted⟩ := accepted
  rw [list_evaluate_plain accepted plain, evaluate]
  refine bind_congr_ok fun tables _ => ?_
  rw [Query.evaluate]
  refine bind_congr_ok fun found solved => ?_
  obtain ⟨entity, rows⟩ := found
  cases known.symm.trans (solutions_entity solved)
  rfl

theorem resultsFor_total {registry : ConverterRegistry} {selections : List Selection}
    {envOf : Row → Environment} {resultOf : Row → Value}
    (total : ∀ row, (envOf row).assembled registry selections = .ok (resultOf row))
    (rows : List Row) :
    resultsFor registry selections (rows.map envOf) = .ok (rows.map resultOf) := by
  induction rows with
  | nil => rfl
  | cons row rest ih =>
      rw [List.map_cons, resultsFor, total, ok_bind, ih]
      rfl

/-- Without a converter in effect an attribute passes unchanged. -/
theorem passesUnchanged (known : engine.domain.model.entity? name = some e)
    (named : NamedApart e.attributes) (located : e.at? path = some (.basic a))
    (plain : engine.domain.registry.converterFor a = .ok none) :
    engine.PassesUnchanged name e path a := by
  have reading : ∀ (row : Row) aliasName start rest v, path = start ++ rest →
      (Frame.mk aliasName e row).result engine.domain.registry ⟨aliasName, start⟩ = .ok v →
        v.at? rest = some (row.stored a.column) := by
    intro row aliasName start rest v parts read
    have whole : e.at? (start ++ rest) = some (Leaf.basic a).toMapping := parts ▸ located
    obtain ⟨value, own, found⟩ := Frame.result_at? named whole read
    cases (leafResult_unconverted plain row).symm.trans own
    exact found
  refine ⟨refer_unconverted plain, ?_, ?_, ?_, reading, ?_, ?_⟩
  · intro scope enclosing p binding op l s resolved leads
    exact compileRestriction_unconverted plain resolved leads enclosing op l s
  · intro v
    simp only [storedValue, plain]
  · intro v uuid id engine' before after persisted split last
    obtain ⟨tables, row, access, stored, -, store⟩ := persist_ok known persisted
    obtain ⟨-, rfl⟩ := Store.access_eq_ok.mp access
    rw [split] at stored
    obtain ⟨-, converter, effective, asItIs⟩ := storedValue_ok (storedRow_last last stored)
    cases plain.symm.trans effective
    obtain ⟨-, asItIs⟩ | ⟨c, impossible, -⟩ := asItIs
    · exact ⟨row, by rw [store], asItIs⟩
    · cases impossible
  · rintro q rfl accepted single
    rw [list_path known accepted single]
    refine bind_congr_ok fun tables _ => bind_congr_ok fun found _ => ?_
    have total (row : Row) : Environment.assembled [⟨q.root.aliasName, e, row⟩]
        engine.domain.registry q.selected = .ok (row.stored a.column) := by
      rw [assembled_single single, result_root]
      simp only [Frame.result, Entity.at?_not_nil located, Bool.false_eq_true, if_false, located]
      exact leafResult_unconverted plain row
    rw [resultsFor_total total]
    rfl
  · rintro q start rest vs rfl parts single listed
    have accepted : Succeeds (q.compile engine.domain) := accepted_of_list listed
    rw [list_path known accepted single] at listed
    obtain ⟨tables, access, listed⟩ := bind_eq_ok.mp listed
    obtain ⟨⟨entity, rows⟩, solved, listed⟩ := bind_eq_ok.mp listed
    cases known.symm.trans (solutions_entity solved)
    refine ⟨tables, rows, access, solved, ?_⟩
    refine (resultsFor_each (converting_eq_ok.mp listed)).imp fun row v result => ?_
    rw [assembled_single single, result_root] at result
    exact reading row _ start rest v parts result

/-- An attribute that refuses conversion gets no converter exactly if it names none, and then passes
    unchanged. The name of a converter overrules the refusal. -/
theorem disabled_passesUnchanged (known : engine.domain.model.entity? name = some e)
    (named : NamedApart e.attributes) (located : e.at? path = some (.basic a))
    (disabled : a.disableConversion = true) :
    (engine.domain.registry.converterFor a = .ok none ↔ a.converter = none) ∧
      (a.converter = none → engine.PassesUnchanged name e path a) ∧
      (a.converter.isSome = true →
        engine.domain.registry.converterFor a =
          engine.domain.registry.converterFor { a with disableConversion := false }) :=
  ⟨ConverterRegistry.converterFor_disabled disabled,
    fun unnamed => passesUnchanged known named located
      ((ConverterRegistry.converterFor_disabled disabled).mpr unnamed),
    fun asked => (ConverterRegistry.converterFor_named asked false).symm⟩

end Unconverted

end Engine

namespace Sample

/-- Whether somebody is active, without conversion, but perhaps with a converter. -/
def unconvertedFlag (converter : Option String) : BasicAttribute where
  column := "active"
  kind := .bool
  converter := converter
  disableConversion := true

def flagged (converter : Option String) : Entity where
  name := "Person"
  table := "people"
  attributes :=
    [("id", .basic { column := "id", kind := .int }),
      ("active", .basic (unconvertedFlag converter))]

/-- An engine that stores booleans as numbers. -/
def numbering (converter : Option String) : Engine where
  domain :=
    { model := ⟨[("Person", flagged converter)]⟩
      registry := ConverterRegistry.standard.registerAutoApplied .booleanInt
      config := {} }
  store := { tables := [("people", [])] }

theorem flagged_named (converter : Option String) : NamedApart (flagged converter).attributes := by
  simp [flagged, NamedApart, AttributeMapping.Named]

def activePerson : Value := .object [("active", .bool true), ("id", .int 1)]

end Sample

theorem Engine.disabled_passesUnchanged_flag :
    (Sample.numbering none).domain.model.entity? "Person" = some (Sample.flagged none) ∧
      NamedApart (Sample.flagged none).attributes ∧
      (Sample.flagged none).at? ["active"] = some (.basic (Sample.unconvertedFlag none)) ∧
      (Sample.unconvertedFlag none).disableConversion = true ∧
      (Sample.numbering none).PassesUnchanged "Person" (Sample.flagged none) ["active"]
        (Sample.unconvertedFlag none) := by
  have known : (Sample.numbering none).domain.model.entity? "Person" =
      some (Sample.flagged none) := rfl
  have named := Sample.flagged_named none
  exact ⟨known, named, rfl, rfl, (disabled_passesUnchanged known named rfl rfl).2.1 rfl⟩

/-- The converter that the attribute names is in effect although the attribute refuses conversion:
    a boolean is stored as a number. -/
theorem Engine.disabled_converted_flag :
    (Sample.unconvertedFlag (some "boolean_int")).disableConversion = true ∧
      (Sample.numbering (some "boolean_int")).domain.registry.converterFor
        (Sample.unconvertedFlag (some "boolean_int")) = .ok (some .booleanInt) ∧
      ∃ engine', (Sample.numbering (some "boolean_int")).persist "Person" Sample.activePerson
            Sample.uuid = (.ok (.int 1), engine') ∧
        engine'.store.tables = [("people", [[("active", .int 1), ("id", .int 1)]])] :=
  ⟨rfl, rfl, _, rfl, rfl⟩

end EntityQuery
