import EntityQuery.Proofs.Meaning.Columns
import EntityQuery.Proofs.Resolver.Buffer
import EntityQuery.Proofs.Value.Zeros

/-! # The meaning of result rows

What is read from a result row is what the selections give in the environment behind the row.
Attributes read back exactly; a selected expression may share its slot with one that differs in the
sign of a zero, so results are compared through a view of values.
-/

namespace EntityQuery

/-- A way of looking at values in which expressions that share a slot look alike, as far as they are
    requested. -/
structure View (wanted : Expression → Prop) where
  see : Value → Value
  alike : ∀ {e other : Expression}, wanted e → wanted other → e.identity = other.identity →
    ∀ row, see (e.eval row) = see (other.eval row)
  array : ∀ {vs ws : List Value}, vs.map see = ws.map see → see (.array vs) = see (.array ws)
  object : ∀ {vs ws : List Value} (names : List String), vs.map see = ws.map see →
    see (.object (Keyed.ofList (names.zip vs))) = see (.object (Keyed.ofList (names.zip ws)))

namespace View

/-- Values without the signs of zeros. -/
def zeros : View (fun _ => True) where
  see := Value.unsignedZeros
  alike := fun _ _ same row => Expression.eval_congr_identity row same
  array := by
    intro vs ws same
    rw [Value.unsignedZeros_array, Value.unsignedZeros_array, same]
  object := by
    intro vs ws names same
    have entries : ∀ vs : List Value, Keyed.mapValues Value.unsignedZeros (names.zip vs) =
        names.zip (vs.map Value.unsignedZeros) := fun vs => (List.zip_map_right ..).symm
    rw [Value.unsignedZeros_object, Value.unsignedZeros_object, Keyed.mapValues_ofList,
      Keyed.mapValues_ofList, entries, entries, same]

/-- Values as they are, for expressions that only share a slot with themselves. -/
def plain : View (fun e => e.identity = e) where
  see := id
  alike := by
    intro e other unsigned unsigned' same row
    rw [← unsigned, same, unsigned']
  array := by simp
  object := by
    intro vs ws names same
    rw [List.map_id, List.map_id] at same
    rw [same]

end View

theorem map_cons_congr {see : Value → Value} {x y : Except ConversionError Value}
    {xs ys : Except ConversionError (List Value)} (first : x.map see = y.map see)
    (others : xs.map (List.map see) = ys.map (List.map see)) :
    (do let v ← x; let vs ← xs; .ok (v :: vs) : Except ConversionError (List Value)).map
        (List.map see) =
      (do let v ← y; let vs ← ys; .ok (v :: vs) : Except ConversionError (List Value)).map
        (List.map see) := by
  cases x <;> cases y <;> cases xs <;> cases ys <;> simp_all [Except.map]

variable {d : Domain} {usage : Option ColumnUsage} {limit : Nat} {scope : Scope} {env : Environment}
  {row : Row} {selections : List Selection} {st st' : SelectState} {aliasName : String}
  {binding : Binding} {f : Frame} {slots : List Slot} {buffer : List Value}

/-- What the slot of a leaf is requested for. -/
def Leaf.slotKey (registry : ConverterRegistry) (table : TableRef) : Leaf → SlotKey
  | .basic a => .expression (.ref (columnOf registry table a))
  | .transient _ => .placeholder

theorem selectLeaf_hasSlot {path : AttributePath} {leaf : Leaf}
    {field : ResultField} (resolved : scope.resolve? aliasName = some binding)
    (selecting : Selecting d scope selections st)
    (selected : selectLeaf d binding.table path leaf st = .ok (field, st')) :
    HasSlot st'.resolver.block.select (leaf.slotKey d.registry binding.table) field.index := by
  have next : Selecting d scope selections st' :=
    (selectLeaf_leads resolved selected).selecting selecting
  cases leaf with
  | basic a =>
      obtain ⟨converter, -, rfl, rfl⟩ := selectLeaf_basic_ok selected
      exact selecting.ordered.resolve_hasSlot _ a.kind
  | transient kind =>
      rcases selectLeaf_transient_ok selected with ⟨slot, known, rfl, rfl⟩ |
        ⟨slot, r, -, -, rfl, rfl⟩
      · obtain ⟨inside, key⟩ := next.empty slot known
        exact ⟨slot, inside, rfl, congrArg SlotKey.identity key⟩
      · obtain ⟨inside, key⟩ := next.empty slot rfl
        exact ⟨slot, inside, rfl, congrArg SlotKey.identity key⟩

/-- The domain value of a stored value, with or without a converter. -/
def Value.readBy (converter : Option Converter) (stored : Value) : Except ConversionError Value :=
  match converter with
  | some c => c.toDomain stored
  | none => .ok stored

theorem Row.leafResult_basic {registry : ConverterRegistry} {a : BasicAttribute}
    {converter : Option Converter} (effective : registry.converterFor a = .ok converter)
    (row : Row) : row.leafResult registry (.basic a) = (row.stored a.column).readBy converter := by
  simp only [leafResult, ConverterRegistry.inEffect?, effective]
  rfl

theorem selectLeaf_reads {path : AttributePath} {leaf : Leaf} {field : ResultField}
    (selecting : Selecting d scope selections st)
    (resolved : scope.resolve? aliasName = some binding)
    (located : env.frame? aliasName = some f)
    (selected : selectLeaf d binding.table path leaf st = .ok (field, st'))
    (covers : Covers usage st'.state.usage) (represents : Represents usage limit scope env row)
    (spread : Spread slots (Expression.eval row) buffer)
    (later : st'.resolver.block.select <+: slots) :
    field.path = path ∧
      readSlot buffer field.index field.converter = f.row.leafResult d.registry leaf := by
  have has := (selectLeaf_hasSlot resolved selecting selected).mono later
  cases leaf with
  | basic a =>
      obtain ⟨converter, effective, rfl, rfl⟩ := selectLeaf_basic_ok selected
      have held := (represents.located resolved located).2 a.column
        (CompileState.referred_scans covers)
      refine ⟨rfl, ?_⟩
      show (buffer[_]?.getD Value.null).readBy converter = _
      rw [Row.leafResult_basic effective, ← held, spread.column has]
      rfl
  | transient kind =>
      rcases selectLeaf_transient_ok selected with ⟨slot, -, rfl, -⟩ | ⟨slot, r, -, -, rfl, -⟩
      · exact ⟨rfl, congrArg Except.ok (spread.placeholder has)⟩
      · exact ⟨rfl, congrArg Except.ok (spread.placeholder has)⟩

theorem selectLeaves_reads {leaves : List (AttributePath × Leaf)} {fields : List ResultField}
    (selecting : Selecting d scope selections st)
    (resolved : scope.resolve? aliasName = some binding)
    (located : env.frame? aliasName = some f)
    (selected : selectLeaves d binding.table leaves st = .ok (fields, st'))
    (covers : Covers usage st'.state.usage) (represents : Represents usage limit scope env row)
    (spread : Spread slots (Expression.eval row) buffer)
    (later : st'.resolver.block.select <+: slots) (object : Fields) :
    assembleFields buffer fields object = f.row.objectResult d.registry leaves object := by
  induction leaves generalizing st fields object with
  | nil =>
      cases selected
      rfl
  | cons leaf rest ih =>
      obtain ⟨path, leaf⟩ := leaf
      obtain ⟨field, st₁, others, first, each, rfl⟩ := selectLeaves_cons_ok selected
      have next : Selecting d scope selections st₁ :=
        (selectLeaf_leads resolved first).selecting selecting
      have slotsGrow : st₁.resolver.block.select <+: st'.resolver.block.select :=
        (selectLeaves_leads resolved each : st₁.Leads d scope selections st').slots
      obtain ⟨samePath, value⟩ := selectLeaf_reads selecting resolved located first
        ((selectLeaves_grows each).covers covers) represents spread (slotsGrow.trans later)
      rw [assembleFields, Row.objectResult, value, samePath]
      apply bind_congr_ok
      intro v _
      exact ih next each (placeAt object path v)

/-- A selected path reads exactly as in the environment. -/
theorem selectPath_reads {path : Path} {name : Option String} {part : ResultPart}
    (selecting : Selecting d scope selections st)
    (selected : selectPath d scope path name st = .ok (part, st'))
    (covers : Covers usage st'.state.usage) (represents : Represents usage limit scope env row)
    (spread : Spread slots (Expression.eval row) buffer)
    (later : st'.resolver.block.select <+: slots) :
    assemble buffer part = env.result d.registry (.ref path) ∧ part.aliasName? = name := by
  obtain ⟨binding, resolved, shape⟩ := selectPath_ok selected
  obtain ⟨f, located, entity, -⟩ := represents.resolve resolved
  simp only [Environment.result, located, Frame.result, entity]
  rcases shape with ⟨isEntity, fields, leaves, rfl⟩ | ⟨isEntity, ⟨attributes, fields, mapping,
    leaves, rfl⟩ | ⟨leaf, field, mapping, selectedLeaf, rfl⟩⟩
  · rw [if_pos isEntity, assemble, selectLeaves_reads selecting resolved located leaves covers
      represents spread later]
    exact ⟨rfl, rfl⟩
  · rw [if_neg (by simp [isEntity]), mapping, assemble, selectLeaves_reads selecting resolved
      located leaves covers represents spread later]
    exact ⟨rfl, rfl⟩
  · have read := (selectLeaf_reads selecting resolved located selectedLeaf covers represents spread
      later).2
    rw [if_neg (by simp [isEntity]), mapping, assemble, read]
    cases leaf with
    | basic a => exact ⟨rfl, rfl⟩
    | transient kind => exact ⟨rfl, rfl⟩

section Viewed

variable {wanted : Expression → Prop} (view : View wanted)

theorem selectOne_reads {selection : Selection} {part : ResultPart}
    (selecting : Selecting d scope selections st)
    (selected : selectOne d scope selection st = .ok (part, st'))
    (covers : Covers usage st'.state.usage) (represents : Represents usage limit scope env row)
    (spread : Spread slots (Expression.eval row) buffer)
    (later : st'.resolver.block.select <+: slots)
    (slotsWanted : ∀ e ∈ resultColumns slots, wanted e)
    (operandWanted : ∀ {s s' : CompileState} {e : Expression},
      compileExpression d scope .select selection.operand s = .ok (e, s') → wanted e) :
    (assemble buffer part).map view.see =
        (env.result d.registry selection.operand).map view.see ∧
      part.aliasName? = selection.aliasName := by
  rcases selectOne_ok selected with ⟨path, isPath, selected⟩ | ⟨noPath, e, s₁, compiled, rfl, rfl⟩
  · obtain ⟨read, name⟩ := selectPath_reads selecting selected covers represents spread later
    rw [isPath, read]
    exact ⟨rfl, name⟩
  · have has := (selecting.ordered.resolve_hasSlot e (e.kindOr .null)).mono later
    obtain ⟨other, inside, same, value⟩ := spread.expression has
    have looks : view.see (other.eval row) = view.see (e.eval row) :=
      view.alike (slotsWanted other inside) (operandWanted compiled) same row
    have meaning : env.result d.registry selection.operand = .ok (e.eval row) := by
      rw [compileExpression_value compiled covers represents]
      cases operand : selection.operand with
      | ref path => exact absurd operand (noPath path)
      | literal l => rfl
      | call name args => rfl
    refine ⟨?_, rfl⟩
    rw [meaning, assemble, readSlot, value]
    exact congrArg Except.ok looks

theorem selectEach_reads {some : List Selection} {parts : List ResultPart}
    (members : ∀ selection ∈ some, selection ∈ selections)
    (selecting : Selecting d scope selections st)
    (selected : selectEach d scope some st = .ok (parts, st'))
    (covers : Covers usage st'.state.usage) (represents : Represents usage limit scope env row)
    (spread : Spread slots (Expression.eval row) buffer)
    (later : st'.resolver.block.select <+: slots)
    (slotsWanted : ∀ e ∈ resultColumns slots, wanted e)
    (operandsWanted : ∀ selection ∈ some, ∀ {s s' : CompileState} {e : Expression},
      compileExpression d scope .select selection.operand s = .ok (e, s') → wanted e) :
    (assembleEach buffer parts).map (List.map view.see) =
        (env.results d.registry some).map (List.map view.see) ∧
      allNames parts = some.mapM (·.aliasName) := by
  induction some generalizing st parts with
  | nil =>
      cases selected
      exact ⟨rfl, rfl⟩
  | cons selection rest ih =>
      obtain ⟨part, st₁, others, first, each, rfl⟩ := selectEach_cons_ok selected
      have member : selection ∈ selections := members selection List.mem_cons_self
      have membersRest : ∀ other ∈ rest, other ∈ selections :=
        fun other inside => members other (List.mem_cons_of_mem _ inside)
      have next : Selecting d scope selections st₁ :=
        (selectOne_leads member first).selecting selecting
      have slotsGrow : st₁.resolver.block.select <+: st'.resolver.block.select :=
        (selectEach_leads membersRest each).slots
      obtain ⟨one, name⟩ := selectOne_reads view selecting first
        ((selectEach_grows each).covers covers) represents spread (slotsGrow.trans later)
        slotsWanted (operandsWanted selection List.mem_cons_self)
      obtain ⟨several, names⟩ := ih membersRest next each
        fun other inside => operandsWanted other (List.mem_cons_of_mem _ inside)
      constructor
      · exact map_cons_congr one several
      · rw [allNames, name, names, List.mapM_cons]
        rfl

theorem map_assemblies_congr {names : Option (List String)}
    {xs ys : Except ConversionError (List Value)}
    (alike : xs.map (List.map view.see) = ys.map (List.map view.see)) :
    (do let values ← xs
        match names with
        | some names => .ok (.object (Keyed.ofList (names.zip values)))
        | none => .ok (.array values) : Except ConversionError Value).map view.see =
      (do let values ← ys
          match names with
          | some names => .ok (.object (Keyed.ofList (names.zip values)))
          | none => .ok (.array values) : Except ConversionError Value).map view.see := by
  cases xs with
  | error failure =>
      cases ys with
      | error failure' => simpa [Except.map] using alike
      | ok ws => simp [Except.map] at alike
  | ok vs =>
      cases ys with
      | error failure' => simp [Except.map] at alike
      | ok ws =>
          have same : vs.map view.see = ws.map view.see := by simpa [Except.map] using alike
          cases names with
          | none => exact congrArg Except.ok (view.array same)
          | some names => exact congrArg Except.ok (view.object names same)

/-- A result row reads as what the selections give in the environment behind it. -/
theorem readRow_assembled {some : List Selection} {parts : List ResultPart} {result : List Value}
    (members : ∀ selection ∈ some, selection ∈ selections)
    (selecting : Selecting d scope selections st)
    (selected : selectEach d scope some st = .ok (parts, st'))
    (covers : Covers usage st'.state.usage) (represents : Represents usage limit scope env row)
    (spread : Spread slots (Expression.eval row) (fillBuffer slots result))
    (later : st'.resolver.block.select <+: slots)
    (slotsWanted : ∀ e ∈ resultColumns slots, wanted e)
    (operandsWanted : ∀ selection ∈ some, ∀ {s s' : CompileState} {e : Expression},
      compileExpression d scope .select selection.operand s = .ok (e, s') → wanted e) :
    (readRow slots parts result).map view.see = (env.assembled d.registry some).map view.see := by
  obtain ⟨each, names⟩ := selectEach_reads view members selecting selected covers represents spread
    later slotsWanted operandsWanted
  cases some with
  | nil =>
      cases selected
      rfl
  | cons first rest =>
      obtain ⟨part, st₁, others, one, more, rfl⟩ := selectEach_cons_ok selected
      cases rest with
      | nil =>
          -- A single selection is read as it is, not as one of a list.
          cases more
          exact (selectOne_reads view selecting one covers represents spread later slotsWanted
            (operandsWanted first List.mem_cons_self)).1
      | cons second rest =>
          obtain ⟨part', st₂, others', -, -, rfl⟩ := selectEach_cons_ok more
          unfold readRow Environment.assembled
          simp only [names]
          exact map_assemblies_congr view each

end Viewed

end EntityQuery
