import EntityQuery.Proofs.Compilation.Translation
import EntityQuery.Proofs.Engine.Listing
import EntityQuery.Proofs.Mapping.Leaves

/-! # The layout of results

Where the parts of a result are read from. The buffer has the places of the outermost select list,
no more and no fewer, whatever blocks are nested inside; every leaf that is read back has the place
of its own column, or the empty place if it is not stored; every selected expression has the place
of an expression that counts as the same.
-/

namespace EntityQuery

section Places

variable (registry : ConverterRegistry) (table : TableRef) (slots : List Slot)

/-- What is read for a leaf: the column of the attribute, with the converter in effect, or an empty
    slot if the leaf is not stored. -/
inductive Leaf.ReadAt : Leaf → Nat → Option Converter → Prop where
  | basic {a : BasicAttribute} {index : Nat} {slot : Slot} {converter : Option Converter}
      (place : slots[index]? = some slot)
      (holds : slot.expression? = some (.ref (columnOf registry table a)))
      (effective : registry.converterFor a = .ok converter) :
      ReadAt (.basic a) index converter
  | transient {kind : Kind} {index : Nat} {slot : Slot} (place : slots[index]? = some slot)
      (empty : slot.isEmpty = true) : ReadAt (.transient kind) index none

/-- A field reads one of the leaves of the attributes. -/
structure ResultField.Reads (attributes : Attributes) (leaf : AttributePath × Leaf)
    (field : ResultField) : Prop where
  path : field.path = leaf.1
  mapped : NamedApart attributes → attributes.at? field.path = some leaf.2.toMapping
  read : leaf.2.ReadAt registry table slots field.index field.converter

end Places

section Parts

variable (alike : Expression → Expression → Prop) (d : Domain) (root : Root) (e : Entity)
  (table : TableRef) (slots : List Slot)

/-- What one selection of a block becomes, whose root stands for a row of the entity. An expression
    is read from a slot with one that is alike. -/
inductive Selection.ReadBy : Selection → ResultPart → Prop where
  | entity {aliasName : Option String} {fields : List ResultField}
      (each : List.Forall₂ (ResultField.Reads d.registry table slots e.attributes)
        e.leaves fields) :
      ReadBy ⟨.ref ⟨root.aliasName, []⟩, aliasName⟩ (.composite aliasName fields)
  | embedded {path : AttributePath} {aliasName : Option String} {attributes : Attributes}
      {fields : List ResultField} (located : e.at? path = some (.embedded attributes))
      (each : List.Forall₂ (ResultField.Reads d.registry table slots attributes)
        (leavesOf attributes) fields) :
      ReadBy ⟨.ref ⟨root.aliasName, path⟩, aliasName⟩ (.composite aliasName fields)
  | leaf {path : AttributePath} {aliasName : Option String} {leaf : Leaf} {index : Nat}
      {converter : Option Converter} (located : e.at? path = some leaf.toMapping)
      (read : leaf.ReadAt d.registry table slots index converter) :
      ReadBy ⟨.ref ⟨root.aliasName, path⟩, aliasName⟩ (.basic aliasName index converter)
  | expression {t : Operand} {aliasName : Option String} {index : Nat} {slot : Slot}
      {held wanted : Expression} (noPath : ∀ path, t ≠ .ref path)
      (translated : (Scope.within [] root.aliasName e table).expression? d.registry t = some wanted)
      (place : slots[index]? = some slot) (holds : slot.expression? = some held)
      (same : alike held wanted) :
      ReadBy ⟨t, aliasName⟩ (.basic aliasName index none)

end Parts

/-- The buffer is that of the outermost block, and every selection is read from it. -/
structure CompiledSelect.LaidOut (alike : Expression → Expression → Prop) (d : Domain) (q : Query)
    (compiled : CompiledSelect) : Prop where
  slots : compiled.slots = compiled.block.select
  parts : ∃ e, d.model.entity? q.root.entity = some e ∧ compiled.block.table.table = e.table ∧
    List.Forall₂
      (Selection.ReadBy alike d q.root e compiled.block.table compiled.slots)
      q.selected compiled.results

/-- Every slot stands at the place that it has as its own. -/
def InPlace (slots : List Slot) : Prop := ∀ slot ∈ slots, slots[slot.index]? = some slot

theorem HasSlot.expression {slots : List Slot} {e : Expression} {index : Nat}
    (inPlace : InPlace slots) (has : HasSlot slots (.expression e) index) :
    ∃ slot held, slots[index]? = some slot ∧ slot.expression? = some held ∧
      held.identity = e.identity := by
  obtain ⟨slot, inside, rfl, same⟩ := has
  obtain ⟨held, holds, alike⟩ := Slot.expression?_of_key same
  exact ⟨slot, held, inPlace slot inside, holds, alike⟩

theorem HasSlot.readAt {registry : ConverterRegistry} {table : TableRef} {slots : List Slot}
    {a : BasicAttribute} {index : Nat} {converter : Option Converter} (inPlace : InPlace slots)
    (has : HasSlot slots (.expression (.ref (columnOf registry table a))) index)
    (effective : registry.converterFor a = .ok converter) :
    Leaf.ReadAt registry table slots (.basic a) index converter := by
  obtain ⟨slot, held, place, holds, same⟩ := has.expression inPlace
  have column : held = .ref (columnOf registry table a) := by
    cases held <;> simp_all [Term.identity]
  exact .basic place (column ▸ holds) effective

theorem HasSlot.readAt_empty {registry : ConverterRegistry} {table : TableRef} {slots : List Slot}
    {index : Nat} (kind : Kind) (inPlace : InPlace slots) (has : HasSlot slots .placeholder index) :
    Leaf.ReadAt registry table slots (.transient kind) index none := by
  obtain ⟨slot, inside, rfl, same⟩ := has
  refine .transient (inPlace slot inside) (Slot.isEmpty_iff_key.mpr ?_)
  cases key : slot.key with
  | placeholder => rfl
  | expression e => simp [key, SlotKey.identity] at same

variable {d : Domain} {scope : Scope} {selections : List Selection} {st st' : SelectState}
  {aliasName : String} {binding : Binding} {slots : List Slot}

theorem selectLeaf_readAt {path : AttributePath} {leaf : Leaf} {field : ResultField}
    (resolved : scope.resolve? aliasName = some binding)
    (selecting : Selecting d scope selections st)
    (selected : selectLeaf d binding.table path leaf st = .ok (field, st'))
    (later : st'.resolver.block.select <+: slots) (inPlace : InPlace slots) :
    field.path = path ∧
      leaf.ReadAt d.registry binding.table slots field.index field.converter := by
  have has := (selectLeaf_hasSlot resolved selecting selected).mono later
  cases leaf with
  | basic a =>
      obtain ⟨converter, effective, rfl, -⟩ := selectLeaf_basic_ok selected
      exact ⟨rfl, has.readAt inPlace effective⟩
  | transient kind =>
      rcases selectLeaf_transient_ok selected with ⟨slot, -, rfl, -⟩ | ⟨slot, r, -, -, rfl, -⟩
      · exact ⟨rfl, has.readAt_empty kind inPlace⟩
      · exact ⟨rfl, has.readAt_empty kind inPlace⟩

theorem selectLeaves_reads_each {attributes : Attributes} {leaves : List (AttributePath × Leaf)}
    {fields : List ResultField} (resolved : scope.resolve? aliasName = some binding)
    (members : ∀ leaf ∈ leaves, leaf ∈ leavesOf attributes)
    (selecting : Selecting d scope selections st)
    (selected : selectLeaves d binding.table leaves st = .ok (fields, st'))
    (later : st'.resolver.block.select <+: slots) (inPlace : InPlace slots) :
    List.Forall₂ (ResultField.Reads d.registry binding.table slots attributes) leaves fields := by
  induction leaves generalizing st fields with
  | nil =>
      cases selected
      exact .nil
  | cons leaf rest ih =>
      obtain ⟨path, leaf⟩ := leaf
      obtain ⟨field, st₁, others, first, each, rfl⟩ := selectLeaves_cons_ok selected
      have next : Selecting d scope selections st₁ :=
        (selectLeaf_leads resolved first).selecting selecting
      have slotsGrow : st₁.resolver.block.select <+: st'.resolver.block.select :=
        (selectLeaves_leads resolved each : st₁.Leads d scope selections st').slots
      obtain ⟨rfl, read⟩ :=
        selectLeaf_readAt resolved selecting first (slotsGrow.trans later) inPlace
      refine .cons ⟨rfl, fun named => ?_, read⟩
        (ih (fun other inside => members other (List.mem_cons_of_mem _ inside)) next each)
      exact leavesOf_at? named (members _ List.mem_cons_self)

section Outermost

variable {wanted : Expression → Prop} {alike : Expression → Expression → Prop} {root : Root}
  {e : Entity} {table : TableRef}

theorem resolve?_within_outermost {binding : Binding}
    (resolved : Scope.resolve? (Scope.within [] root.aliasName e table) aliasName = some binding) :
    aliasName = root.aliasName ∧ binding = ⟨e, table⟩ := by
  by_cases same : root.aliasName = aliasName
  · simp [Scope.within, Scope.resolve?, Keyed.get?, same] at resolved
    exact ⟨same.symm, resolved.symm⟩
  · simp [Scope.within, Scope.resolve?, Keyed.get?, same] at resolved

theorem selectPath_readBy {path : Path} {name : Option String} {part : ResultPart}
    (selecting : Selecting d (Scope.within [] root.aliasName e table) selections st)
    (selected : selectPath d (Scope.within [] root.aliasName e table) path name st =
      .ok (part, st'))
    (later : st'.resolver.block.select <+: slots) (inPlace : InPlace slots) :
    Selection.ReadBy alike d root e table slots ⟨.ref path, name⟩ part := by
  obtain ⟨binding, resolved, shape⟩ := selectPath_ok selected
  obtain ⟨own, rfl⟩ := resolve?_within_outermost resolved
  obtain ⟨aliasName, attributes⟩ := path
  subst own
  rcases shape with ⟨isEntity, fields, leaves, rfl⟩ | ⟨-, ⟨inner, fields, mapping, leaves, rfl⟩ |
    ⟨leaf, field, mapping, leaf, rfl⟩⟩
  · cases (List.isEmpty_iff.mp isEntity : attributes = [])
    exact .entity
      (selectLeaves_reads_each resolved (fun _ member => member) selecting leaves later inPlace)
  · exact .embedded mapping
      (selectLeaves_reads_each resolved (fun _ member => member) selecting leaves later inPlace)
  · exact .leaf mapping (selectLeaf_readAt resolved selecting leaf later inPlace).2

theorem selectOne_readBy {selection : Selection} {part : ResultPart}
    (close : ∀ {held other : Expression}, wanted held → wanted other →
      held.identity = other.identity → alike held other)
    (selecting : Selecting d (Scope.within [] root.aliasName e table) selections st)
    (selected : selectOne d (Scope.within [] root.aliasName e table) selection st =
      .ok (part, st'))
    (later : st'.resolver.block.select <+: slots) (inPlace : InPlace slots)
    (slotsWanted : ∀ held ∈ resultColumns slots, wanted held)
    (operandWanted : ∀ {s s' : CompileState} {other : Expression},
      compileExpression d (Scope.within [] root.aliasName e table) .select selection.operand s =
        .ok (other, s') → wanted other) :
    selection.ReadBy alike d root e table slots part := by
  obtain ⟨operand, name⟩ := selection
  rcases selectOne_ok selected with ⟨path, rfl, selected⟩ | ⟨noPath, other, s₁, compiled, rfl, rfl⟩
  · exact selectPath_readBy selecting selected later inPlace
  · have has := (selecting.ordered.resolve_hasSlot other (other.kindOr .null)).mono later
    obtain ⟨slot, held, place, holds, same⟩ := has.expression inPlace
    have requested : held ∈ resultColumns slots :=
      List.mem_filterMap.mpr ⟨slot, List.mem_of_getElem? place, holds⟩
    exact .expression noPath (compileExpression_expression compiled) place holds
      (close (slotsWanted held requested) (operandWanted compiled) same)

theorem selectEach_readBy {some : List Selection} {parts : List ResultPart}
    (close : ∀ {held other : Expression}, wanted held → wanted other →
      held.identity = other.identity → alike held other)
    (members : ∀ selection ∈ some, selection ∈ selections)
    (selecting : Selecting d (Scope.within [] root.aliasName e table) selections st)
    (selected : selectEach d (Scope.within [] root.aliasName e table) some st = .ok (parts, st'))
    (later : st'.resolver.block.select <+: slots) (inPlace : InPlace slots)
    (slotsWanted : ∀ held ∈ resultColumns slots, wanted held)
    (operandsWanted : ∀ selection ∈ some, ∀ {s s' : CompileState} {other : Expression},
      compileExpression d (Scope.within [] root.aliasName e table) .select selection.operand s =
        .ok (other, s') → wanted other) :
    List.Forall₂ (Selection.ReadBy alike d root e table slots) some parts := by
  induction some generalizing st parts with
  | nil =>
      cases selected
      exact .nil
  | cons selection rest ih =>
      obtain ⟨part, st₁, others, first, each, rfl⟩ := selectEach_cons_ok selected
      have member : selection ∈ selections := members selection List.mem_cons_self
      have membersRest : ∀ other ∈ rest, other ∈ selections :=
        fun other inside => members other (List.mem_cons_of_mem _ inside)
      have next := (selectOne_leads member first).selecting selecting
      have slotsGrow := (selectEach_leads membersRest each).slots
      exact .cons
        (selectOne_readBy close selecting first (slotsGrow.trans later) inPlace slotsWanted
          (operandsWanted selection List.mem_cons_self))
        (ih membersRest next each
          fun other inside => operandsWanted other (List.mem_cons_of_mem _ inside))

end Outermost

variable {q : Query} {compiled : CompiledSelect}

theorem Query.laidOut_of_suits {wanted : Expression → Prop} {view : View wanted}
    {alike : Expression → Expression → Prop} (accepted : q.compile d = .ok compiled)
    (suits : view.Suits d q)
    (close : ∀ {held other : Expression}, wanted held → wanted other →
      held.identity = other.identity → alike held other) :
    compiled.LaidOut alike d q := by
  obtain ⟨e, st, known, selected, table, select, slots, -⟩ := Query.compile_selected accepted
  have selecting := (selectEach_leads (fun selection member => member) selected).selecting
    (.start _ _ _)
  refine ⟨slots.trans select.symm, e, known, congrArg TableRef.table table, ?_⟩
  rw [table, slots]
  exact selectEach_readBy close (fun selection member => member) (.start _ _ _) selected
    (List.prefix_refl _) (fun slot inside => selecting.ordered.getElem?_index inside)
    (fun held member => suits.requested (selecting.requested held member))
    (fun selection member => suits.operand selection member)

/-- The results of every accepted query are laid out as its selections ask. Selected expressions
    that differ in the signs of zeros count as the same; where no selected operand holds a negative
    zero, each has its very own. -/
theorem Query.laidOut (accepted : q.compile d = .ok compiled) :
    compiled.LaidOut (fun held wanted => held.same wanted = true) d q ∧
      ((∀ selection ∈ q.selections, selection.operand.identity = selection.operand) →
        compiled.LaidOut (· = ·) d q) := by
  constructor
  · exact Query.laidOut_of_suits accepted (View.zeros_suits d q)
      fun _ _ same => decide_eq_true same
  · intro unsigned
    refine Query.laidOut_of_suits accepted (View.plain_suits d unsigned) ?_
    intro held wanted plain plain' same
    rw [← plain, same, plain']

theorem Query.laidOut_neighbours :
    ∃ compiled, Sample.neighbours.compile Sample.people.domain = .ok compiled ∧
      compiled.LaidOut (· = ·) Sample.people.domain Sample.neighbours := by
  obtain ⟨compiled, accepted⟩ :
      ∃ compiled, Sample.neighbours.compile Sample.people.domain = .ok compiled :=
    isOk_iff.mp (by decide +kernel)
  exact ⟨compiled, accepted, (Query.laidOut accepted).2 (by decide)⟩

/-- The negative zero has no slot of its own beside the other zero. -/
theorem Query.not_laidOut_zeros :
    ∃ compiled, Sample.zeros.compile Sample.people.domain = .ok compiled ∧
      ¬ compiled.LaidOut (· = ·) Sample.people.domain Sample.zeros := by
  have held : (Sample.zeros.compile Sample.people.domain).toOption.map
      (fun compiled => resultColumns compiled.slots) =
        some [.literal (.float (.finite ⟨false, 0⟩))] := by decide +kernel
  obtain ⟨compiled, accepted⟩ :
      ∃ compiled, Sample.zeros.compile Sample.people.domain = .ok compiled :=
    isOk_iff.mp (by decide +kernel)
  have columns : resultColumns compiled.slots = [.literal (.float (.finite ⟨false, 0⟩))] := by
    simpa [accepted, Except.toOption] using held
  refine ⟨compiled, accepted, ?_⟩
  rintro ⟨-, e, -, -, parts⟩
  obtain ⟨-, others, -, rest, -⟩ := List.forall₂_cons_left_iff.mp parts
  obtain ⟨second, -, read, -⟩ := List.forall₂_cons_left_iff.mp rest
  cases read with
  | expression noPath translated place holds same =>
      cases translated
      have negative := List.mem_filterMap.mpr ⟨_, List.mem_of_getElem? place, holds⟩
      change _ ∈ resultColumns compiled.slots at negative
      rw [same, columns] at negative
      exact absurd negative (by decide)

end EntityQuery
