import EntityQuery.Proofs.Compilation.WellFormed
import EntityQuery.Proofs.Meaning.Operands
import EntityQuery.Proofs.Resolver.Ordered

/-! # What compiles

Every part of a statement compiles exactly if it is well-formed, in whatever state the compilation
has come to. `Shows` ties the scope of the compiler to the entities that the aliases stand for, and
`SelectState.Fits` says what a select list must look like for its one empty slot to be had.
-/

namespace EntityQuery

section Scopes

/-- The aliases in the scope stand for the visible entities. -/
def Shows (scope : Scope) (visible : Visible) : Prop :=
  ∀ aliasName, (scope.resolve? aliasName).map (·.entity) = Keyed.get? visible aliasName

theorem Shows.nothing : Shows [] [] := fun _ => rfl

theorem Shows.within {scope : Scope} {visible : Visible} (shows : Shows scope visible)
    (aliasName : String) (e : Entity) (table : TableRef) :
    Shows (scope.within aliasName e table) ((aliasName, e) :: visible) := by
  intro other
  by_cases same : aliasName = other
  · simp [Scope.within, Scope.resolve?, Keyed.get?, same]
  · simpa [Scope.within, Scope.resolve?, Keyed.get?, same] using shows other

variable {d : Domain} {scope : Scope} {visible : Visible} {clause : Clause}

theorem ConverterRegistry.succeeds_converterFor {r : ConverterRegistry} {a : BasicAttribute} :
    Succeeds (r.converterFor a) ↔ r.Knows a := by
  unfold converterFor Knows
  cases a.converter with
  | none =>
      simp only [reduceCtorEq, false_implies, implies_true, iff_true]
      split <;> exact succeeds_ok _
  | some name =>
      cases known : r.converter? name <;> simp [known]

theorem Domain.succeeds_converterFor {a : BasicAttribute} {path : AttributePath} :
    Succeeds (d.converterFor a path) ↔ d.registry.Knows a := by
  rw [← ConverterRegistry.succeeds_converterFor]
  exact exists_congr fun _ => Domain.converterFor_eq_ok

theorem Shows.resolve {aliasName : String} {binding : Binding} (shows : Shows scope visible)
    (resolved : scope.resolve? aliasName = some binding) :
    Keyed.get? visible aliasName = some binding.entity := by
  rw [← shows, resolved]
  rfl

theorem compilePath_succeeds (shows : Shows scope visible) (path : Path) (s : CompileState) :
    Succeeds (compilePath d scope clause path s) ↔ visible.Reaches d path := by
  constructor
  · rintro ⟨⟨⟨e, converter⟩, s'⟩, compiled⟩
    obtain ⟨binding, a, resolved, located, effective, -, -⟩ := compilePath_ok compiled
    refine ⟨a, ?_, ConverterRegistry.succeeds_converterFor.mp ⟨converter, effective⟩⟩
    simp [Visible.column?, shows.resolve resolved, Entity.columnAt?, located]
  · rintro ⟨a, leads, known⟩
    obtain ⟨converter, effective⟩ := ConverterRegistry.succeeds_converterFor.mpr known
    obtain ⟨e, seen, located⟩ := Option.bind_eq_some_iff.mp leads
    obtain ⟨binding, resolved, rfl⟩ := Option.map_eq_some_iff.mp ((shows _).trans seen)
    unfold compilePath
    rw [Scope.resolve_eq_ok.mpr resolved, ok_bind]
    simp only [Entity.columnAt?_eq_some.mp located, Domain.converterFor_eq_ok.mpr effective,
      ok_bind, succeeds_ok]

theorem compilePath_converter (shows : Shows scope visible) {path : Path} {s s' : CompileState}
    {e : Expression} {converter : Option Converter}
    (compiled : compilePath d scope clause path s = .ok ((e, converter), s')) :
    converter = visible.converter? d.registry (.ref path) := by
  obtain ⟨binding, a, resolved, located, effective, -, -⟩ := compilePath_ok compiled
  simp [Visible.converter?, Visible.column?, shows.resolve resolved, Entity.columnAt?, located,
    ConverterRegistry.inEffect?, effective]

mutual

theorem compileOperand_succeeds (shows : Shows scope visible) (t : Operand) (s : CompileState) :
    Succeeds (compileOperand d scope clause t s) ↔ visible.Admits d t := by
  cases t with
  | ref path =>
      rw [compileOperand, compilePath_succeeds shows]
      simp [Visible.Admits, Term.refs]
  | literal l =>
      rw [compileOperand]
      simp [Visible.Admits, Term.refs]
  | call name args =>
      have each := compileOperands_succeeds shows args s
      rw [compileOperand, succeeds_bind (p := True) (by simp), each, and_true, Visible.Admits,
        Term.refs]
termination_by sizeOf t

theorem compileOperands_succeeds (shows : Shows scope visible) (args : List Operand)
    (s : CompileState) :
    Succeeds (compileOperands d scope clause args s) ↔
      ∀ path ∈ Term.refsOfList args, visible.Reaches d path := by
  cases args with
  | nil =>
      rw [compileOperands]
      simp [Term.refsOfList]
  | cons t rest =>
      have first := compileOperand_succeeds shows t s
      rw [compileOperands,
        succeeds_bind (p := ∀ path ∈ Term.refsOfList rest, visible.Reaches d path), first]
      · simp only [Visible.Admits, Term.refsOfList, List.mem_append, or_imp, forall_and]
      · rintro ⟨⟨e, converter⟩, s₁⟩ -
        rw [succeeds_bind (p := True) (by simp), compileOperands_succeeds shows rest s₁, and_true]
termination_by sizeOf args

end

theorem compileExpression_succeeds (shows : Shows scope visible) (t : Operand) (s : CompileState) :
    Succeeds (compileExpression d scope clause t s) ↔ visible.Admits d t := by
  rw [compileExpression, succeeds_bind (p := True) (by simp), compileOperand_succeeds shows,
    and_true]

theorem Shows.operand_converter (shows : Shows scope visible) {t : Operand} {s s' : CompileState}
    {e : Expression} {converter : Option Converter}
    (compiled : compileOperand d scope clause t s = .ok ((e, converter), s')) :
    converter = visible.converter? d.registry t := by
  cases t with
  | ref path =>
      rw [compileOperand] at compiled
      exact compilePath_converter shows compiled
  | literal l =>
      rw [compileOperand] at compiled
      cases compiled
      rfl
  | call name args =>
      obtain ⟨es, -, -, rfl⟩ := compileOperand_call_ok compiled
      rfl

theorem storedForm_succeeds {t : Operand} {s s' : CompileState} {e : Expression}
    {own : Option Converter} (compiled : compileOperand d scope clause t s = .ok ((e, own), s'))
    (converter : Option Converter) :
    Succeeds (storedForm e converter) ↔ Operand.Storable converter t := by
  unfold storedForm
  split
  · next l c =>
    obtain rfl := compileOperand_literal compiled
    cases converted : c.toDatabase l.toValue with
    | error failure => simp [Operand.Storable, converted]
    | ok v => cases literal : Literal.ofValue? v <;> simp [Operand.Storable, converted, literal]
  · next unchanged =>
    simp only [succeeds_ok, true_iff]
    rintro l c rfl rfl
    rw [compileOperand] at compiled
    cases compiled
    exact absurd rfl (unchanged l c rfl)

end Scopes

section SelectLists

/-- The select list was begun. -/
def SelectState.started (st : SelectState) : Bool := st.resolver.slots.isSome

/-- What is known about the empty slot of a select list is right. -/
structure SelectState.Fits (st : SelectState) : Prop where
  missing : st.placeholder = none → st.resolver.slotOf? .placeholder = none
  present : st.placeholder.isSome → st.started = true

/-- Nothing is known of the empty slot of a new block, and it has none. -/
theorem SelectState.Fits.start (id : Nat) (table : TableRef) (s : CompileState) :
    (SelectState.start id table s).Fits where
  missing := fun _ => rfl
  present := by simp [SelectState.start]

/-- More columns and empty places can be added to a select list: it was begun, or begins with a
    column. -/
def Opens (started : Bool) (columns : List Bool) : Prop :=
  started = true ∨ columns.head? ≠ some false

theorem opens_append {started : Bool} {columns others : List Bool} :
    Opens started (columns ++ others) ↔
      Opens started columns ∧ Opens (started || !columns.isEmpty) others := by
  cases columns <;> simp [Opens]

/-- The select list has come from the one state to the other by adding columns and empty places. -/
structure SelectState.Adds (st : SelectState) (columns : List Bool) (st' : SelectState) : Prop where
  fits : st.Fits → st'.Fits
  started : st'.started = (st.started || !columns.isEmpty)

namespace SelectState.Adds

variable {st st' st'' : SelectState}

theorem nothing (st : SelectState) : st.Adds [] st := ⟨id, by simp⟩

theorem trans {columns others : List Bool} (first : st.Adds columns st')
    (second : st'.Adds others st'') : st.Adds (columns ++ others) st'' where
  fits := fun fits => second.fits (first.fits fits)
  started := by
    rw [second.started, first.started]
    cases columns <;> simp

theorem resolve (st : SelectState) (s : CompileState) (e : Expression) (kind : Kind) :
    st.Adds [true] { st with resolver := (st.resolver.resolve e kind).2, state := s } := by
  rcases st.resolver.resolve_cases e kind with ⟨slot, found, step⟩ | ⟨fresh, step⟩
  · -- A slot that was found is one of a select list that was begun.
    have begun : st.started = true := by
      unfold SelectState.started
      cases slots : st.resolver.slots with
      | none => simp [Resolver.resolved?, Resolver.slotOf?, slots] at found
      | some assigned => rfl
    rw [step]
    exact ⟨fun fits => ⟨fits.missing, fits.present⟩, by simpa [SelectState.started] using begun⟩
  · rw [step]
    refine ⟨fun fits => ⟨?_, fun _ => rfl⟩, by simp [SelectState.started, Resolver.create]⟩
    intro unknown
    rw [Resolver.slotOf?_create kind fresh, if_neg (by simp [SlotKey.identity])]
    exact fits.missing unknown

theorem placeholder (st : SelectState) {slot : Slot} {r : Resolver Unit}
    (step : st.resolver.placeholder = .ok (slot, r)) :
    st.Adds [false] { st with resolver := r, placeholder := some slot } := by
  rcases st.resolver.placeholder_cases with ⟨failure, refused⟩ | ⟨-, -, created⟩
  · rw [refused] at step
    cases step
  · rw [created] at step
    cases step
    exact ⟨fun _ => ⟨by simp, fun _ => rfl⟩, by simp [SelectState.started]⟩

end SelectState.Adds

variable {d : Domain} {scope : Scope} {visible : Visible} {st st' : SelectState}

theorem selectLeaf_adds {table : TableRef} {path : AttributePath} {leaf : Leaf}
    {field : ResultField} (fits : st.Fits)
    (selected : selectLeaf d table path leaf st = .ok (field, st')) :
    st.Adds [leaf.isStored] st' := by
  cases leaf with
  | basic a =>
      obtain ⟨converter, -, -, rfl⟩ := selectLeaf_basic_ok selected
      exact .resolve st _ _ _
  | transient kind =>
      rcases selectLeaf_transient_ok selected with ⟨slot, known, -, rfl⟩ |
        ⟨slot, r, -, step, -, rfl⟩
      · exact ⟨id, by simp [fits.present (by simp [known])]⟩
      · exact .placeholder st step

theorem selectLeaf_succeeds (fits : st.Fits) (table : TableRef) (path : AttributePath)
    (leaf : Leaf) :
    Succeeds (selectLeaf d table path leaf st) ↔
      (∀ a, leaf = .basic a → d.registry.Knows a) ∧ Opens st.started [leaf.isStored] := by
  cases leaf with
  | basic a =>
      unfold selectLeaf
      rw [succeeds_bind (p := True) (by simp), Domain.succeeds_converterFor]
      simp [Opens, Leaf.isStored]
  | transient kind =>
      unfold selectLeaf
      cases known : st.placeholder with
      | some slot => simp [Opens, fits.present (by simp [known])]
      | none =>
          simp only
          rw [succeeds_bind (p := True) (by simp)]
          cases begun : st.resolver.slots with
          | none =>
              simp [Opens, Leaf.isStored, SelectState.started, Resolver.placeholder, begun]
          | some assigned =>
              simp [Opens, SelectState.started, Resolver.placeholder, begun, fits.missing known]

theorem selectLeaves_adds {table : TableRef} {leaves : List (AttributePath × Leaf)}
    {fields : List ResultField} (fits : st.Fits)
    (selected : selectLeaves d table leaves st = .ok (fields, st')) :
    st.Adds ((leaves.map (·.2)).map Leaf.isStored) st' := by
  induction leaves generalizing st fields with
  | nil =>
      cases selected
      exact .nothing _
  | cons leaf rest ih =>
      obtain ⟨field, st₁, others, first, each, -⟩ := selectLeaves_cons_ok selected
      have one := selectLeaf_adds fits first
      exact one.trans (ih (one.fits fits) each)

theorem selectLeaves_succeeds (fits : st.Fits) (table : TableRef)
    (leaves : List (AttributePath × Leaf)) :
    Succeeds (selectLeaves d table leaves st) ↔
      (∀ a, .basic a ∈ leaves.map (·.2) → d.registry.Knows a) ∧
        Opens st.started ((leaves.map (·.2)).map Leaf.isStored) := by
  induction leaves generalizing st with
  | nil => simp [selectLeaves, Opens]
  | cons leaf rest ih =>
      rw [selectLeaves, succeeds_bind (p := (∀ a, .basic a ∈ rest.map (·.2) → d.registry.Knows a) ∧
        Opens true ((rest.map (·.2)).map Leaf.isStored)), selectLeaf_succeeds fits]
      · have split := @opens_append st.started [leaf.2.isStored]
          ((rest.map (·.2)).map Leaf.isStored)
        simp only [List.singleton_append, List.isEmpty_cons, Bool.not_false, Bool.or_true] at split
        simp only [List.map_cons, List.mem_cons, split, or_imp, forall_and, eq_comm]
        tauto
      · rintro ⟨field, st₁⟩ first
        have one := selectLeaf_adds fits first
        have begun : st₁.started = true := by simpa using one.started
        rw [succeeds_bind (p := True) (by simp), ih (one.fits fits), begun, and_true]

theorem Shows.leaves? (shows : Shows scope visible) {path : Path} {binding : Binding}
    (resolved : scope.resolve? path.aliasName = some binding) :
    visible.leaves? path =
      if path.isEntity then some (binding.entity.leaves.map (·.2))
      else (binding.entity.at? path.attributes).map fun mapping => mapping.leaves.map (·.2) := by
  rw [Visible.leaves?, shows.resolve resolved]
  rfl

theorem selectPath_adds (shows : Shows scope visible) {path : Path} {name : Option String}
    {part : ResultPart} (fits : st.Fits)
    (selected : selectPath d scope path name st = .ok (part, st')) :
    st.Adds (visible.columns (.ref path)) st' := by
  obtain ⟨binding, resolved, shape⟩ := selectPath_ok selected
  rw [Visible.columns, shows.leaves? resolved]
  rcases shape with ⟨isEntity, fields, leaves, -⟩ | ⟨isEntity, ⟨attributes, fields, mapping, leaves,
    -⟩ | ⟨leaf, field, mapping, single, -⟩⟩
  · rw [if_pos isEntity]
    exact selectLeaves_adds fits leaves
  · rw [if_neg (by simp [isEntity]), mapping]
    exact selectLeaves_adds fits leaves
  · rw [if_neg (by simp [isEntity]), mapping]
    cases leaf with
    | basic a => exact selectLeaf_adds fits single
    | transient kind => exact selectLeaf_adds fits single

theorem selectPath_succeeds (shows : Shows scope visible) (fits : st.Fits) (path : Path)
    (name : Option String) :
    Succeeds (selectPath d scope path name st) ↔
      visible.Selects d (.ref path) ∧ Opens st.started (visible.columns (.ref path)) := by
  show _ ↔ (∃ leaves, visible.leaves? path = some leaves ∧ _) ∧
    Opens _ (((visible.leaves? path).getD []).map _)
  unfold selectPath
  cases resolved : scope.resolve? path.aliasName with
  | none =>
      have unseen := shows path.aliasName
      rw [resolved] at unseen
      simp [Scope.resolve, resolved, Visible.leaves?, ← unseen]
  | some binding =>
      rw [shows.leaves? resolved, Scope.resolve_eq_ok.mpr resolved]
      simp only [ok_bind]
      split
      · next isEntity =>
        rw [succeeds_bind (p := True) (by simp), selectLeaves_succeeds fits]
        simp
      · next isEntity =>
        cases located : binding.entity.at? path.attributes with
        | none => simp
        | some mapping =>
            cases mapping with
            | embedded attributes =>
                simp only
                rw [succeeds_bind (p := True) (by simp), selectLeaves_succeeds fits]
                simp [AttributeMapping.leaves]
            | basic a =>
                simp only
                rw [succeeds_bind (p := True) (by simp), selectLeaf_succeeds fits]
                simp [AttributeMapping.leaves, eq_comm]
            | transient kind =>
                simp only
                rw [succeeds_bind (p := True) (by simp), selectLeaf_succeeds fits]
                simp [AttributeMapping.leaves]

theorem selectOne_adds (shows : Shows scope visible) {selection : Selection} {part : ResultPart}
    (fits : st.Fits) (selected : selectOne d scope selection st = .ok (part, st')) :
    st.Adds (visible.columns selection.operand) st' := by
  rcases selectOne_ok selected with ⟨path, isPath, selected⟩ | ⟨noPath, e, s₁, -, -, rfl⟩
  · rw [isPath]
    exact selectPath_adds shows fits selected
  · have single : visible.columns selection.operand = [true] := by
      cases operand : selection.operand with
      | ref path => exact absurd operand (noPath path)
      | literal l => rfl
      | call name args => rfl
    rw [single]
    exact .resolve st s₁ e _

theorem selectOne_succeeds (shows : Shows scope visible) (fits : st.Fits) (selection : Selection) :
    Succeeds (selectOne d scope selection st) ↔
      visible.Selects d selection.operand ∧
        Opens st.started (visible.columns selection.operand) := by
  unfold selectOne
  cases selection.operand with
  | ref path => exact selectPath_succeeds shows fits path _
  | literal l =>
      simp only
      rw [succeeds_bind (p := True) (by simp), compileExpression_succeeds shows]
      simp [Visible.Selects, Visible.columns, Opens]
  | call name args =>
      simp only
      rw [succeeds_bind (p := True) (by simp), compileExpression_succeeds shows]
      simp [Visible.Selects, Visible.columns, Opens]

theorem selectEach_succeeds (shows : Shows scope visible) (fits : st.Fits)
    (selections : List Selection) :
    Succeeds (selectEach d scope selections st) ↔
      (∀ selection ∈ selections, visible.Selects d selection.operand) ∧
        Opens st.started
          (selections.flatMap fun selection => visible.columns selection.operand) := by
  induction selections generalizing st with
  | nil => simp [selectEach, Opens]
  | cons selection rest ih =>
      rw [selectEach, succeeds_bind (p := (∀ other ∈ rest, visible.Selects d other.operand) ∧
        Opens (st.started || !(visible.columns selection.operand).isEmpty)
          (rest.flatMap fun other => visible.columns other.operand)),
        selectOne_succeeds shows fits]
      · rw [List.flatMap_cons, opens_append, List.forall_mem_cons]
        tauto
      · rintro ⟨part, st₁⟩ first
        have one := selectOne_adds shows fits first
        rw [succeeds_bind (p := True) (by simp), ih (one.fits fits), one.started, and_true]

/-- The select list of a new block can be built if its selections can be made. -/
theorem selectEach_start_succeeds (shows : Shows scope visible) (id : Nat) (table : TableRef)
    (s : CompileState) (selections : List Selection) :
    Succeeds (selectEach d scope selections (.start id table s)) ↔
      SelectsAll d visible selections := by
  rw [selectEach_succeeds shows (.start id table s)]
  constructor
  · rintro ⟨each, opens⟩
    exact ⟨each, opens.resolve_left Bool.false_ne_true⟩
  · rintro ⟨each, first⟩
    exact ⟨each, .inr first⟩

end SelectLists

variable {d : Domain}

section Orders

variable {scope : Scope} {visible : Visible} {selections : List Selection}

theorem Shows.orderedOperand_eq (shows : Shows scope visible) (t : Operand) :
    orderedOperand scope selections t = visible.sortOperand selections t := by
  cases t with
  | ref path =>
      have hidden : (scope.resolve? path.aliasName).isNone =
          (Keyed.get? visible path.aliasName).isNone := by
        rw [← shows, Option.isNone_map]
      show (if path.isEntity && (scope.resolve? path.aliasName).isNone then _ else _) = _
      rw [hidden]
      rfl
  | literal l => rfl
  | call name args => rfl

theorem compileOrderings_succeeds (shows : Shows scope visible) (orderings : List OrderBy)
    (s : CompileState) :
    Succeeds (compileOrderings d scope selections orderings s) ↔
      ∀ ordering ∈ orderings,
        visible.Admits d (visible.sortOperand selections ordering.operand) := by
  induction orderings generalizing s with
  | nil => simp [compileOrderings]
  | cons ordering rest ih =>
      rw [compileOrderings, List.forall_mem_cons, succeeds_bind, compileOrdering_eq,
        compileExpression_succeeds shows, shows.orderedOperand_eq]
      rintro ⟨e, s₁⟩ -
      rw [succeeds_bind (p := True) (by simp), ih, and_true]

end Orders

mutual

/-- A restriction compiles exactly if it is well-formed. -/
theorem compileRestriction_succeeds {scope : Scope} {visible : Visible}
    (shows : Shows scope visible) (enclosing : List Clause) (p : Restriction) (s : CompileState) :
    Succeeds (compileRestriction d scope enclosing p s) ↔ p.WellFormed d visible enclosing := by
  cases p with
  | compare left op right =>
      rw [compileRestriction, Restriction.WellFormed, succeeds_bind, compileOperand_succeeds shows]
      rintro ⟨⟨l, leftConverter⟩, s₁⟩ onLeft
      rw [succeeds_bind, compileOperand_succeeds shows]
      rintro ⟨⟨r, rightConverter⟩, s₂⟩ onRight
      rw [succeeds_bind, storedForm_succeeds onLeft, shows.operand_converter onRight]
      intro l' _
      rw [succeeds_bind (p := True) (by simp), storedForm_succeeds onRight,
        shows.operand_converter onLeft, and_true]
  | and parts =>
      rw [compileRestriction, Restriction.WellFormed, succeeds_bind (p := True) (by simp),
        compileRestrictions_succeeds shows enclosing parts s, and_true]
  | or parts =>
      rw [compileRestriction, Restriction.WellFormed, succeeds_bind (p := True) (by simp),
        compileRestrictions_succeeds shows enclosing parts s, and_true]
  | not p =>
      rw [compileRestriction, Restriction.WellFormed, succeeds_bind (p := True) (by simp),
        compileRestriction_succeeds shows enclosing p s, and_true]
  | isNull e negated =>
      rw [compileRestriction, Restriction.WellFormed, succeeds_bind (p := True) (by simp),
        compileExpression_succeeds shows, and_true]
  | like e pattern negated =>
      rw [compileRestriction, Restriction.WellFormed, succeeds_bind, compileOperand_succeeds shows]
      rintro ⟨⟨e', converter⟩, s₁⟩ onLeft
      rw [succeeds_bind, compileExpression_succeeds shows]
      rintro ⟨pattern', s₂⟩ -
      rw [← shows.operand_converter onLeft]
      cases converter <;> simp
  | existsQuery query negated =>
      rw [compileRestriction, Restriction.WellFormed, succeeds_bind (p := True) (by simp),
        compileBlock_succeeds shows (.restriction :: enclosing) query s.muted, and_true]
  | inQuery e query negated =>
      rw [compileRestriction, Restriction.WellFormed, succeeds_bind,
        compileExpression_succeeds shows]
      rintro ⟨e', s₁⟩ -
      rw [succeeds_bind (p := True) (by simp),
        compileBlock_succeeds shows (.restriction :: enclosing) query s₁.muted, and_true]
termination_by sizeOf p

theorem compileRestrictions_succeeds {scope : Scope} {visible : Visible}
    (shows : Shows scope visible) (enclosing : List Clause) (parts : List Restriction)
    (s : CompileState) :
    Succeeds (compileRestrictions d scope enclosing parts s) ↔
      wellFormedAll d visible enclosing parts := by
  cases parts with
  | nil =>
      rw [compileRestrictions, wellFormedAll]
      simp
  | cons p rest =>
      rw [compileRestrictions, wellFormedAll, succeeds_bind,
        compileRestriction_succeeds shows enclosing p s]
      rintro ⟨p', s₁⟩ -
      rw [succeeds_bind (p := True) (by simp),
        compileRestrictions_succeeds shows enclosing rest s₁, and_true]
termination_by sizeOf parts

theorem compileOptional_succeeds {scope : Scope} {visible : Visible} (shows : Shows scope visible)
    (enclosing : List Clause) (restriction : Option Restriction) (s : CompileState) :
    Succeeds (compileOptional d scope enclosing restriction s) ↔
      wellFormedOptional d visible enclosing restriction := by
  cases restriction with
  | none =>
      rw [compileOptional, wellFormedOptional]
      simp
  | some p =>
      rw [compileOptional, wellFormedOptional, succeeds_bind (p := True) (by simp),
        compileRestriction_succeeds shows enclosing p s, and_true]
termination_by sizeOf restriction

/-- A query compiles to a block exactly if it is well-formed. -/
theorem compileBlock_succeeds {outer : Scope} {visible : Visible} (shows : Shows outer visible)
    (enclosing : List Clause) (q : QueryOf Restriction) (s : CompileState) :
    Succeeds (compileBlock d outer enclosing q s) ↔
      wellFormedQuery d visible enclosing q := by
  cases q with
  | mk root selections restriction orderings limit offset =>
      rw [compileBlock, wellFormedQuery]
      split
      · next tooDeep => simp [Nat.not_le.mpr tooDeep]
      · next depth =>
        unfold Domain.entity
        cases known : d.model.entity? root.entity with
        | none => simp
        | some e =>
            have within : ∀ table,
                Shows (outer.within root.aliasName e table) ((root.aliasName, e) :: visible) :=
              shows.within root.aliasName e
            simp only [ok_bind, Option.some.injEq, exists_eq_left', Nat.not_lt.mp depth, true_and]
            rw [succeeds_bind]
            · exact and_congr_left' (selectEach_start_succeeds (within _) _ _ _ _)
            rintro ⟨results, st⟩ -
            rw [succeeds_bind]
            · exact and_congr_left' (compileOptional_succeeds (within _) enclosing restriction _)
            rintro ⟨predicate, s₁⟩ -
            rw [succeeds_bind (p := True) (by simp), and_true]
            exact compileOrderings_succeeds (within _) orderings s₁
termination_by sizeOf q

end

theorem Query.compile_succeeds (q : Query) :
    Succeeds (q.compile d) ↔ wellFormedQuery d [] [] q := by
  rw [Query.compile, succeeds_bind (p := True) (by simp), compileBlock_succeeds .nothing, and_true]

/-- A delete statement compiles exactly if its restriction is well-formed where the target alone is
    visible. -/
theorem DeleteQuery.compile_succeeds (q : DeleteQuery) :
    Succeeds (q.compile d) ↔ ∃ e, d.model.entity? q.target.entity = some e ∧
      wellFormedOptional d [(q.target.aliasName, e)] [] q.restriction := by
  unfold DeleteQuery.compile Domain.entity
  cases d.model.entity? q.target.entity with
  | none => simp
  | some e =>
      simp only [ok_bind, Option.some.injEq, exists_eq_left']
      rw [succeeds_bind (p := True) (by simp), and_true]
      exact compileOptional_succeeds (Shows.nothing.within _ _ _) [] q.restriction _

end EntityQuery
