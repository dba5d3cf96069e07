import EntityQuery.Proofs.Compilation.Selection
import EntityQuery.Proofs.Meaning.Operands

/-! # The columns of a result

Every result column of a block is settled by the environment alone: it has the same value on all
rows under evaluation that represent the environment. The first column is the first thing selected.
-/

namespace EntityQuery

variable {d : Domain} {usage : Option ColumnUsage} {limit : Nat} {scope : Scope} {env : Environment}
  {row : Row} {selections : List Selection}

/-- The value of a requested expression is the same on all rows for an environment, whatever columns
    their scans took over besides the recorded ones. -/
theorem Requested.settled {recorded : ColumnUsage} {e : Expression} {usage' : Option ColumnUsage}
    {limit' : Nat} {row' : Row} (requested : Requested d scope selections recorded e)
    (covers : Covers usage recorded) (covers' : Covers usage' recorded)
    (represents : Represents usage limit scope env row)
    (represents' : Represents usage' limit' scope env row') : e.eval row = e.eval row' := by
  cases requested with
  | column a resolved has =>
      obtain ⟨f, located, -, held⟩ := represents.resolve resolved
      obtain ⟨g, located', -, held'⟩ := represents'.resolve resolved
      have same : f = g := Option.some.inj (located.symm.trans located')
      subst same
      exact (held a.column (covers _ _ has)).trans (held' a.column (covers' _ _ has)).symm
  | operand member compiled within =>
      rw [compileExpression_value compiled (covers.mono within) represents,
        compileExpression_value compiled (covers'.mono within) represents']

theorem Slot.expression?_of_key {slot : Slot} {e : Expression}
    (same : slot.key.identity = (SlotKey.expression e).identity) :
    ∃ e', slot.expression? = some e' ∧ e'.identity = e.identity := by
  cases slot with
  | column ordinal index e' kind => exact ⟨e', rfl, by simpa [Slot.key, SlotKey.identity] using same⟩
  | empty index => simp [Slot.key, SlotKey.identity] at same

theorem Resolver.Ordered.head?_resolve {ω : Type} {r : Resolver ω} (ordered : r.Ordered)
    (e : Expression) (kind : Kind) :
    (resultColumns (r.resolve e kind).2.block.select).head? =
      (resultColumns r.block.select).head?.or (some e) := by
  rcases r.resolve_cases e kind with ⟨slot, found, step⟩ | ⟨-, step⟩
  · rw [step]
    obtain ⟨inside, same⟩ := ordered.of_slotOf? found
    obtain ⟨e', isColumn, -⟩ := Slot.expression?_of_key same
    have member : e' ∈ resultColumns r.block.select := List.mem_filterMap.mpr ⟨slot, inside, isColumn⟩
    cases columns : resultColumns r.block.select with
    | nil =>
        rw [columns] at member
        cases member
    | cons first rest => rfl
  · rw [step, Resolver.create_select, resultColumns_append, List.head?_append]
    rfl

def Resolver.firstValue? (r : Resolver Unit) (row : Row) : Option Value :=
  (resultColumns r.block.select).head?.map (·.eval row)

theorem Resolver.Ordered.firstValue?_resolve {r : Resolver Unit} (ordered : r.Ordered)
    (e : Expression) (kind : Kind) (row : Row) :
    (r.resolve e kind).2.firstValue? row = (r.firstValue? row).or (some (e.eval row)) := by
  rw [Resolver.firstValue?, ordered.head?_resolve, Option.map_or]
  rfl

theorem Resolver.firstValue?_placeholder {r r' : Resolver Unit} {slot : Slot}
    (step : r.placeholder = .ok (slot, r')) (row : Row) :
    r'.firstValue? row = r.firstValue? row := by
  rcases r.placeholder_cases with ⟨failure, refused⟩ | ⟨-, -, created⟩
  · rw [refused] at step
    cases step
  · rw [created] at step
    cases step
    show (resultColumns (_ ++ [_])).head?.map _ = _
    rw [resultColumns_append, resultColumns_placeholder, List.append_nil]
    rfl

theorem Row.storedLeaves_cons (row : Row) (leaf : AttributePath × Leaf)
    (rest : List (AttributePath × Leaf)) :
    row.storedLeaves (leaf :: rest) = row.storedLeaves [leaf] ++ row.storedLeaves rest := by
  unfold Row.storedLeaves
  rw [← List.filterMap_append]
  rfl

theorem Represents.located {aliasName : String} {binding : Binding} {f : Frame}
    (represents : Represents usage limit scope env row)
    (resolved : scope.resolve? aliasName = some binding)
    (located : env.frame? aliasName = some f) :
    f.entity = binding.entity ∧ ∀ column, Scans usage binding.table.aliasName column →
      row.stored (qualifiedName binding.table.aliasName column) = f.row.stored column := by
  obtain ⟨g, located', entity, held⟩ := represents.resolve resolved
  have same : f = g := Option.some.inj (located.symm.trans located')
  exact same ▸ ⟨entity, held⟩

variable {st st' : SelectState} {aliasName : String} {binding : Binding} {f : Frame}

theorem selectLeaf_first {path : AttributePath} {leaf : Leaf} {field : ResultField}
    (selecting : Selecting d scope selections st)
    (resolved : scope.resolve? aliasName = some binding)
    (located : env.frame? aliasName = some f)
    (selected : selectLeaf d binding.table path leaf st = .ok (field, st'))
    (covers : Covers usage st'.state.usage)
    (represents : Represents usage limit scope env row) :
    st'.resolver.firstValue? row =
      (st.resolver.firstValue? row).or (f.row.storedLeaves [(path, leaf)]).head? := by
  cases leaf with
  | basic a =>
      obtain ⟨converter, -, -, rfl⟩ := selectLeaf_basic_ok selected
      have held := (represents.located resolved located).2 a.column
        (CompileState.referred_scans covers)
      rw [selecting.ordered.firstValue?_resolve]
      exact congrArg (fun v => (st.resolver.firstValue? row).or (some v)) held
  | transient kind =>
      have nothing : f.row.storedLeaves [(path, Leaf.transient kind)] = [] := rfl
      rw [nothing, List.head?_nil, Option.or_none]
      rcases selectLeaf_transient_ok selected with ⟨slot, -, -, rfl⟩ | ⟨slot, r, -, step, -, rfl⟩
      · rfl
      · exact Resolver.firstValue?_placeholder step row

theorem selectLeaves_first {leaves : List (AttributePath × Leaf)} {fields : List ResultField}
    (selecting : Selecting d scope selections st)
    (resolved : scope.resolve? aliasName = some binding)
    (located : env.frame? aliasName = some f)
    (selected : selectLeaves d binding.table leaves st = .ok (fields, st'))
    (covers : Covers usage st'.state.usage)
    (represents : Represents usage limit scope env row) :
    st'.resolver.firstValue? row =
      (st.resolver.firstValue? row).or (f.row.storedLeaves leaves).head? := by
  induction leaves generalizing st fields with
  | nil =>
      cases selected
      exact Option.or_none.symm
  | cons leaf rest ih =>
      obtain ⟨field, st₁, others, first, each, -⟩ := selectLeaves_cons_ok selected
      have next : Selecting d scope selections st₁ :=
        (selectLeaf_leads resolved first).selecting selecting
      have one := selectLeaf_first selecting resolved located first
        ((selectLeaves_grows each).covers covers) represents
      rw [ih next each, one, Row.storedLeaves_cons _ leaf rest, List.head?_append, Option.or_assoc]

theorem selectPath_first {path : Path} {name : Option String} {part : ResultPart}
    (selecting : Selecting d scope selections st)
    (selected : selectPath d scope path name st = .ok (part, st'))
    (covers : Covers usage st'.state.usage)
    (represents : Represents usage limit scope env row) :
    st'.resolver.firstValue? row =
      (st.resolver.firstValue? row).or (env.selected (.ref path)).head? := by
  obtain ⟨binding, resolved, shape⟩ := selectPath_ok selected
  obtain ⟨f, located, entity, -⟩ := represents.resolve resolved
  simp only [Environment.selected, located, Entity.leavesAt, entity]
  rcases shape with ⟨isEntity, fields, leaves, -⟩ | ⟨isEntity, ⟨attributes, fields, mapping, leaves,
    -⟩ | ⟨leaf, field, mapping, leaf, -⟩⟩
  · rw [if_pos isEntity]
    exact selectLeaves_first selecting resolved located leaves covers represents
  · rw [if_neg (by simp [isEntity]), mapping]
    exact selectLeaves_first selecting resolved located leaves covers represents
  · rw [if_neg (by simp [isEntity]), mapping]
    have first := selectLeaf_first selecting resolved located leaf covers represents
    cases ‹Leaf› with
    | basic a => exact first
    | transient kind => exact first

theorem selectOne_first {selection : Selection} {part : ResultPart}
    (selecting : Selecting d scope selections st)
    (selected : selectOne d scope selection st = .ok (part, st'))
    (covers : Covers usage st'.state.usage)
    (represents : Represents usage limit scope env row) :
    st'.resolver.firstValue? row =
      (st.resolver.firstValue? row).or (env.selected selection.operand).head? := by
  rcases selectOne_ok selected with ⟨path, isPath, selected⟩ | ⟨noPath, e, s₁, compiled, -, rfl⟩
  · rw [isPath]
    exact selectPath_first selecting selected covers represents
  · have value : e.eval row = env.value selection.operand :=
      compileExpression_value compiled covers represents
    have single : env.selected selection.operand = [env.value selection.operand] := by
      cases operand : selection.operand with
      | ref path => exact absurd operand (noPath path)
      | literal l => rfl
      | call name args => rfl
    rw [single, selecting.ordered.firstValue?_resolve, value]
    rfl

/-- The first result column has the first of the stored values that are selected. -/
theorem selectEach_first {wanted : List Selection} {parts : List ResultPart}
    (members : ∀ selection ∈ wanted, selection ∈ selections)
    (selecting : Selecting d scope selections st)
    (selected : selectEach d scope wanted st = .ok (parts, st'))
    (covers : Covers usage st'.state.usage)
    (represents : Represents usage limit scope env row) :
    st'.resolver.firstValue? row =
      (st.resolver.firstValue? row).or
        (wanted.flatMap fun selection => env.selected selection.operand).head? := by
  induction wanted generalizing st parts with
  | nil =>
      cases selected
      exact Option.or_none.symm
  | cons selection rest ih =>
      obtain ⟨part, st₁, others, first, each, -⟩ := selectEach_cons_ok selected
      have next : Selecting d scope selections st₁ :=
        (selectOne_leads (members selection List.mem_cons_self) first).selecting selecting
      have one := selectOne_first selecting first ((selectEach_grows each).covers covers) represents
      rw [ih (fun other inside => members other (List.mem_cons_of_mem _ inside)) next each,
        one, List.flatMap_cons, List.head?_append, Option.or_assoc]

end EntityQuery
