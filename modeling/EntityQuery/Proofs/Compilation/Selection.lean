import EntityQuery.Proofs.Compilation.Growth
import EntityQuery.Proofs.Resolver.Ordered

/-! # Select lists under construction

`Selecting` holds of every state a select list passes through: the resolver is in order, and each
slot was requested for a column in scope or for a selected operand. `Leads` says that a part of the
compilation keeps this, only adds slots at the end, and announces each of them.
-/

namespace EntityQuery

/-- The expressions that a block asks slots for: columns of tables in scope, once they are recorded,
    and compiled operands of selections. -/
inductive Requested (d : Domain) (scope : Scope) (selections : List Selection)
    (recorded : ColumnUsage) : Expression → Prop where
  | column {aliasName : String} {binding : Binding} (a : BasicAttribute)
      (resolved : scope.resolve? aliasName = some binding)
      (has : recorded.Has binding.table.aliasName a.column) :
      Requested d scope selections recorded (.ref (columnOf d.registry binding.table a))
  | operand {selection : Selection} {s s' : CompileState} {e : Expression}
      (member : selection ∈ selections)
      (compiled : compileExpression d scope .select selection.operand s = .ok (e, s'))
      (within : s'.usage.Within recorded) : Requested d scope selections recorded e

variable {d : Domain} {scope : Scope} {selections : List Selection}

theorem Requested.mono {recorded more : ColumnUsage} {e : Expression}
    (requested : Requested d scope selections recorded e) (within : recorded.Within more) :
    Requested d scope selections more e := by
  cases requested with
  | column a resolved has => exact .column a resolved (within _ _ has)
  | operand member compiled earlier => exact .operand member compiled (earlier.trans within)

@[simp] theorem resultColumns_append (slots others : List Slot) :
    resultColumns (slots ++ others) = resultColumns slots ++ resultColumns others :=
  List.filterMap_append

@[simp] theorem resultColumns_placeholder (ordinal index : Nat) (kind : Kind) :
    resultColumns [SlotKey.placeholder.slot ordinal index kind] = [] := rfl

/-- What holds of a select list while a block is compiled. -/
structure Selecting (d : Domain) (scope : Scope) (selections : List Selection)
    (st : SelectState) : Prop where
  ordered : st.resolver.Ordered
  requested : ∀ e ∈ resultColumns st.resolver.block.select,
    Requested d scope selections st.state.usage e
  empty : ∀ slot, st.placeholder = some slot →
    slot ∈ st.resolver.block.select ∧ slot.key = .placeholder

namespace Selecting

variable {st : SelectState}

theorem start (id : Nat) (table : TableRef) (s : CompileState) :
    Selecting d scope selections (.start id table s) where
  ordered := Resolver.announcing_ordered id table s.announcements
  requested := by simp [SelectState.start, Resolver.announcing, resultColumns]
  empty := by simp [SelectState.start]

theorem grow {s : CompileState} (selecting : Selecting d scope selections st)
    (grows : st.state.Grows s) : Selecting d scope selections { st with state := s } where
  ordered := selecting.ordered
  requested := fun e member => (selecting.requested e member).mono grows.usage
  empty := selecting.empty

theorem resolve (selecting : Selecting d scope selections st) {e : Expression} (kind : Kind)
    (requested : Requested d scope selections st.state.usage e) :
    Selecting d scope selections { st with resolver := (st.resolver.resolve e kind).2 } := by
  rcases st.resolver.resolve_cases e kind with ⟨slot, -, step⟩ | ⟨fresh, step⟩
  · rw [step]
    exact selecting
  · rw [step]
    constructor
    · exact selecting.ordered.create kind fresh (by simp)
    · intro e' member
      rw [Resolver.create_select, resultColumns_append] at member
      rcases List.mem_append.mp member with old | new
      · exact selecting.requested e' old
      · rw [List.mem_singleton.mp new]
        exact requested
    · intro slot known
      obtain ⟨inside, key⟩ := selecting.empty slot known
      exact ⟨List.mem_append_left _ inside, key⟩

theorem placeholder {slot : Slot} {r : Resolver Unit}
    (selecting : Selecting d scope selections st)
    (step : st.resolver.placeholder = .ok (slot, r)) :
    Selecting d scope selections { st with resolver := r, placeholder := some slot } := by
  have ordered : r.Ordered := selecting.ordered.placeholder step
  rcases st.resolver.placeholder_cases with ⟨failure, refused⟩ | ⟨started, fresh, created⟩
  · rw [refused] at step
    cases step
  · rw [created] at step
    cases step
    refine ⟨ordered, ?_, ?_⟩
    · intro e member
      change e ∈ resultColumns (_ ++ [_]) at member
      rw [resultColumns_append, resultColumns_placeholder, List.append_nil] at member
      exact selecting.requested e member
    · intro slot isEmpty
      cases isEmpty
      exact ⟨List.mem_append_right _ List.mem_cons_self, rfl⟩

end Selecting

/-- A part of the compilation leads from the one select list to the other. -/
structure SelectState.Leads (d : Domain) (scope : Scope) (selections : List Selection)
    (st st' : SelectState) : Prop where
  selecting : Selecting d scope selections st → Selecting d scope selections st'
  added : ∃ slots, st'.resolver.block.select = st.resolver.block.select ++ slots ∧
    st'.resolver.announcements = st.resolver.announcements.announceAll slots
  number : st'.resolver.block.id = st.resolver.block.id
  table : st'.resolver.block.table = st.resolver.block.table

namespace SelectState.Leads

variable {st st' st'' : SelectState}

theorem refl (st : SelectState) : st.Leads d scope selections st :=
  ⟨id, ⟨[], (List.append_nil _).symm, rfl⟩, rfl, rfl⟩

theorem trans (first : st.Leads d scope selections st')
    (second : st'.Leads d scope selections st'') : st.Leads d scope selections st'' where
  selecting := fun selecting => second.selecting (first.selecting selecting)
  added := by
    obtain ⟨slots, select, announced⟩ := first.added
    obtain ⟨more, select', announced'⟩ := second.added
    refine ⟨slots ++ more, ?_, ?_⟩
    · rw [select', select, List.append_assoc]
    · rw [announced', announced, Channel.announceAll_append]
  number := second.number.trans first.number
  table := second.table.trans first.table

theorem slots (leads : st.Leads d scope selections st') :
    st.resolver.block.select <+: st'.resolver.block.select := by
  obtain ⟨slots, select, -⟩ := leads.added
  exact ⟨slots, select.symm⟩

theorem grow (st : SelectState) {s : CompileState} (grows : st.state.Grows s) :
    st.Leads d scope selections { st with state := s } :=
  ⟨fun selecting => selecting.grow grows, ⟨[], (List.append_nil _).symm, rfl⟩, rfl, rfl⟩

theorem resolve (st : SelectState) {e : Expression} (kind : Kind)
    (requested : Requested d scope selections st.state.usage e) :
    st.Leads d scope selections { st with resolver := (st.resolver.resolve e kind).2 } := by
  have kept := fun selecting : Selecting d scope selections st => selecting.resolve kind requested
  rcases st.resolver.resolve_cases e kind with ⟨slot, -, step⟩ | ⟨fresh, step⟩
  · rw [step] at kept ⊢
    exact ⟨kept, ⟨[], (List.append_nil _).symm, rfl⟩, rfl, rfl⟩
  · rw [step] at kept ⊢
    exact ⟨kept, ⟨[_], rfl, rfl⟩, rfl, rfl⟩

theorem placeholder (st : SelectState) {slot : Slot} {r : Resolver Unit}
    (step : st.resolver.placeholder = .ok (slot, r)) :
    st.Leads d scope selections { st with resolver := r, placeholder := some slot } := by
  have kept := fun selecting : Selecting d scope selections st => selecting.placeholder step
  rcases st.resolver.placeholder_cases with ⟨failure, refused⟩ | ⟨started, fresh, created⟩
  · rw [refused] at step
    cases step
  · rw [created] at step
    cases step
    exact ⟨kept, ⟨[_], rfl, rfl⟩, rfl, rfl⟩

end SelectState.Leads

variable {st st' : SelectState} {aliasName : String} {binding : Binding}

theorem selectLeaf_leads {path : AttributePath} {leaf : Leaf} {field : ResultField}
    (resolved : scope.resolve? aliasName = some binding)
    (selected : selectLeaf d binding.table path leaf st = .ok (field, st')) :
    st.Leads d scope selections st' := by
  cases leaf with
  | basic a =>
      obtain ⟨converter, -, -, rfl⟩ := selectLeaf_basic_ok selected
      have has := st.state.usage.record_ref_has (columnOf d.registry binding.table a)
      have referred : st.Leads d scope selections
          { st with state := st.state.referred (columnOf d.registry binding.table a) } :=
        .grow st (.referred _ _)
      exact referred.trans (.resolve _ a.kind (.column a resolved has))
  | transient kind =>
      rcases selectLeaf_transient_ok selected with ⟨slot, -, -, rfl⟩ | ⟨slot, r, -, step, -, rfl⟩
      · exact .refl _
      · exact .placeholder _ step

theorem selectLeaves_leads {leaves : List (AttributePath × Leaf)} {fields : List ResultField}
    (resolved : scope.resolve? aliasName = some binding)
    (selected : selectLeaves d binding.table leaves st = .ok (fields, st')) :
    st.Leads d scope selections st' := by
  induction leaves generalizing st fields with
  | nil =>
      cases selected
      exact .refl _
  | cons leaf rest ih =>
      obtain ⟨field, st₁, others, first, each, -⟩ := selectLeaves_cons_ok selected
      exact (selectLeaf_leads resolved first).trans (ih each)

theorem selectPath_leads {path : Path} {name : Option String} {part : ResultPart}
    (selected : selectPath d scope path name st = .ok (part, st')) :
    st.Leads d scope selections st' := by
  obtain ⟨binding, resolved, ⟨-, fields, leaves, -⟩ | ⟨-, ⟨attributes, fields, -, leaves, -⟩ |
    ⟨leaf, field, -, leaf, -⟩⟩⟩ := selectPath_ok selected
  · exact selectLeaves_leads resolved leaves
  · exact selectLeaves_leads resolved leaves
  · exact selectLeaf_leads resolved leaf

theorem selectOne_leads {selection : Selection} {part : ResultPart}
    (member : selection ∈ selections)
    (selected : selectOne d scope selection st = .ok (part, st')) :
    st.Leads d scope selections st' := by
  rcases selectOne_ok selected with ⟨path, -, selected⟩ | ⟨-, e, s₁, compiled, -, rfl⟩
  · exact selectPath_leads selected
  · have grown : st.Leads d scope selections { st with state := s₁ } :=
      .grow st (compileExpression_grows compiled)
    exact grown.trans (.resolve _ _ (.operand member compiled (.refl _)))

theorem selectEach_leads {wanted : List Selection} {parts : List ResultPart}
    (members : ∀ selection ∈ wanted, selection ∈ selections)
    (selected : selectEach d scope wanted st = .ok (parts, st')) :
    st.Leads d scope selections st' := by
  induction wanted generalizing st parts with
  | nil =>
      cases selected
      exact .refl _
  | cons selection rest ih =>
      obtain ⟨part, st₁, others, first, each, -⟩ := selectEach_cons_ok selected
      have one : st.Leads d scope selections st₁ :=
        selectOne_leads (members selection List.mem_cons_self) first
      exact one.trans (ih (fun other inside => members other (List.mem_cons_of_mem _ inside)) each)

end EntityQuery
