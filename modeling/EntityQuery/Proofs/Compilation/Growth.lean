import EntityQuery.Proofs.Compilation.Steps
import EntityQuery.Proofs.Compilation.Usage

/-! # Growing compilation states

While a statement compiles, numbers are only given out and columns only recorded: nothing is ever
taken back. So what a part of a statement recorded is still there when the whole is compiled. An
expression records its own columns, from left to right, and gives out no number. A nested block
announces nothing: all that the channel has of it is the spent guard of the swap around it.
-/

namespace EntityQuery

namespace Channel

variable {ω ε : Type}

/-- The channel after so many swaps whose guards were dropped. -/
def spent (c : Channel ω ε) (guards : Nat) : Channel ω ε :=
  { c with listener.guards := c.listener.guards ++ List.replicate guards none }

@[simp] theorem spent_zero (c : Channel ω ε) : c.spent 0 = c := by
  simp [spent]

@[simp] theorem spent_spent (c : Channel ω ε) (m n : Nat) :
    (c.spent m).spent n = c.spent (m + n) := by
  simp [spent]

/-- Dropping the guard of a swap spends it, whatever was swapped and dropped in between. -/
theorem drop_spent_swap (c : Channel ω ε) (listener : Option ω) (guards : Nat) :
    ((c.swap listener).spent guards).drop c.nextGuard = c.spent (guards + 1) := by
  simp [drop, SwapCell.drop, spent, swap, SwapCell.swap, nextGuard, List.replicate_succ]

/-- The channel after the announcements, in order. -/
def announceAll (c : Channel ω ε) (events : List ε) : Channel ω ε := events.foldl announce c

theorem announceAll_append (c : Channel ω ε) (events more : List ε) :
    c.announceAll (events ++ more) = (c.announceAll events).announceAll more := List.foldl_append

/-- Where nobody listens announcements go unheard. -/
theorem announceAll_unheard {c : Channel ω ε} (silent : c.listener.current = none)
    (events : List ε) : c.announceAll events = c := by
  induction events generalizing c with
  | nil => rfl
  | cons event rest ih =>
      have first : c.announce event = c := by rw [announce, silent]
      rw [announceAll, List.foldl_cons, first, ← announceAll, ih silent]

/-- Who listens hears of everything. -/
theorem announceAll_heard {c : Channel ω ε} {listener : ω}
    (listening : c.listener.current = some listener) (events : List ε) :
    c.announceAll events = { c with heard := c.heard ++ events.map ((listener, ·)) } := by
  induction events generalizing c with
  | nil => simp [announceAll]
  | cons event rest ih =>
      have first : c.announce event = { c with heard := c.heard ++ [(listener, event)] } := by
        rw [announce, listening]
      rw [announceAll, List.foldl_cons, first, ← announceAll,
        @ih { c with heard := c.heard ++ [(listener, event)] } listening]
      simp

end Channel

namespace CompileState

/-- The state after so many nested blocks were compiled and the columns recorded. -/
def after (s : CompileState) (blocks : Nat) (columns : List Column) : CompileState :=
  ⟨s.tables + blocks, s.blocks + blocks, columns.foldl ColumnUsage.recordColumn s.usage,
    s.announcements.spent blocks⟩

theorem after_nothing (s : CompileState) : s.after 0 [] = s := by
  simp [after]

@[simp] theorem after_after (s : CompileState) (m n : Nat) (columns more : List Column) :
    (s.after m columns).after n more = s.after (m + n) (columns ++ more) := by
  simp [after, Nat.add_assoc]

theorem referred_eq_after (s : CompileState) (c : Column) : s.referred c = s.after 0 [c] := by
  simp only [after, Channel.spent_zero]
  rfl

/-- The state after the slots were announced. -/
def announced (s : CompileState) (slots : List Slot) : CompileState :=
  { s with announcements := s.announcements.announceAll slots }

/-- What a nested block leaves behind around which nobody listens. -/
theorem unmuted_muted (s : CompileState) (slots : List Slot) (blocks : Nat)
    (columns : List Column) :
    ((s.muted.withBlock.announced slots).after blocks columns).unmuted s.announcements.nextGuard =
      s.after (blocks + 1) columns := by
  have unheard : s.muted.announcements.announceAll slots = s.muted.announcements :=
    Channel.announceAll_unheard rfl slots
  have restored := s.announcements.drop_spent_swap none blocks
  simp only [unmuted, after, announced, withBlock, unheard]
  rw [show s.muted.announcements = s.announcements.swap none from rfl, restored]
  simp [muted, Nat.add_comm, Nat.add_left_comm]

end CompileState

/-- The one state may come after the other. -/
structure CompileState.Grows (s s' : CompileState) : Prop where
  tables : s.tables ≤ s'.tables
  usage : s.usage.Within s'.usage

namespace CompileState.Grows

theorem refl (s : CompileState) : s.Grows s := ⟨Nat.le_refl _, .refl _⟩

theorem trans {a b c : CompileState} (ab : a.Grows b) (bc : b.Grows c) : a.Grows c :=
  ⟨Nat.le_trans ab.tables bc.tables, ab.usage.trans bc.usage⟩

theorem referred (s : CompileState) (c : Column) : s.Grows (s.referred c) :=
  ⟨Nat.le_refl _, s.usage.record_within _⟩

theorem after (s : CompileState) (blocks : Nat) (columns : List Column) :
    s.Grows (s.after blocks columns) :=
  ⟨Nat.le_add_right _ _, ColumnUsage.foldl_recordColumn_within columns s.usage⟩

theorem muted (s : CompileState) : s.Grows s.muted := ⟨Nat.le_refl _, .refl _⟩

theorem unmuted (s : CompileState) (guard : Nat) : s.Grows (s.unmuted guard) :=
  ⟨Nat.le_refl _, .refl _⟩

theorem covers {s s' : CompileState} {usage : Option ColumnUsage} (grows : s.Grows s')
    (covers : Covers usage s'.usage) : Covers usage s.usage :=
  covers.mono grows.usage

end CompileState.Grows

variable {d : Domain} {clause : Clause}

section Operands

mutual

theorem compileOperand_after {scope : Scope} {s s' : CompileState} {t : Operand} {e : Expression}
    {converter : Option Converter}
    (compiled : compileOperand d scope clause t s = .ok ((e, converter), s')) :
    s' = s.after 0 (Expression.columns e) := by
  cases t with
  | ref path =>
      rw [compileOperand] at compiled
      obtain ⟨binding, a, -, -, -, rfl, rfl⟩ := compilePath_ok compiled
      exact s.referred_eq_after _
  | literal l =>
      rw [compileOperand] at compiled
      cases compiled
      exact s.after_nothing.symm
  | call name args =>
      obtain ⟨es, each, rfl, -⟩ := compileOperand_call_ok compiled
      exact compileOperands_after each
termination_by sizeOf t

theorem compileOperands_after {scope : Scope} {s s' : CompileState} {args : List Operand}
    {es : List Expression} (compiled : compileOperands d scope clause args s = .ok (es, s')) :
    s' = s.after 0 (Term.refsOfList es) := by
  cases args with
  | nil =>
      rw [compileOperands] at compiled
      cases compiled
      exact s.after_nothing.symm
  | cons t rest =>
      obtain ⟨e, converter, s₁, others, first, each, rfl⟩ := compileOperands_cons_ok compiled
      rw [compileOperands_after each, compileOperand_after first, CompileState.after_after,
        Expression.columns, Term.refsOfList]
termination_by sizeOf args

end

theorem compileExpression_after {scope : Scope} {s s' : CompileState} {t : Operand}
    {e : Expression} (compiled : compileExpression d scope clause t s = .ok (e, s')) :
    s' = s.after 0 e.columns := by
  obtain ⟨converter, operand⟩ := compileExpression_ok compiled
  exact compileOperand_after operand

theorem compileOrderings_after {scope : Scope} {s s' : CompileState} {selections : List Selection}
    {orderings : List OrderBy} {keys : List SortKey}
    (compiled : compileOrderings d scope selections orderings s = .ok (keys, s')) :
    s' = s.after 0 (keys.flatMap (·.expression.columns)) := by
  induction orderings generalizing s keys with
  | nil =>
      cases compiled
      exact s'.after_nothing.symm
  | cons ordering rest ih =>
      obtain ⟨e, s₁, others, first, each, rfl⟩ := compileOrderings_cons_ok compiled
      rw [ih each, compileExpression_after first, CompileState.after_after, List.flatMap_cons]

end Operands

theorem compileOperand_grows {scope : Scope} {s s' : CompileState} {t : Operand} {e : Expression}
    {converter : Option Converter}
    (compiled : compileOperand d scope clause t s = .ok ((e, converter), s')) : s.Grows s' := by
  rw [compileOperand_after compiled]
  exact .after s 0 _

theorem compileOperands_grows {scope : Scope} {s s' : CompileState} {args : List Operand}
    {es : List Expression}
    (compiled : compileOperands d scope clause args s = .ok (es, s')) : s.Grows s' := by
  rw [compileOperands_after compiled]
  exact .after s 0 _

theorem compileExpression_grows {scope : Scope} {s s' : CompileState} {t : Operand}
    {e : Expression}
    (compiled : compileExpression d scope clause t s = .ok (e, s')) : s.Grows s' := by
  rw [compileExpression_after compiled]
  exact .after s 0 _

theorem compileOrderings_grows {scope : Scope} {s s' : CompileState} {selections : List Selection}
    {orderings : List OrderBy} {keys : List SortKey}
    (compiled : compileOrderings d scope selections orderings s = .ok (keys, s')) :
    s.Grows s' := by
  rw [compileOrderings_after compiled]
  exact .after s 0 _

section Selections

variable {scope : Scope} {st st' : SelectState}

theorem selectLeaf_grows {table : TableRef} {path : AttributePath} {leaf : Leaf}
    {field : ResultField} (selected : selectLeaf d table path leaf st = .ok (field, st')) :
    st.state.Grows st'.state := by
  cases leaf with
  | basic a =>
      obtain ⟨converter, -, -, rfl⟩ := selectLeaf_basic_ok selected
      exact .referred _ _
  | transient kind =>
      rcases selectLeaf_transient_ok selected with ⟨slot, -, -, rfl⟩ | ⟨slot, r, -, -, -, rfl⟩
      · exact .refl _
      · exact .refl _

theorem selectLeaves_grows {table : TableRef} {leaves : List (AttributePath × Leaf)}
    {fields : List ResultField} (selected : selectLeaves d table leaves st = .ok (fields, st')) :
    st.state.Grows st'.state := by
  induction leaves generalizing st fields with
  | nil =>
      cases selected
      exact .refl _
  | cons leaf rest ih =>
      obtain ⟨field, st₁, others, first, each, -⟩ := selectLeaves_cons_ok selected
      exact (selectLeaf_grows first).trans (ih each)

theorem selectOne_grows {selection : Selection} {part : ResultPart}
    (selected : selectOne d scope selection st = .ok (part, st')) :
    st.state.Grows st'.state := by
  rcases selectOne_ok selected with ⟨path, -, selected⟩ | ⟨-, e, s₁, compiled, -, rfl⟩
  · obtain ⟨binding, -, ⟨-, fields, leaves, -⟩ | ⟨-, ⟨attributes, fields, -, leaves, -⟩ |
      ⟨leaf, field, -, leaf, -⟩⟩⟩ := selectPath_ok selected
    · exact selectLeaves_grows leaves
    · exact selectLeaves_grows leaves
    · exact selectLeaf_grows leaf
  · exact compileExpression_grows compiled

theorem selectEach_grows {selections : List Selection} {parts : List ResultPart}
    (selected : selectEach d scope selections st = .ok (parts, st')) :
    st.state.Grows st'.state := by
  induction selections generalizing st parts with
  | nil =>
      cases selected
      exact .refl _
  | cons selection rest ih =>
      obtain ⟨part, st₁, others, first, each, -⟩ := selectEach_cons_ok selected
      exact (selectOne_grows first).trans (ih each)

end Selections

end EntityQuery
