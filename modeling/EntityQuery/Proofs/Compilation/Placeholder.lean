import EntityQuery.Proofs.Compilation.Acceptance

/-! # The empty slot of a block

A resolver refuses a second request for its empty slot. No such request is ever made: the first leaf
of a select list that is not stored leaves the slot behind for all others, and every block has a
select list of its own.
-/

namespace EntityQuery

/-- The compilation does not fail on a second request for an empty slot. -/
def AsksOnce {α : Type} (x : Except CompileError α) : Prop :=
  ∀ block, x ≠ .error (.placeholderAlreadyResolved block)

namespace AsksOnce

variable {α β : Type}

@[simp] theorem ok (a : α) : AsksOnce (.ok a) := nofun

@[simp] theorem error {e : CompileError} :
    AsksOnce (.error e : Except CompileError α) ↔
      ∀ block, e ≠ .placeholderAlreadyResolved block := by
  simp [AsksOnce]

theorem bind {x : Except CompileError α} {f : α → Except CompileError β} (first : AsksOnce x)
    (second : ∀ a, x = .ok a → AsksOnce (f a)) : AsksOnce (x >>= f) := by
  cases x with
  | error e => exact error.mpr (error.mp first)
  | ok a => exact second a rfl

end AsksOnce

variable {d : Domain}

section Operands

variable {scope : Scope} {clause : Clause}

theorem Scope.resolve_asksOnce (scope : Scope) (aliasName : String) :
    AsksOnce (scope.resolve aliasName) := by
  unfold resolve
  cases scope.resolve? aliasName <;> simp

theorem Domain.entity_asksOnce (d : Domain) (name : String) : AsksOnce (d.entity name) := by
  unfold entity
  cases d.model.entity? name <;> simp

theorem Domain.converterFor_asksOnce (d : Domain) (a : BasicAttribute) (path : AttributePath) :
    AsksOnce (d.converterFor a path) := by
  unfold converterFor
  cases d.registry.converterFor a <;> simp

theorem compilePath_asksOnce (path : Path) (s : CompileState) :
    AsksOnce (compilePath d scope clause path s) := by
  apply (scope.resolve_asksOnce _).bind
  intro binding _
  dsimp only
  generalize (if path.isEntity then [binding.entity.idAttribute] else path.attributes) = attributes
  split
  · exact (d.converterFor_asksOnce _ _).bind fun _ _ => .ok _
  · simp
  · simp

mutual

theorem compileOperand_asksOnce (t : Operand) (s : CompileState) :
    AsksOnce (compileOperand d scope clause t s) := by
  cases t with
  | ref path =>
      rw [compileOperand]
      exact compilePath_asksOnce path s
  | literal l =>
      rw [compileOperand]
      exact .ok _
  | call name args =>
      rw [compileOperand]
      exact (compileOperands_asksOnce args s).bind fun _ _ => .ok _
termination_by sizeOf t

theorem compileOperands_asksOnce (args : List Operand) (s : CompileState) :
    AsksOnce (compileOperands d scope clause args s) := by
  cases args with
  | nil =>
      rw [compileOperands]
      exact .ok _
  | cons t rest =>
      rw [compileOperands]
      apply (compileOperand_asksOnce t s).bind
      rintro ⟨⟨e, converter⟩, s₁⟩ -
      exact (compileOperands_asksOnce rest s₁).bind fun _ _ => .ok _
termination_by sizeOf args

end

theorem compileExpression_asksOnce (t : Operand) (s : CompileState) :
    AsksOnce (compileExpression d scope clause t s) :=
  (compileOperand_asksOnce t s).bind fun _ _ => .ok _

theorem storedForm_asksOnce (e : Expression) (converter : Option Converter) :
    AsksOnce (storedForm e converter) := by
  unfold storedForm
  split
  · next l c =>
    cases c.toDatabase l.toValue with
    | error failure => simp
    | ok stored => cases literal : Literal.ofValue? stored <;> simp [literal]
  · exact .ok _

theorem compileOrderings_asksOnce (selections : List Selection) (orderings : List OrderBy)
    (s : CompileState) : AsksOnce (compileOrderings d scope selections orderings s) := by
  induction orderings generalizing s with
  | nil => exact .ok _
  | cons ordering rest ih =>
      rw [compileOrderings, compileOrdering_eq]
      apply (compileExpression_asksOnce _ s).bind
      rintro ⟨e, s₁⟩ -
      exact (ih s₁).bind fun _ _ => .ok _

end Operands

section SelectLists

variable {scope : Scope} {visible : Visible} {st : SelectState}

/-- Where nothing is known of an empty slot there is none. -/
theorem SelectState.Fits.placeholder_asksOnce (fits : st.Fits) (unknown : st.placeholder = none) :
    AsksOnce st.resolver.placeholder := by
  unfold Resolver.placeholder
  rw [fits.missing unknown]
  split
  · simp
  · exact .ok _

theorem selectLeaf_asksOnce (fits : st.Fits) (table : TableRef) (path : AttributePath)
    (leaf : Leaf) : AsksOnce (selectLeaf d table path leaf st) := by
  cases leaf with
  | basic a => exact (d.converterFor_asksOnce a path).bind fun _ _ => .ok _
  | transient kind =>
      unfold selectLeaf
      cases known : st.placeholder with
      | some slot => exact .ok _
      | none => exact (fits.placeholder_asksOnce known).bind fun _ _ => .ok _

theorem selectLeaves_asksOnce (fits : st.Fits) (table : TableRef)
    (leaves : List (AttributePath × Leaf)) : AsksOnce (selectLeaves d table leaves st) := by
  induction leaves generalizing st with
  | nil => exact .ok _
  | cons leaf rest ih =>
      rw [selectLeaves]
      apply (selectLeaf_asksOnce fits table leaf.1 leaf.2).bind
      rintro ⟨field, st₁⟩ first
      exact (ih ((selectLeaf_adds fits first).fits fits)).bind fun _ _ => .ok _

theorem selectPath_asksOnce (fits : st.Fits) (path : Path) (name : Option String) :
    AsksOnce (selectPath d scope path name st) := by
  apply (scope.resolve_asksOnce _).bind
  intro binding _
  split
  · exact (selectLeaves_asksOnce fits _ _).bind fun _ _ => .ok _
  · split
    · simp
    · exact (selectLeaves_asksOnce fits _ _).bind fun _ _ => .ok _
    · exact (selectLeaf_asksOnce fits _ _ _).bind fun _ _ => .ok _
    · exact (selectLeaf_asksOnce fits _ _ _).bind fun _ _ => .ok _

theorem selectOne_asksOnce (fits : st.Fits) (selection : Selection) :
    AsksOnce (selectOne d scope selection st) := by
  unfold selectOne
  split
  · exact selectPath_asksOnce fits _ _
  · exact (compileExpression_asksOnce _ _).bind fun _ _ => .ok _

theorem selectEach_asksOnce (shows : Shows scope visible) (fits : st.Fits)
    (selections : List Selection) : AsksOnce (selectEach d scope selections st) := by
  induction selections generalizing st with
  | nil => exact .ok _
  | cons selection rest ih =>
      rw [selectEach]
      apply (selectOne_asksOnce fits selection).bind
      rintro ⟨part, st₁⟩ first
      exact (ih ((selectOne_adds shows fits first).fits fits)).bind fun _ _ => .ok _

end SelectLists

mutual

theorem compileRestriction_asksOnce {scope : Scope} {visible : Visible}
    (shows : Shows scope visible) (enclosing : List Clause) (p : Restriction) (s : CompileState) :
    AsksOnce (compileRestriction d scope enclosing p s) := by
  cases p with
  | compare left op right =>
      rw [compileRestriction]
      apply (compileOperand_asksOnce left s).bind
      rintro ⟨⟨l, leftConverter⟩, s₁⟩ -
      apply (compileOperand_asksOnce right s₁).bind
      rintro ⟨⟨r, rightConverter⟩, s₂⟩ -
      apply (storedForm_asksOnce l rightConverter).bind
      intro l' _
      exact (storedForm_asksOnce r leftConverter).bind fun _ _ => .ok _
  | and parts =>
      rw [compileRestriction]
      exact (compileRestrictions_asksOnce shows enclosing parts s).bind fun _ _ => .ok _
  | or parts =>
      rw [compileRestriction]
      exact (compileRestrictions_asksOnce shows enclosing parts s).bind fun _ _ => .ok _
  | not p =>
      rw [compileRestriction]
      exact (compileRestriction_asksOnce shows enclosing p s).bind fun _ _ => .ok _
  | isNull e negated =>
      rw [compileRestriction]
      exact (compileExpression_asksOnce e s).bind fun _ _ => .ok _
  | like e pattern negated =>
      rw [compileRestriction]
      apply (compileOperand_asksOnce e s).bind
      rintro ⟨⟨e', converter⟩, s₁⟩ -
      apply (compileExpression_asksOnce pattern s₁).bind
      rintro ⟨pattern', s₂⟩ -
      cases converter <;> simp
  | existsQuery query negated =>
      rw [compileRestriction]
      exact (compileBlock_asksOnce shows (.restriction :: enclosing) query s.muted).bind
        fun _ _ => .ok _
  | inQuery e query negated =>
      rw [compileRestriction]
      apply (compileExpression_asksOnce e s).bind
      rintro ⟨e', s₁⟩ -
      exact (compileBlock_asksOnce shows (.restriction :: enclosing) query s₁.muted).bind
        fun _ _ => .ok _
termination_by sizeOf p

theorem compileRestrictions_asksOnce {scope : Scope} {visible : Visible}
    (shows : Shows scope visible) (enclosing : List Clause) (parts : List Restriction)
    (s : CompileState) : AsksOnce (compileRestrictions d scope enclosing parts s) := by
  cases parts with
  | nil =>
      rw [compileRestrictions]
      exact .ok _
  | cons p rest =>
      rw [compileRestrictions]
      apply (compileRestriction_asksOnce shows enclosing p s).bind
      rintro ⟨p', s₁⟩ -
      exact (compileRestrictions_asksOnce shows enclosing rest s₁).bind fun _ _ => .ok _
termination_by sizeOf parts

theorem compileOptional_asksOnce {scope : Scope} {visible : Visible} (shows : Shows scope visible)
    (enclosing : List Clause) (restriction : Option Restriction) (s : CompileState) :
    AsksOnce (compileOptional d scope enclosing restriction s) := by
  cases restriction with
  | none =>
      rw [compileOptional]
      exact .ok _
  | some p =>
      rw [compileOptional]
      exact (compileRestriction_asksOnce shows enclosing p s).bind fun _ _ => .ok _
termination_by sizeOf restriction

/-- The select list of a block is begun anew, so nothing is known of its empty slot yet. -/
theorem compileBlock_asksOnce {outer : Scope} {visible : Visible} (shows : Shows outer visible)
    (enclosing : List Clause) (q : QueryOf Restriction) (s : CompileState) :
    AsksOnce (compileBlock d outer enclosing q s) := by
  cases q with
  | mk root selections restriction orderings limit offset =>
      rw [compileBlock]
      split
      · simp
      · apply (d.entity_asksOnce root.entity).bind
        intro e _
        have within : ∀ table,
            Shows (outer.within root.aliasName e table) ((root.aliasName, e) :: visible) :=
          shows.within root.aliasName e
        apply AsksOnce.bind
        · exact selectEach_asksOnce (within _) (.start _ _ _) _
        rintro ⟨results, st⟩ -
        apply (compileOptional_asksOnce (within _) enclosing restriction st.finish).bind
        rintro ⟨predicate, s₁⟩ -
        exact (compileOrderings_asksOnce selections orderings s₁).bind fun _ _ => .ok _
termination_by sizeOf q

end

end EntityQuery
