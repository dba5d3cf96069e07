import EntityQuery.Compilation.Statement

/-! # Compilation and options

Two options matter to compilation: the limit on nesting, which every block is measured by, and how
many letters open the alias of a table. Operands, select lists and orderings compile alike under all
options.
-/

namespace EntityQuery

def Domain.withConfig (d : Domain) (config : Config) : Domain := { d with config := config }

variable (d : Domain) (config : Config)

@[simp] theorem Domain.withConfig_entity (name : String) :
    (d.withConfig config).entity name = d.entity name := rfl

@[simp] theorem Domain.withConfig_config : (d.withConfig config).config = config := rfl

/-- The alias of a table depends on how many letters open it, and on nothing else. -/
theorem CompileState.nextTable_congr {config config' : Config}
    (stem : config.aliasStemLength = config'.aliasStemLength) (s : CompileState) (e : Entity) :
    s.nextTable config e = s.nextTable config' e := by
  unfold nextTable
  rw [stem]

mutual

theorem compileOperand_withConfig (scope : Scope) (clause : Clause) (t : Operand)
    (s : CompileState) :
    compileOperand (d.withConfig config) scope clause t s = compileOperand d scope clause t s := by
  cases t with
  | ref path =>
      rw [compileOperand, compileOperand]
      rfl
  | literal l => rw [compileOperand, compileOperand]
  | call name args =>
      rw [compileOperand, compileOperand, compileOperands_withConfig scope clause args s]
termination_by sizeOf t

theorem compileOperands_withConfig (scope : Scope) (clause : Clause) (args : List Operand)
    (s : CompileState) :
    compileOperands (d.withConfig config) scope clause args s =
      compileOperands d scope clause args s := by
  cases args with
  | nil => rw [compileOperands, compileOperands]
  | cons t rest =>
      rw [compileOperands, compileOperands]
      simp only [compileOperand_withConfig scope clause t,
        compileOperands_withConfig scope clause rest]
termination_by sizeOf args

end

theorem compileExpression_withConfig (scope : Scope) (clause : Clause) (t : Operand)
    (s : CompileState) :
    compileExpression (d.withConfig config) scope clause t s =
      compileExpression d scope clause t s := by
  rw [compileExpression, compileExpression, compileOperand_withConfig]

theorem selectLeaves_withConfig (table : TableRef) (leaves : List (AttributePath × Leaf))
    (st : SelectState) :
    selectLeaves (d.withConfig config) table leaves st = selectLeaves d table leaves st := by
  induction leaves generalizing st with
  | nil => rfl
  | cons leaf rest ih =>
      have first : selectLeaf (d.withConfig config) table leaf.1 leaf.2 st =
          selectLeaf d table leaf.1 leaf.2 st := rfl
      rw [selectLeaves, selectLeaves, first]
      simp only [ih]

theorem selectOne_withConfig (scope : Scope) (selection : Selection) (st : SelectState) :
    selectOne (d.withConfig config) scope selection st = selectOne d scope selection st := by
  have path : ∀ path name,
      selectPath (d.withConfig config) scope path name st = selectPath d scope path name st := by
    intro path name
    unfold selectPath
    simp only [selectLeaves_withConfig]
    rfl
  unfold selectOne
  simp only [path, compileExpression_withConfig]

theorem selectEach_withConfig (scope : Scope) (selections : List Selection) (st : SelectState) :
    selectEach (d.withConfig config) scope selections st = selectEach d scope selections st := by
  induction selections generalizing st with
  | nil => rfl
  | cons selection rest ih =>
      rw [selectEach, selectEach, selectOne_withConfig]
      simp only [ih]

theorem compileOrderings_withConfig (scope : Scope) (selections : List Selection)
    (orderings : List OrderBy) (s : CompileState) :
    compileOrderings (d.withConfig config) scope selections orderings s =
      compileOrderings d scope selections orderings s := by
  induction orderings generalizing s with
  | nil => rfl
  | cons ordering rest ih =>
      rw [compileOrderings, compileOrderings]
      simp only [compileOrdering, compileExpression_withConfig, ih]

/-- The options agree in what matters to compilation. -/
structure Config.CompilesLike (config config' : Config) : Prop where
  limit : config.maxQueryDepth = config'.maxQueryDepth
  stem : config.aliasStemLength = config'.aliasStemLength

variable {d config}

mutual

theorem compileRestriction_withConfig (alike : config.CompilesLike d.config) (scope : Scope)
    (enclosing : List Clause) (p : Restriction) (s : CompileState) :
    compileRestriction (d.withConfig config) scope enclosing p s =
      compileRestriction d scope enclosing p s := by
  cases p with
  | compare left op right =>
      rw [compileRestriction, compileRestriction]
      simp only [compileOperand_withConfig]
  | and parts =>
      rw [compileRestriction, compileRestriction,
        compileRestrictions_withConfig alike scope enclosing parts s]
  | or parts =>
      rw [compileRestriction, compileRestriction,
        compileRestrictions_withConfig alike scope enclosing parts s]
  | not p =>
      rw [compileRestriction, compileRestriction,
        compileRestriction_withConfig alike scope enclosing p s]
  | isNull e negated =>
      rw [compileRestriction, compileRestriction, compileExpression_withConfig]
  | like e pattern negated =>
      rw [compileRestriction, compileRestriction]
      simp only [compileOperand_withConfig, compileExpression_withConfig]
  | existsQuery query negated =>
      rw [compileRestriction, compileRestriction,
        compileBlock_withConfig alike scope (.restriction :: enclosing) query s.muted]
  | inQuery e query negated =>
      rw [compileRestriction, compileRestriction]
      simp only [compileExpression_withConfig,
        compileBlock_withConfig alike scope (.restriction :: enclosing) query]
termination_by sizeOf p

theorem compileRestrictions_withConfig (alike : config.CompilesLike d.config) (scope : Scope)
    (enclosing : List Clause) (parts : List Restriction) (s : CompileState) :
    compileRestrictions (d.withConfig config) scope enclosing parts s =
      compileRestrictions d scope enclosing parts s := by
  cases parts with
  | nil => rw [compileRestrictions, compileRestrictions]
  | cons p rest =>
      rw [compileRestrictions, compileRestrictions]
      simp only [compileRestriction_withConfig alike scope enclosing p,
        compileRestrictions_withConfig alike scope enclosing rest]
termination_by sizeOf parts

theorem compileOptional_withConfig (alike : config.CompilesLike d.config) (scope : Scope)
    (enclosing : List Clause) (restriction : Option Restriction) (s : CompileState) :
    compileOptional (d.withConfig config) scope enclosing restriction s =
      compileOptional d scope enclosing restriction s := by
  cases restriction with
  | none => rw [compileOptional, compileOptional]
  | some p =>
      rw [compileOptional, compileOptional,
        compileRestriction_withConfig alike scope enclosing p s]
termination_by sizeOf restriction

theorem compileBlock_withConfig (alike : config.CompilesLike d.config) (scope : Scope)
    (enclosing : List Clause) (q : QueryOf Restriction) (s : CompileState) :
    compileBlock (d.withConfig config) scope enclosing q s =
      compileBlock d scope enclosing q s := by
  cases q with
  | mk root selections restriction orderings limit offset =>
      rw [compileBlock, compileBlock]
      simp only [Domain.withConfig_config, alike.limit, Domain.withConfig_entity,
        CompileState.nextTable_congr alike.stem, selectEach_withConfig,
        compileOrderings_withConfig,
        fun scope => compileOptional_withConfig alike scope enclosing restriction]
termination_by sizeOf q

end

theorem Query.compile_withConfig (alike : config.CompilesLike d.config) (q : Query) :
    q.compile (d.withConfig config) = q.compile d := by
  unfold Query.compile
  rw [compileBlock_withConfig alike]

theorem DeleteQuery.compile_withConfig (alike : config.CompilesLike d.config) (q : DeleteQuery) :
    q.compile (d.withConfig config) = q.compile d := by
  unfold DeleteQuery.compile
  simp only [Domain.withConfig_config, Domain.withConfig_entity,
    CompileState.nextTable_congr alike.stem, compileOptional_withConfig alike]

/-- Whether scans are reduced to the columns in use is no matter of compilation. -/
theorem Config.compilesLike_pruning (config : Config) (prune : Bool) :
    Config.CompilesLike { config with pruneColumns := prune } config :=
  ⟨rfl, rfl⟩

def Domain.withPruning (d : Domain) (prune : Bool) : Domain :=
  { d with config := { d.config with pruneColumns := prune } }

theorem Query.compile_withPruning (d : Domain) (prune : Bool) (q : Query) :
    q.compile (d.withPruning prune) = q.compile d :=
  Query.compile_withConfig (d.config.compilesLike_pruning prune) q

theorem DeleteQuery.compile_withPruning (d : Domain) (prune : Bool) (q : DeleteQuery) :
    q.compile (d.withPruning prune) = q.compile d :=
  DeleteQuery.compile_withConfig (d.config.compilesLike_pruning prune) q

end EntityQuery
