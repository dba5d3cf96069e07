import EntityQuery.Proofs.Compilation.Steps
import EntityQuery.Proofs.Meaning.Evaluation

/-! # Well-formed statements

What a statement must fulfil to be compiled, said of the statement itself and of the entities that
its aliases stand for: every path leads where it should, every converter it meets is registered,
every literal beside a converted attribute can be stored. Nothing here knows of tables, slots or the
state of a compilation.
-/

namespace EntityQuery

/-- The attribute asks for no converter by name, or for a registered one. -/
def ConverterRegistry.Knows (r : ConverterRegistry) (a : BasicAttribute) : Prop :=
  ∀ name, a.converter = some name → (r.converter? name).isSome

/-- Whether the leaf has a column. -/
def Leaf.isStored : Leaf → Bool
  | .basic _ => true
  | .transient _ => false

/-- A literal can stand beside an attribute with the converter if it has a stored form that is a
    literal as well. -/
def Operand.Storable (converter : Option Converter) (t : Operand) : Prop :=
  ∀ l c, t = .literal l → converter = some c →
    ∃ v, c.toDatabase l.toValue = .ok v ∧ (Literal.ofValue? v).isSome

/-- The entities that aliases stand for at a place in a statement, those of the innermost block
    first. -/
abbrev Visible := Keyed Entity

namespace Visible

/-- The attribute with a single column that a path leads to. -/
def column? (visible : Visible) (path : Path) : Option BasicAttribute :=
  (Keyed.get? visible path.aliasName).bind (·.columnAt? path)

/-- The leaves that a path selects: those of an entity or of an embedded value, or a single one. -/
def leaves? (visible : Visible) (path : Path) : Option (List Leaf) :=
  (Keyed.get? visible path.aliasName).bind fun e =>
    if path.isEntity then some (e.leaves.map (·.2))
    else (e.at? path.attributes).map fun mapping => mapping.leaves.map (·.2)

/-- The path leads to a column whose converter is known. -/
def Reaches (d : Domain) (visible : Visible) (path : Path) : Prop :=
  ∃ a, visible.column? path = some a ∧ d.registry.Knows a

/-- Every path of the operand leads to such a column. -/
def Admits (d : Domain) (visible : Visible) (t : Operand) : Prop :=
  ∀ path ∈ t.refs, visible.Reaches d path

/-- The operand can be selected. Selected paths may lead to any attribute. -/
def Selects (d : Domain) (visible : Visible) : Operand → Prop
  | .ref path => ∃ leaves, visible.leaves? path = some leaves ∧
      ∀ a, .basic a ∈ leaves → d.registry.Knows a
  | t => Admits d visible t

/-- What an operand adds to a select list, in order: a column, or a place without one. -/
def columns (visible : Visible) : Operand → List Bool
  | .ref path => ((visible.leaves? path).getD []).map Leaf.isStored
  | _ => [true]

/-- The converter of an operand: that of the attribute, if it is a path. -/
def converter? (visible : Visible) (registry : ConverterRegistry) : Operand → Option Converter
  | .ref path => (visible.column? path).bind registry.inEffect?
  | _ => none

/-- What is sorted by: a bare name that is no visible alias may be that of a selection. -/
def sortOperand (visible : Visible) (selections : List Selection) (t : Operand) : Operand :=
  match t with
  | .ref path =>
      if path.isEntity && (Keyed.get? visible path.aliasName).isNone then
        match selections.find? (·.aliasName = some path.aliasName) with
        | some selection => selection.operand
        | none => t
      else t
  | t => t

end Visible

/-- The selections can be made, and the first place of the select list has a column. -/
structure SelectsAll (d : Domain) (visible : Visible) (selections : List Selection) : Prop where
  each : ∀ selection ∈ selections, visible.Selects d selection.operand
  first : (selections.flatMap fun selection => visible.columns selection.operand).head? ≠ some false

mutual

/-- The restriction can be compiled where the aliases stand for the visible entities, inside blocks
    with the enclosing clauses. -/
def Restriction.WellFormed (d : Domain) (visible : Visible) (enclosing : List Clause) :
    Restriction → Prop
  | .compare left _ right =>
      visible.Admits d left ∧ visible.Admits d right ∧
        Operand.Storable (visible.converter? d.registry right) left ∧
        Operand.Storable (visible.converter? d.registry left) right
  | .and parts => wellFormedAll d visible enclosing parts
  | .or parts => wellFormedAll d visible enclosing parts
  | .not p => p.WellFormed d visible enclosing
  | .isNull e _ => visible.Admits d e
  | .like e pattern _ =>
      visible.Admits d e ∧ visible.Admits d pattern ∧ visible.converter? d.registry e = none
  | .existsQuery query _ => wellFormedQuery d visible (.restriction :: enclosing) query
  | .inQuery e query _ =>
      visible.Admits d e ∧ wellFormedQuery d visible (.restriction :: enclosing) query

def wellFormedAll (d : Domain) (visible : Visible) (enclosing : List Clause) :
    List Restriction → Prop
  | [] => True
  | p :: rest => p.WellFormed d visible enclosing ∧ wellFormedAll d visible enclosing rest

def wellFormedOptional (d : Domain) (visible : Visible) (enclosing : List Clause) :
    Option Restriction → Prop
  | none => True
  | some p => p.WellFormed d visible enclosing

/-- The query does not nest too deeply, and every part of it can be compiled where its root is
    visible too. -/
def wellFormedQuery (d : Domain) (outer : Visible) (enclosing : List Clause) :
    QueryOf Restriction → Prop
  | ⟨root, selections, restriction, orderings, _, _⟩ =>
      enclosing.length ≤ d.config.maxQueryDepth ∧
        ∃ e, d.model.entity? root.entity = some e ∧
          SelectsAll d ((root.aliasName, e) :: outer)
            (wantedSelections root e enclosing selections) ∧
          wellFormedOptional d ((root.aliasName, e) :: outer) enclosing restriction ∧
          ∀ ordering ∈ orderings,
            Visible.Admits d ((root.aliasName, e) :: outer)
              (Visible.sortOperand ((root.aliasName, e) :: outer) selections ordering.operand)

end

end EntityQuery
