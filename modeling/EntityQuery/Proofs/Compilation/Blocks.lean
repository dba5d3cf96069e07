import EntityQuery.Proofs.Compilation.Acceptance
import Mathlib.Logic.Relation

/-! # What compiles, block by block

A statement compiles exactly if each of its blocks is in order, at whatever depth it stands. What is
asked of one block concerns its own selections, conditions and orderings; the queries inside its
conditions are blocks of their own.
-/

namespace EntityQuery

mutual

/-- The conditions that a restriction joins by and, or and not. -/
def Restriction.conditions : Restriction → List Restriction
  | .and parts => conditionsOfAll parts
  | .or parts => conditionsOfAll parts
  | .not p => p.conditions
  | p => [p]

def conditionsOfAll : List Restriction → List Restriction
  | [] => []
  | p :: rest => p.conditions ++ conditionsOfAll rest

end

/-- The query inside a condition. -/
def Restriction.query? : Restriction → Option Query
  | .existsQuery query _ | .inQuery _ query _ => some query
  | _ => none

def Query.conditions (q : Query) : List Restriction := (q.restriction.map (·.conditions)).getD []

/-- What is asked of a condition, apart from the query inside it. -/
def Restriction.InOrder (d : Domain) (visible : Visible) : Restriction → Prop
  | .compare left _ right =>
      visible.Admits d left ∧ visible.Admits d right ∧
        Operand.Storable (visible.converter? d.registry right) left ∧
        Operand.Storable (visible.converter? d.registry left) right
  | .isNull e _ => visible.Admits d e
  | .like e pattern _ =>
      visible.Admits d e ∧ visible.Admits d pattern ∧ visible.converter? d.registry e = none
  | .inQuery e _ _ => visible.Admits d e
  | .existsQuery .. | .and _ | .or _ | .not _ => True

/-- A block where it stands in a statement: what is visible around it, and the clauses it is inside
    of, of which there are as many as blocks around it. -/
structure Place where
  outer : Visible
  enclosing : List Clause
  query : Query

namespace Place

/-- What is visible inside the block when its root stands for the entity. -/
def inside (place : Place) (e : Entity) : Visible := (place.query.root.aliasName, e) :: place.outer

/-- What is asked of a single block. -/
structure InOrder (d : Domain) (place : Place) : Prop where
  depth : place.enclosing.length ≤ d.config.maxQueryDepth
  parts : ∃ e, d.model.entity? place.query.root.entity = some e ∧
    SelectsAll d (place.inside e)
      (wantedSelections place.query.root e place.enclosing place.query.selections) ∧
    (∀ condition ∈ place.query.conditions, condition.InOrder d (place.inside e)) ∧
    ∀ ordering ∈ place.query.orderings,
      (place.inside e).Admits d
        ((place.inside e).sortOperand place.query.selections ordering.operand)

/-- The one block stands inside a condition of the other. -/
inductive Nests (d : Domain) (place : Place) : Place → Prop where
  | condition {e : Entity} {condition : Restriction} {query : Query}
      (known : d.model.entity? place.query.root.entity = some e)
      (member : condition ∈ place.query.conditions) (holds : condition.query? = some query) :
      Nests d place ⟨place.inside e, .restriction :: place.enclosing, query⟩

/-- The outermost block of a statement. -/
def outermost (q : Query) : Place := ⟨[], [], q⟩

def WellFormed (d : Domain) (place : Place) : Prop :=
  wellFormedQuery d place.outer place.enclosing place.query

end Place

mutual

/-- A restriction is well-formed if its conditions are in order and the queries inside them
    well-formed. -/
theorem Restriction.wellFormed_iff {d : Domain} {visible : Visible} {enclosing : List Clause}
    (p : Restriction) :
    p.WellFormed d visible enclosing ↔ ∀ condition ∈ p.conditions,
      condition.InOrder d visible ∧ ∀ query, condition.query? = some query →
        wellFormedQuery d visible (.restriction :: enclosing) query := by
  cases p with
  | and parts => rw [Restriction.WellFormed, Restriction.conditions, wellFormedAll_iff parts]
  | or parts => rw [Restriction.WellFormed, Restriction.conditions, wellFormedAll_iff parts]
  | not p => rw [Restriction.WellFormed, Restriction.conditions, Restriction.wellFormed_iff p]
  | compare left op right | isNull e negated | like e pattern negated | existsQuery query negated
  | inQuery e query negated =>
      simp [Restriction.WellFormed, Restriction.conditions, Restriction.InOrder, Restriction.query?]
termination_by sizeOf p

theorem wellFormedAll_iff {d : Domain} {visible : Visible} {enclosing : List Clause}
    (parts : List Restriction) :
    wellFormedAll d visible enclosing parts ↔ ∀ condition ∈ conditionsOfAll parts,
      condition.InOrder d visible ∧ ∀ query, condition.query? = some query →
        wellFormedQuery d visible (.restriction :: enclosing) query := by
  cases parts with
  | nil => simp [wellFormedAll, conditionsOfAll]
  | cons p rest =>
      rw [wellFormedAll, conditionsOfAll, List.forall_mem_append, Restriction.wellFormed_iff p,
        wellFormedAll_iff rest]
termination_by sizeOf parts

end

mutual

theorem Restriction.sizeOf_condition {p condition : Restriction}
    (member : condition ∈ p.conditions) : sizeOf condition ≤ sizeOf p := by
  cases p with
  | and parts | or parts =>
      rw [Restriction.conditions] at member
      have smaller := sizeOf_conditionOfAll member
      simp only [Restriction.and.sizeOf_spec, Restriction.or.sizeOf_spec]
      omega
  | not p =>
      rw [Restriction.conditions] at member
      have smaller := Restriction.sizeOf_condition member
      simp only [Restriction.not.sizeOf_spec]
      omega
  | compare left op right | isNull e negated | like e pattern negated | existsQuery query negated
  | inQuery e query negated =>
      rw [Restriction.conditions] at member
      · exact Nat.le_of_eq (congrArg sizeOf (List.mem_singleton.mp member))
      all_goals simp
termination_by sizeOf p

theorem sizeOf_conditionOfAll {parts : List Restriction} {condition : Restriction}
    (member : condition ∈ conditionsOfAll parts) : sizeOf condition ≤ sizeOf parts := by
  cases parts with
  | nil => cases member
  | cons p rest =>
      rw [conditionsOfAll] at member
      simp only [List.cons.sizeOf_spec]
      rcases List.mem_append.mp member with first | later
      · have smaller := Restriction.sizeOf_condition first
        omega
      · have smaller := sizeOf_conditionOfAll later
        omega
termination_by sizeOf parts

end

theorem Restriction.sizeOf_query {condition : Restriction} {query : Query}
    (holds : condition.query? = some query) : sizeOf query < sizeOf condition := by
  cases condition with
  | existsQuery inner negated | inQuery e inner negated =>
      cases holds
      simp only [Restriction.existsQuery.sizeOf_spec, Restriction.inQuery.sizeOf_spec]
      omega
  | and parts | or parts | not p | compare left op right | isNull e negated
  | like e pattern negated => cases holds

variable {d : Domain}

/-- A block inside another one is smaller. -/
theorem Place.Nests.sizeOf_lt {place inner : Place} (nests : place.Nests d inner) :
    sizeOf inner.query < sizeOf place.query := by
  obtain ⟨-, member, holds⟩ := nests
  have ofQuery := Restriction.sizeOf_query holds
  obtain ⟨outer, enclosing, ⟨root, selections, restriction, orderings, limit, offset⟩⟩ := place
  cases restriction with
  | none => simp [Query.conditions] at member
  | some p =>
      have ofCondition := Restriction.sizeOf_condition (by simpa [Query.conditions] using member)
      simp only [QueryOf.mk.sizeOf_spec, Option.some.sizeOf_spec]
      omega

/-- A block is well-formed if it is in order and the blocks directly inside it are well-formed. -/
theorem Place.wellFormed_iff {place : Place} :
    place.WellFormed d ↔ place.InOrder d ∧ ∀ inner, place.Nests d inner → inner.WellFormed d := by
  obtain ⟨outer, enclosing, ⟨root, selections, restriction, orderings, limit, offset⟩⟩ := place
  have restricted : ∀ visible, wellFormedOptional d visible enclosing restriction ↔
      ∀ condition ∈ (restriction.map (·.conditions)).getD [],
        condition.InOrder d visible ∧ ∀ query, condition.query? = some query →
          wellFormedQuery d visible (.restriction :: enclosing) query := by
    intro visible
    cases restriction with
    | none => simp [wellFormedOptional]
    | some p => simp only [wellFormedOptional, p.wellFormed_iff, Option.map_some, Option.getD_some]
  rw [WellFormed, wellFormedQuery]
  constructor
  · rintro ⟨depth, e, known, selected, conditions, ordered⟩
    have each := (restricted _).mp conditions
    refine ⟨⟨depth, e, known, selected, fun c member => (each c member).1, ordered⟩, ?_⟩
    rintro inner ⟨known', member, holds⟩
    cases known.symm.trans known'
    exact (each _ member).2 _ holds
  · rintro ⟨⟨depth, e, known, selected, conditions, ordered⟩, inner⟩
    refine ⟨depth, e, known, selected, (restricted _).mpr ?_, ordered⟩
    intro condition member
    exact ⟨conditions condition member, fun query holds => inner _ (.condition known member holds)⟩

/-- A block compiles exactly if it and all blocks inside it are in order. -/
theorem Place.wellFormed_iff_inOrder (place : Place) :
    place.WellFormed d ↔
      ∀ inner, Relation.ReflTransGen (Nests d) place inner → inner.InOrder d := by
  constructor
  · intro wellFormed inner reached
    have innermost : inner.WellFormed d := by
      induction reached with
      | refl => exact wellFormed
      | tail _ nests ih => exact (wellFormed_iff.mp ih).2 _ nests
    exact (wellFormed_iff.mp innermost).1
  · intro inOrder
    refine wellFormed_iff.mpr ⟨inOrder place .refl, ?_⟩
    intro inner nests
    have smaller := nests.sizeOf_lt
    exact (wellFormed_iff_inOrder inner).mpr fun place' reached =>
      inOrder place' (.head nests reached)
termination_by sizeOf place.query

/-- The compiler accepts exactly the queries of which every block is in order, at every depth. -/
theorem Query.compiles_iff_blocks_inOrder (d : Domain) (q : Query) :
    (∃ compiled, q.compile d = .ok compiled) ↔
      ∀ place, Relation.ReflTransGen (Place.Nests d) (.outermost q) place → place.InOrder d :=
  (Query.compile_succeeds q).trans (Place.wellFormed_iff_inOrder (.outermost q))

end EntityQuery
