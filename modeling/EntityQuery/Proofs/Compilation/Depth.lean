import EntityQuery.Proofs.Compilation.Options
import EntityQuery.Proofs.Compilation.Steps

/-! # The limit on nesting

How deeply queries nest inside a statement can be read off the statement. A limit that the nesting
stays within makes no difference to what is compiled; any other one is reported, whatever else the
statement holds.
-/

namespace EntityQuery

mutual

/-- How deeply queries nest inside a restriction, 0 where there are none. -/
def Restriction.depth : Restriction → Nat
  | .and parts => depthOfAll parts
  | .or parts => depthOfAll parts
  | .not p => p.depth
  | .existsQuery query _ => depthOfQuery query + 1
  | .inQuery _ query _ => depthOfQuery query + 1
  | .compare .. | .isNull .. | .like .. => 0

def depthOfAll : List Restriction → Nat
  | [] => 0
  | p :: rest => max p.depth (depthOfAll rest)

def depthOfOptional : Option Restriction → Nat
  | none => 0
  | some p => p.depth

def depthOfQuery : QueryOf Restriction → Nat
  | ⟨_, _, restriction, _, _, _⟩ => depthOfOptional restriction

end

/-- How deeply queries nest inside the restriction of a query, 0 where there are none. -/
def Query.depth (q : Query) : Nat := depthOfQuery q

/-- How deeply queries nest inside the restriction of a delete statement, 0 where there are none. -/
def DeleteQuery.depth (q : DeleteQuery) : Nat := depthOfOptional q.restriction

/-- Compile with another limit on nesting. -/
abbrev Domain.withLimit (d : Domain) (limit : Nat) : Domain :=
  d.withConfig { d.config with maxQueryDepth := limit }

theorem maxQueryDepth_withLimit (d : Domain) (limit : Nat) :
    (d.withLimit limit).config.maxQueryDepth = limit := rfl

theorem newTable_withLimit (d : Domain) (limit : Nat) (s : CompileState) (e : Entity) :
    s.newTable (d.withLimit limit).config e = s.newTable d.config e := rfl

/-- The outcome of a computation that nests so deeply, where there is a limit. -/
def limited {α : Type} (limit depth : Nat) (outcome : Except CompileError α) :
    Except CompileError α :=
  if depth ≤ limit then outcome else .error (.queryTooDeep limit)

section Limited

variable {α β : Type} {limit depth : Nat}

theorem limited_of_le (within : depth ≤ limit) (outcome : Except CompileError α) :
    limited limit depth outcome = outcome :=
  if_pos within

theorem limited_of_lt (beyond : limit < depth) (outcome : Except CompileError α) :
    limited limit depth outcome = .error (.queryTooDeep limit) :=
  if_neg (Nat.not_le.mpr beyond)

/-- What follows a step that was too deep is not reached. -/
theorem limited_bind (a : α) (f : α → Except CompileError β) :
    limited limit depth (.ok a) >>= f = limited limit depth (f a) := by
  unfold limited
  split
  · rfl
  · rfl

theorem limited_limited (depth' : Nat) (outcome : Except CompileError α) :
    limited limit depth (limited limit depth' outcome) =
      limited limit (max depth depth') outcome := by
  unfold limited
  split
  · next within => simp only [Nat.max_le, within, true_and]
  · next beyond => rw [if_neg fun both => beyond (Nat.max_le.mp both).1]

end Limited

variable {d : Domain} {limit : Nat}

mutual

/-- A restriction that compiles where its block is within the limit does so under the limit if the
    queries inside it are within it as well. -/
theorem compileRestriction_withLimit {scope : Scope} {enclosing : List Clause}
    {s s' : CompileState} {p : Restriction} {predicate : Predicate}
    (within : enclosing.length ≤ limit)
    (compiled : compileRestriction d scope enclosing p s = .ok (predicate, s')) :
    compileRestriction (d.withLimit limit) scope enclosing p s =
      limited limit (enclosing.length + p.depth) (.ok (predicate, s')) := by
  cases p with
  | compare left op right | isNull e negated | like e pattern negated =>
      rw [Restriction.depth, Nat.add_zero, limited_of_le within, ← compiled, compileRestriction,
        compileRestriction]
      simp only [compileOperand_withConfig, compileExpression_withConfig]
  | and parts =>
      obtain ⟨ps, each, rfl⟩ := compileRestriction_and_ok compiled
      rw [compileRestriction, compileRestrictions_withLimit within each, limited_bind,
        Restriction.depth]
  | or parts =>
      obtain ⟨ps, each, rfl⟩ := compileRestriction_or_ok compiled
      rw [compileRestriction, compileRestrictions_withLimit within each, limited_bind,
        Restriction.depth]
  | not p =>
      obtain ⟨inner, negated, rfl⟩ := compileRestriction_not_ok compiled
      rw [compileRestriction, compileRestriction_withLimit within negated, limited_bind,
        Restriction.depth]
  | existsQuery query negated =>
      obtain ⟨inner, s₁, block, rfl, rfl⟩ := compileRestriction_existsQuery_ok compiled
      rw [compileRestriction, compileBlock_withLimit block, limited_bind, Restriction.depth,
        List.length_cons, Nat.add_right_comm, Nat.add_assoc]
  | inQuery e query negated =>
      obtain ⟨value, s₁, inner, s₂, operand, block, rfl, rfl⟩ :=
        compileRestriction_inQuery_ok compiled
      simp only [compileRestriction, compileExpression_withConfig, operand, ok_bind]
      rw [compileBlock_withLimit block, limited_bind, Restriction.depth,
        List.length_cons, Nat.add_right_comm, Nat.add_assoc]
termination_by sizeOf p

theorem compileRestrictions_withLimit {scope : Scope} {enclosing : List Clause}
    {s s' : CompileState} {parts : List Restriction} {predicates : List Predicate}
    (within : enclosing.length ≤ limit)
    (compiled : compileRestrictions d scope enclosing parts s = .ok (predicates, s')) :
    compileRestrictions (d.withLimit limit) scope enclosing parts s =
      limited limit (enclosing.length + depthOfAll parts) (.ok (predicates, s')) := by
  cases parts with
  | nil =>
      rw [depthOfAll, Nat.add_zero, limited_of_le within, ← compiled, compileRestrictions,
        compileRestrictions]
  | cons p rest =>
      obtain ⟨first, s₁, others, one, each, rfl⟩ := compileRestrictions_cons_ok compiled
      simp only [compileRestrictions, compileRestriction_withLimit within one, limited_bind,
        compileRestrictions_withLimit within each, limited_limited, depthOfAll,
        Nat.add_max_add_left]
termination_by sizeOf parts

theorem compileOptional_withLimit {scope : Scope} {enclosing : List Clause}
    {s s' : CompileState} {restriction : Option Restriction} {predicate : Option Predicate}
    (within : enclosing.length ≤ limit)
    (compiled : compileOptional d scope enclosing restriction s = .ok (predicate, s')) :
    compileOptional (d.withLimit limit) scope enclosing restriction s =
      limited limit (enclosing.length + depthOfOptional restriction) (.ok (predicate, s')) := by
  cases restriction with
  | none =>
      rw [depthOfOptional, Nat.add_zero, limited_of_le within, ← compiled, compileOptional,
        compileOptional]
  | some p =>
      obtain ⟨inner, one, rfl⟩ := compileOptional_some_ok compiled
      rw [compileOptional, compileRestriction_withLimit within one, limited_bind, depthOfOptional]
termination_by sizeOf restriction

/-- A block that compiles does so under a limit if no block inside it has more blocks around it than
    the limit says. -/
theorem compileBlock_withLimit {outer : Scope} {enclosing : List Clause}
    {q : QueryOf Restriction} {s s' : CompileState} {block : CompiledBlock}
    (compiled : compileBlock d outer enclosing q s = .ok (block, s')) :
    compileBlock (d.withLimit limit) outer enclosing q s =
      limited limit (enclosing.length + depthOfQuery q) (.ok (block, s')) := by
  cases q with
  | mk root selections restriction orderings pageLimit offset =>
      obtain ⟨e, results, st, predicate, s₁, keys, -, known, selected, restricted, ordered, rfl⟩ :=
        compileBlock_ok compiled
      rw [compileBlock_eq, depthOfQuery, maxQueryDepth_withLimit]
      by_cases within : enclosing.length ≤ limit
      · have entity := Domain.entity_eq_ok.mpr known
        rw [if_neg (Nat.not_lt.mpr within)]
        simp only [Domain.withConfig_entity, entity, ok_bind, newTable_withLimit,
          selectEach_withConfig, selected, compileOptional_withLimit within restricted,
          limited_bind, compileOrderings_withConfig, ordered]
      · have beyond := Nat.not_le.mp within
        rw [if_pos beyond, limited_of_lt (Nat.lt_of_lt_of_le beyond (Nat.le_add_right _ _))]
termination_by sizeOf q

end

/-- The limit on nesting is exact and does nothing else. What compiles under some limit compiles
    under every limit that its queries nest within, to the same statement; under any other one the
    only complaint is about the limit. -/
theorem compile_withLimit (d : Domain) (limit : Nat) :
    (∀ (q : Query) (compiled : CompiledSelect), q.compile d = .ok compiled →
      q.compile (d.withLimit limit) =
        if q.depth ≤ limit then .ok compiled else .error (.queryTooDeep limit)) ∧
      ∀ (q : DeleteQuery) (compiled : CompiledDelete), q.compile d = .ok compiled →
        q.compile (d.withLimit limit) =
          if q.depth ≤ limit then .ok compiled else .error (.queryTooDeep limit) := by
  constructor
  · intro q compiled accepted
    obtain ⟨block, s, ok, rfl⟩ := Query.compile_ok accepted
    rw [Query.compile, compileBlock_withLimit ok, limited_bind, List.length_nil, Nat.zero_add]
    rfl
  · intro q compiled accepted
    obtain ⟨e, predicate, s, known, restricted, rfl⟩ := DeleteQuery.compile_ok accepted
    have entity := Domain.entity_eq_ok.mpr known
    have optional := compileOptional_withLimit (Nat.zero_le limit) restricted
    rw [List.length_nil, Nat.zero_add] at optional
    rw [DeleteQuery.compile, Domain.withConfig_entity, entity, ok_bind]
    exact (congrArg (· >>= _) optional).trans (limited_bind _ _)

namespace Sample

/-- Nodes that know their parents. -/
def nodes : Domain where
  model := ⟨[("Node",
    { name := "Node"
      table := "nodes"
      attributes :=
        [("id", .basic { column := "id", kind := .int }),
          ("parent", .basic { column := "parent", kind := .int })] })]⟩
  registry := .standard
  config := {}

/-- To have no parent, or no child that is a parent itself. -/
def shallow : Restriction :=
  .or
    [.isNull (.ref ⟨"n", ["parent"]⟩) false,
      .not (.existsQuery
        { root := ⟨"Node", "child"⟩
          restriction := some (.and
            [.compare (.ref ⟨"child", ["parent"]⟩) .eq (.ref ⟨"n", ["id"]⟩),
              .inQuery (.ref ⟨"child", ["id"]⟩)
                { root := ⟨"Node", "grandchild"⟩
                  selections := [{ operand := .ref ⟨"grandchild", ["parent"]⟩ }] } false]) }
        false)]

def shallowNodes : Query := { root := ⟨"Node", "n"⟩, restriction := some shallow }

def withoutShallowNodes : DeleteQuery := { target := ⟨"Node", "n"⟩, restriction := some shallow }

end Sample

theorem compile_withLimit_shallow :
    ∃ listed removed, Sample.shallowNodes.compile Sample.nodes = .ok listed ∧
      Sample.withoutShallowNodes.compile Sample.nodes = .ok removed ∧
      Sample.shallowNodes.compile (Sample.nodes.withLimit 2) = .ok listed ∧
      Sample.withoutShallowNodes.compile (Sample.nodes.withLimit 2) = .ok removed ∧
      Sample.shallowNodes.compile (Sample.nodes.withLimit 1) = .error (.queryTooDeep 1) ∧
      Sample.withoutShallowNodes.compile (Sample.nodes.withLimit 1) =
        .error (.queryTooDeep 1) := by
  obtain ⟨listed, accepted⟩ : ∃ listed, Sample.shallowNodes.compile Sample.nodes = .ok listed :=
    isOk_iff.mp (by decide +kernel)
  obtain ⟨removed, accepted'⟩ :
      ∃ removed, Sample.withoutShallowNodes.compile Sample.nodes = .ok removed :=
    isOk_iff.mp (by decide +kernel)
  have two := compile_withLimit Sample.nodes 2
  have one := compile_withLimit Sample.nodes 1
  exact ⟨listed, removed, accepted, accepted', two.1 _ _ accepted, two.2 _ _ accepted',
    one.1 _ _ accepted, one.2 _ _ accepted'⟩

end EntityQuery
