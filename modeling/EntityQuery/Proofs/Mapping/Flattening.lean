import EntityQuery.Proofs.Mapping.Declaration

/-! # Flattening an entity

The list of leaves and the look-up by path describe the same attributes: a leaf is listed at a path
just where the path leads to it. The leaves stand in the order of declaration, those of a value
object in the place of the object, and below each path they are the leaves of what is found there.
-/

namespace EntityQuery

/-- The one path comes before the other in the order of declaration: where they part, it goes
    through the attribute that is declared first. -/
inductive DeclaredBefore : Attributes → AttributePath → AttributePath → Prop where
  | parting {attributes : Attributes} {first second : String} (path other : AttributePath)
      (order : [first, second].Sublist (Keyed.names attributes)) :
      DeclaredBefore attributes (first :: path) (second :: other)
  | inside {attributes inner : Attributes} {name : String} {path other : AttributePath}
      (declared : Keyed.get? attributes name = some (.embedded inner))
      (deeper : DeclaredBefore inner path other) :
      DeclaredBefore attributes (name :: path) (name :: other)

/-- The leaves below a path, with their paths from there on. -/
def leavesUnder (path : AttributePath) (leaves : List (AttributePath × Leaf)) :
    List (AttributePath × Leaf) :=
  (leaves.filter fun leaf => path <+: leaf.1).map fun leaf => (leaf.1.drop path.length, leaf.2)

section Order

variable {attributes : Attributes} {name : String} {mapping : AttributeMapping}
  {path other : AttributePath}

/-- An attribute in front of the others does not change their order. -/
theorem DeclaredBefore.cons (before : DeclaredBefore attributes path other)
    (fresh : name ∉ Keyed.names attributes) :
    DeclaredBefore ((name, mapping) :: attributes) path other := by
  cases before with
  | parting path other order => exact .parting path other (order.cons name)
  | @inside _ inner known _ _ declared deeper =>
      have different : name ≠ known := by
        rintro rfl
        rw [Keyed.get?_eq_none_iff.mpr fresh] at declared
        cases declared
      apply DeclaredBefore.inside _ deeper
      rw [Keyed.get?, if_neg different]
      exact declared

/-- The leaves of a list of attributes are in order if those of its first attribute are, and those of
    the others. -/
theorem leavesOf_cons_inOrder (fresh : name ∉ Keyed.names attributes)
    (own : ∀ inner, mapping = .embedded inner →
      (leavesOf inner).Pairwise fun a b => DeclaredBefore inner a.1 b.1)
    (later : (leavesOf attributes).Pairwise fun a b => DeclaredBefore attributes a.1 b.1) :
    (leavesOf ((name, mapping) :: attributes)).Pairwise fun a b =>
      DeclaredBefore ((name, mapping) :: attributes) a.1 b.1 := by
  rw [leavesOf, List.pairwise_append]
  refine ⟨?_, later.imp fun before => before.cons fresh, ?_⟩
  · rw [List.pairwise_map]
    cases mapping with
    | basic a | transient kind =>
        rw [AttributeMapping.leaves]
        exact List.pairwise_singleton _ _
    | embedded inner =>
        rw [AttributeMapping.leaves]
        refine (own inner rfl).imp fun before => .inside ?_ before
        rw [Keyed.get?, if_pos rfl]
  · intro first inFirst second inSecond
    obtain ⟨leaf, -, rfl⟩ := List.mem_map.mp inFirst
    obtain ⟨other, known, path, starts⟩ := leavesOf_head inSecond
    rw [starts]
    exact .parting _ _ ((List.singleton_sublist.mpr known).cons_cons name)

/-- The leaves stand in the order of declaration. -/
theorem leavesOf_inOrder {attributes : List (String × AttributeMapping)}
    (named : NamedApart attributes) :
    (leavesOf attributes).Pairwise fun a b => DeclaredBefore attributes a.1 b.1 := by
  rcases equal : attributes with - | ⟨⟨name, mapping⟩, rest⟩
  · rw [leavesOf]
    exact .nil
  · rw [equal, NamedApart] at named
    obtain ⟨fresh, inner, restNamed⟩ := named
    refine leavesOf_cons_inOrder fresh ?_ (leavesOf_inOrder restNamed)
    rintro inside rfl
    rw [AttributeMapping.Named] at inner
    exact leavesOf_inOrder inner
termination_by sizeOf attributes
decreasing_by
  all_goals
    simp only [equal, List.cons.sizeOf_spec, Prod.mk.sizeOf_spec,
      AttributeMapping.embedded.sizeOf_spec]
    omega

end Order

section Under

variable {attributes : Attributes} {name : String} {mapping inner : AttributeMapping}
  {path : AttributePath} {leaves more : List (AttributePath × Leaf)}

theorem leavesUnder_nil : leavesUnder [] leaves = leaves := by
  simp [leavesUnder]

theorem leavesUnder_append :
    leavesUnder path (leaves ++ more) = leavesUnder path leaves ++ leavesUnder path more := by
  simp [leavesUnder]

theorem leavesUnder_cons :
    leavesUnder (name :: path) (leaves.map fun leaf => (name :: leaf.1, leaf.2)) =
      leavesUnder path leaves := by
  simp [leavesUnder, List.filter_map, Function.comp_def, List.cons_prefix_cons]

theorem leavesUnder_eq_nil (away : ∀ leaf ∈ leaves, ¬ path <+: leaf.1) :
    leavesUnder path leaves = [] := by
  simpa [leavesUnder, List.filter_eq_nil_iff] using away

/-- Below an attribute there are the leaves of its mapping, and no others. -/
theorem leavesUnder_leavesOf (named : NamedApart attributes)
    (declared : Keyed.get? attributes name = some mapping) :
    leavesUnder (name :: path) (leavesOf attributes) = leavesUnder path mapping.leaves := by
  induction attributes with
  | nil => cases declared
  | cons entry rest ih =>
      obtain ⟨first, own⟩ := entry
      obtain ⟨fresh, -, restNamed⟩ := named
      rw [leavesOf, leavesUnder_append]
      rw [Keyed.get?] at declared
      split at declared
      · next same =>
        subst same
        cases declared
        have noneLater : leavesUnder (first :: path) (leavesOf rest) = [] := by
          apply leavesUnder_eq_nil
          intro leaf inside isPrefix
          obtain ⟨other, known, deeper, starts⟩ := leavesOf_head inside
          rw [starts, List.cons_prefix_cons] at isPrefix
          exact fresh (isPrefix.1 ▸ known)
        rw [leavesUnder_cons, noneLater, List.append_nil]
      · next different =>
        have noneHere : leavesUnder (name :: path)
            (own.leaves.map fun leaf => (first :: leaf.1, leaf.2)) = [] := by
          apply leavesUnder_eq_nil
          intro leaf inside isPrefix
          obtain ⟨deeper, -, rfl⟩ := List.mem_map.mp inside
          exact different (List.cons_prefix_cons.mp isPrefix).1.symm
        rw [noneHere, List.nil_append, ih restNamed declared]

theorem AttributeMapping.leavesUnder_at? (named : mapping.Named)
    (located : mapping.at? path = some inner) :
    leavesUnder path mapping.leaves = inner.leaves := by
  induction path generalizing mapping with
  | nil =>
      rw [AttributeMapping.at?] at located
      cases located
      exact leavesUnder_nil
  | cons name rest ih =>
      cases mapping with
      | basic a | transient kind => simp [AttributeMapping.at?] at located
      | embedded attributes =>
          rw [AttributeMapping.at?] at located
          rw [AttributeMapping.Named] at named
          split at located
          · next next declared =>
            rw [AttributeMapping.leaves, leavesUnder_leavesOf named declared,
              ih (named.get? declared) located]
          · cases located

/-- Below a path of an entity there are the leaves of what is found there. -/
theorem Entity.leavesUnder_at? {e : Entity} (named : NamedApart e.attributes)
    (located : e.at? path = some inner) : leavesUnder path e.leaves = inner.leaves := by
  cases path with
  | nil => cases located
  | cons name rest =>
      obtain ⟨mapping, declared, deeper⟩ := Option.bind_eq_some_iff.mp located
      rw [Entity.leaves, leavesUnder_leavesOf named declared,
        AttributeMapping.leavesUnder_at? (named.get? declared) deeper]

end Under

theorem Leaf.leaves_toMapping (leaf : Leaf) : leaf.toMapping.leaves = [([], leaf)] := by
  cases leaf <;> simp [Leaf.toMapping, AttributeMapping.leaves]

/-- The list of the leaves is what look-up by path says. -/
structure Entity.Flattened (e : Entity) : Prop where
  listed : ∀ path mapping, (∃ leaf, (path, leaf) ∈ e.leaves ∧ leaf.toMapping = mapping) ↔
    e.at? path = some mapping ∧
      ((∃ a, mapping = .basic a) ∨ ∃ kind, mapping = .transient kind)
  proper : ∀ leaf ∈ e.leaves, leaf.1 ≠ []
  /-- No path is another one, or leads through another one. -/
  apart : e.leaves.Pairwise fun a b => Apart a.1 b.1
  inOrder : e.leaves.Pairwise fun a b => DeclaredBefore e.attributes a.1 b.1
  under : ∀ path attributes, e.at? path = some (.embedded attributes) →
    leavesOf attributes = leavesUnder path e.leaves

theorem Entity.flattened {e : Entity} (named : NamedApart e.attributes) : e.Flattened where
  listed := by
    intro path mapping
    constructor
    · rintro ⟨leaf, inside, rfl⟩
      refine ⟨leavesOf_at? named inside, ?_⟩
      cases leaf with
      | basic a => exact .inl ⟨a, rfl⟩
      | transient kind => exact .inr ⟨kind, rfl⟩
    · rintro ⟨located, isLeaf⟩
      have own : ∃ leaf : Leaf, leaf.toMapping = mapping := by
        rcases isLeaf with ⟨a, rfl⟩ | ⟨kind, rfl⟩
        · exact ⟨.basic a, rfl⟩
        · exact ⟨.transient kind, rfl⟩
      obtain ⟨leaf, rfl⟩ := own
      have inside : (([], leaf) : AttributePath × Leaf) ∈ leaf.toMapping.leaves := by
        rw [leaf.leaves_toMapping]
        exact List.mem_cons_self
      refine ⟨leaf, ?_, rfl⟩
      simpa using e.leaves_at? located inside
  proper := fun _ inside => leavesOf_proper inside
  apart := leavesOf_apart named
  inOrder := leavesOf_inOrder named
  under := by
    intro path attributes located
    rw [Entity.leavesUnder_at? named located, AttributeMapping.leaves]

/-- Whatever calls make an entity, the list of its leaves is what look-up by path says, in the order
    of declaration. On each level the calls give that order. -/
theorem Entity.made_flattened (name table : String) (calls : List EntityCall) :
    (made name table calls).Flattened ∧
      Keyed.names (made name table calls).attributes = EntityCall.declaredNames calls ∧
      ∀ parts, ∃ inner, (Declaration.embedded parts).mapping = .embedded inner ∧
        Keyed.names inner = (parts.map (·.1)).eraseDups := by
  refine ⟨flattened (made_named name table calls), made_names name table calls, fun parts => ?_⟩
  refine ⟨declareEach parts [], ?_, names_declareEach parts [] rfl⟩
  rw [Declaration.mapping]

end EntityQuery
