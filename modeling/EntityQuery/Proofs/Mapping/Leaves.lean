import EntityQuery.Mapping.Entity
import EntityQuery.Proofs.Value.Placement

/-! # The leaves of an entity

The attributes of one level have different names, however they were declared. So the leaves of an
entity lie apart from one another.
-/

namespace EntityQuery

mutual

/-- No two attributes on one level of a mapping have the same name. -/
def AttributeMapping.Named : AttributeMapping → Prop
  | .basic _ => True
  | .embedded attributes => NamedApart attributes
  | .transient _ => True

/-- No two attributes on one level have the same name. -/
def NamedApart : List (String × AttributeMapping) → Prop
  | [] => True
  | (name, mapping) :: rest => name ∉ rest.map (·.1) ∧ mapping.Named ∧ NamedApart rest

end

theorem NamedApart.put {attributes : Attributes} (named : NamedApart attributes) (name : String)
    {mapping : AttributeMapping} (inner : mapping.Named) :
    NamedApart (Keyed.put attributes name mapping) := by
  induction attributes with
  | nil => simpa [Keyed.put, NamedApart] using inner
  | cons entry rest ih =>
      obtain ⟨other, old⟩ := entry
      obtain ⟨fresh, oldNamed, restNamed⟩ := named
      rw [Keyed.put]
      split
      · next same => exact ⟨same ▸ fresh, inner, restNamed⟩
      · next different =>
        refine ⟨?_, oldNamed, ih restNamed⟩
        intro member
        rcases Keyed.mem_names_put member with same | later
        · exact different same
        · exact fresh later

theorem NamedApart.filter {attributes : Attributes} (named : NamedApart attributes)
    (test : String × AttributeMapping → Bool) : NamedApart (attributes.filter test) := by
  induction attributes with
  | nil => exact named
  | cons entry rest ih =>
      obtain ⟨name, mapping⟩ := entry
      obtain ⟨fresh, inner, restNamed⟩ := named
      rw [List.filter_cons]
      split
      · refine ⟨?_, inner, ih restNamed⟩
        intro member
        obtain ⟨other, kept, same⟩ := List.mem_map.mp member
        exact fresh (List.mem_map.mpr ⟨other, (List.mem_filter.mp kept).1, same⟩)
      · exact ih restNamed

theorem Entity.withAttribute_named {e : Entity} (named : NamedApart e.attributes) (name : String)
    {mapping : AttributeMapping} (inner : mapping.Named) :
    NamedApart (e.withAttribute name mapping).attributes :=
  named.put name inner

theorem Entity.withId_named {e : Entity} (named : NamedApart e.attributes) (name : String)
    (kind : Kind) (generation : IdGeneration) :
    NamedApart (e.withId name kind generation).attributes := by
  refine ⟨?_, trivial, named.filter _⟩
  intro member
  obtain ⟨entry, kept, same⟩ := List.mem_map.mp member
  have other := (List.mem_filter.mp kept).2
  simp [same] at other

theorem leavesOf_mem {attributes : Attributes} {name : String} {mapping : AttributeMapping}
    {leaf : AttributePath × Leaf} (declared : Keyed.get? attributes name = some mapping)
    (inside : leaf ∈ mapping.leaves) : (name :: leaf.1, leaf.2) ∈ leavesOf attributes := by
  induction attributes with
  | nil => cases declared
  | cons entry rest ih =>
      obtain ⟨other, first⟩ := entry
      rw [leavesOf]
      rw [Keyed.get?] at declared
      split at declared
      · next same =>
        cases declared
        exact List.mem_append_left _ (List.mem_map.mpr ⟨leaf, inside, by rw [same]⟩)
      · exact List.mem_append_right _ (ih declared)

theorem leavesOf_head {attributes : Attributes} {leaf : AttributePath × Leaf}
    (member : leaf ∈ leavesOf attributes) :
    ∃ name ∈ attributes.map (·.1), ∃ path, leaf.1 = name :: path := by
  induction attributes with
  | nil => cases member
  | cons entry rest ih =>
      obtain ⟨name, mapping⟩ := entry
      rw [leavesOf] at member
      rcases List.mem_append.mp member with own | later
      · obtain ⟨inner, -, rfl⟩ := List.mem_map.mp own
        exact ⟨name, List.mem_cons_self, inner.1, rfl⟩
      · obtain ⟨other, known, path, same⟩ := ih later
        exact ⟨other, List.mem_cons_of_mem _ known, path, same⟩

mutual

theorem AttributeMapping.leaves_apart {mapping : AttributeMapping} (named : mapping.Named) :
    mapping.leaves.Pairwise fun a b => Apart a.1 b.1 := by
  cases mapping with
  | basic a =>
      rw [AttributeMapping.leaves]
      exact List.pairwise_singleton _ _
  | transient kind =>
      rw [AttributeMapping.leaves]
      exact List.pairwise_singleton _ _
  | embedded attributes =>
      rw [AttributeMapping.leaves]
      rw [AttributeMapping.Named] at named
      exact leavesOf_apart named
termination_by sizeOf mapping

/-- No leaf of an entity is found on the way to another one. -/
theorem leavesOf_apart {attributes : List (String × AttributeMapping)}
    (named : NamedApart attributes) :
    (leavesOf attributes).Pairwise fun a b => Apart a.1 b.1 := by
  match attributes with
  | [] =>
      rw [leavesOf]
      exact .nil
  | (name, mapping) :: rest =>
      rw [NamedApart] at named
      obtain ⟨fresh, inner, restNamed⟩ := named
      rw [leavesOf, List.pairwise_append]
      refine ⟨?_, leavesOf_apart restNamed, ?_⟩
      · rw [List.pairwise_map]
        exact (AttributeMapping.leaves_apart inner).imp fun apart => apart.cons name
      · intro own inOwn later inLater
        obtain ⟨leaf, -, rfl⟩ := List.mem_map.mp inOwn
        obtain ⟨other, known, path, same⟩ := leavesOf_head inLater
        rw [same]
        apply apart_of_ne
        intro equal
        exact fresh (equal ▸ known)
termination_by sizeOf attributes

end

theorem AttributeMapping.at?_embedded (attributes : Attributes) (name : String)
    (path : AttributePath) :
    (AttributeMapping.embedded attributes).at? (name :: path) = attributes.at? (name :: path) := by
  rw [AttributeMapping.at?, Attributes.at?]
  cases Keyed.get? attributes name <;> rfl

mutual

theorem AttributeMapping.at?_leaf {mapping : AttributeMapping} (named : mapping.Named)
    {leaf : AttributePath × Leaf} (inside : leaf ∈ mapping.leaves) :
    mapping.at? leaf.1 = some leaf.2.toMapping := by
  cases mapping with
  | basic a | transient kind =>
      rw [AttributeMapping.leaves] at inside
      rw [List.mem_singleton.mp inside, AttributeMapping.at?]
      rfl
  | embedded attributes =>
      rw [AttributeMapping.leaves] at inside
      rw [AttributeMapping.Named] at named
      obtain ⟨name, -, path, starts⟩ := leavesOf_head inside
      have located := leavesOf_at? named inside
      rw [starts] at located ⊢
      rw [AttributeMapping.at?_embedded, located]
termination_by sizeOf mapping

/-- The path of a leaf leads to the leaf. -/
theorem leavesOf_at? {attributes : List (String × AttributeMapping)}
    (named : NamedApart attributes) {leaf : AttributePath × Leaf}
    (inside : leaf ∈ leavesOf attributes) :
    Attributes.at? attributes leaf.1 = some leaf.2.toMapping := by
  match attributes with
  | [] =>
      rw [leavesOf] at inside
      cases inside
  | (name, mapping) :: rest =>
      rw [NamedApart] at named
      obtain ⟨fresh, inner, restNamed⟩ := named
      rw [leavesOf] at inside
      rcases List.mem_append.mp inside with own | later
      · obtain ⟨leaf, within, rfl⟩ := List.mem_map.mp own
        rw [Attributes.at?, Keyed.get?, if_pos rfl]
        exact AttributeMapping.at?_leaf inner within
      · obtain ⟨other, known, path, starts⟩ := leavesOf_head later
        have different : name ≠ other := fun same => fresh (same ▸ known)
        have located := leavesOf_at? restNamed later
        rw [starts] at located ⊢
        rw [Attributes.at?, Keyed.get?, if_neg different]
        exact located
termination_by sizeOf attributes

end

section Mapped

/-- The leaves of a mapping inside another one are leaves of that one. -/
theorem AttributeMapping.leaves_at? {mapping inner : AttributeMapping} {path : AttributePath}
    (located : mapping.at? path = some inner) {leaf : AttributePath × Leaf}
    (inside : leaf ∈ inner.leaves) : (path ++ leaf.1, leaf.2) ∈ mapping.leaves := by
  induction path generalizing mapping with
  | nil =>
      rw [AttributeMapping.at?] at located
      cases located
      exact inside
  | cons name rest ih =>
      cases mapping with
      | basic a | transient kind => simp [AttributeMapping.at?] at located
      | embedded attributes =>
          rw [AttributeMapping.at?] at located
          split at located
          · next inner declared =>
            rw [AttributeMapping.leaves]
            exact leavesOf_mem declared (ih located)
          · cases located

theorem Entity.leaves_at? {e : Entity} {path : AttributePath} {inner : AttributeMapping}
    (located : e.at? path = some inner) {leaf : AttributePath × Leaf}
    (inside : leaf ∈ inner.leaves) : (path ++ leaf.1, leaf.2) ∈ e.leaves := by
  cases path with
  | nil => cases located
  | cons name rest =>
      obtain ⟨mapping, declared, deeper⟩ := Option.bind_eq_some_iff.mp located
      exact leavesOf_mem declared (AttributeMapping.leaves_at? deeper inside)

/-- The entity has an attribute, at whatever depth, that is stored in the column. -/
def Entity.Maps (e : Entity) (column : String) : Prop :=
  ∃ path a, (path, Leaf.basic a) ∈ e.leaves ∧ a.column = column

theorem Entity.maps_of_at? {e : Entity} {path : AttributePath} {a : BasicAttribute}
    (located : e.at? path = some (.basic a)) : e.Maps a.column :=
  ⟨_, a, e.leaves_at? located List.mem_cons_self, rfl⟩

end Mapped

section Paths

variable {attributes : Attributes} {mapping inner : AttributeMapping} {path : AttributePath}

theorem AttributeMapping.at?_append (mapping : AttributeMapping) (path rest : AttributePath) :
    mapping.at? (path ++ rest) = (mapping.at? path).bind (·.at? rest) := by
  induction path generalizing mapping with
  | nil => simp [AttributeMapping.at?]
  | cons name path ih =>
      cases mapping with
      | basic a | transient kind => rfl
      | embedded attributes =>
          rw [List.cons_append, AttributeMapping.at?, AttributeMapping.at?]
          cases Keyed.get? attributes name with
          | none => rfl
          | some inner => exact ih inner

theorem Entity.at?_append (e : Entity) (proper : path ≠ []) (rest : AttributePath) :
    e.at? (path ++ rest) = (e.at? path).bind (·.at? rest) := by
  cases path with
  | nil => exact absurd rfl proper
  | cons name path =>
      simp only [Entity.at?, List.cons_append, Attributes.at?, Option.bind_assoc]
      exact Option.bind_congr fun mapping _ => mapping.at?_append path rest

theorem NamedApart.get? {name : String} (named : NamedApart attributes)
    (declared : Keyed.get? attributes name = some inner) : inner.Named := by
  induction attributes with
  | nil => cases declared
  | cons entry rest ih =>
      obtain ⟨first, mapping⟩ := entry
      obtain ⟨-, own, restNamed⟩ := named
      rw [Keyed.get?] at declared
      split at declared
      · cases declared
        exact own
      · exact ih restNamed declared

theorem AttributeMapping.Named.at? (named : mapping.Named)
    (located : mapping.at? path = some inner) : inner.Named := by
  induction path generalizing mapping with
  | nil =>
      rw [AttributeMapping.at?] at located
      cases located
      exact named
  | cons name rest ih =>
      cases mapping with
      | basic a | transient kind => simp [AttributeMapping.at?] at located
      | embedded attributes =>
          rw [AttributeMapping.at?] at located
          split at located
          · next declared => exact ih (NamedApart.get? named declared) located
          · cases located

theorem Entity.named_at? {e : Entity} (named : NamedApart e.attributes)
    (located : e.at? path = some inner) : inner.Named := by
  cases path with
  | nil => cases located
  | cons name rest =>
      obtain ⟨mapping, declared, deeper⟩ := Option.bind_eq_some_iff.mp located
      exact (named.get? declared).at? deeper

end Paths

section Assembling

variable {ε : Type} {read : AttributePath × Leaf → Except ε Value}

/-- What is read for each leaf, written at its path; the first leaf that cannot be read decides the
    error. -/
def assembleLeaves (read : AttributePath × Leaf → Except ε Value) :
    List (AttributePath × Leaf) → Fields → Except ε Fields
  | [], fields => .ok fields
  | leaf :: rest, fields => do
      let value ← read leaf
      assembleLeaves read rest (placeAt fields leaf.1 value)

theorem assembleLeaves_congr {read' : AttributePath × Leaf → Except ε Value}
    {leaves : List (AttributePath × Leaf)} (same : ∀ leaf ∈ leaves, read leaf = read' leaf)
    (fields : Fields) : assembleLeaves read leaves fields = assembleLeaves read' leaves fields := by
  induction leaves generalizing fields with
  | nil => rfl
  | cons first rest ih =>
      rw [assembleLeaves, assembleLeaves, same first List.mem_cons_self]
      exact bind_congr_ok fun value _ =>
        ih (fun leaf inside => same leaf (List.mem_cons_of_mem _ inside)) _

theorem assembleLeaves_ok {leaves : List (AttributePath × Leaf)} {fields object : Fields}
    (assembled : assembleLeaves read leaves fields = .ok object) :
    (∀ leaf ∈ leaves, Succeeds (read leaf)) ∧
      object = placeEach (leaves.map fun leaf => (leaf.1, (read leaf).toOption.getD .null))
        fields := by
  induction leaves generalizing fields with
  | nil =>
      cases assembled
      exact ⟨fun leaf inside => absurd inside List.not_mem_nil, rfl⟩
  | cons first rest ih =>
      rw [assembleLeaves] at assembled
      obtain ⟨value, one, assembled⟩ := bind_eq_ok.mp assembled
      obtain ⟨readable, same⟩ := ih assembled
      refine ⟨List.forall_mem_cons.mpr ⟨⟨value, one⟩, readable⟩, ?_⟩
      rw [same, List.map_cons, placeEach_cons, one]
      rfl

/-- Leaves that lie apart are found again at their paths, and nothing else changes. -/
theorem assembleLeaves_at? {leaves : List (AttributePath × Leaf)} {fields object : Fields}
    (apart : leaves.Pairwise fun a b => Apart a.1 b.1) (proper : ∀ leaf ∈ leaves, leaf.1 ≠ [])
    (assembled : assembleLeaves read leaves fields = .ok object) :
    (∀ leaf ∈ leaves, ∃ value, read leaf = .ok value ∧
        (Value.object object).at? leaf.1 = some value) ∧
      ∀ other, (∀ leaf ∈ leaves, Apart leaf.1 other) →
        (Value.object object).at? other = (Value.object fields).at? other := by
  obtain ⟨readable, rfl⟩ := assembleLeaves_ok assembled
  obtain ⟨found, kept⟩ := Value.at?_placeEach
    (leaves.map fun leaf => (leaf.1, (read leaf).toOption.getD .null)) fields
    (List.pairwise_map.mpr apart) (List.forall_mem_map.mpr proper)
  constructor
  · intro leaf inside
    obtain ⟨value, one⟩ := readable leaf inside
    have held := List.forall_mem_map.mp found leaf inside
    simp only [one] at held
    exact ⟨value, one, held⟩
  · intro other away
    exact kept other (List.forall_mem_map.mpr away)

theorem leavesOf_proper {attributes : Attributes} {leaf : AttributePath × Leaf}
    (inside : leaf ∈ leavesOf attributes) : leaf.1 ≠ [] := by
  intro empty
  obtain ⟨name, -, path, starts⟩ := leavesOf_head inside
  rw [starts] at empty
  cases empty

end Assembling

section Ids

variable {e : Entity} {a : BasicAttribute}

/-- The id attribute is one of the leaves. -/
theorem Entity.id_leaf (mapped : e.idMapping? = some a) :
    ([e.idAttribute], Leaf.basic a) ∈ e.leaves := by
  unfold idMapping? at mapped
  split at mapped
  · next declared =>
    cases mapped
    exact leavesOf_mem declared List.mem_cons_self
  · cases mapped

theorem Entity.idColumn_eq (mapped : e.idMapping? = some a) :
    e.idColumn = a.column := by
  rw [idColumn, mapped]

end Ids

end EntityQuery
