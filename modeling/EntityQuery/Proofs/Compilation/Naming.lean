import EntityQuery.Proofs.Compilation.Alias
import EntityQuery.Proofs.Compilation.Progress
import EntityQuery.Proofs.Mapping.Leaves

/-! # The names in a compiled statement

A statement gives its tables aliases with rising numbers and its blocks the numbers from 0, both in
the order in which the roots of its queries are met. Whatever column it refers to belongs to the
entity behind the alias of a table around the reference, however the aliases of the query shadow
one another.
-/

namespace EntityQuery

mutual

/-- The roots of the queries in a restriction, outer before inner, from left to right. -/
def Restriction.roots : Restriction → List Root
  | .and parts => rootsOfAll parts
  | .or parts => rootsOfAll parts
  | .not p => p.roots
  | .existsQuery query _ => rootsOfQuery query
  | .inQuery _ query _ => rootsOfQuery query
  | .compare .. | .isNull .. | .like .. => []

def rootsOfAll : List Restriction → List Root
  | [] => []
  | p :: rest => p.roots ++ rootsOfAll rest

/-- The root of the query itself and those inside its restriction. -/
def rootsOfQuery : QueryOf Restriction → List Root
  | ⟨root, _, restriction, _, _, _⟩ => root :: rootsOfOptional restriction

def rootsOfOptional : Option Restriction → List Root
  | none => []
  | some p => p.roots

end

/-- Aliases with consecutive numbers. -/
def NumberedFrom : Nat → List String → Prop
  | _, [] => True
  | number, aliasName :: rest =>
      (∃ stem : String, (∀ c ∈ stem.toList, c.isAlpha = true) ∧
        aliasName = numberedAlias stem number) ∧ NumberedFrom (number + 1) rest

namespace NumberedFrom

variable {number : Nat} {aliases more : List String}

theorem append (first : NumberedFrom number aliases)
    (second : NumberedFrom (number + aliases.length) more) :
    NumberedFrom number (aliases ++ more) := by
  induction aliases generalizing number with
  | nil => exact second
  | cons aliasName rest ih =>
      obtain ⟨own, others⟩ := first
      refine ⟨own, ih others ?_⟩
      rwa [List.length_cons, Nat.add_comm rest.length, ← Nat.add_assoc] at second

theorem mem {aliasName : String} (numbered : NumberedFrom number aliases)
    (member : aliasName ∈ aliases) :
    ∃ stem later, (∀ c ∈ stem.toList, c.isAlpha = true) ∧ number ≤ later ∧
      aliasName = numberedAlias stem later := by
  induction aliases generalizing number with
  | nil => cases member
  | cons first rest ih =>
      obtain ⟨⟨stem, letters, own⟩, others⟩ := numbered
      rcases List.mem_cons.mp member with rfl | inRest
      · exact ⟨stem, number, letters, Nat.le_refl _, own⟩
      · obtain ⟨stem, later, letters, le, same⟩ := ih others inRest
        exact ⟨stem, later, letters, Nat.le_of_succ_le le, same⟩

theorem nodup (numbered : NumberedFrom number aliases) : aliases.Nodup := by
  induction aliases generalizing number with
  | nil => exact .nil
  | cons aliasName rest ih =>
      obtain ⟨⟨stem, letters, own⟩, others⟩ := numbered
      refine List.nodup_cons.mpr ⟨?_, ih others⟩
      intro again
      obtain ⟨stem', later, letters', le, same⟩ := others.mem again
      have first : Numbered number aliasName := ⟨stem, number, letters, Nat.le_refl _, own⟩
      exact first.ne letters' le same

theorem no_dot {aliasName : String} (numbered : NumberedFrom number aliases)
    (member : aliasName ∈ aliases) : '.' ∉ aliasName.toList := by
  obtain ⟨stem, later, letters, -, same⟩ := numbered.mem member
  have named : Numbered later aliasName := ⟨stem, later, letters, Nat.le_refl _, same⟩
  exact named.no_dot

end NumberedFrom

/-- The entity behind the qualifier of the column maps it. -/
def Column.MappedIn (behind : Keyed Entity) (c : Column) : Prop :=
  ∃ e, (c.qualifier, e) ∈ behind ∧ e.Maps c.column

/-- The reference is to a column of a table around it, and the entity behind the alias of that table
    maps the column. -/
def Reference.Reads (behind : Keyed Entity) (r : Reference) : Prop :=
  r.column.qualifier ∈ r.scope ∧ r.column.MappedIn behind

theorem Reference.Reads.mono {behind more : Keyed Entity} {r : Reference} (reads : r.Reads behind)
    (within : ∀ entry ∈ behind, entry ∈ more) : r.Reads more := by
  obtain ⟨inScope, e, named, maps⟩ := reads
  exact ⟨inScope, e, within _ named, maps⟩

section Scopes

/-- The entities behind the aliases of the tables in a scope. -/
def Scope.behind (scope : Scope) : Keyed Entity :=
  scope.flatMap fun level => (Keyed.values level).map fun b => (b.table.aliasName, b.entity)

/-- The aliases of the tables in a scope, innermost first. -/
def Scope.aliases (scope : Scope) : List String := Keyed.names scope.behind

@[simp] theorem Scope.behind_within (outer : Scope) (aliasName : String) (e : Entity)
    (table : TableRef) :
    (outer.within aliasName e table).behind = (table.aliasName, e) :: outer.behind := rfl

@[simp] theorem Scope.aliases_within (outer : Scope) (aliasName : String) (e : Entity)
    (table : TableRef) :
    (outer.within aliasName e table).aliases = table.aliasName :: outer.aliases := rfl

variable {scope : Scope} {registry : ConverterRegistry}

theorem Scope.resolve?_behind {aliasName : String} {b : Binding}
    (resolved : scope.resolve? aliasName = some b) :
    (b.table.aliasName, b.entity) ∈ scope.behind := by
  induction scope with
  | nil => cases resolved
  | cons level outer ih =>
      rw [Scope.resolve?] at resolved
      apply List.mem_flatMap.mpr
      split at resolved
      · next b declared =>
        cases resolved
        have inLevel : b ∈ Keyed.values level :=
          List.mem_map.mpr ⟨_, Keyed.mem_of_get? declared, rfl⟩
        exact ⟨level, List.mem_cons_self, List.mem_map.mpr ⟨b, inLevel, rfl⟩⟩
      · obtain ⟨other, inOuter, named⟩ := List.mem_flatMap.mp (ih resolved)
        exact ⟨other, List.mem_cons_of_mem _ inOuter, named⟩

theorem Entity.maps_of_leavesAt {e : Entity} {path : Path} {leaf : AttributePath}
    {a : BasicAttribute} (inside : (leaf, Leaf.basic a) ∈ e.leavesAt path) : e.Maps a.column := by
  unfold leavesAt at inside
  split at inside
  · exact ⟨leaf, a, inside, rfl⟩
  · cases located : e.at? path.attributes with
    | none => simp [located] at inside
    | some inner =>
        rw [located] at inside
        exact ⟨_, a, e.leaves_at? located inside, rfl⟩

theorem Scope.column?_mapped {path : Path} {c : Column}
    (stands : scope.column? registry path = some c) : c.MappedIn scope.behind := by
  obtain ⟨b, resolved, mapped⟩ := Option.bind_eq_some_iff.mp stands
  obtain ⟨a, leads, rfl⟩ := Option.map_eq_some_iff.mp mapped
  exact ⟨b.entity, Scope.resolve?_behind resolved,
    Entity.maps_of_at? (Entity.columnAt?_eq_some.mp leads)⟩

mutual

theorem Scope.expression?_mapped {t : Operand} {e : Expression}
    (translated : scope.expression? registry t = some e) :
    ∀ c ∈ e.refs, c.MappedIn scope.behind := by
  cases t with
  | ref path =>
      rw [Scope.expression?] at translated
      obtain ⟨c, stands, rfl⟩ := Option.map_eq_some_iff.mp translated
      intro other member
      rw [List.mem_singleton.mp member]
      exact Scope.column?_mapped stands
  | literal l =>
      rw [Scope.expression?] at translated
      cases translated
      simp [Term.refs]
  | call name args =>
      rw [Scope.expression?] at translated
      obtain ⟨es, each, rfl⟩ := Option.map_eq_some_iff.mp translated
      exact Scope.expressions?_mapped each
termination_by sizeOf t

theorem Scope.expressions?_mapped {args : List Operand} {es : List Expression}
    (translated : scope.expressions? registry args = some es) :
    ∀ c ∈ Term.refsOfList es, c.MappedIn scope.behind := by
  cases args with
  | nil =>
      rw [Scope.expressions?] at translated
      cases translated
      simp [Term.refsOfList]
  | cons t rest =>
      rw [Scope.expressions?] at translated
      obtain ⟨e, first, translated⟩ := Option.bind_eq_some_iff.mp translated
      obtain ⟨others, each, translated⟩ := Option.bind_eq_some_iff.mp translated
      cases translated
      intro c member
      rw [Term.refsOfList] at member
      rcases List.mem_append.mp member with own | later
      · exact Scope.expression?_mapped first c own
      · exact Scope.expressions?_mapped each c later
termination_by sizeOf args

end

theorem Scope.requests_mapped {t : Operand} {e : Expression}
    (requested : e ∈ scope.requests registry t) : ∀ c ∈ e.columns, c.MappedIn scope.behind := by
  cases t with
  | ref path =>
      rw [Scope.requests] at requested
      split at requested
      · next b resolved =>
        obtain ⟨⟨path, leaf⟩, inside, asked⟩ := List.mem_flatMap.mp requested
        cases leaf with
        | transient kind => cases asked
        | basic a =>
            rw [List.mem_singleton.mp asked]
            intro c member
            rw [List.mem_singleton.mp member]
            exact ⟨b.entity, Scope.resolve?_behind resolved, Entity.maps_of_leavesAt inside⟩
      · cases requested
  | literal l | call name args =>
      rw [Scope.requests] at requested
      · exact Scope.expression?_mapped (Option.mem_toList.mp requested)
      all_goals simp

/-- What an expression refers to inside a scope that maps its columns. -/
theorem Expression.references_read {e : Expression}
    (mapped : ∀ c ∈ e.columns, c.MappedIn scope.behind) :
    ∀ r ∈ Expression.references scope.aliases e, r.Reads scope.behind := by
  intro r member
  obtain ⟨c, inside, rfl⟩ := List.mem_map.mp member
  obtain ⟨entity, named, maps⟩ := mapped c inside
  exact ⟨List.mem_map.mpr ⟨_, named, rfl⟩, entity, named, maps⟩

end Scopes

/-- The table of an entity, under the alias that the entity is behind. -/
def tableBehind (entry : String × Entity) : TableRef := ⟨entry.2.table, entry.1⟩

/-- How a part of a statement lies in it: the roots that it was compiled from, its blocks and what
    it refers to, with the entities behind the aliases of its own tables. -/
structure Laid (d : Domain) (scope : Scope) (s : CompileState) (roots : List Root)
    (blocks : List QueryBlock) (references : List Reference) (behind : Keyed Entity) : Prop where
  entities : behind.map (some ·.2) = roots.map (d.model.entity? ·.entity)
  tables : behind.map tableBehind = blocks.map (·.table)
  numbered : NumberedFrom (s.tables + 1) ((blocks.map (·.table)).map (·.aliasName))
  ids : blocks.map (·.id) = List.range' s.blocks blocks.length
  reads : ∀ r ∈ references, r.Reads (scope.behind ++ behind)

namespace Laid

variable {d : Domain} {scope : Scope} {s : CompileState} {roots roots' : List Root}
  {blocks blocks' : List QueryBlock} {references references' : List Reference}
  {behind behind' : Keyed Entity}

/-- A part without blocks only refers to the tables around it. -/
theorem plain (reads : ∀ r ∈ references, r.Reads scope.behind) :
    Laid d scope s [] [] references [] where
  entities := rfl
  tables := rfl
  numbered := trivial
  ids := rfl
  reads := fun r member => (reads r member).mono fun _ => List.mem_append_left _

/-- Two parts, of which the second one is compiled in the state that the first one leaves. -/
theorem seq {columns : List Column} (first : Laid d scope s roots blocks references behind)
    (second : Laid d scope (s.after blocks.length columns) roots' blocks' references' behind') :
    Laid d scope s (roots ++ roots') (blocks ++ blocks') (references ++ references')
      (behind ++ behind') where
  entities := by rw [List.map_append, List.map_append, first.entities, second.entities]
  tables := by rw [List.map_append, List.map_append, first.tables, second.tables]
  numbered := by
    rw [List.map_append, List.map_append]
    apply first.numbered.append
    have numbered := second.numbered
    rw [CompileState.after, Nat.add_right_comm] at numbered
    rwa [List.length_map, List.length_map]
  ids := by
    rw [List.map_append, first.ids, second.ids, List.length_append]
    exact List.range'_append_1
  reads := by
    intro r member
    rcases List.mem_append.mp member with own | later
    · exact (first.reads r own).mono fun entry known =>
        List.append_assoc scope.behind behind behind' ▸ List.mem_append_left _ known
    · refine (second.reads r later).mono fun entry known => ?_
      rcases List.mem_append.mp known with outer | inner
      · exact List.mem_append_left _ outer
      · exact List.mem_append_right _ (List.mem_append_right _ inner)

/-- The references before and behind a part of a block, in its select list and its order. -/
theorem around {before after : List Reference}
    (laid : Laid d scope s roots blocks references behind)
    (onSelect : ∀ r ∈ before, r.Reads scope.behind)
    (onOrder : ∀ r ∈ after, r.Reads scope.behind) :
    Laid d scope s roots blocks (before ++ (references ++ after)) behind where
  entities := laid.entities
  tables := laid.tables
  numbered := laid.numbered
  ids := laid.ids
  reads := by
    have wider {r : Reference} (reads : r.Reads scope.behind) : r.Reads (scope.behind ++ behind) :=
      reads.mono fun _ => List.mem_append_left _
    simp only [List.forall_mem_append]
    exact ⟨fun r member => wider (onSelect r member), laid.reads,
      fun r member => wider (onOrder r member)⟩

/-- Who listens is no matter of names. -/
theorem muted (laid : Laid d scope s.muted roots blocks references behind) :
    Laid d scope s roots blocks references behind :=
  ⟨laid.entities, laid.tables, laid.numbered, laid.ids, laid.reads⟩

/-- A block around a part that is compiled after its select list. -/
theorem enter {root : Root} {e : Entity} {block : QueryBlock} {slots : List Slot}
    {columns : List Column} (known : d.model.entity? root.entity = some e)
    (number : block.id = s.blocks) (table : block.table = s.newTable d.config e)
    (inner : Laid d (scope.within root.aliasName e block.table)
      ((s.withBlock.announced slots).after 0 columns) roots blocks references behind) :
    Laid d scope s (root :: roots) (block :: blocks) references
      ((block.table.aliasName, e) :: behind) where
  entities := by rw [List.map_cons, List.map_cons, known, inner.entities]
  tables := by
    rw [List.map_cons, List.map_cons, inner.tables, table]
    rfl
  numbered := by
    have own : block.table.aliasName =
        numberedAlias (aliasStem d.config.aliasStemLength e.name) (s.tables + 1) := by
      rw [table]
      rfl
    exact ⟨⟨_, aliasStem_letters d.config.aliasStemLength e.name, own⟩, inner.numbered⟩
  ids := by
    rw [List.map_cons, number, inner.ids, List.length_cons, List.range'_succ]
    rfl
  reads := by
    intro r member
    refine (inner.reads r member).mono fun entry within => ?_
    simp only [Scope.behind_within, List.cons_append, List.mem_cons, List.mem_append] at within ⊢
    tauto

end Laid

section Compiled

variable {d : Domain}

/-- Also with another expression of the same columns in the place of the compiled one. -/
theorem compileOperand_references_read {scope : Scope} {clause : Clause} {t : Operand}
    {s s' : CompileState} {e e' : Expression} {converter : Option Converter}
    (compiled : compileOperand d scope clause t s = .ok ((e, converter), s'))
    (columns : e'.columns = e.columns) :
    ∀ r ∈ Expression.references scope.aliases e', r.Reads scope.behind := by
  apply Expression.references_read
  rw [columns]
  exact Scope.expression?_mapped (compileOperand_expression compiled)

theorem compileExpression_references_read {scope : Scope} {clause : Clause} {t : Operand}
    {s s' : CompileState} {e : Expression}
    (compiled : compileExpression d scope clause t s = .ok (e, s')) :
    ∀ r ∈ Expression.references scope.aliases e, r.Reads scope.behind := by
  obtain ⟨converter, operand⟩ := compileExpression_ok compiled
  exact compileOperand_references_read operand rfl

theorem compileOrderings_references_read {scope : Scope} {selections : List Selection}
    {orderings : List OrderBy} {s s' : CompileState} {keys : List SortKey}
    (compiled : compileOrderings d scope selections orderings s = .ok (keys, s')) :
    ∀ r ∈ keys.flatMap fun key => Expression.references scope.aliases key.expression,
      r.Reads scope.behind := by
  induction orderings generalizing s keys with
  | nil =>
      cases compiled
      simp
  | cons ordering rest ih =>
      obtain ⟨e, s₁, others, first, each, rfl⟩ := compileOrderings_cons_ok compiled
      intro r member
      rcases List.mem_append.mp (List.flatMap_cons ▸ member) with own | later
      · exact compileExpression_references_read first r own
      · exact ih each r later

theorem mem_foldl_withRequest {requests columns : List Expression} {e : Expression}
    (member : e ∈ requests.foldl withRequest columns) : e ∈ columns ∨ e ∈ requests := by
  induction requests generalizing columns with
  | nil => exact .inl member
  | cons first rest ih =>
      rcases ih member with known | later
      · unfold withRequest at known
        split at known
        · exact .inl known
        · rcases List.mem_append.mp known with old | new
          · exact .inl old
          · exact .inr (List.mem_singleton.mp new ▸ List.mem_cons_self)
      · exact .inr (List.mem_cons_of_mem _ later)

theorem selectEach_references_read {scope : Scope} {selections : List Selection}
    {parts : List ResultPart} {id : Nat} {table : TableRef} {s : CompileState} {st : SelectState}
    (selected : selectEach d scope selections (.start id table s) = .ok (parts, st)) :
    ∀ r ∈ (resultColumns st.resolver.block.select).flatMap (Expression.references scope.aliases),
      r.Reads scope.behind := by
  intro r member
  obtain ⟨e, inside, refers⟩ := List.mem_flatMap.mp member
  rw [selectEach_start_columns selected] at inside
  rcases mem_foldl_withRequest inside with before | requested
  · cases before
  · obtain ⟨selection, -, asks⟩ := List.mem_flatMap.mp requested
    exact Expression.references_read (Scope.requests_mapped asks) r refers

mutual

theorem compileRestriction_laid {scope : Scope} {enclosing : List Clause} {s s' : CompileState}
    {p : Restriction} {predicate : Predicate}
    (compiled : compileRestriction d scope enclosing p s = .ok (predicate, s')) :
    ∃ behind, Laid d scope s p.roots predicate.blocks (predicate.references scope.aliases)
      behind := by
  cases p with
  | compare left op right =>
      obtain ⟨l, leftConverter, s₁, r, rightConverter, l', r', onLeft, onRight, storedLeft,
        storedRight, rfl⟩ := compileRestriction_compare_ok compiled
      have first := compileOperand_references_read onLeft (storedForm_columns storedLeft)
      have second := compileOperand_references_read onRight (storedForm_columns storedRight)
      simp only [Restriction.roots, Predicate.blocks, Predicate.references]
      exact ⟨[], .plain (List.forall_mem_append.mpr ⟨first, second⟩)⟩
  | and parts =>
      obtain ⟨ps, each, rfl⟩ := compileRestriction_and_ok compiled
      exact compileRestrictions_laid each
  | or parts =>
      obtain ⟨ps, each, rfl⟩ := compileRestriction_or_ok compiled
      exact compileRestrictions_laid each
  | not p =>
      obtain ⟨inner, negated, rfl⟩ := compileRestriction_not_ok compiled
      simp only [Restriction.roots, Predicate.blocks, Predicate.references]
      exact compileRestriction_laid negated
  | isNull e negated =>
      obtain ⟨e', operand, rfl⟩ := compileRestriction_isNull_ok compiled
      simp only [Restriction.roots, Predicate.blocks, Predicate.references]
      exact ⟨[], .plain (compileExpression_references_read operand)⟩
  | like e pattern negated =>
      obtain ⟨e', s₁, pat, operand, matched, rfl⟩ := compileRestriction_like_ok compiled
      have first := compileOperand_references_read operand rfl
      have second := compileExpression_references_read matched
      simp only [Restriction.roots, Predicate.blocks, Predicate.references]
      exact ⟨[], .plain (List.forall_mem_append.mpr ⟨first, second⟩)⟩
  | existsQuery query negated =>
      obtain ⟨inner, s₁, block, rfl, -⟩ := compileRestriction_existsQuery_ok compiled
      obtain ⟨behind, laid⟩ := compileBlock_laid block
      exact ⟨behind, laid.muted⟩
  | inQuery e query negated =>
      obtain ⟨e', s₁, inner, s₂, operand, block, rfl, -⟩ := compileRestriction_inQuery_ok compiled
      rw [compileExpression_after operand] at block
      obtain ⟨behind, laid⟩ := compileBlock_laid block
      have first : Laid d scope s [] [] (Expression.references scope.aliases e') [] :=
        .plain (compileExpression_references_read operand)
      exact ⟨behind, first.seq laid.muted⟩
termination_by sizeOf p

theorem compileRestrictions_laid {scope : Scope} {enclosing : List Clause} {s s' : CompileState}
    {parts : List Restriction} {predicates : List Predicate}
    (compiled : compileRestrictions d scope enclosing parts s = .ok (predicates, s')) :
    ∃ behind, Laid d scope s (rootsOfAll parts) (blocksOfAll predicates)
      (referencesOfAll scope.aliases predicates) behind := by
  cases parts with
  | nil =>
      rw [compileRestrictions] at compiled
      cases compiled
      exact ⟨[], .plain (by simp [referencesOfAll])⟩
  | cons p rest =>
      obtain ⟨first, s₁, others, one, each, rfl⟩ := compileRestrictions_cons_ok compiled
      rw [compileRestriction_after scope.aliases one] at each
      obtain ⟨behind, laid⟩ := compileRestriction_laid one
      obtain ⟨behind', laid'⟩ := compileRestrictions_laid each
      exact ⟨behind ++ behind', laid.seq laid'⟩
termination_by sizeOf parts

theorem compileOptional_laid {scope : Scope} {enclosing : List Clause} {s s' : CompileState}
    {restriction : Option Restriction} {predicate : Option Predicate}
    (compiled : compileOptional d scope enclosing restriction s = .ok (predicate, s')) :
    ∃ behind, Laid d scope s (rootsOfOptional restriction) (blocksOfRestriction predicate)
      (referencesOfRestriction scope.aliases predicate) behind := by
  cases restriction with
  | none =>
      rw [compileOptional] at compiled
      cases compiled
      exact ⟨[], .plain (by simp [referencesOfRestriction])⟩
  | some p =>
      obtain ⟨inner, one, rfl⟩ := compileOptional_some_ok compiled
      exact compileRestriction_laid one
termination_by sizeOf restriction

theorem compileBlock_laid {outer : Scope} {enclosing : List Clause} {s s' : CompileState}
    {q : QueryOf Restriction} {compiled : CompiledBlock}
    (ok : compileBlock d outer enclosing q s = .ok (compiled, s')) :
    ∃ behind, Laid d outer s (rootsOfQuery q) (blocksOfBlock compiled.block)
      (referencesOfBlock outer.aliases compiled.block) behind := by
  cases q with
  | mk root selections restriction orderings limit offset =>
      obtain ⟨e, results, st, predicate, s₁, keys, -, known, selected, restricted, ordered, rfl⟩ :=
        compileBlock_ok ok
      have leads := selectEach_leads (fun _ member => member) selected
      have table : st.resolver.block.table = s.newTable d.config e := leads.table
      -- The blocks inside are numbered from where the select list leaves off, and it gives out no
      -- number itself.
      rw [selectEach_start_after selected] at restricted
      obtain ⟨behind, laid⟩ := compileOptional_laid restricted
      have inside := laid.around (selectEach_references_read selected)
        (compileOrderings_references_read ordered)
      rw [Scope.aliases_within, ← table] at inside
      exact ⟨_, .enter known leads.number table inside⟩
termination_by sizeOf q

end

end Compiled

/-- What the names in a statement with the given roots come to. -/
structure WellNamed (model : Model) (roots : List Root) (tables : List TableRef) (ids : List Nat)
    (references : List Reference) : Prop where
  nodup : (tables.map (·.aliasName)).Nodup
  no_dot : ∀ table ∈ tables, '.' ∉ table.aliasName.toList
  ids_eq : ids = List.range ids.length
  /-- The tables are those of the entities of the roots, one by one, and every reference is to a
      column of such an entity, from inside its block. -/
  reads : ∃ behind : Keyed Entity, behind.map tableBehind = tables ∧
    behind.map (some ·.2) = roots.map (model.entity? ·.entity) ∧ ∀ r ∈ references, r.Reads behind

theorem NumberedFrom.wellNamed {model : Model} {roots : List Root} {number : Nat}
    {tables : List TableRef} {ids : List Nat} {references : List Reference} {behind : Keyed Entity}
    (numbered : NumberedFrom number (tables.map (·.aliasName)))
    (isTable : behind.map tableBehind = tables)
    (entities : behind.map (some ·.2) = roots.map (model.entity? ·.entity))
    (inOrder : ids = List.range ids.length) (reads : ∀ r ∈ references, r.Reads behind) :
    WellNamed model roots tables ids references where
  nodup := numbered.nodup
  no_dot := fun table member => numbered.no_dot (List.mem_map.mpr ⟨table, member, rfl⟩)
  ids_eq := inOrder
  reads := ⟨behind, isTable, entities, reads⟩

/-- The tables of a compiled statement have distinct aliases without dots, its blocks are numbered
    in order, and its references are to columns of the tables around them. The target of a delete
    statement counts as the outermost table. -/
theorem compile_wellNamed (d : Domain) :
    (∀ (q : Query) (compiled : CompiledSelect), q.compile d = .ok compiled →
      WellNamed d.model (rootsOfQuery q) ((blocksOfBlock compiled.block).map (·.table))
        ((blocksOfBlock compiled.block).map (·.id)) (referencesOfBlock [] compiled.block)) ∧
    (∀ (q : DeleteQuery) (compiled : CompiledDelete), q.compile d = .ok compiled →
      WellNamed d.model (q.target :: rootsOfOptional q.restriction)
        (compiled.statement.target :: compiled.statement.blocks.map (·.table))
        (compiled.statement.blocks.map (·.id)) compiled.statement.references) := by
  constructor
  · intro q compiled isCompiled
    obtain ⟨block, s, ok, rfl⟩ := Query.compile_ok isCompiled
    obtain ⟨behind, laid⟩ := compileBlock_laid ok
    refine laid.numbered.wellNamed laid.tables laid.entities ?_ laid.reads
    rw [List.length_map]
    exact laid.ids.trans List.range_eq_range'.symm
  · intro q compiled isCompiled
    obtain ⟨e, predicate, s, known, restricted, rfl⟩ := DeleteQuery.compile_ok isCompiled
    obtain ⟨behind, laid⟩ := compileOptional_laid restricted
    have numbered : NumberedFrom 1 ((CompileState.newTable {} d.config e).aliasName ::
        ((blocksOfRestriction predicate).map (·.table)).map (·.aliasName)) :=
      ⟨⟨_, aliasStem_letters d.config.aliasStemLength e.name, rfl⟩, laid.numbered⟩
    have tables : List.map tableBehind (((CompileState.newTable {} d.config e).aliasName, e) ::
        behind) = CompileState.newTable {} d.config e ::
          (blocksOfRestriction predicate).map (·.table) := congrArg _ laid.tables
    refine numbered.wellNamed tables ?_ ?_ laid.reads
    · rw [List.map_cons, List.map_cons, known, laid.entities]
    · rw [List.length_map]
      exact laid.ids.trans List.range_eq_range'.symm

namespace Sample

/-- An entity whose name has no letter for an alias. -/
def ledger : Entity where
  name := "7é"
  table := "ledgers"
  attributes :=
    [("id", .basic { column := "id", kind := .int }),
      ("total", .embedded [("amount", .basic { column := "total", kind := .float })])]

def ledgers : Domain where
  model := ⟨[("7é", ledger), ("", { ledger with name := "", table := "drafts" })]⟩
  registry := .standard
  config := { aliasStemLength := 0 }

/-- There is a draft with the same total, and its id is that of a ledger. The innermost root takes
    the alias of the outermost one. -/
def drafted : Restriction :=
  .existsQuery
    { root := ⟨"", "y"⟩
      restriction := some (.and
        [.compare (.ref ⟨"y", ["total", "amount"]⟩) .eq (.ref ⟨"x", ["total", "amount"]⟩),
          .inQuery (.ref ⟨"y", []⟩) { root := ⟨"7é", "x"⟩ } false]) } false

def draftedLedgers : Query := { root := ⟨"7é", "x"⟩, restriction := some drafted }

def withoutDrafted : DeleteQuery := ⟨⟨"7é", "x"⟩, some drafted⟩

end Sample

theorem compile_wellNamed_ledgers :
    ∃ select delete, Sample.draftedLedgers.compile Sample.ledgers = .ok select ∧
      Sample.withoutDrafted.compile Sample.ledgers = .ok delete ∧
      (blocksOfBlock select.block).map (·.table) =
        [⟨"ledgers", "t1_0"⟩, ⟨"drafts", "t2_0"⟩, ⟨"ledgers", "t3_0"⟩] ∧
      WellNamed Sample.ledgers.model (rootsOfQuery Sample.draftedLedgers)
        ((blocksOfBlock select.block).map (·.table)) ((blocksOfBlock select.block).map (·.id))
        (referencesOfBlock [] select.block) ∧
      WellNamed Sample.ledgers.model
        (Sample.withoutDrafted.target :: rootsOfOptional Sample.withoutDrafted.restriction)
        (delete.statement.target :: delete.statement.blocks.map (·.table))
        (delete.statement.blocks.map (·.id)) delete.statement.references := by
  obtain ⟨select, selects, tables⟩ := Option.map_eq_some_iff.mp
    (show (Sample.draftedLedgers.compile Sample.ledgers).toOption.map
        (fun compiled => (blocksOfBlock compiled.block).map (·.table)) =
      some [⟨"ledgers", "t1_0"⟩, ⟨"drafts", "t2_0"⟩, ⟨"ledgers", "t3_0"⟩] by decide +kernel)
  obtain ⟨delete, isDelete⟩ : ∃ delete,
      Sample.withoutDrafted.compile Sample.ledgers = .ok delete := isOk_iff.mp (by decide +kernel)
  have isSelect := toOption_eq_some.mp selects
  obtain ⟨forSelects, forDeletes⟩ := compile_wellNamed Sample.ledgers
  exact ⟨select, delete, isSelect, isDelete, tables, forSelects _ _ isSelect,
    forDeletes _ _ isDelete⟩

end EntityQuery
