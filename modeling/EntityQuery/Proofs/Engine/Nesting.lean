import EntityQuery.Proofs.Engine.Listing
import EntityQuery.Proofs.Meaning.Surroundings
import Mathlib.Logic.Relation

/-! # Queries inside running statements

A block inside a statement runs once for every row of the blocks around it. A query that compiles by
itself has there the very result rows that it has as a statement of its own, for whatever rows
around it, as long as no block around it declares a name that one of its orderings takes from a
selection.
-/

namespace EntityQuery

/-- The query stands in the restriction where the block stands in the predicate. -/
inductive Restriction.Holds : Restriction → Predicate → Query → QueryBlock → Prop where
  | existsQuery {query : Query} {block : QueryBlock} {negated : Bool} :
      Holds (.existsQuery query negated) (.existsQuery block negated) query block
  | inQuery {t : Operand} {e : Expression} {query : Query} {block : QueryBlock} {negated : Bool} :
      Holds (.inQuery t query negated) (.inQuery e block negated) query block
  | not {p : Restriction} {predicate : Predicate} {query : Query} {block : QueryBlock}
      (inside : Holds p predicate query block) : Holds (.not p) (.not predicate) query block
  | and {parts : List Restriction} {predicates : List Predicate} {i : Nat} {p : Restriction}
      {predicate : Predicate} {query : Query} {block : QueryBlock} (part : parts[i]? = some p)
      (compiled : predicates[i]? = some predicate) (inside : Holds p predicate query block) :
      Holds (.and parts) (.and predicates) query block
  | or {parts : List Restriction} {predicates : List Predicate} {i : Nat} {p : Restriction}
      {predicate : Predicate} {query : Query} {block : QueryBlock} (part : parts[i]? = some p)
      (compiled : predicates[i]? = some predicate) (inside : Holds p predicate query block) :
      Holds (.or parts) (.or predicates) query block

/-- What a query stands directly inside of, with its compiled form: another query, or a delete
    statement. -/
inductive Level where
  | block (query : Query) (compiled : QueryBlock)
  | target (statement : DeleteQuery) (compiled : DeleteStatement)

namespace Level

def aliasName : Level → String
  | .block query _ => query.root.aliasName
  | .target statement _ => statement.target.aliasName

def restriction : Level → Option Restriction
  | .block query _ => query.restriction
  | .target statement _ => statement.restriction

def table : Level → TableRef
  | .block _ compiled => compiled.table
  | .target _ compiled => compiled.target

def predicate : Level → Option Predicate
  | .block _ compiled => compiled.restriction
  | .target _ compiled => compiled.restriction

/-- The level is a whole statement, which compiles and refers to the recorded columns. -/
inductive Accepted (d : Domain) : Level → ColumnUsage → Prop where
  | select {q : Query} {compiled : CompiledSelect} (accepted : q.compile d = .ok compiled) :
      Accepted d (.block q compiled.block) compiled.usage
  | delete {q : DeleteQuery} {compiled : CompiledDelete} (accepted : q.compile d = .ok compiled) :
      Accepted d (.target q compiled.statement) compiled.usage

end Level

/-- A level where it runs: inside blocks that declare the aliases, innermost first, and for a row
    under evaluation that holds theirs. -/
structure Site where
  level : Level
  aliases : List String
  row : Row

namespace Site

/-- A whole statement, with nothing around it. -/
def whole (statement : Level) : Site := ⟨statement, [], []⟩

/-- The one level stands directly inside the other and runs for one of its rows. -/
inductive Nests (usage : Option ColumnUsage) (site : Site) : Site → Prop where
  | query {p : Restriction} {predicate : Predicate} {query : Query} {block : QueryBlock}
      (source : Row) (restricted : site.level.restriction = some p)
      (compiled : site.level.predicate = some predicate)
      (holds : p.Holds predicate query block) :
      Nests usage site ⟨.block query block, site.level.aliasName :: site.aliases,
        scanRow usage site.level.table site.row source⟩

/-- The level was compiled for the aliases around it, whose rows the row represents. -/
inductive Compiles (d : Domain) (usage : Option ColumnUsage) : Site → Prop where
  | block {scope : Scope} {enclosing : List Clause} {q : Query} {s s' : CompileState}
      {compiled : CompiledBlock} {env : Environment} {row : Row}
      (ok : compileBlock d scope enclosing q s = .ok (compiled, s'))
      (covers : Covers usage s'.usage) (represents : Represents usage s.tables scope env row) :
      Compiles d usage ⟨.block q compiled.block, env.map (·.aliasName), row⟩
  | target {q : DeleteQuery} {compiled : CompiledDelete} (ok : q.compile d = .ok compiled)
      (covers : Covers usage compiled.usage) :
      Compiles d usage (.whole (.target q compiled.statement))

end Site

variable {d : Domain} {usage : Option ColumnUsage} {scope : Scope} {enclosing : List Clause}

theorem compileRestrictions_part {parts : List Restriction} {predicates : List Predicate} {i : Nat}
    {p : Restriction} {predicate : Predicate} {s s' : CompileState}
    (compiled : compileRestrictions d scope enclosing parts s = .ok (predicates, s'))
    (part : parts[i]? = some p) (at_ : predicates[i]? = some predicate) :
    ∃ s₁ s₂, s.Grows s₁ ∧ compileRestriction d scope enclosing p s₁ = .ok (predicate, s₂) ∧
      s₂.Grows s' := by
  induction parts generalizing s predicates i with
  | nil => simp at part
  | cons first rest ih =>
      obtain ⟨one, s₁, others, own, each, rfl⟩ := compileRestrictions_cons_ok compiled
      cases i with
      | zero =>
          cases part
          cases at_
          exact ⟨s, s₁, .refl s, own, compileRestrictions_grows each⟩
      | succ i =>
          obtain ⟨s₂, s₃, before, later, after⟩ := ih each part at_
          exact ⟨s₂, s₃, (compileRestriction_grows own).trans before, later, after⟩

/-- A query in a compiled restriction was compiled in some state on the way. -/
theorem Restriction.Holds.compiled {p : Restriction} {predicate : Predicate} {query : Query}
    {block : QueryBlock} (holds : p.Holds predicate query block) {s s' : CompileState}
    (ok : compileRestriction d scope enclosing p s = .ok (predicate, s')) :
    ∃ s₁ inner s₂, s.Grows s₁ ∧
      compileBlock d scope (.restriction :: enclosing) query s₁ = .ok (inner, s₂) ∧
      s₂.Grows s' ∧ inner.block = block := by
  induction holds generalizing s s' with
  | existsQuery =>
      obtain ⟨inner, s₁, compiled, same, rfl⟩ := compileRestriction_existsQuery_ok ok
      cases same
      exact ⟨s.muted, inner, s₁, .muted s, compiled, .unmuted s₁ _, rfl⟩
  | inQuery =>
      obtain ⟨e, s₁, inner, s₂, operand, compiled, same, rfl⟩ := compileRestriction_inQuery_ok ok
      cases same
      exact ⟨s₁.muted, inner, s₂, (compileExpression_grows operand).trans (.muted s₁), compiled,
        .unmuted s₂ _, rfl⟩
  | not _ ih =>
      obtain ⟨inner, compiled, same⟩ := compileRestriction_not_ok ok
      cases same
      exact ih compiled
  | and part at_ _ ih =>
      obtain ⟨predicates, each, same⟩ := compileRestriction_and_ok ok
      cases same
      obtain ⟨s₁, s₂, before, one, after⟩ := compileRestrictions_part each part at_
      obtain ⟨s₃, inner, s₄, before', compiled, after', same⟩ := ih one
      exact ⟨s₃, inner, s₄, before.trans before', compiled, after'.trans after, same⟩
  | or part at_ _ ih =>
      obtain ⟨predicates, each, same⟩ := compileRestriction_or_ok ok
      cases same
      obtain ⟨s₁, s₂, before, one, after⟩ := compileRestrictions_part each part at_
      obtain ⟨s₃, inner, s₄, before', compiled, after', same⟩ := ih one
      exact ⟨s₃, inner, s₄, before.trans before', compiled, after'.trans after, same⟩

namespace Site

/-- What a level's own restriction was compiled in. -/
theorem Compiles.restriction {site : Site} (compiles : site.Compiles d usage) :
    ∃ (e : Entity) (scope : Scope) (enclosing : List Clause) (env : Environment)
        (s s₁ s₂ : CompileState), Represents usage s.tables scope env site.row ∧
      site.aliases = env.map (·.aliasName) ∧
      site.level.table = s.newTable d.config e ∧ s.tables + 1 ≤ s₁.tables ∧
      compileOptional d (scope.within site.level.aliasName e (s.newTable d.config e)) enclosing
        site.level.restriction s₁ = .ok (site.level.predicate, s₂) ∧
      Covers usage s₂.usage := by
  cases compiles with
  | @block scope enclosing q s s' compiled env row ok covers represents =>
      obtain ⟨root, selections, restriction, orderings, limit, offset⟩ := q
      obtain ⟨e, results, st, predicate, s₁, keys, -, -, selected, restricted, ordered, rfl⟩ :=
        compileBlock_ok ok
      have table : st.resolver.block.table = s.newTable d.config e :=
        (selectEach_leads (fun selection member => member) selected).table
      exact ⟨e, scope, enclosing, env, s, st.finish, s₁, represents, rfl, table,
        (selectEach_grows selected).tables, restricted,
        (compileOrderings_grows ordered).covers covers⟩
  | target ok covers =>
      obtain ⟨e, predicate, s, -, restricted, rfl⟩ := DeleteQuery.compile_ok ok
      exact ⟨e, [], [], [], {}, _, s, .empty _ _, rfl, rfl, Nat.le_refl _, restricted, covers⟩

/-- Inside a compiled level stand compiled levels. -/
theorem Nests.compiles {site inner : Site} (nests : Nests usage site inner)
    (compiles : site.Compiles d usage) : inner.Compiles d usage := by
  obtain ⟨source, restricted, predicate, holds⟩ := nests
  obtain ⟨e, scope, enclosing, env, s, s₁, s₂, represents, aliases, table, later, compiled,
    covers⟩ := compiles.restriction
  rw [restricted, predicate] at compiled
  obtain ⟨predicate', one, same⟩ := compileOptional_some_ok compiled
  cases same
  obtain ⟨s₃, block, s₄, before, ok, after, rfl⟩ := holds.compiled one
  have entered := (represents.enter d.config site.level.aliasName e source).mono
    (Nat.le_trans later before.tables)
  rw [aliases, table]
  exact .block ok (after.covers covers) entered

/-- So every level inside an accepted statement was compiled, at whatever depth. -/
theorem compiles_of_accepted {statement : Level} {recorded : ColumnUsage} {site : Site}
    (accepted : statement.Accepted d recorded) (covers : Covers usage recorded)
    (inside : Relation.ReflTransGen (Nests usage) (.whole statement) site) :
    site.Compiles d usage := by
  induction inside with
  | refl =>
      cases accepted with
      | select accepted =>
          obtain ⟨block, s, ok, rfl⟩ := Query.compile_ok accepted
          exact .block ok covers (.empty _ _)
      | delete accepted => exact .target accepted covers
  | tail _ nests compiles => exact nests.compiles compiles

end Site

/-- What can be selected where nothing but the root is visible names nothing else. -/
theorem Visible.Selects.namesOnly {aliasName : String} {e : Entity} {t : Operand}
    (selects : Visible.Selects d [(aliasName, e)] t) : t.NamesOnly aliasName := by
  have visible : ∀ {name : String} {e' : Entity}, Keyed.get? [(aliasName, e)] name = some e' →
      name = aliasName := by
    intro name e' known
    by_cases own : aliasName = name
    · exact own.symm
    · simp [Keyed.get?, own] at known
  cases t with
  | ref path =>
      obtain ⟨leaves, leads, -⟩ := selects
      obtain ⟨e', known, -⟩ := Option.bind_eq_some_iff.mp leads
      intro other member
      rw [List.mem_singleton.mp member]
      exact visible known
  | literal l | call name args =>
      intro path member
      obtain ⟨a, leads, -⟩ := selects path member
      obtain ⟨e', known, -⟩ := Option.bind_eq_some_iff.mp leads
      exact visible known

/-- Compiled anywhere, a query that compiles by itself has the result rows of the query by itself,
    unless a name that it borrows from a selection is declared around it. -/
theorem runBlock_closed {q : Query} {alone : CompiledSelect} {tables : Tables}
    {usage' : Option ColumnUsage} {s s' : CompileState}
    {compiled : CompiledBlock} {env : Environment} {row : Row}
    (accepted : q.compile d = .ok alone) (covers' : Covers usage' alone.usage)
    (explicit : q.selections ≠ [])
    (ok : compileBlock d scope enclosing q s = .ok (compiled, s'))
    (covers : Covers usage s'.usage) (represents : Represents usage s.tables scope env row)
    (free : ∀ name ∈ q.borrowed, name ∉ env.map (·.aliasName)) :
    runBlock tables usage row compiled.block = runBlock tables usage' [] alone.block := by
  have wellFormed : wellFormedQuery d [] [] q := (Query.compile_succeeds q).mp ⟨alone, accepted⟩
  have extending : Environment.Extends [] q.borrowed [] env := by
    refine ⟨fun name => rfl, ?_⟩
    intro name known
    rcases known with visible | borrowed
    · cases visible
    · rw [Environment.frame?, List.find?_eq_none.mpr]
      · rfl
      · intro f inside
        simp only [decide_eq_true_eq]
        rintro rfl
        exact free f.aliasName borrowed (List.mem_map_of_mem inside)
  have sameSolutions : solutions d tables env q = solutions d tables [] q :=
    extending.solutions wellFormed
  obtain ⟨block, s₁, ok', rfl⟩ := Query.compile_ok accepted
  have sameRow : compiled.block.resultRow usage row = block.block.resultRow usage' [] := by
    obtain ⟨root, selections, restriction, orderings, limit, offset⟩ := q
    obtain ⟨-, e, known, selects, -, -⟩ := wellFormed
    have wanted : wantedSelections root e [] selections = selections :=
      if_neg (by simpa using explicit)
    rw [wanted] at selects
    have own : ∀ selection ∈ selections, selection.operand.NamesOnly root.aliasName :=
      fun selection member => (selects.each selection member).namesOnly
    funext source
    rw [compileBlock_resultRow explicit own known ok covers represents source,
      compileBlock_resultRow explicit own known ok' covers' (.empty _ _) source]
  rw [runBlock_solutions ok covers represents, runBlock_solutions ok' covers' (.empty _ _),
    sameSolutions, sameRow]

/-- A query that compiles by itself has the same result rows inside any accepted statement, for
    whatever rows around it, as by itself, unless a name that it borrows from a selection is
    declared around it. -/
theorem Engine.nested_rows {engine : Engine} {q : Query} {alone : CompiledSelect}
    {statement : Level} {recorded : ColumnUsage} {block : QueryBlock} {aliases : List String}
    {row : Row} (accepted : q.compile engine.domain = .ok alone) (explicit : q.selections ≠ [])
    (enclosing : statement.Accepted engine.domain recorded)
    (inside : Relation.ReflTransGen (Site.Nests (engine.pruning recorded)) (.whole statement)
      ⟨.block q block, aliases, row⟩)
    (free : ∀ name ∈ q.borrowed, name ∉ aliases) :
    (do let tables ← engine.store.access
        runBlock tables (engine.pruning recorded) row block) =
      engine.store.select (engine.pruning alone.usage) alone.block := by
  have compiles := Site.compiles_of_accepted enclosing (engine.pruning_covers recorded) inside
  cases compiles with
  | block ok covers represents =>
      apply bind_congr_ok
      intro tables _
      exact runBlock_closed accepted (engine.pruning_covers alone.usage) explicit ok covers
        represents free

theorem sortRows_pair (order : List SortKey) (a b : Row) :
    sortRows order [a, b] = if compareRows order a b != .gt then [a, b] else [b, a] := by
  simp [sortRows, List.mergeSort, List.MergeSort.Internal.splitInTwo, List.merge]

namespace Sample

/-- An engine with two people. -/
def pair : Engine :=
  { people with store := { tables := [("people", [[("id", .int 1)], [("id", .int 2)]])] } }

/-- The larger id, sorted by the name under which it is selected. -/
def newest : Query where
  root := ⟨"Person", "x"⟩
  selections := [{ operand := .ref ⟨"x", ["id"]⟩, aliasName := some "n" }]
  orderings := [{ operand := .ref ⟨"n", []⟩, ascending := false }]
  limit := some 1

/-- The people with that id. -/
def amongNewest (aliasName : String) : Query where
  root := ⟨"Person", aliasName⟩
  restriction := some (.inQuery (.ref ⟨aliasName, ["id"]⟩) newest false)

/-- The block of the query in which a block asks for membership. -/
def memberBlock? (block : QueryBlock) : Option QueryBlock :=
  match block.restriction with
  | some (.inQuery _ inner _) => some inner
  | _ => none

/-- Where the query for the larger id runs for the first person. -/
def newestSite (aliasName : String) (compiled : CompiledSelect) (block : QueryBlock) : Site :=
  ⟨.block newest block, [aliasName],
    scanRow (pair.pruning compiled.usage) compiled.block.table [] [("id", .int 1)]⟩

theorem amongNewest_nests {aliasName : String} {compiled : CompiledSelect}
    (accepted : (amongNewest aliasName).compile pair.domain = .ok compiled) :
    ∃ block, memberBlock? compiled.block = some block ∧
      Relation.ReflTransGen (Site.Nests (pair.pruning compiled.usage))
        (.whole (.block (amongNewest aliasName) compiled.block))
        (newestSite aliasName compiled block) := by
  obtain ⟨outer, s, ok, rfl⟩ := Query.compile_ok accepted
  obtain ⟨e, results, st, predicate, s₁, keys, -, -, -, restricted, -, rfl⟩ := compileBlock_ok ok
  obtain ⟨inner, one, rfl⟩ := compileOptional_some_ok restricted
  obtain ⟨e', s₂, block, s₃, -, -, rfl, -⟩ := compileRestriction_inQuery_ok one
  exact ⟨block.block, rfl, .single (.query _ rfl rfl .inQuery)⟩

/-- The result rows of a block without a restriction, where its table has two rows. -/
def pairRows (usage : Option ColumnUsage) (outer : Row) (block : QueryBlock) :
    Option (List (List Value)) :=
  match block.restriction, scan pair.store.tables usage block.table outer with
  | none, .ok [a, b] =>
      let sorted := if compareRows block.order a b != .gt then [a, b] else [b, a]
      some ((page block.offset block.limit sorted).map fun row =>
        (resultColumns block.select).map (·.eval row))
  | _, _ => none

theorem runBlock_pairRows {usage : Option ColumnUsage} {outer : Row} {block : QueryBlock}
    {rows : List (List Value)} (computed : pairRows usage outer block = some rows) :
    runBlock pair.store.tables usage outer block = .ok rows := by
  obtain ⟨id, table, select, restriction, order, limit, offset⟩ := block
  unfold pairRows at computed
  split at computed
  · next a b unrestricted scanned =>
    cases unrestricted
    rw [runBlock, scanned]
    simp only [ok_bind, keepRows, evalRestriction, Truth.isTrue, if_true, sortRows_pair]
    exact congrArg Except.ok (Option.some.inj computed)
  · cases computed

end Sample

theorem Engine.nested_rows_newest :
    ∃ alone compiled block,
      Sample.newest.compile Sample.pair.domain = .ok alone ∧
      (Sample.amongNewest "p").compile Sample.pair.domain = .ok compiled ∧
      (do let tables ← Sample.pair.store.access
          runBlock tables (Sample.pair.pruning compiled.usage)
            (Sample.newestSite "p" compiled block).row block) =
        Sample.pair.store.select (Sample.pair.pruning alone.usage) alone.block := by
  obtain ⟨alone, accepted⟩ : ∃ alone, Sample.newest.compile Sample.pair.domain = .ok alone :=
    isOk_iff.mp (by decide +kernel)
  obtain ⟨compiled, enclosing⟩ :
      ∃ compiled, (Sample.amongNewest "p").compile Sample.pair.domain = .ok compiled :=
    isOk_iff.mp (by decide +kernel)
  obtain ⟨block, -, inside⟩ := Sample.amongNewest_nests enclosing
  exact ⟨alone, compiled, block, accepted, enclosing,
    Engine.nested_rows accepted (by decide) (.select enclosing) inside (by decide +kernel)⟩

/-- The alias of the block around takes the name that the inner block sorts by, and the people keep
    their stored order. -/
theorem Engine.nested_rows_captured :
    ∃ alone compiled block,
      Sample.newest.compile Sample.pair.domain = .ok alone ∧ Sample.newest.selections ≠ [] ∧
      (Sample.amongNewest "n").compile Sample.pair.domain = .ok compiled ∧
      Relation.ReflTransGen (Site.Nests (Sample.pair.pruning compiled.usage))
        (.whole (.block (Sample.amongNewest "n") compiled.block))
        (Sample.newestSite "n" compiled block) ∧
      (do let tables ← Sample.pair.store.access
          runBlock tables (Sample.pair.pruning compiled.usage)
            (Sample.newestSite "n" compiled block).row block) ≠
        Sample.pair.store.select (Sample.pair.pruning alone.usage) alone.block := by
  have whole : (Sample.newest.compile Sample.pair.domain).toOption.bind (fun alone =>
      Sample.pairRows (Sample.pair.pruning alone.usage) [] alone.block) = some [[.int 2]] := by
    decide +kernel
  have nested : ((Sample.amongNewest "n").compile Sample.pair.domain).toOption.bind
      (fun compiled => (Sample.memberBlock? compiled.block).bind fun block =>
        Sample.pairRows (Sample.pair.pruning compiled.usage)
          (Sample.newestSite "n" compiled block).row block) = some [[.int 1]] := by decide +kernel
  obtain ⟨alone, accepted⟩ : ∃ alone, Sample.newest.compile Sample.pair.domain = .ok alone :=
    isOk_iff.mp (by decide +kernel)
  obtain ⟨compiled, enclosing⟩ :
      ∃ compiled, (Sample.amongNewest "n").compile Sample.pair.domain = .ok compiled :=
    isOk_iff.mp (by decide +kernel)
  obtain ⟨block, holds, inside⟩ := Sample.amongNewest_nests enclosing
  refine ⟨alone, compiled, block, accepted, by decide, enclosing, inside, ?_⟩
  simp only [accepted, Except.toOption, Option.bind_some] at whole
  simp only [enclosing, Except.toOption, Option.bind_some, holds] at nested
  intro same
  have rows : (Except.ok [[Value.int 1]] : Except ExecutionError _) = .ok [[Value.int 2]] :=
    (Sample.runBlock_pairRows nested).symm.trans (same.trans (Sample.runBlock_pairRows whole))
  cases rows

end EntityQuery
