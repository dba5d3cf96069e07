import EntityQuery.Proofs.Compilation.Progress
import EntityQuery.Proofs.Distinct
import EntityQuery.Proofs.Engine.Listing

/-! # Column usage is exact

The column usage of a compiled statement is gathered while the statement compiles. It comes to what
reading the finished statement would give: for every table the columns that are referred to, each
once and in the order of its first reference, and no entry for a table without references.
-/

namespace EntityQuery

namespace ColumnUsage

/-- The names of the columns of a table in a list of references, repeated ones included. -/
def mentions (referred : List Column) (aliasName : String) : List String :=
  (referred.filter (·.qualifier = aliasName)).map (·.column)

theorem mem_mentions {referred : List Column} {aliasName name : String} :
    name ∈ mentions referred aliasName ↔
      ∃ c ∈ referred, c.qualifier = aliasName ∧ c.column = name := by
  simp [mentions, and_assoc]

theorem mentions_eq_nil {referred : List Column} {aliasName : String} :
    mentions referred aliasName = [] ↔ ∀ c ∈ referred, c.qualifier ≠ aliasName := by
  simp [mentions, List.filter_eq_nil_iff]

theorem mentions_concat (referred : List Column) (c : Column) (aliasName : String) :
    mentions (referred ++ [c]) aliasName =
      mentions referred aliasName ++ if c.qualifier = aliasName then [c.column] else [] := by
  rw [mentions, List.filter_append, List.map_append]
  by_cases own : c.qualifier = aliasName
  · simp [mentions, own]
  · simp [mentions, own]

/-- The usage holds what the references mention, and no more. -/
structure Exact (usage : ColumnUsage) (referred : List Column) : Prop where
  none_iff : ∀ aliasName, usage.columnsOf? aliasName = none ↔
    ∀ c ∈ referred, c.qualifier ≠ aliasName
  mem_iff : ∀ aliasName columns, usage.columnsOf? aliasName = some columns →
    ∀ name, name ∈ columns ↔ ∃ c ∈ referred, c.qualifier = aliasName ∧ c.column = name
  nodup : ∀ aliasName columns, usage.columnsOf? aliasName = some columns → columns.Nodup
  /-- Of several references to a column, the first one counts. -/
  inOrder : ∀ aliasName columns, usage.columnsOf? aliasName = some columns →
    columns = (mentions referred aliasName).eraseDups

/-- What the usage gives for each table, in one equation. -/
def Records (usage : ColumnUsage) (referred : List Column) : Prop :=
  ∀ aliasName, usage.columnsOf? aliasName =
    if mentions referred aliasName = [] then none
    else some (mentions referred aliasName).eraseDups

namespace Records

variable {usage : ColumnUsage} {referred : List Column}

theorem nothing : Records [] [] := fun _ => rfl

theorem getD (records : Records usage referred) (aliasName : String) :
    (usage.columnsOf? aliasName).getD [] = (mentions referred aliasName).eraseDups := by
  rw [records aliasName]
  split
  · next empty => rw [empty]; rfl
  · rfl

theorem recordColumn (records : Records usage referred) (c : Column) :
    Records (usage.recordColumn c) (referred ++ [c]) := by
  intro aliasName
  have known := records.getD c.qualifier
  rw [columnsOf?_recordColumn, mentions_concat, known]
  simp only [List.mem_eraseDups]
  by_cases own : c.qualifier = aliasName
  · subst own
    have mentioned : mentions referred c.qualifier ++ [c.column] ≠ [] := by simp
    rw [if_pos rfl, if_pos rfl, if_neg mentioned, eraseDups_concat]
    split
    · next again => rw [records c.qualifier, if_neg (List.ne_nil_of_mem again)]
    · rfl
  · rw [if_neg own, if_neg own, List.append_nil, ite_self, records aliasName]

theorem foldl (records : Records usage referred) (columns : List Column) :
    Records (columns.foldl ColumnUsage.recordColumn usage) (referred ++ columns) := by
  induction columns generalizing usage referred with
  | nil => rwa [List.append_nil]
  | cons c rest ih =>
      rw [List.foldl_cons, ← List.singleton_append, ← List.append_assoc]
      exact ih (records.recordColumn c)

theorem exact (records : Records usage referred) : usage.Exact referred := by
  have inOrder : ∀ aliasName columns, usage.columnsOf? aliasName = some columns →
      columns = (mentions referred aliasName).eraseDups := by
    intro aliasName columns located
    simpa [located] using records.getD aliasName
  constructor
  · intro aliasName
    rw [records aliasName, ← mentions_eq_nil]
    split
    · next empty => simp [empty]
    · next present => simp [present]
  · intro aliasName columns located name
    rw [inOrder aliasName columns located, List.mem_eraseDups, mem_mentions]
  · intro aliasName columns located
    rw [inOrder aliasName columns located]
    exact nodup_eraseDups _
  · exact inOrder

end Records

/-- The usage after a compilation that began with none. -/
theorem exact_after {s : CompileState} (unused : s.usage = []) (blocks : Nat)
    (referred : List Column) : (s.after blocks referred).usage.Exact referred := by
  have records : Records (referred.foldl ColumnUsage.recordColumn []) ([] ++ referred) :=
    Records.nothing.foldl referred
  rw [CompileState.after, unused]
  exact records.exact

end ColumnUsage

/-- A select statement refers to the columns in its usage and to no others, and so does a delete
    statement. -/
theorem compile_usage_exact (d : Domain) :
    (∀ (q : Query) (compiled : CompiledSelect), q.compile d = .ok compiled →
      compiled.usage.Exact ((referencesOfBlock [] compiled.block).map (·.column))) ∧
    (∀ (q : DeleteQuery) (compiled : CompiledDelete), q.compile d = .ok compiled →
      compiled.usage.Exact (compiled.statement.references.map (·.column))) := by
  constructor
  · intro q compiled isCompiled
    obtain ⟨block, s, ok, rfl⟩ := Query.compile_ok isCompiled
    rw [compileBlock_after [] ok]
    exact ColumnUsage.exact_after rfl (blocksOfBlock block.block).length _
  · intro q compiled isCompiled
    obtain ⟨e, predicate, s, -, restricted, rfl⟩ := DeleteQuery.compile_ok isCompiled
    rw [compileOptional_after [(CompileState.newTable {} d.config e).aliasName] restricted]
    exact ColumnUsage.exact_after rfl (blocksOfRestriction predicate).length _

namespace Sample

/-- Remove the active people who share their city with somebody else. -/
def withoutNeighbours : DeleteQuery := ⟨neighbours.root, neighbours.restriction⟩

end Sample

theorem compile_usage_exact_neighbours :
    ∃ select delete, Sample.neighbours.compile Sample.people.domain = .ok select ∧
      Sample.withoutNeighbours.compile Sample.people.domain = .ok delete ∧
      select.usage = [("p1_0", ["city", "id", "active"]), ("p2_0", ["id", "city"])] ∧
      delete.usage = [("p1_0", ["active", "city", "id"]), ("p2_0", ["id", "city"])] ∧
      select.usage.Exact ((referencesOfBlock [] select.block).map (·.column)) ∧
      delete.usage.Exact (delete.statement.references.map (·.column)) := by
  obtain ⟨select, selects, selected⟩ := Option.map_eq_some_iff.mp
    (show (Sample.neighbours.compile Sample.people.domain).toOption.map (·.usage) =
      some [("p1_0", ["city", "id", "active"]), ("p2_0", ["id", "city"])] by decide +kernel)
  obtain ⟨delete, deletes, deleted⟩ := Option.map_eq_some_iff.mp
    (show (Sample.withoutNeighbours.compile Sample.people.domain).toOption.map (·.usage) =
      some [("p1_0", ["active", "city", "id"]), ("p2_0", ["id", "city"])] by decide +kernel)
  have isSelect := toOption_eq_some.mp selects
  have isDelete := toOption_eq_some.mp deletes
  obtain ⟨forSelects, forDeletes⟩ := compile_usage_exact Sample.people.domain
  exact ⟨select, delete, isSelect, isDelete, selected, deleted, forSelects _ _ isSelect,
    forDeletes _ _ isDelete⟩

end EntityQuery
