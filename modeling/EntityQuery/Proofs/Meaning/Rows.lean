import EntityQuery.Proofs.Compilation.Alias
import EntityQuery.Proofs.Compilation.Steps
import EntityQuery.Proofs.Compilation.Usage
import EntityQuery.Proofs.Meaning.Evaluation
import Mathlib.Data.List.Forall2

/-! # Rows under evaluation and the rows behind them

A row under evaluation holds the columns of all blocks around it under the aliases of their tables.
`Represents` says that it holds what the rows of an environment hold, as far as scans took their
columns over, and nothing under an alias that is still to be given. Every scan of a nested block
keeps this up.
-/

namespace EntityQuery

theorem qualifiedName_inj_column {aliasName a b : String}
    (same : qualifiedName aliasName a = qualifiedName aliasName b) : a = b := by
  have lists : aliasName.toList ++ '.' :: a.toList = aliasName.toList ++ '.' :: b.toList := by
    simpa [qualifiedName, String.toList_append] using congrArg String.toList same
  have columns := List.append_cancel_left lists
  simp only [List.cons.injEq, true_and] at columns
  exact String.toList_inj.mp columns

section Scanning

variable {usage : Option ColumnUsage} {table : TableRef}

/-- Reading a key that is none of the columns written to a row. -/
theorem get?_foldl_insert_ne {value : String → Value} {columns : List String} {outer : Row}
    {aliasName key : String} (other : ∀ c ∈ columns, qualifiedName aliasName c ≠ key) :
    Keyed.get?
        (columns.foldl (fun row c => Keyed.insert row (qualifiedName aliasName c) (value c)) outer)
        key = Keyed.get? outer key := by
  induction columns generalizing outer with
  | nil => rfl
  | cons c rest ih =>
      rw [List.foldl_cons, ih fun c' inside => other c' (List.mem_cons_of_mem _ inside),
        Keyed.get?_insert, if_neg (other c List.mem_cons_self)]

/-- Reading one of the columns written to a row. -/
theorem get?_foldl_insert_mem {value : String → Value} {columns : List String} {outer : Row}
    {aliasName column : String} (written : column ∈ columns) :
    Keyed.get?
        (columns.foldl (fun row c => Keyed.insert row (qualifiedName aliasName c) (value c)) outer)
        (qualifiedName aliasName column) = some (value column) := by
  induction columns generalizing outer with
  | nil => cases written
  | cons c rest ih =>
      rw [List.foldl_cons]
      by_cases again : column ∈ rest
      · exact ih again
      · have last : c = column := by
          rcases List.mem_cons.mp written with same | later
          · exact same.symm
          · exact absurd later again
        subst last
        rw [get?_foldl_insert_ne, Keyed.get?_insert, if_pos rfl]
        intro c' inside same
        exact again (qualifiedName_inj_column same ▸ inside)

theorem get?_scanRow_ne {outer source : Row} {key : String}
    (other : ∀ c, qualifiedName table.aliasName c ≠ key) :
    Keyed.get? (scanRow usage table outer source) key = Keyed.get? outer key :=
  get?_foldl_insert_ne fun c _ => other c

/-- What a scan takes over of a stored row can be read back. -/
theorem stored_scanRow {outer source : Row} {column : String}
    (absent : Keyed.get? outer (qualifiedName table.aliasName column) = none)
    (scans : Scans usage table.aliasName column) :
    (scanRow usage table outer source).stored (qualifiedName table.aliasName column) =
      source.stored column := by
  unfold Row.stored scanRow
  by_cases taken : column ∈ scannedColumns usage table source
  · rw [get?_foldl_insert_mem taken]
    rfl
  · -- A column that is not taken over is one that the stored row lacks.
    have missing : Keyed.get? source column = none := by
      unfold scannedColumns at taken
      cases restricted : usage.bind (·.columnsOf? table.aliasName) with
      | some columns =>
          rw [restricted] at taken
          exact absurd (scans columns restricted) taken
      | none =>
          rw [restricted] at taken
          exact Keyed.get?_eq_none_iff.mpr taken
    rw [get?_foldl_insert_ne, absent, missing]
    intro c inside same
    exact taken (qualifiedName_inj_column same ▸ inside)

/-- A scan writes nothing but columns of its table. -/
theorem of_get?_scanRow {outer source : Row} {key : String}
    (present : Keyed.get? (scanRow usage table outer source) key ≠ none) :
    (∃ column, key = qualifiedName table.aliasName column) ∨ Keyed.get? outer key ≠ none := by
  by_cases own : ∃ column, key = qualifiedName table.aliasName column
  · exact .inl own
  · right
    rw [get?_scanRow_ne fun c same => own ⟨c, same.symm⟩] at present
    exact present

end Scanning

/-- A row under evaluation holds what the row behind an alias holds, under the alias of its
    table. -/
structure Stands (usage : Option ColumnUsage) (limit : Nat) (row : Row) (level : Keyed Binding)
    (f : Frame) : Prop where
  declared : ∃ table, level = [(f.aliasName, ⟨f.entity, table⟩)] ∧
    Numbered limit table.aliasName ∧
    ∀ column, Scans usage table.aliasName column →
      row.stored (qualifiedName table.aliasName column) = f.row.stored column

/-- A row under evaluation holds what the rows of an environment hold, and nothing else than columns
    of the first `limit` tables. -/
structure Represents (usage : Option ColumnUsage) (limit : Nat) (scope : Scope) (env : Environment)
    (row : Row) : Prop where
  frames : List.Forall₂ (Stands usage limit row) scope env
  numbered : ∀ key, Keyed.get? row key ≠ none →
    ∃ aliasName column, Numbered limit aliasName ∧ key = qualifiedName aliasName column

namespace Represents

variable {usage : Option ColumnUsage} {limit : Nat} {scope : Scope} {env : Environment} {row : Row}

/-- Outside of all blocks there is nothing to hold. -/
theorem empty (usage : Option ColumnUsage) (limit : Nat) : Represents usage limit [] [] [] where
  frames := .nil
  numbered := by simp

theorem mono {more : Nat} (represents : Represents usage limit scope env row) (le : limit ≤ more) :
    Represents usage more scope env row where
  frames := represents.frames.imp fun level f stands => by
    obtain ⟨table, declared, numbered, held⟩ := stands.declared
    exact ⟨table, declared, numbered.mono le, held⟩
  numbered := by
    intro key present
    obtain ⟨aliasName, column, numbered, same⟩ := represents.numbered key present
    exact ⟨aliasName, column, numbered.mono le, same⟩

/-- An alias in scope stands for a row of the same entity, whose columns the row under evaluation
    holds. -/
theorem resolve {aliasName : String} {binding : Binding}
    (represents : Represents usage limit scope env row)
    (resolved : scope.resolve? aliasName = some binding) :
    ∃ f, env.frame? aliasName = some f ∧ f.entity = binding.entity ∧
      ∀ column, Scans usage binding.table.aliasName column →
        row.stored (qualifiedName binding.table.aliasName column) = f.row.stored column := by
  have frames := represents.frames
  clear represents
  induction frames with
  | nil => cases resolved
  | @cons level f scope env stands rest ih =>
      obtain ⟨table, rfl, -, held⟩ := stands.declared
      by_cases same : f.aliasName = aliasName
      · have found : (⟨f.entity, table⟩ : Binding) = binding := by
          simpa [Scope.resolve?, Keyed.get?, same] using resolved
        subst found
        exact ⟨f, by simp [Environment.frame?, same], rfl, held⟩
      · have outer : Scope.resolve? scope aliasName = some binding := by
          simpa [Scope.resolve?, Keyed.get?, same] using resolved
        obtain ⟨g, located, entity, held'⟩ := ih outer
        refine ⟨g, ?_, entity, held'⟩
        simpa [Environment.frame?, same] using located

/-- An alias that is not in scope stands for no row. -/
theorem resolve_none {aliasName : String} (represents : Represents usage limit scope env row) :
    (scope.resolve? aliasName).isNone = (env.frame? aliasName).isNone := by
  have frames := represents.frames
  clear represents
  induction frames with
  | nil => rfl
  | @cons level f scope env stands rest ih =>
      obtain ⟨table, rfl, -, -⟩ := stands.declared
      by_cases same : f.aliasName = aliasName
      · simp [Scope.resolve?, Keyed.get?, Environment.frame?, same]
      · simpa [Scope.resolve?, Keyed.get?, Environment.frame?, same] using ih

/-- The scan of a block inside the row adds the row of the block to the environment. -/
theorem enter {s : CompileState} (represents : Represents usage s.tables scope env row)
    (config : Config) (aliasName : String) (e : Entity) (source : Row) :
    Represents usage (s.tables + 1) (scope.within aliasName e (s.newTable config e))
      (⟨aliasName, e, source⟩ :: env)
      (scanRow usage (s.newTable config e) row source) := by
  have letters := aliasStem_letters config.aliasStemLength e.name
  have own : Numbered (s.tables + 1) (s.newTable config e).aliasName :=
    ⟨_, s.tables + 1, letters, Nat.le_refl _, rfl⟩
  -- The alias of the new table is none of those in the outer row.
  have others : ∀ {other column : String}, Numbered s.tables other →
      ∀ c, qualifiedName (s.newTable config e).aliasName c ≠ qualifiedName other column := by
    intro other column numbered c same
    have aliases := (qualifiedName_inj own.no_dot numbered.no_dot same).1
    exact numbered.ne letters (Nat.lt_succ_self _) aliases.symm
  constructor
  · refine .cons ⟨_, rfl, own, ?_⟩ ?_
    · intro column scans
      apply stored_scanRow _ scans
      apply Decidable.byContradiction
      intro present
      obtain ⟨other, c, numbered, same⟩ := represents.numbered _ present
      exact others numbered column same
    · apply represents.frames.imp
      intro level f stands
      obtain ⟨table, declared, numbered, held⟩ := stands.declared
      refine ⟨table, declared, numbered.mono (Nat.le_succ _), ?_⟩
      intro column scans
      rw [← held column scans, Row.stored, get?_scanRow_ne (others numbered)]
      rfl
  · intro key present
    rcases of_get?_scanRow present with ⟨column, rfl⟩ | before
    · exact ⟨_, column, own, rfl⟩
    · obtain ⟨other, column, numbered, same⟩ := represents.numbered key before
      exact ⟨other, column, numbered.mono (Nat.le_succ _), same⟩

end Represents

end EntityQuery
