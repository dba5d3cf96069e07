import EntityQuery.Compilation.Usage

/-! # Recorded columns

What it means for a column to be recorded in a usage, and for a scan with a usage to take a column
over. Recording only ever adds columns.
-/

namespace EntityQuery

namespace ColumnUsage

/-- The usage has a column of a table. -/
def Has (usage : ColumnUsage) (aliasName column : String) : Prop :=
  ∃ columns, usage.columnsOf? aliasName = some columns ∧ column ∈ columns

/-- Every column of the one usage is in the other. -/
def Within (usage more : ColumnUsage) : Prop :=
  ∀ aliasName column, usage.Has aliasName column → more.Has aliasName column

theorem Within.refl (usage : ColumnUsage) : usage.Within usage := fun _ _ has => has

theorem Within.trans {a b c : ColumnUsage} (ab : a.Within b) (bc : b.Within c) : a.Within c :=
  fun aliasName column has => bc aliasName column (ab aliasName column has)

theorem columnsOf?_recordColumn (usage : ColumnUsage) (c : Column) (aliasName : String) :
    (usage.recordColumn c).columnsOf? aliasName =
      if c.column ∈ (usage.columnsOf? c.qualifier).getD [] then usage.columnsOf? aliasName
      else if c.qualifier = aliasName then
        some ((usage.columnsOf? c.qualifier).getD [] ++ [c.column])
      else usage.columnsOf? aliasName := by
  unfold recordColumn columnsOf?
  split
  · next known => rw [if_pos known]
  · next fresh => rw [if_neg fresh, Keyed.get?_put]

theorem recordColumn_within (usage : ColumnUsage) (c : Column) :
    usage.Within (usage.recordColumn c) := by
  intro aliasName column has
  obtain ⟨columns, recorded, inside⟩ := has
  rw [Has, columnsOf?_recordColumn]
  split
  · exact ⟨columns, recorded, inside⟩
  · split
    · next same =>
      subst same
      rw [recorded]
      exact ⟨_, rfl, List.mem_append_left _ inside⟩
    · exact ⟨columns, recorded, inside⟩

theorem recordColumn_has (usage : ColumnUsage) (c : Column) :
    (usage.recordColumn c).Has c.qualifier c.column := by
  rw [Has, columnsOf?_recordColumn]
  split
  · next known =>
    cases recorded : usage.columnsOf? c.qualifier with
    | none => simp [recorded] at known
    | some columns => exact ⟨columns, rfl, by simpa [recorded] using known⟩
  · rw [if_pos rfl]
    exact ⟨_, rfl, List.mem_append_right _ List.mem_cons_self⟩

theorem foldl_recordColumn_within (columns : List Column) (usage : ColumnUsage) :
    usage.Within (columns.foldl recordColumn usage) := by
  induction columns generalizing usage with
  | nil => exact Within.refl usage
  | cons c rest ih => exact (usage.recordColumn_within c).trans (ih (usage.recordColumn c))

theorem foldl_recordColumn_has {columns : List Column} {c : Column} (member : c ∈ columns)
    (usage : ColumnUsage) : (columns.foldl recordColumn usage).Has c.qualifier c.column := by
  induction columns generalizing usage with
  | nil => cases member
  | cons first rest ih =>
      rcases List.mem_cons.mp member with rfl | later
      · exact foldl_recordColumn_within rest _ _ _ (usage.recordColumn_has c)
      · exact ih later _

/-- Recording what is recorded already changes nothing. -/
theorem foldl_recordColumn_known {columns : List Column} {usage : ColumnUsage}
    (known : ∀ c ∈ columns, usage.Has c.qualifier c.column) :
    columns.foldl recordColumn usage = usage := by
  induction columns with
  | nil => rfl
  | cons c rest ih =>
      obtain ⟨recorded, located, inside⟩ := known c List.mem_cons_self
      have unchanged : usage.recordColumn c = usage := by
        rw [recordColumn, if_pos (by simpa [located] using inside)]
      rw [List.foldl_cons, unchanged]
      exact ih fun c later => known c (List.mem_cons_of_mem _ later)

theorem record_within (usage : ColumnUsage) (e : Expression) : usage.Within (usage.record e) :=
  foldl_recordColumn_within e.columns usage

theorem record_ref_has (usage : ColumnUsage) (c : Column) :
    (usage.record (.ref c)).Has c.qualifier c.column :=
  usage.recordColumn_has c

end ColumnUsage

/-- A scan with the usage takes the column of the table over. -/
def Scans (usage : Option ColumnUsage) (aliasName column : String) : Prop :=
  ∀ columns, usage.bind (·.columnsOf? aliasName) = some columns → column ∈ columns

/-- A scan with the usage takes over all columns that were recorded so far. -/
def Covers (usage : Option ColumnUsage) (recorded : ColumnUsage) : Prop :=
  ∀ aliasName column, recorded.Has aliasName column → Scans usage aliasName column

theorem Covers.mono {usage : Option ColumnUsage} {recorded more : ColumnUsage}
    (covers : Covers usage more) (within : recorded.Within more) : Covers usage recorded :=
  fun aliasName column has => covers aliasName column (within aliasName column has)

theorem covers_none (recorded : ColumnUsage) : Covers none recorded := by
  intro aliasName column _ columns restricted
  cases restricted

theorem covers_self (recorded : ColumnUsage) : Covers (some recorded) recorded := by
  intro aliasName column has columns restricted
  obtain ⟨known, located, inside⟩ := has
  have same : known = columns := by
    simpa [located] using restricted
  exact same ▸ inside

end EntityQuery
