import EntityQuery.Proofs.Storage.Rows
import EntityQuery.Proofs.Storage.Sorting
import EntityQuery.Proofs.Storage.Tables

/-! # What a block selects

A block that finds every table it reads has a result: of the rows that it scans those on which its
restriction is true, sorted stably by its keys, and of these the page that its offset and limit ask
for.
-/

namespace EntityQuery

open Std

mutual

/-- The tables that blocks inside the predicate read, at any depth. -/
def Predicate.sources : Predicate → List String
  | .and parts => sourcesOfAll parts
  | .or parts => sourcesOfAll parts
  | .not p => p.sources
  | .existsQuery query _ => sourcesOfBlock query
  | .inQuery _ query _ => sourcesOfBlock query
  | .compare .. | .isNull .. | .like .. | .constant _ => []

def sourcesOfAll : List Predicate → List String
  | [] => []
  | p :: rest => p.sources ++ sourcesOfAll rest

def sourcesOfRestriction : Option Predicate → List String
  | none => []
  | some p => p.sources

def sourcesOfBlock : BlockOf Predicate → List String
  | ⟨_, table, _, restriction, _, _, _⟩ => table.table :: sourcesOfRestriction restriction

end

/-- All tables of these names are there. -/
def Tables.HasAll (names : List String) (tables : Tables) : Prop :=
  ∀ table ∈ names, (tables.rows? table).isSome

instance (names : List String) (tables : Tables) : Decidable (tables.HasAll names) :=
  inferInstanceAs (Decidable (∀ table ∈ names, (tables.rows? table).isSome))

namespace Tables.HasAll

variable {names more : List String} {tables : Tables}

theorem left (there : HasAll (names ++ more) tables) : HasAll names tables :=
  fun table inside => there table (List.mem_append_left _ inside)

theorem right (there : HasAll (names ++ more) tables) : HasAll more tables :=
  fun table inside => there table (List.mem_append_right _ inside)

theorem tail {name : String} (there : HasAll (name :: more) tables) : HasAll more tables :=
  fun table inside => there table (List.mem_cons_of_mem _ inside)

end Tables.HasAll

variable {tables : Tables} {usage : Option ColumnUsage}

/-- The rows that a block scans, inside a row of the blocks around it. -/
def scannedRows (usage : Option ColumnUsage) (outer : Row) (block : QueryBlock) (rows : List Row) :
    List Row :=
  rows.map (scanRow usage block.table outer)

/-- The truth of a block's restriction on a row under evaluation. -/
def BlockOf.test (tables : Tables) (usage : Option ColumnUsage) (block : QueryBlock) (row : Row) :
    Except ExecutionError Truth :=
  evalRestriction tables usage row block.restriction

/-- A block that scans and tests its rows selects a page of those that pass. -/
theorem runBlock_of_total {outer : Row} {block : QueryBlock} {rows : List Row}
    (stored : tables.rows? block.table.table = some rows)
    (answered : ∀ row, Succeeds (block.test tables usage row)) :
    runBlock tables usage outer block =
      .ok ((page block.offset block.limit (sortRows block.order
          ((scannedRows usage outer block rows).filter
            (passes (block.test tables usage))))).map
        fun row => (resultColumns block.select).map (·.eval row)) := by
  cases block with
  | mk id table select restriction order limit offset =>
      have kept := @keepRows_of_total (BlockOf.test tables usage
        ⟨id, table, select, restriction, order, limit, offset⟩)
        (rows.map (scanRow usage table outer)) fun row _ => answered row
      rw [runBlock, scan, stored, ok_bind]
      exact congrArg (· >>= _) kept

/-- A block that has a result selects a page of the rows that pass. -/
theorem runBlock_ok {outer : Row} {block : QueryBlock} {results : List (List Value)}
    (selected : runBlock tables usage outer block = .ok results) :
    ∃ rows, tables.rows? block.table.table = some rows ∧
      results = (page block.offset block.limit (sortRows block.order
          ((scannedRows usage outer block rows).filter
            (passes (block.test tables usage))))).map
        fun row => (resultColumns block.select).map (·.eval row) := by
  cases block with
  | mk id table select restriction order limit offset =>
      rw [runBlock] at selected
      obtain ⟨scanned, isScan, tested⟩ := bind_eq_ok.mp selected
      obtain ⟨kept, isKept, listed⟩ := bind_eq_ok.mp tested
      unfold scan at isScan
      split at isScan
      · next rows stored =>
        cases isScan
        cases listed
        refine ⟨rows, stored, ?_⟩
        rw [(keepRows_ok isKept).2]
        rfl
      · cases isScan

mutual

/-- A predicate has a truth value on every row if all tables that it reads are there. -/
theorem evalPredicate_succeeds {p : Predicate} (row : Row) (there : tables.HasAll p.sources) :
    Succeeds (evalPredicate tables usage row p) := by
  cases p with
  | compare left op right =>
      rw [evalPredicate]
      exact succeeds_ok _
  | isNull e negated =>
      rw [evalPredicate]
      exact succeeds_ok _
  | like e pattern negated =>
      rw [evalPredicate]
      exact succeeds_ok _
  | constant t =>
      rw [evalPredicate]
      exact succeeds_ok _
  | and parts =>
      rw [Predicate.sources] at there
      rw [evalPredicate]
      exact (evalEach_succeeds row there).1
  | or parts =>
      rw [Predicate.sources] at there
      rw [evalPredicate]
      exact (evalEach_succeeds row there).2
  | not p =>
      rw [Predicate.sources] at there
      obtain ⟨t, tested⟩ := @evalPredicate_succeeds p row there
      rw [evalPredicate, tested]
      exact succeeds_ok _
  | existsQuery query negated =>
      rw [Predicate.sources] at there
      obtain ⟨rows, selected⟩ := runBlock_succeeds row there
      rw [evalPredicate, selected]
      exact succeeds_ok _
  | inQuery e query negated =>
      rw [Predicate.sources] at there
      obtain ⟨rows, selected⟩ := runBlock_succeeds row there
      rw [evalPredicate, selected]
      exact succeeds_ok _
termination_by sizeOf p

theorem evalEach_succeeds {parts : List Predicate} (row : Row)
    (there : tables.HasAll (sourcesOfAll parts)) :
    Succeeds (evalEvery tables usage row parts) ∧ Succeeds (evalSome tables usage row parts) := by
  cases parts with
  | nil =>
      rw [evalEvery, evalSome]
      exact ⟨succeeds_ok _, succeeds_ok _⟩
  | cons p rest =>
      rw [sourcesOfAll] at there
      obtain ⟨t, tested⟩ := @evalPredicate_succeeds p row there.left
      obtain ⟨⟨u, every⟩, ⟨v, any⟩⟩ := @evalEach_succeeds rest row there.right
      rw [evalEvery, evalSome, tested, every, any]
      exact ⟨succeeds_ok _, succeeds_ok _⟩
termination_by sizeOf parts

theorem evalRestriction_succeeds {restriction : Option Predicate} (row : Row)
    (there : tables.HasAll (sourcesOfRestriction restriction)) :
    Succeeds (evalRestriction tables usage row restriction) := by
  cases restriction with
  | none =>
      rw [evalRestriction]
      exact succeeds_ok _
  | some p =>
      rw [sourcesOfRestriction] at there
      rw [evalRestriction]
      exact evalPredicate_succeeds row there
termination_by sizeOf restriction

theorem runBlock_succeeds {block : QueryBlock} (outer : Row)
    (there : tables.HasAll (sourcesOfBlock block)) :
    Succeeds (runBlock tables usage outer block) := by
  cases block with
  | mk id table select restriction order limit offset =>
      rw [sourcesOfBlock] at there
      obtain ⟨rows, stored⟩ := Option.isSome_iff_exists.mp (there _ List.mem_cons_self)
      rw [runBlock_of_total stored fun row => evalRestriction_succeeds row there.tail]
      exact succeeds_ok _
termination_by sizeOf block

end

/-- What a block makes of the rows of its table: the rows that pass, stably sorted, and between two
    bounds, which do not overflow, the page that it selects. -/
structure BlockOf.Selects (tables : Tables) (usage : Option ColumnUsage) (outer : Row)
    (block : QueryBlock) (rows sorted : List Row) (start stop : Nat) : Prop where
  stored : tables.rows? block.table.table = some rows
  answered : ∀ row ∈ scannedRows usage outer block rows, Succeeds (block.test tables usage row)
  inOrder : ∀ other, StablySorted (compareRows block.order)
    ((scannedRows usage outer block rows).filter (passes (block.test tables usage))) other ↔
      other = sorted
  bounds : pageBounds? block.offset block.limit sorted.length = some (start, stop)
  paged : between start stop sorted = page block.offset block.limit sorted
  result : runBlock tables usage outer block =
    .ok ((between start stop sorted).map fun row => (resultColumns block.select).map (·.eval row))

/-- A block that finds its tables selects its page. -/
theorem BlockOf.selects {block : QueryBlock} (usage : Option ColumnUsage) (outer : Row)
    (there : tables.HasAll (sourcesOfBlock block)) (offset64 : ∀ n ∈ block.offset, IsInt64 n)
    (limit64 : ∀ n ∈ block.limit, IsInt64 n) :
    ∃ rows sorted start stop, block.Selects tables usage outer rows sorted start stop := by
  have answered : ∀ row, Succeeds (block.test tables usage row) := by
    intro row
    cases block
    rw [sourcesOfBlock] at there
    exact evalRestriction_succeeds row there.tail
  have known : (tables.rows? block.table.table).isSome := by
    cases block
    rw [sourcesOfBlock] at there
    exact there _ List.mem_cons_self
  obtain ⟨rows, stored⟩ := Option.isSome_iff_exists.mp known
  have isSorted := sortRows_stablySorted block.order
    ((scannedRows usage outer block rows).filter (passes (block.test tables usage)))
  obtain ⟨start, stop, bounds, paged⟩ := page_between offset64 limit64 (sortRows block.order
    ((scannedRows usage outer block rows).filter (passes (block.test tables usage))))
  refine ⟨rows, _, start, stop, stored, fun row _ => answered row, ?_, bounds, paged, ?_⟩
  · intro other
    constructor
    · intro sorted
      exact sorted.unique isSorted
    · rintro rfl
      exact isSorted
  · rw [paged]
    exact runBlock_of_total stored answered

/-- In a store with all tables that a block reads, the block selects, whatever its offset and limit
    of 64 bits, the page that it asks for from the stably sorted rows that pass, and every block in
    it does so inside each row around. The order is a total preorder for a single key of either
    direction and for several keys; nulls come last in both directions, and apart from nulls the one
    direction is the other one reversed. -/
theorem Store.select_page {store : Store} {block : QueryBlock} (usage : Option ColumnUsage)
    (unbroken : store.broken = false) (there : store.tables.HasAll (sourcesOfBlock block))
    (offset64 : ∀ n ∈ block.offset, IsInt64 n) (limit64 : ∀ n ∈ block.limit, IsInt64 n) :
    store.select usage block = runBlock store.tables usage [] block ∧
      (∀ outer, ∃ rows sorted start stop,
        block.Selects store.tables usage outer rows sorted start stop) ∧
      (∀ ascending, TransCmp (Value.sortCompare ascending)) ∧
      (∀ order, TransCmp (compareRows order)) ∧
      (∀ ascending v, v.isNull = false →
        Value.sortCompare ascending v .null = .lt ∧ Value.sortCompare ascending .null v = .gt) ∧
      ∀ a b, a.isNull = false → b.isNull = false →
        Value.sortCompare false a b = (Value.sortCompare true a b).swap := by
  refine ⟨?_, fun outer => BlockOf.selects usage outer there offset64 limit64,
    fun _ => inferInstance, fun _ => inferInstance, fun _ _ => Value.sortCompare_null _,
    fun _ _ => Value.sortCompare_descending⟩
  rw [Store.select, Store.access_eq_ok.mpr ⟨unbroken, rfl⟩, ok_bind]

namespace Sample

/-- Four people, one of unknown age and one whose age was recorded as a text. -/
def aged : List Row :=
  [[("age", .int 30), ("id", .int 1)], [("age", .null), ("id", .int 2)],
    [("age", .string "forty"), ("id", .int 3)], [("age", .int 30), ("id", .int 4)]]

def ages : Store where
  tables := [("people", aged)]

/-- The people who are in the table at all, the oldest first, without the first of them. -/
def byAge : QueryBlock where
  id := 0
  table := ⟨"people", "p1_0"⟩
  select := [.column 1 0 (.column "p1_0" "id" .int) .int]
  restriction := some (.existsQuery
    { id := 1
      table := ⟨"people", "p2_0"⟩
      restriction := some (.compare (.column "p2_0" "id" .int) .eq (.column "p1_0" "id" .int)) }
    false)
  order := [⟨.column "p1_0" "age" .int, false⟩]
  offset := some 1
  limit := some 0x7fffffffffffffff

/-- The row under evaluation for a person. -/
def ageRow (age : Value) (id : Int) : Row := [("p1_0.age", age), ("p1_0.id", .int id)]

end Sample

theorem Store.select_page_ages :
    Sample.ages.tables.HasAll (sourcesOfBlock Sample.byAge) ∧
      Sample.ages.select none Sample.byAge = .ok [[.int 1], [.int 4], [.int 2]] ∧
      Value.sortCompare false (.string "forty") (.int 30) = .lt ∧
      Value.sortCompare false (.int 30) .null = .lt := by
  have there : Sample.ages.tables.HasAll (sourcesOfBlock Sample.byAge) := by decide
  have offset64 : ∀ n ∈ Sample.byAge.offset, IsInt64 n := by
    rintro n ⟨⟩
    exact ⟨by decide, by decide⟩
  have limit64 : ∀ n ∈ Sample.byAge.limit, IsInt64 n := by
    rintro n ⟨⟩
    exact ⟨by decide, by decide⟩
  obtain ⟨runs, selects, -, -, last, reversed⟩ :=
    Store.select_page none rfl there offset64 limit64
  obtain ⟨rows, sorted, start, stop, outermost⟩ := selects []
  have stored : rows = Sample.aged := (Option.some.inj outermost.stored).symm
  subst stored
  have passing : (scannedRows none [] Sample.byAge Sample.aged).filter
      (passes (Sample.byAge.test Sample.ages.tables none)) =
        [Sample.ageRow (.int 30) 1, Sample.ageRow .null 2, Sample.ageRow (.string "forty") 3,
          Sample.ageRow (.int 30) 4] := by decide +kernel
  have isSorted := (outermost.inOrder [Sample.ageRow (.string "forty") 3,
    Sample.ageRow (.int 30) 1, Sample.ageRow (.int 30) 4, Sample.ageRow .null 2]).mp <| by
      rw [passing]
      exact ⟨[(Sample.ageRow (.string "forty") 3, 2), (Sample.ageRow (.int 30) 1, 0),
        (Sample.ageRow (.int 30) 4, 3), (Sample.ageRow .null 2, 1)],
        by decide +kernel, by decide +kernel, rfl⟩
  subst isSorted
  refine ⟨there, ?_, ?_, (last false _ rfl).1⟩
  · rw [runs, outermost.result, outermost.paged]
    rfl
  · rw [reversed _ _ rfl rfl]
    rfl

end EntityQuery
