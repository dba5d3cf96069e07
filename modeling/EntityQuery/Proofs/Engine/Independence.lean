import EntityQuery.Proofs.Engine.Deletion
import EntityQuery.Proofs.Storage.Removal
import Mathlib.Algebra.Ring.Nat

/-! # Independent delete statements

Delete statements can be run in any order if none of them removes rows of a table that a query
inside one of them reads. Each row is then judged by the tables as they were before the first
statement, and goes if one of the statements on its table is true of it; together the answers count
these rows, every one of them once.
-/

namespace EntityQuery

namespace DeleteQuery

/-- The table that the statement removes rows of. -/
def table? (m : Model) (q : DeleteQuery) : Option String :=
  (m.entity? q.target.entity).map (·.table)

/-- The tables that queries inside the restriction read, at any depth. -/
def reads (m : Model) (q : DeleteQuery) : List String := readsOfOptional m q.restriction

/-- The statement is about the table, and its restriction is true of the row. -/
def takes (d : Domain) (tables : Tables) (q : DeleteQuery) (table : String) (row : Row) : Bool :=
  match d.model.entity? q.target.entity with
  | some e => decide (e.table = table) && passes (q.truth d tables e) row
  | none => false

variable {d : Domain} {tables tables' : Tables} {q : DeleteQuery} {e : Entity}

theorem takes_of_known (known : d.model.entity? q.target.entity = some e) :
    q.takes d tables = fun table row =>
      decide (e.table = table) && passes (q.truth d tables e) row := by
  funext table row
  rw [takes, known]

/-- A statement is only about rows of its own table. -/
theorem takes_elsewhere {table : String} (elsewhere : q.table? d.model ≠ some table) (row : Row) :
    q.takes d tables table row = false := by
  unfold takes
  unfold table? at elsewhere
  cases known : d.model.entity? q.target.entity with
  | none => rfl
  | some e =>
      have other : e.table ≠ table := by simpa [known] using elsewhere
      simp [other]

theorem takes_agree (agree : tables.AgreeOn (q.reads d.model) tables') :
    q.takes d tables = q.takes d tables' := by
  cases known : d.model.entity? q.target.entity with
  | none =>
      funext table row
      rw [takes, takes, known]
  | some e =>
      have truth : q.truth d tables e = q.truth d tables' e :=
        funext fun row => truthOfOptional_agree _ agree
      rw [takes_of_known known, takes_of_known known, truth]

end DeleteQuery

/-- None of the statements removes rows of a table that a query inside one of them reads. -/
def Independent (m : Model) (qs : List DeleteQuery) : Prop :=
  ∀ q ∈ qs, ∀ other ∈ qs, ∀ table ∈ q.table? m, table ∉ other.reads m

instance (m : Model) (qs : List DeleteQuery) : Decidable (Independent m qs) :=
  inferInstanceAs
    (Decidable (∀ q ∈ qs, ∀ other ∈ qs, ∀ table ∈ q.table? m, table ∉ other.reads m))

/-- One of the statements is about the table and true of the row. -/
def takenBy (d : Domain) (tables : Tables) (qs : List DeleteQuery) (table : String) (row : Row) :
    Bool :=
  qs.any fun q => q.takes d tables table row

section

variable {d : Domain} {tables tables' : Tables} {qs order : List DeleteQuery}

theorem takenBy_perm (perm : order.Perm qs) : takenBy d tables order = takenBy d tables qs := by
  funext table row
  exact perm.any_eq

theorem takenBy_agree (agree : ∀ q ∈ qs, tables.AgreeOn (q.reads d.model) tables') :
    takenBy d tables qs = takenBy d tables' qs := by
  funext table row
  rw [Bool.eq_iff_iff, takenBy, takenBy, List.any_eq_true, List.any_eq_true]
  apply exists_congr
  intro q
  apply and_congr_right
  intro member
  rw [DeleteQuery.takes_agree (agree q member)]

end

/-- The sum of the counts that were answered. -/
def returned (answers : List (Except ExecutionError Nat)) : Nat :=
  (answers.filterMap Except.toOption).sum

theorem returned_cons (answer : Except ExecutionError Nat)
    (rest : List (Except ExecutionError Nat)) :
    returned (answer :: rest) = returned [answer] + returned rest := by
  unfold returned
  rw [← List.singleton_append, List.filterMap_append, List.sum_append]

namespace Engine

/-- Run delete statements one after the other. What comes out are their answers in order, and the
    engine after the last one. -/
def deleteEach : Engine → List DeleteQuery → List (Except ExecutionError Nat) × Engine
  | engine, [] => ([], engine)
  | engine, q :: rest =>
      let (answer, after) := engine.delete q
      let (answers, last) := after.deleteEach rest
      (answer :: answers, last)

/-- The rows that are picked out were removed and counted, and nothing else has changed. -/
structure Clears (engine : Engine) (gone : String → Row → Bool) (count : Nat) (engine' : Engine) :
    Prop where
  domain : engine'.domain = engine.domain
  broken : engine'.store.broken = engine.store.broken
  removed : engine.store.tables.Without gone engine'.store.tables
  counted : count = engine.store.tables.tally gone

namespace Clears

variable {engine engine' last : Engine} {gone more : String → Row → Bool} {count count' : Nat}

theorem of_none (spared : ∀ table rows, engine.store.tables.rows? table = some rows →
    ∀ row ∈ rows, gone table row = false) : engine.Clears gone 0 engine :=
  ⟨rfl, rfl, .of_none spared, (Tables.tally_none spared).symm⟩

theorem trans (first : engine.Clears gone count engine')
    (second : engine'.Clears more count' last) :
    engine.Clears (fun table row => gone table row || more table row) (count + count') last where
  domain := second.domain.trans first.domain
  broken := second.broken.trans first.broken
  removed := first.removed.trans second.removed
  counted := by rw [first.removed.tally, first.counted, second.counted]

/-- Tables in which nothing is picked out are as they were. -/
theorem agreeOn {names : List String} (clears : engine.Clears gone count engine')
    (spared : ∀ table ∈ names, ∀ row, gone table row = false) :
    engine.store.tables.AgreeOn names engine'.store.tables := by
  intro table inside
  have all : (List.filter fun row => !gone table row) = id := by
    funext rows
    simp [spared table inside]
  rw [clears.removed.rows, all, Option.map_id]
  rfl

theorem provides {m : Model} (clears : engine.Clears gone count engine')
    (provided : engine.store.tables.Provides m) : engine'.store.tables.Provides m := by
  intro name e known
  rw [clears.removed.rows, Option.isSome_map]
  exact provided name e known

end Clears

variable {engine : Engine} {q : DeleteQuery}

theorem deleteEach_cons (rest : List DeleteQuery) :
    engine.deleteEach (q :: rest) =
      ((engine.delete q).1 :: ((engine.delete q).2.deleteEach rest).1,
        ((engine.delete q).2.deleteEach rest).2) := rfl

/-- A statement that fails is true of no row: a row on which the restriction is true is one on which
    it can be evaluated, and then it can be evaluated on all of them. -/
theorem takes_of_refused {failure : ExecutionError} (unbroken : engine.store.broken = false)
    (compiles : Succeeds (q.compile engine.domain)) (refused : (engine.delete q).1 = .error failure)
    {table : String} {rows : List Row} (stored : engine.store.tables.rows? table = some rows)
    (row : Row) : q.takes engine.domain engine.store.tables table row = false := by
  obtain ⟨compiled, accepted⟩ := compiles
  obtain ⟨e, -, -, known, -⟩ := DeleteQuery.compile_ok accepted
  by_cases own : e.table = table
  · rw [delete_accepted accepted known, Store.access_eq_ok.mpr ⟨unbroken, rfl⟩, ok_bind,
      Tables.rowsOf_eq_ok.mpr (own ▸ stored), ok_bind] at refused
    simp only [DeleteQuery.takes_of_known known, decide_eq_true own, Bool.true_and]
    rw [Bool.eq_false_iff]
    intro passed
    have answerable := (truthOfOptional_succeeds q.restriction _).mp (succeeds_of_passes passed)
    have answered : ∀ row ∈ rows, Succeeds (q.truth engine.domain engine.store.tables e row) :=
      fun row _ => (truthOfOptional_succeeds q.restriction _).mpr answerable
    rw [keepRows_of_total answered] at refused
    cases refused
  · exact DeleteQuery.takes_elsewhere (by simpa [DeleteQuery.table?, known] using own) row

/-- A statement removes and counts the rows of its table that it is true of. -/
theorem delete_clears (unbroken : engine.store.broken = false)
    (compiles : Succeeds (q.compile engine.domain)) :
    engine.Clears (q.takes engine.domain engine.store.tables) (returned [(engine.delete q).1])
      (engine.delete q).2 := by
  rcases engine.delete_cases q with ⟨failure, refused⟩ |
    ⟨e, rows, count, after, done, known, deletes⟩
  · have spared := @takes_of_refused engine q failure unbroken compiles (by rw [refused])
    rw [refused]
    exact .of_none fun table rows stored row _ => spared stored row
  · rw [done, DeleteQuery.takes_of_known known]
    refine ⟨deletes.domain, ?_, ?_, ?_⟩
    · rw [deletes.store]
    · rw [deletes.store]
      exact .put deletes.stored _
    · rw [Tables.tally_one deletes.stored, ← deletes.count]
      simp [returned, Except.toOption]

/-- Statements that are independent remove and count the rows that one of them is true of before the
    first one is run. -/
theorem deleteEach_clears {qs : List DeleteQuery} (unbroken : engine.store.broken = false)
    (compile : ∀ q ∈ qs, Succeeds (q.compile engine.domain))
    (independent : Independent engine.domain.model qs) :
    engine.Clears (takenBy engine.domain engine.store.tables qs)
      (returned (engine.deleteEach qs).1) (engine.deleteEach qs).2 := by
  induction qs generalizing engine with
  | nil => exact .of_none fun _ _ _ _ _ => rfl
  | cons q rest ih =>
      have first := delete_clears unbroken (compile q List.mem_cons_self)
      have others := @ih (engine.delete q).2 (first.broken.trans unbroken)
        (fun other member => by
          rw [first.domain]
          exact compile other (List.mem_cons_of_mem _ member))
        (by
          rw [first.domain]
          exact fun one member other member' =>
            independent one (List.mem_cons_of_mem _ member) other (List.mem_cons_of_mem _ member'))
      -- The other statements read no table that the first one has changed.
      have agree : ∀ other ∈ rest, engine.store.tables.AgreeOn (other.reads engine.domain.model)
          (engine.delete q).2.store.tables := by
        intro other member
        apply first.agreeOn
        intro table read
        apply DeleteQuery.takes_elsewhere
        intro own
        exact independent q List.mem_cons_self other (List.mem_cons_of_mem _ member) table own read
      rw [first.domain, ← takenBy_agree agree] at others
      rw [deleteEach_cons, returned_cons]
      exact first.trans others

theorem deleteEach_broken (qs : List DeleteQuery) (broken : engine.store.broken = true) :
    (engine.deleteEach qs).2 = engine ∧ returned (engine.deleteEach qs).1 = 0 := by
  induction qs with
  | nil => exact ⟨rfl, rfl⟩
  | cons q rest ih =>
      rcases engine.delete_cases q with ⟨failure, refused⟩ |
        ⟨e, rows, count, after, done, known, deletes⟩
      · rw [deleteEach_cons, returned_cons, refused, ih.2]
        exact ⟨ih.1, rfl⟩
      · rw [deletes.unbroken] at broken
        cases broken

theorem deleteEach_succeed {qs : List DeleteQuery} (unbroken : engine.store.broken = false)
    (provided : engine.store.tables.Provides engine.domain.model)
    (compile : ∀ q ∈ qs, Succeeds (q.compile engine.domain)) :
    ∀ answer ∈ (engine.deleteEach qs).1, Succeeds answer := by
  induction qs generalizing engine with
  | nil => simp [deleteEach]
  | cons q rest ih =>
      have own := compile q List.mem_cons_self
      have first := delete_clears unbroken own
      have others := @ih (engine.delete q).2 (first.broken.trans unbroken)
        (by
          rw [first.domain]
          exact first.provides provided)
        (fun other member => by
          rw [first.domain]
          exact compile other (List.mem_cons_of_mem _ member))
      intro answer member
      rcases List.mem_cons.mp member with rfl | later
      · exact delete_succeeds unbroken provided own
      · exact others answer later

/-- In whatever order independent statements that compile are run, what is left are the rows that
    none of them was true of at the beginning, and the answers count the rows that one of them was
    true of. All statements answer if every entity has its table. A store that cannot be used any
    more stays as it is. -/
theorem deleteEach_any_order {qs order : List DeleteQuery}
    (compile : ∀ q ∈ qs, Succeeds (q.compile engine.domain))
    (independent : Independent engine.domain.model qs) (perm : order.Perm qs) :
    (engine.store.broken = false →
        engine.store.tables.Without (takenBy engine.domain engine.store.tables qs)
          (engine.deleteEach order).2.store.tables ∧
        returned (engine.deleteEach order).1 =
          engine.store.tables.tally (takenBy engine.domain engine.store.tables qs) ∧
        (engine.store.tables.Provides engine.domain.model →
          ∀ answer ∈ (engine.deleteEach order).1, Succeeds answer)) ∧
      (engine.store.broken = true →
        (engine.deleteEach order).2 = engine ∧ returned (engine.deleteEach order).1 = 0) := by
  have compileOrder : ∀ q ∈ order, Succeeds (q.compile engine.domain) :=
    fun q member => compile q (perm.subset member)
  refine ⟨?_, deleteEach_broken order⟩
  intro unbroken
  have independentOrder : Independent engine.domain.model order := fun q member other member' =>
    independent q (perm.subset member) other (perm.subset member')
  have clears := deleteEach_clears unbroken compileOrder independentOrder
  rw [takenBy_perm perm] at clears
  exact ⟨clears.removed, clears.counted,
    fun provided => deleteEach_succeed unbroken provided compileOrder⟩

end Engine

namespace Sample

def town : Entity where
  name := "Town"
  table := "towns"
  attributes :=
    [("id", .basic { column := "id", kind := .int }),
      ("name", .basic { column := "name", kind := .string })]

def visit : Entity where
  name := "Visit"
  table := "visits"
  attributes :=
    [("id", .basic { column := "id", kind := .int }),
      ("place", .basic { column := "place", kind := .string })]

/-- An engine with the three people, a town and two visits. -/
def region : Engine where
  domain :=
    { people.domain with model := ⟨[("Person", person), ("Town", town), ("Visit", visit)]⟩ }
  store :=
    { tables := people.store.tables ++
        [("towns", [[("id", .int 1), ("name", .string "Turin")]]),
          ("visits",
            [[("id", .int 1), ("place", .string "Bari")],
              [("id", .int 2), ("place", .string "Turin")]])] }

theorem region_provides : region.store.tables.Provides region.domain.model := by
  intro name e known
  simp only [region, Model.entity?, Keyed.get?] at known
  split at known
  · cases known
    rfl
  · split at known
    · cases known
      rfl
    · split at known
      · cases known
        rfl
      · cases known

/-- The people of a town go, those who are not active, and the visits to a town; one person goes for
    two reasons. -/
def clearances : List DeleteQuery :=
  [{ target := ⟨"Person", "p"⟩
     restriction := some (.inQuery (.ref ⟨"p", ["address", "city"]⟩)
       { root := ⟨"Town", "t"⟩, selections := [{ operand := .ref ⟨"t", ["name"]⟩ }] } false) },
    { target := ⟨"Person", "p"⟩
      restriction := some (.compare (.ref ⟨"p", ["active"]⟩) .eq (.literal (.bool false))) },
    { target := ⟨"Visit", "v"⟩
      restriction := some (.existsQuery
        { root := ⟨"Town", "t"⟩
          restriction := some
            (.compare (.ref ⟨"t", ["name"]⟩) .eq (.ref ⟨"v", ["place"]⟩)) } false) }]

end Sample

theorem Engine.deleteEach_any_order_region :
    (Sample.region.deleteEach Sample.clearances).1.map Except.toOption =
        [some 2, some 0, some 1] ∧
      (Sample.region.deleteEach Sample.clearances.reverse).1.map Except.toOption =
        [some 1, some 1, some 1] ∧
      (Sample.region.store.tables.Without
          (takenBy Sample.region.domain Sample.region.store.tables Sample.clearances)
          (Sample.region.deleteEach Sample.clearances.reverse).2.store.tables ∧
        returned (Sample.region.deleteEach Sample.clearances.reverse).1 =
          Sample.region.store.tables.tally
            (takenBy Sample.region.domain Sample.region.store.tables Sample.clearances) ∧
        ∀ answer ∈ (Sample.region.deleteEach Sample.clearances.reverse).1, Succeeds answer) := by
  have compile : ∀ q ∈ Sample.clearances, Succeeds (q.compile Sample.region.domain) := by
    simp only [← isOk_iff, Succeeds]
    decide +kernel
  have independent : Independent Sample.region.domain.model Sample.clearances := by decide +kernel
  obtain ⟨removed, counted, succeed⟩ :=
    (Engine.deleteEach_any_order compile independent (List.reverse_perm Sample.clearances)).1 rfl
  exact ⟨by decide +kernel, by decide +kernel, removed, counted, succeed Sample.region_provides⟩

end EntityQuery
