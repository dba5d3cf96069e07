import EntityQuery.Proofs.Engine.Persisting
import EntityQuery.Proofs.Engine.RoundTrip
import EntityQuery.Proofs.Value.Exactness

/-! # Ids that are taken

What decides whether the id of a new row is refused: a stored value that is the same as the id. For
an id below `2^53`, and for every text and boolean, this is a stored value that equals the id.
Larger integers are refused for their neighbours too; lists and objects are never refused.
-/

namespace EntityQuery

namespace Engine

section NewRow

variable {registry : ConverterRegistry} {e : Entity} {a : BasicAttribute} {id v : Value}
  {existing : List Row} {row : Row}

theorem isTaken_iff {storedId : Value} :
    isTaken e existing storedId = true ↔
      ∃ held ∈ storedIds e existing, held.same storedId = true := by
  unfold isTaken storedIds
  rw [List.any_eq_true]
  constructor
  · rintro ⟨row, inside, test⟩
    cases present : Keyed.get? row e.idColumn with
    | none => simp [present] at test
    | some held =>
        rw [present] at test
        exact ⟨held, List.mem_filterMap.mpr ⟨row, inside, present⟩, test⟩
  · rintro ⟨held, member, same⟩
    obtain ⟨row, inside, present⟩ := List.mem_filterMap.mp member
    exact ⟨row, inside, by rw [present]; exact same⟩

/-- An id without a converter is stored as it is. -/
theorem storedRow_id (isId : e.idMapping? = some a) (plain : registry.converterFor a = .ok none)
    (columns : (leafColumns e.leaves).Nodup)
    (stored : storedRow registry e id v e.leaves [] = .ok row) : row.stored e.idColumn = id := by
  have own := (storedRow_stored columns stored).2 _ a (Entity.id_leaf isId)
  obtain ⟨-, converter, effective, asItIs⟩ := storedValue_ok own
  rw [Entity.idColumn_eq isId]
  rcases asItIs with ⟨-, asItIs⟩ | ⟨c, rfl, -⟩
  · rw [asItIs, Entity.domainValue, if_pos rfl]
  · cases plain.symm.trans effective

theorem newRow_of_stored (stored : storedRow registry e id v e.leaves [] = .ok row) :
    newRow registry e id v existing =
      if isTaken e existing (row.stored e.idColumn) then .error (.duplicateId e.name id)
      else .ok row := by
  unfold newRow
  rw [stored, ok_bind]
  rfl

end NewRow

variable {engine : Engine} {name : String} {e : Entity} {a : BasicAttribute} {fields : Fields}
  {uuid : String} {id : Value} {row : Row}

/-- A value of the entity has been given an id, and passes all checks and conversions on the way to
    its row. Whether the id is taken is the question that remains. -/
structure Offers (engine : Engine) (name : String) (e : Entity) (fields : Fields) (uuid : String)
    (id : Value) (row : Row) : Prop where
  known : engine.domain.model.entity? name = some e
  unbroken : engine.store.broken = false
  assigned : (engine.assignId e fields (engine.rowsBefore e) uuid).1 = some id
  stored : storedRow engine.domain.registry e id (.object fields) e.leaves [] = .ok row

theorem Offers.persist (offers : engine.Offers name e fields uuid id row) :
    (engine.persist name (.object fields) uuid).1 =
      if isTaken e (engine.rowsBefore e) (row.stored e.idColumn) then
        .error (.duplicateId e.name id)
      else .ok id := by
  have given := (engine.assignId_given e fields uuid).1.symm.trans offers.assigned
  rw [(persist_given offers.known offers.unbroken fields uuid).1, given]
  simp only [settle, newRow_of_stored offers.stored]
  cases isTaken e (engine.rowsBefore e) (row.stored e.idColumn) <;> rfl

/-- An id without a converter is refused if a stored one is the same, and otherwise accepted. -/
theorem Offers.persist_same (offers : engine.Offers name e fields uuid id row)
    (isId : e.idMapping? = some a)
    (plain : engine.domain.registry.converterFor a = .ok none)
    (columns : (leafColumns e.leaves).Nodup) :
    ((∃ held ∈ storedIds e (engine.rowsBefore e), held.same id = true) ∧
        (engine.persist name (.object fields) uuid).1 = .error (.duplicateId e.name id)) ∨
      (∀ held ∈ storedIds e (engine.rowsBefore e), held.same id = false) ∧
        (engine.persist name (.object fields) uuid).1 = .ok id := by
  rw [offers.persist, storedRow_id isId plain columns offers.stored]
  cases taken : isTaken e (engine.rowsBefore e) id with
  | true => exact .inl ⟨isTaken_iff.mp taken, rfl⟩
  | false =>
      refine .inr ⟨fun held member => Bool.eq_false_iff.mpr fun same => ?_, rfl⟩
      exact Bool.eq_false_iff.mp taken (isTaken_iff.mpr ⟨held, member, same⟩)

/-- A generated number lies above every integer in the id column. -/
theorem generated_above {n : Nat} {i : Int}
    (sequence : (engine.generator e).generation = .sequence)
    (unsupplied : supplied? e fields = none)
    (assigned : (engine.assignId e fields (engine.rowsBefore e) uuid).1 = some (.int n))
    (member : .int i ∈ storedIds e (engine.rowsBefore e)) : i < n := by
  have tracked := IdGenerator.observe_sequence_all sequence (storedIds e (engine.rowsBefore e))
  rw [← generatorFor_eq] at tracked
  obtain ⟨sequence', reached⟩ := tracked
  rw [(assignId_generated unsupplied).1, IdGenerator.next_sequence sequence', reached] at assigned
  split at assigned
  · cases assigned
    by_cases negative : i < 0
    · omega
    have number : Value.toNat? (.int i) = some i.toNat := if_pos (Int.not_lt.mp negative)
    have within := le_largest (List.mem_filterMap.mpr ⟨_, member, number⟩)
    omega
  · cases assigned

section Plain

variable (offers : engine.Offers name e fields uuid id row) (isId : e.idMapping? = some a)
  (plain : engine.domain.registry.converterFor a = .ok none)
  (columns : (leafColumns e.leaves).Nodup)
include offers isId plain columns

/-- An id that comparisons tell apart is refused exactly if a stored value equals it. -/
theorem Offers.persist_exact (apart : id.toldApart = true) :
    ((engine.persist name (.object fields) uuid).1 = .error (.duplicateId e.name id) ↔
        ∃ held ∈ storedIds e (engine.rowsBefore e), held.Equals id) ∧
      ((engine.persist name (.object fields) uuid).1 = .ok id ↔
        ∀ held ∈ storedIds e (engine.rowsBefore e), ¬ held.Equals id) := by
  rcases offers.persist_same isId plain columns with ⟨⟨held, member, same⟩, answer⟩ |
    ⟨different, answer⟩
  · have equal := (Value.same_iff_equals apart).mp same
    simp only [answer, true_iff, reduceCtorEq, false_iff, not_forall, not_not]
    exact ⟨⟨held, member, equal⟩, held, member, equal⟩
  · have unequal : ∀ held ∈ storedIds e (engine.rowsBefore e), ¬ held.Equals id := by
      intro held member equal
      have same := (Value.same_iff_equals apart).mpr equal
      exact Bool.eq_false_iff.mp (different held member) same
    simp only [answer, true_iff, reduceCtorEq, false_iff, not_exists, not_and]
    exact ⟨unequal, unequal⟩

theorem Offers.persist_structured (structured : id.kind = .array ∨ id.kind = .object) :
    (engine.persist name (.object fields) uuid).1 = .ok id := by
  rcases offers.persist_same isId plain columns with ⟨⟨held, -, same⟩, -⟩ | ⟨-, answer⟩
  · rw [Value.same_structured structured] at same
    cases same
  · exact answer

/-- A generated number below `2^53` is refused for a stored float of its size only. -/
theorem Offers.persist_generated {n : Nat} (number : id = .int n) (small : n < 2 ^ 53)
    (unsupplied : supplied? e fields = none)
    (sequence : (engine.generator e).generation = .sequence)
    (floats : ∀ x, .float x ∈ storedIds e (engine.rowsBefore e) → ¬ (Value.float x).Equals id) :
    (engine.persist name (.object fields) uuid).1 = .ok id := by
  subst number
  have apart : Value.toldApart (.int n) = true := decide_eq_true small
  refine (offers.persist_exact isId plain columns apart).2.mpr ?_
  intro held member equal
  cases held with
  | int i =>
      have below := generated_above sequence unsupplied offers.assigned member
      cases Value.equals_int.mp equal
      omega
  | float x => exact floats x member equal
  | null | bool b | string s | array items | object fields =>
      rcases equal with same | ⟨m, exact, -⟩
      · cases same
      · cases exact

end Plain

/-- An id without a converter that comparisons tell apart is refused exactly if a stored value
    equals it; lists and objects are not recognised, and never refused. A number that the sequence
    of the entity has generated is above all stored integers, and below `2^53` it is refused for a
    stored float of its size only. -/
theorem persist_duplicate (offers : engine.Offers name e fields uuid id row)
    (isId : e.idMapping? = some a)
    (plain : engine.domain.registry.converterFor a = .ok none)
    (columns : (leafColumns e.leaves).Nodup) :
    (id.toldApart = true →
        ((engine.persist name (.object fields) uuid).1 = .error (.duplicateId e.name id) ↔
            ∃ held ∈ storedIds e (engine.rowsBefore e), held.Equals id) ∧
          ((engine.persist name (.object fields) uuid).1 = .ok id ↔
            ∀ held ∈ storedIds e (engine.rowsBefore e), ¬ held.Equals id)) ∧
      (id.kind = .array ∨ id.kind = .object →
        (engine.persist name (.object fields) uuid).1 = .ok id) ∧
      ∀ n : Nat, id = .int n → n < 2 ^ 53 → supplied? e fields = none →
        (engine.generator e).generation = .sequence →
        (∀ x, .float x ∈ storedIds e (engine.rowsBefore e) → ¬ (Value.float x).Equals id) →
        (engine.persist name (.object fields) uuid).1 = .ok id :=
  ⟨offers.persist_exact isId plain columns, offers.persist_structured isId plain columns,
    fun _ => offers.persist_generated isId plain columns⟩

end Engine

namespace Sample

/-- The counter when tickets of the given ids are stored, and no others. -/
def stocked (ids : List Int) : Engine := counter.through (restock ids)

/-- The row of a ticket. -/
def ticketRow (id : Int) (title : String) : Row := [("id", .int id), ("title", .string title)]

theorem ticket_columns : (leafColumns ticket.leaves).Nodup := by decide

end Sample

theorem Engine.persist_duplicate_next :
    ((Sample.stocked [5, 9]).persist "Ticket" (.object (Sample.titled "b")) Sample.uuid).1 =
        .ok (.int 10) ∧
      ((Sample.stocked [5, 9]).persist "Ticket"
          (.object (("id", .int 9) :: Sample.titled "b")) Sample.uuid).1 =
        .error (.duplicateId "Ticket" (.int 9)) := by
  have generated : (Sample.stocked [5, 9]).Offers "Ticket" Sample.ticket (Sample.titled "b")
      Sample.uuid (.int 10) (Sample.ticketRow 10 "b") := ⟨rfl, rfl, rfl, rfl⟩
  have supplied : (Sample.stocked [5, 9]).Offers "Ticket" Sample.ticket
      (("id", .int 9) :: Sample.titled "b") Sample.uuid (.int 9) (Sample.ticketRow 9 "b") :=
    ⟨rfl, rfl, rfl, rfl⟩
  obtain ⟨-, -, next⟩ := Engine.persist_duplicate generated rfl rfl Sample.ticket_columns
  obtain ⟨exact, -, -⟩ := Engine.persist_duplicate supplied rfl rfl Sample.ticket_columns
  have noFloats : ∀ x, .float x ∈
      Engine.storedIds Sample.ticket ((Sample.stocked [5, 9]).rowsBefore Sample.ticket) →
        ¬ (Value.float x).Equals (.int 10) := by
    intro x member
    simp [Engine.storedIds, Engine.rowsBefore, Sample.stocked, Engine.through, Sample.restock,
      Tables.rows?, Keyed.get?, Sample.ticket, Entity.idColumn, Entity.idMapping?] at member
  exact ⟨next 10 rfl (by decide) rfl rfl noFloats, (exact rfl).1.mpr (by decide +kernel)⟩

/-- The number after `2^53` is refused because of `2^53`, though it was generated and no row holds
    it. -/
theorem Engine.persist_duplicate_neighbour :
    ((Sample.stocked [9007199254740992]).assignId Sample.ticket (Sample.titled "b")
          ((Sample.stocked [9007199254740992]).rowsBefore Sample.ticket) Sample.uuid).1 =
        some (.int 9007199254740993) ∧
      (¬ ∃ held ∈ Engine.storedIds Sample.ticket
          ((Sample.stocked [9007199254740992]).rowsBefore Sample.ticket),
        held.Equals (.int 9007199254740993)) ∧
      ((Sample.stocked [9007199254740992]).persist "Ticket" (.object (Sample.titled "b"))
          Sample.uuid).1 =
        .error (.duplicateId "Ticket" (.int 9007199254740993)) := by
  have offers : (Sample.stocked [9007199254740992]).Offers "Ticket" Sample.ticket
      (Sample.titled "b") Sample.uuid (.int 9007199254740993)
      (Sample.ticketRow 9007199254740993 "b") := ⟨rfl, rfl, rfl, rfl⟩
  refine ⟨rfl, by decide +kernel, ?_⟩
  rw [offers.persist, if_pos (by decide +kernel)]
  rfl

end EntityQuery
