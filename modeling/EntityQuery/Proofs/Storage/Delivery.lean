import EntityQuery.Proofs.Resolver.Buffer
import EntityQuery.Proofs.Resolver.Session
import EntityQuery.Proofs.Storage.Selecting

/-! # From the store to the buffer

The columns of a block are numbered three times: by the resolver that hands out its slots, by the
executor that lists the values of a result row, and by the reader that spreads the row into a
buffer. All three agree, so that every slot gets the value of its own expression.
-/

namespace EntityQuery

/-- Every slot gets its value from the result row of a row under evaluation. -/
structure Delivers (slots : List Slot) (source : Row) (result : List Value) : Prop where
  width : result.length = (slots.filter fun slot => !slot.isEmpty).length
  column : ∀ ordinal index e kind, .column ordinal index e kind ∈ slots →
    0 < ordinal ∧ result[ordinal - 1]? = some (e.eval source)
  bufferWidth : (fillBuffer slots result).length = slots.length
  buffered : ∀ ordinal index e kind, .column ordinal index e kind ∈ slots →
    (fillBuffer slots result)[index]? = some (e.eval source)
  empty : ∀ index, .empty index ∈ slots → (fillBuffer slots result)[index]? = some .null

theorem length_resultColumns (slots : List Slot) :
    (resultColumns slots).length = (slots.filter fun slot => !slot.isEmpty).length := by
  induction slots with
  | nil => rfl
  | cons slot rest ih =>
      cases slot with
      | column ordinal index e kind =>
          simpa [resultColumns, Slot.expression?, Slot.isEmpty] using ih
      | empty index => exact ih

theorem Resolver.Ordered.delivers {ω : Type} {r : Resolver ω} (ordered : r.Ordered)
    (source : Row) :
    Delivers r.block.select source ((resultColumns r.block.select).map (·.eval source)) where
  width := by rw [List.length_map, length_resultColumns]
  column := by
    intro ordinal index e kind inside
    obtain ⟨done, rest, split⟩ := List.append_of_mem inside
    have ordinals := ordered.ordinals_eq
    rw [split] at ordinals ⊢
    refine ⟨?_, ?_⟩
    · rw [ordinal_eq ordinals]
      exact Nat.succ_pos _
    · rw [List.getElem?_map, resultColumns_ordinal ordinals, Option.map_some]
  bufferWidth := by rw [ordered.fillBuffer_eq, List.length_map]
  buffered := by
    intro ordinal index e kind inside
    rw [ordered.fillBuffer_eq, List.getElem?_map]
    exact congrArg (Option.map _) (ordered.getElem?_index inside)
  empty := by
    intro index inside
    rw [ordered.fillBuffer_eq, List.getElem?_map]
    exact congrArg (Option.map _) (ordered.getElem?_index inside)

/-- A result row gives every slot of a resolved select list its value, in the row itself and in the
    buffer that it is read into. -/
theorem Store.select_delivers {ω : Type} {id : Nat} {table : TableRef} {listener : Option ω}
    {clause : Clause} {steps : List (ResolverStep ω)} {store : Store}
    {usage : Option ColumnUsage} {block : QueryBlock} {results : List (List Value)}
    (built : block.select =
      ((ResolverSession.start id table listener clause).run steps).resolver.block.select)
    (selected : store.select usage block = .ok results) :
    ∃ rows, store.tables.rows? block.table.table = some rows ∧
      List.Forall₂ (Delivers block.select)
        (page block.offset block.limit (sortRows block.order
          ((scannedRows usage [] block rows).filter
            (passes (block.test store.tables usage)))))
        results := by
  have ordered :=
    (ResolverSession.start_run_recorded id table listener clause steps).ordered
  unfold Store.select at selected
  obtain ⟨tables, accessed, selected⟩ := bind_eq_ok.mp selected
  obtain ⟨-, rfl⟩ := Store.access_eq_ok.mp accessed
  obtain ⟨rows, stored, rfl⟩ := runBlock_ok selected
  refine ⟨rows, stored, ?_⟩
  rw [List.forall₂_map_right_iff, List.forall₂_same]
  intro source _
  rw [built]
  exact ordered.delivers source

namespace Sample

/-- Requests that leave the empty slot between two others, and one that is repeated. -/
def ageRequests : List (ResolverStep Unit) :=
  [.resolve (.column "p1_0" "id" .int) .int, .placeholder,
    .resolve (.column "p1_0" "age" .int) .int, .resolve (.column "p1_0" "id" .int) .int]

/-- The id and the age of a single person. -/
def ageOfThird : QueryBlock where
  id := 0
  table := ⟨"people", "p1_0"⟩
  select :=
    ((ResolverSession.start 0 ⟨"people", "p1_0"⟩ none .select).run
      ageRequests).resolver.block.select
  restriction := some (.compare (.column "p1_0" "id" .int) .eq (.literal (.int 3)))

end Sample

theorem Store.select_delivers_ages :
    Sample.ages.select none Sample.ageOfThird = .ok [[.int 3, .string "forty"]] ∧
      Delivers Sample.ageOfThird.select (Sample.ageRow (.string "forty") 3)
        [.int 3, .string "forty"] ∧
      fillBuffer Sample.ageOfThird.select [.int 3, .string "forty"] =
        [.int 3, .null, .string "forty"] := by
  have passing : (scannedRows none [] Sample.ageOfThird Sample.aged).filter
      (passes (Sample.ageOfThird.test Sample.ages.tables none)) =
        [Sample.ageRow (.string "forty") 3] := by decide +kernel
  have source : page Sample.ageOfThird.offset Sample.ageOfThird.limit
      (sortRows Sample.ageOfThird.order
        ((scannedRows none [] Sample.ageOfThird Sample.aged).filter
          (passes (Sample.ageOfThird.test Sample.ages.tables none)))) =
            [Sample.ageRow (.string "forty") 3] := by
    rw [passing, sortRows, List.mergeSort_singleton]
    rfl
  have selected : Sample.ages.select none Sample.ageOfThird =
      .ok [[.int 3, .string "forty"]] := by
    have answered : ∀ row, Succeeds (Sample.ageOfThird.test Sample.ages.tables none row) :=
      fun row => evalRestriction_succeeds row (by decide)
    rw [Store.select, Store.access_eq_ok.mpr ⟨rfl, rfl⟩, ok_bind,
      @runBlock_of_total _ _ _ _ Sample.aged rfl answered, source]
    rfl
  have built : Sample.ageOfThird.select = ((ResolverSession.start 0 ⟨"people", "p1_0"⟩ none
      .select).run Sample.ageRequests).resolver.block.select := rfl
  obtain ⟨rows, stored, each⟩ := Store.select_delivers built selected
  have all : rows = Sample.aged := (Option.some.inj stored).symm
  rw [all, source] at each
  cases each with
  | cons first _ => exact ⟨selected, first, by decide +kernel⟩

end EntityQuery
