import EntityQuery.Engine.Assembly
import EntityQuery.Proofs.Resolver.Ordered

/-! # Reading back what was requested

The buffer of a result row has at the place of every slot the value of the slot. So whoever was
given a place on a request finds there what was requested, and null at the place of the empty slot.
-/

namespace EntityQuery

variable {f : Expression → Value}

/-- What the buffer holds at the place of a slot, where `f` gives the values of the columns. -/
def Slot.valueBy (f : Expression → Value) : Slot → Value
  | .column _ _ e _ => f e
  | .empty _ => .null

theorem length_filterMap_ordinal (slots : List Slot) :
    (slots.filterMap Slot.ordinal?).length = (resultColumns slots).length := by
  induction slots with
  | nil => rfl
  | cons slot rest ih =>
      cases slot with
      | column ordinal index e kind => simpa [resultColumns, Slot.ordinal?, Slot.expression?] using ih
      | empty index => exact ih

/-- The number of a slot's column counts the columns before it. -/
theorem ordinal_eq {done rest : List Slot} {ordinal index columns : Nat} {e : Expression}
    {kind : Kind}
    (ordinals : (done ++ .column ordinal index e kind :: rest).filterMap Slot.ordinal? =
      List.range' 1 columns) : ordinal = (resultColumns done).length + 1 := by
  have located : (List.range' 1 columns)[(resultColumns done).length]? = some ordinal := by
    rw [← ordinals, List.filterMap_append, ← length_filterMap_ordinal,
      List.getElem?_append_right (Nat.le_refl _), Nat.sub_self]
    rfl
  rw [List.getElem?_range'] at located
  · have number := Option.some.inj located
    omega
  · apply Decidable.byContradiction
    intro beyond
    rw [List.getElem?_eq_none (by simpa using beyond)] at located
    cases located

/-- A slot's column stands among the result columns at the place that its number gives. -/
theorem resultColumns_ordinal {done rest : List Slot} {ordinal index columns : Nat}
    {e : Expression} {kind : Kind}
    (ordinals : (done ++ .column ordinal index e kind :: rest).filterMap Slot.ordinal? =
      List.range' 1 columns) :
    (resultColumns (done ++ .column ordinal index e kind :: rest))[ordinal - 1]? = some e := by
  rw [ordinal_eq ordinals, Nat.add_sub_cancel, resultColumns, List.filterMap_append,
    ← resultColumns, List.getElem?_append_right (Nat.le_refl _)]
  simp [Slot.expression?]

/-- One after the other the slots fill the buffer from the front. -/
theorem foldl_fill {columns : Nat} (done rest : List Slot)
    (indices : ∀ i (slot : Slot), (done ++ rest)[i]? = some slot → slot.index = i)
    (ordinals : (done ++ rest).filterMap Slot.ordinal? = List.range' 1 columns) :
    rest.foldl
        (fun buffer slot =>
          match slot.ordinal? with
          | some ordinal =>
              buffer.set slot.index
                (((resultColumns (done ++ rest)).map f)[ordinal - 1]?.getD .null)
          | none => buffer)
        (done.map (·.valueBy f) ++ List.replicate rest.length .null) =
      (done ++ rest).map (·.valueBy f) := by
  induction rest generalizing done with
  | nil => simp
  | cons slot rest ih =>
      have regroup : done ++ slot :: rest = (done ++ [slot]) ++ rest := by simp
      have index : slot.index = done.length := by
        apply indices
        simp
      have filled :
          (match slot.ordinal? with
            | some ordinal =>
                (done.map (Slot.valueBy f) ++ List.replicate (rest.length + 1) Value.null).set
                  slot.index
                  (((resultColumns (done ++ slot :: rest)).map f)[ordinal - 1]?.getD Value.null)
            | none => done.map (Slot.valueBy f) ++ List.replicate (rest.length + 1) Value.null) =
          (done ++ [slot]).map (Slot.valueBy f) ++ List.replicate rest.length Value.null := by
        cases slot with
        | empty place =>
            simp [Slot.ordinal?, Slot.valueBy, List.replicate_succ]
        | column ordinal place e kind =>
            have value : ((resultColumns (done ++ .column ordinal place e kind :: rest)).map
                f)[ordinal - 1]? = some (f e) := by
              rw [List.getElem?_map, resultColumns_ordinal ordinals, Option.map_some]
            simp only [Slot.ordinal?, value, index, Option.getD_some]
            rw [List.set_append_right _ _ (by simp)]
            simp [Slot.valueBy, List.replicate_succ]
      rw [List.foldl_cons, List.length_cons, filled]
      rw [regroup] at indices ordinals ⊢
      exact ih (done ++ [slot]) indices ordinals

theorem Resolver.Ordered.fillBuffer_eq {ω : Type} {r : Resolver ω} (ordered : r.Ordered)
    (f : Expression → Value) :
    fillBuffer r.block.select ((resultColumns r.block.select).map f) =
      r.block.select.map (·.valueBy f) :=
  foldl_fill [] r.block.select ordered.index_eq ordered.ordinals_eq

/-- A place was given in answer to a request for a key. -/
def HasSlot (slots : List Slot) (key : SlotKey) (index : Nat) : Prop :=
  ∃ slot ∈ slots, slot.index = index ∧ slot.key.identity = key.identity

theorem HasSlot.mono {slots more : List Slot} {key : SlotKey} {index : Nat}
    (has : HasSlot slots key index) (later : slots <+: more) : HasSlot more key index := by
  obtain ⟨slot, inside, place, same⟩ := has
  exact ⟨slot, later.subset inside, place, same⟩

theorem Resolver.Ordered.resolve_hasSlot {ω : Type} {r : Resolver ω} (ordered : r.Ordered)
    (e : Expression) (kind : Kind) :
    HasSlot (r.resolve e kind).2.block.select (.expression e) (r.resolve e kind).1.index := by
  rcases r.resolve_cases e kind with ⟨slot, found, step⟩ | ⟨-, step⟩
  · rw [step]
    obtain ⟨inside, same⟩ := ordered.of_slotOf? found
    exact ⟨slot, inside, rfl, same⟩
  · rw [step]
    refine ⟨_, List.mem_append_right _ List.mem_cons_self, rfl, ?_⟩
    rw [SlotKey.slot_key]

/-- A buffer holds at every place what was requested for it. -/
structure Spread (slots : List Slot) (f : Expression → Value) (buffer : List Value) : Prop where
  expression : ∀ {e index}, HasSlot slots (.expression e) index →
    ∃ other ∈ resultColumns slots, other.identity = e.identity ∧
      buffer[index]?.getD .null = f other
  placeholder : ∀ {index}, HasSlot slots .placeholder index → buffer[index]?.getD .null = .null

theorem Resolver.Ordered.spread {ω : Type} {r : Resolver ω} (ordered : r.Ordered)
    (f : Expression → Value) :
    Spread r.block.select f
      (fillBuffer r.block.select ((resultColumns r.block.select).map f)) where
  expression := by
    intro e index has
    obtain ⟨slot, inside, rfl, same⟩ := has
    rw [ordered.fillBuffer_eq, List.getElem?_map, ordered.getElem?_index inside]
    cases slot with
    | empty place => simp [Slot.key, SlotKey.identity] at same
    | column ordinal place other kind =>
        refine ⟨other, List.mem_filterMap.mpr ⟨_, inside, rfl⟩, ?_, rfl⟩
        simpa [Slot.key, SlotKey.identity] using same
  placeholder := by
    intro index has
    obtain ⟨slot, inside, rfl, same⟩ := has
    rw [ordered.fillBuffer_eq, List.getElem?_map, ordered.getElem?_index inside]
    cases slot with
    | empty place => rfl
    | column ordinal place other kind => simp [Slot.key, SlotKey.identity] at same

/-- A column is recognised exactly. -/
theorem Spread.column {slots : List Slot} {buffer : List Value} {c : Column} {index : Nat}
    (spread : Spread slots f buffer) (has : HasSlot slots (.expression (.ref c)) index) :
    buffer[index]?.getD .null = f (.ref c) := by
  obtain ⟨other, -, same, value⟩ := spread.expression has
  cases other with
  | ref c' =>
      have equal : c' = c := by simpa [Term.identity] using same
      rw [value, equal]
  | literal l => simp [Term.identity] at same
  | call name args => simp [Term.identity] at same

end EntityQuery
