import EntityQuery.Compilation.Resolver

/-! # The slots of a resolver

The slot map, the counter and the select list of a resolver move in step: `Resolver.Ordered` says
how they belong together, and every operation keeps it. A resolver only ever adds slots behind those
it has, and never changes one.
-/

namespace EntityQuery

/-- The key that a slot was created for. -/
def Slot.key : Slot → SlotKey
  | .column _ _ e _ => .expression e
  | .empty _ => .placeholder

theorem SlotKey.slot_key (key : SlotKey) (ordinal index : Nat) (kind : Kind) :
    (key.slot ordinal index kind).key = key := by
  cases key <;> rfl

@[simp] theorem SlotKey.slot_index (key : SlotKey) (ordinal index : Nat) (kind : Kind) :
    (key.slot ordinal index kind).index = index := by
  cases key <;> rfl

theorem Slot.isEmpty_iff_key {slot : Slot} : slot.isEmpty = true ↔ slot.key = .placeholder := by
  cases slot <;> simp [Slot.isEmpty, Slot.key]

namespace Resolver

variable {ω : Type}

/-- The slots with their keys, in the order of their creation. -/
def assigned (r : Resolver ω) : List (SlotKey × Slot) := r.slots.getD []

/-- How the parts of a resolver belong together. -/
structure Ordered (r : Resolver ω) : Prop where
  /-- The select list is the list of all slots. -/
  select_eq : r.block.select = r.assigned.map (·.2)
  /-- Every slot stands under its own key. -/
  keyed : ∀ entry ∈ r.assigned, entry.1 = entry.2.key.identity
  keys_nodup : (r.assigned.map (·.1)).Nodup
  /-- The slots are numbered from 0, whether they have an expression or not. -/
  index_eq : ∀ i (slot : Slot), r.block.select[i]? = some slot → slot.index = i
  /-- The slots with an expression are numbered from 1. -/
  ordinals_eq : r.block.select.filterMap Slot.ordinal? = List.range' 1 r.columns
  head_filled : ∀ slot, r.block.select.head? = some slot → slot.isEmpty = false
  /-- There is a slot map only once there is a slot. -/
  slots_ne : r.slots.isSome → r.block.select ≠ []

theorem announcing_ordered (id : Nat) (table : TableRef) (channel : Channel ω Slot) :
    (announcing id table channel).Ordered where
  select_eq := rfl
  keyed := by simp [assigned, announcing]
  keys_nodup := by simp [assigned, announcing]
  index_eq := by simp [announcing]
  ordinals_eq := by simp [announcing]
  head_filled := by simp [announcing]
  slots_ne := by simp [announcing]

theorem slotOf?_eq (r : Resolver ω) (key : SlotKey) :
    r.slotOf? key = (r.assigned.find? (·.1 = key.identity)).map (·.2) := rfl

theorem slotOf?_eq_none {r : Resolver ω} {key : SlotKey} (none : r.slotOf? key = none) :
    key.identity ∉ r.assigned.map (·.1) := by
  intro member
  obtain ⟨entry, inside, same⟩ := List.mem_map.mp member
  rw [slotOf?_eq, Option.map_eq_none_iff, List.find?_eq_none] at none
  exact none entry inside (by simpa using same)

/-- The slot of a key stands in the select list, under an equal key. -/
theorem Ordered.of_slotOf? {r : Resolver ω} (ordered : r.Ordered) {key : SlotKey} {slot : Slot}
    (found : r.slotOf? key = some slot) :
    slot ∈ r.block.select ∧ slot.key.identity = key.identity := by
  rw [slotOf?_eq, Option.map_eq_some_iff] at found
  obtain ⟨entry, located, rfl⟩ := found
  have inside : entry ∈ r.assigned := List.mem_of_find?_eq_some located
  have same : entry.1 = key.identity := by simpa using List.find?_some located
  rw [ordered.select_eq, ← ordered.keyed entry inside]
  exact ⟨List.mem_map_of_mem inside, same⟩

/-- In an ordered resolver the slot of an index is the one that has it as its own. -/
theorem Ordered.getElem?_index {r : Resolver ω} (ordered : r.Ordered) {slot : Slot}
    (inside : slot ∈ r.block.select) : r.block.select[slot.index]? = some slot := by
  obtain ⟨i, located⟩ := List.mem_iff_getElem?.mp inside
  rw [ordered.index_eq i slot located]
  exact located

/-- No slot is empty as long as the empty one was not requested. -/
theorem Ordered.all_filled {r : Resolver ω} (ordered : r.Ordered)
    (none : r.slotOf? .placeholder = none) : ∀ slot ∈ r.block.select, slot.isEmpty = false := by
  intro slot inside
  rw [ordered.select_eq] at inside
  obtain ⟨entry, member, rfl⟩ := List.mem_map.mp inside
  apply Bool.eq_false_iff.mpr
  intro empty
  have placeholder : entry.2.key = .placeholder := Slot.isEmpty_iff_key.mp empty
  apply slotOf?_eq_none none
  have key : entry.1 = SlotKey.placeholder.identity := by
    rw [ordered.keyed entry member, placeholder]
  rw [← key]
  exact List.mem_map_of_mem member

@[simp] theorem create_slot (r : Resolver ω) (key : SlotKey) (kind : Kind) :
    (r.create key kind).1 = key.slot (r.columns + 1) r.count kind := rfl

@[simp] theorem create_select (r : Resolver ω) (key : SlotKey) (kind : Kind) :
    (r.create key kind).2.block.select = r.block.select ++ [(r.create key kind).1] := rfl

@[simp] theorem create_assigned (r : Resolver ω) (key : SlotKey) (kind : Kind) :
    (r.create key kind).2.assigned = r.assigned ++ [(key.identity, (r.create key kind).1)] := rfl

@[simp] theorem create_announcements (r : Resolver ω) (key : SlotKey) (kind : Kind) :
    (r.create key kind).2.announcements = r.announcements.announce (r.create key kind).1 := rfl

/-- After the creation of a slot its key, and no other one, has the new slot. -/
theorem slotOf?_create {r : Resolver ω} {key : SlotKey} (kind : Kind)
    (fresh : r.slotOf? key = none) (other : SlotKey) :
    (r.create key kind).2.slotOf? other =
      if key.identity = other.identity then some (r.create key kind).1 else r.slotOf? other := by
  rw [slotOf?_eq, slotOf?_eq, create_assigned, List.find?_append]
  split
  · next same =>
    have missing : r.assigned.find? (·.1 = other.identity) = none := by
      rw [slotOf?_eq, Option.map_eq_none_iff] at fresh
      rw [← same]
      exact fresh
    simp [missing, same]
  · next different => simp [different]

/-- The one step that changes a resolver: a slot for a new key goes behind the others. -/
theorem Ordered.create {r : Resolver ω} (ordered : r.Ordered) {key : SlotKey} (kind : Kind)
    (fresh : r.slotOf? key = none) (allowed : key = .placeholder → r.block.select ≠ []) :
    (r.create key kind).2.Ordered where
  select_eq := by simp [ordered.select_eq]
  keyed := by
    intro entry inside
    rcases List.mem_append.mp inside with old | new
    · exact ordered.keyed entry old
    · rw [List.mem_singleton.mp new]
      simp only [SlotKey.slot_key]
  keys_nodup := by
    rw [create_assigned, List.map_append, List.nodup_append]
    refine ⟨ordered.keys_nodup, by simp, ?_⟩
    intro old member new isNew same
    have new_eq : new = key.identity := by simpa using isNew
    exact slotOf?_eq_none fresh (new_eq ▸ same ▸ member)
  index_eq := by
    intro i slot located
    have count_eq : r.count = r.block.select.length := by
      rw [ordered.select_eq, List.length_map]; rfl
    rw [create_select] at located
    by_cases inside : i < r.block.select.length
    · rw [List.getElem?_append_left inside] at located
      exact ordered.index_eq i slot located
    · rw [List.getElem?_append_right (by omega), List.getElem?_singleton] at located
      split at located
      · cases located
        rw [create_slot, SlotKey.slot_index]
        omega
      · cases located
  ordinals_eq := by
    rw [create_select, List.filterMap_append, ordered.ordinals_eq]
    cases key with
    | expression e =>
        show _ ++ [r.columns + 1] = List.range' 1 (r.columns + 1)
        rw [List.range'_concat]
        simp [Nat.add_comm]
    | placeholder =>
        show _ ++ [] = List.range' 1 r.columns
        exact List.append_nil _
  head_filled := by
    intro slot head
    rw [create_select] at head
    cases select : r.block.select with
    | nil =>
        rw [select] at head
        cases head
        cases key with
        | expression e => rfl
        | placeholder => exact absurd select (allowed rfl)
    | cons first rest =>
        apply ordered.head_filled
        rw [select] at head ⊢
        exact head
  slots_ne := by simp

/-- What a request for the slot of an expression does: nothing, or the creation of a slot. -/
theorem resolve_cases (r : Resolver ω) (e : Expression) (kind : Kind) :
    (∃ slot, r.resolved? e = some slot ∧ r.resolve e kind = (slot, r)) ∨
      (r.resolved? e = none ∧ r.resolve e kind = r.create (.expression e) kind) := by
  cases found : r.resolved? e with
  | some slot => exact .inl ⟨slot, rfl, by simp only [resolve, found]⟩
  | none => exact .inr ⟨rfl, by simp only [resolve, found]⟩

/-- What a request for the empty slot does: it is refused, or the slot is created. -/
theorem placeholder_cases (r : Resolver ω) :
    (∃ failure, r.placeholder = .error failure) ∨
      (r.slots.isSome ∧ r.slotOf? .placeholder = none ∧
        r.placeholder = .ok (r.create .placeholder .null)) := by
  unfold placeholder
  split
  · exact .inl ⟨_, rfl⟩
  · split
    · exact .inl ⟨_, rfl⟩
    · next started missing =>
      exact .inr ⟨by simpa [Option.isSome_iff_ne_none] using started, by simpa using missing, rfl⟩

theorem Ordered.placeholder {r r' : Resolver ω} {slot : Slot} (ordered : r.Ordered)
    (step : r.placeholder = .ok (slot, r')) : r'.Ordered := by
  rcases r.placeholder_cases with ⟨failure, refused⟩ | ⟨started, fresh, created⟩
  · rw [refused] at step
    cases step
  · rw [created] at step
    cases step
    exact ordered.create .null fresh (fun _ => ordered.slots_ne started)

end Resolver

end EntityQuery
