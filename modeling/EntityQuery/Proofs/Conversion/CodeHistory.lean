import Mathlib.Data.List.Basic
import Mathlib.Data.List.Induction
import EntityQuery.Proofs.Conversion.Codes
import EntityQuery.Proofs.Outcome

/-! # Codes with a history

A table of codes is made by giving codes their names one after the other, and a code may be given
another name later. It has the name that it was given last, but the place at which it was given its
first one. So the code stored for a name is, among those that have the name now, the one that was
known first.
-/

namespace EntityQuery

namespace Converter

namespace CodeTable

/-- The name that a code was given last. -/
def lastName? (pairs : List (String × String)) (code : String) : Option String :=
  ((pairs.filter (·.1 = code)).getLast?).map (·.2)

/-- How many names were given out before a code was given its first one. -/
def rank (pairs : List (String × String)) (code : String) : Nat := (pairs.map (·.1)).idxOf code

variable {pairs : List (String × String)} {code name : String}

theorem lastName?_concat (pairs : List (String × String)) (pair : String × String) :
    lastName? (pairs ++ [pair]) code =
      if pair.1 = code then some pair.2 else lastName? pairs code := by
  rw [lastName?, List.filter_append]
  split
  · next same => simp [same]
  · next other => simp [other, lastName?]

/-- The codes that were given a name have one. -/
theorem registered_iff : code ∈ pairs.map (·.1) ↔ ∃ name, lastName? pairs code = some name := by
  rw [← Option.isSome_iff_exists]
  simp [lastName?]

theorem get?_ofPairs (pairs : List (String × String)) :
    Keyed.get? (ofPairs pairs) code = lastName? pairs code := by
  induction pairs using List.reverseRecOn with
  | nil => rfl
  | append_singleton pairs pair ih => rw [ofPairs_concat, Keyed.get?_put, ih, lastName?_concat]

/-- The entries of a table are in the order of the ranks of their codes. -/
theorem pairwise_rank (pairs : List (String × String)) :
    (ofPairs pairs).Pairwise fun entry later => rank pairs entry.1 < rank pairs later.1 := by
  have ordered := pairwise_idxOf_eraseDups (pairs.map (·.1))
  rw [← names_ofPairs, Keyed.names, List.pairwise_map] at ordered
  exact ordered

/-- No code of a lower rank has the name that is looked for. -/
theorem lastName?_of_rank_lt {earlier : String} (found : (ofPairs pairs).codeOf? name = some code)
    (before : rank pairs earlier < rank pairs code) : lastName? pairs earlier ≠ some name := by
  obtain ⟨⟨first, named⟩, isFirst, same⟩ := Option.map_eq_some_iff.mp found
  cases same
  obtain ⟨-, above, below, parted, others⟩ := List.find?_eq_some_iff_append.mp isFirst
  intro hasName
  have inside : (earlier, name) ∈ ofPairs pairs :=
    Keyed.mem_of_get? ((get?_ofPairs pairs).trans hasName)
  have ordered := pairwise_rank pairs
  rw [parted] at inside ordered
  rcases List.mem_append.mp inside with front | rest
  · simpa using others _ front
  · rcases List.mem_cons.mp rest with own | back
    · cases own
      exact Nat.lt_irrefl _ before
    · have behind := (List.pairwise_cons.mp (List.pairwise_append.mp ordered).2.1).1 _ back
      exact Nat.lt_asymm before behind

theorem codeOf?_isSome (hasName : lastName? pairs code = some name) :
    ∃ first, (ofPairs pairs).codeOf? name = some first := by
  have inside : (code, name) ∈ ofPairs pairs :=
    Keyed.mem_of_get? ((get?_ofPairs pairs).trans hasName)
  have found : ((ofPairs pairs).find? (·.2 = name)).isSome :=
    List.find?_isSome.mpr ⟨_, inside, decide_eq_true rfl⟩
  obtain ⟨entry, isFirst⟩ := Option.isSome_iff_exists.mp found
  exact ⟨entry.1, by rw [codeOf?, isFirst, Option.map_some]⟩

/-- The code of a name is the first one known among those that have the name now. -/
theorem codeOf?_eq_some : (ofPairs pairs).codeOf? name = some code ↔
    lastName? pairs code = some name ∧
      ∀ earlier, rank pairs earlier < rank pairs code → lastName? pairs earlier ≠ some name := by
  constructor
  · intro found
    exact ⟨get?_ofPairs pairs ▸ get?_codeOf? found, fun earlier => lastName?_of_rank_lt found⟩
  · rintro ⟨hasName, lowest⟩
    obtain ⟨first, found⟩ := codeOf?_isSome hasName
    have firstNamed : lastName? pairs first = some name := get?_ofPairs pairs ▸ get?_codeOf? found
    -- Both codes have the name now and none before them has it, so they have the same rank.
    rcases Nat.lt_trichotomy (rank pairs first) (rank pairs code) with before | equal | behind
    · exact absurd firstNamed (lowest first before)
    · have registered : first ∈ pairs.map (·.1) := registered_iff.mpr ⟨name, firstNamed⟩
      rw [found, (List.idxOf_inj registered).mp equal]
    · exact absurd hasName (lastName?_of_rank_lt found behind)

/-- The first code got the name after the second one, but was known before it. -/
example : (ofPairs [("a", "y"), ("b", "x"), ("a", "x")]).codeOf? "x" = some "a" := by decide

end CodeTable

section Coded

open CodeTable

variable {pairs : List (String × String)} {table : CodeTable} {converter s code : String}
  {v stored : Value}

theorem coded_stores :
    (coded converter table).toDatabase (.string s) = .ok (.string code) ↔
      table.codeOf? s = some code := by
  simp only [coded]
  cases known : table.codeOf? s with
  | none => simp
  | some first => simp

theorem coded_toDatabase_succeeds :
    Succeeds ((coded converter table).toDatabase v) ↔
      v = .null ∨ ∃ s code, table.codeOf? s = some code ∧ v = .string s := by
  constructor
  · rintro ⟨form, converted⟩
    cases v with
    | null => exact .inl rfl
    | bool b | int i | float x | string s | array items | object fields =>
        obtain ⟨s, code, isString, known, -⟩ := Discrete.coded_toDatabase converted rfl
        exact .inr ⟨s, code, known, isString⟩
  · rintro (rfl | ⟨s, code, known, rfl⟩)
    · exact ⟨.null, rfl⟩
    · exact ⟨_, coded_stores.mpr known⟩

theorem coded_toDomain_succeeds :
    Succeeds ((coded converter table).toDomain stored) ↔
      stored = .null ∨ ∃ code s, Keyed.get? table code = some s ∧ stored = .string code := by
  constructor
  · rintro ⟨w, read⟩
    rcases Discrete.coded_toDomain read with ⟨isNull, -⟩ | ⟨code, s, isString, known, -⟩
    · exact .inl isNull
    · exact .inr ⟨code, s, known, isString⟩
  · rintro (rfl | ⟨code, s, known, rfl⟩)
    · exact ⟨.null, rfl⟩
    · exact ⟨_, Discrete.coded_reads known⟩

/-- What is stored for a value reads as the value. -/
theorem coded_reads_back (stores : (coded converter (.ofPairs pairs)).toDatabase v = .ok stored) :
    (coded converter (.ofPairs pairs)).toDomain stored = .ok v := by
  cases v with
  | null =>
      cases stores
      rfl
  | bool b | int i | float x | string s | array items | object fields =>
      obtain ⟨s, code, isString, known, rfl⟩ := Discrete.coded_toDatabase stores rfl
      rw [isString]
      exact Discrete.coded_reads (get?_codeOf? known)

/-- What a converter comes to whose codes were given their names one after the other. -/
structure FollowsHistory (c : Converter) (pairs : List (String × String)) : Prop where
  /-- Null and the names that codes have now can be stored. -/
  stores : ∀ v, Succeeds (c.toDatabase v) ↔
    v = .null ∨ ∃ code name, lastName? pairs code = some name ∧ v = .string name
  reads_back : ∀ v stored, c.toDatabase v = .ok stored → c.toDomain stored = .ok v
  /-- Null and all codes that were ever given a name can be read. -/
  reads : ∀ stored, Succeeds (c.toDomain stored) ↔
    stored = .null ∨ ∃ code ∈ pairs.map (·.1), stored = .string code
  /-- A code is what is stored for its name just if no code known before it has that name now. -/
  survives : ∀ code ∈ pairs.map (·.1),
    (c.toDomain (.string code) >>= c.toDatabase = .ok (.string code) ↔
      ∀ earlier, rank pairs earlier < rank pairs code →
        lastName? pairs earlier ≠ lastName? pairs code)

theorem coded_followsHistory (converter : String) (pairs : List (String × String)) :
    (coded converter (.ofPairs pairs)).FollowsHistory pairs where
  stores := by
    intro v
    rw [coded_toDatabase_succeeds]
    refine or_congr_right ⟨?_, ?_⟩
    · rintro ⟨name, code, known, isString⟩
      exact ⟨code, name, (codeOf?_eq_some.mp known).1, isString⟩
    · rintro ⟨code, name, hasName, isString⟩
      obtain ⟨first, known⟩ := codeOf?_isSome hasName
      exact ⟨name, first, known, isString⟩
  reads_back := fun v stored => coded_reads_back
  reads := by
    intro stored
    rw [coded_toDomain_succeeds]
    refine or_congr_right ⟨?_, ?_⟩
    · rintro ⟨code, name, known, isString⟩
      exact ⟨code, registered_iff.mpr ⟨name, (get?_ofPairs pairs).symm.trans known⟩, isString⟩
    · rintro ⟨code, registered, isString⟩
      obtain ⟨name, hasName⟩ := registered_iff.mp registered
      exact ⟨code, name, (get?_ofPairs pairs).trans hasName, isString⟩
  survives := by
    intro code registered
    obtain ⟨name, hasName⟩ := registered_iff.mp registered
    rw [Discrete.coded_reads ((get?_ofPairs pairs).trans hasName), ok_bind, coded_stores,
      codeOf?_eq_some, hasName]
    exact and_iff_right rfl

end Coded

end Converter

end EntityQuery
