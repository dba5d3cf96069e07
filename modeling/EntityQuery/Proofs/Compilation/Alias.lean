import EntityQuery.Compilation.State

/-! # Aliases of tables

The alias of a table is made of letters, a number and a fixed ending. Two aliases with different
numbers differ, and none of them holds a dot, so that a qualified name shows both its parts.
-/

namespace EntityQuery

/-- The alias of one of the first `limit` tables of a statement. -/
def Numbered (limit : Nat) (aliasName : String) : Prop :=
  ∃ stem number, (∀ c ∈ stem.toList, c.isAlpha = true) ∧ number ≤ limit ∧
    aliasName = numberedAlias stem number

theorem Numbered.mono {limit more : Nat} {aliasName : String} (numbered : Numbered limit aliasName)
    (le : limit ≤ more) : Numbered more aliasName := by
  obtain ⟨stem, number, letters, within, rfl⟩ := numbered
  exact ⟨stem, number, letters, Nat.le_trans within le, rfl⟩

theorem isAlpha_iff {c : Char} :
    c.isAlpha = true ↔ (65 ≤ c.toNat ∧ c.toNat ≤ 90) ∨ (97 ≤ c.toNat ∧ c.toNat ≤ 122) := by
  have upper : c.isUpper = true ↔ 65 ≤ c.toNat ∧ c.toNat ≤ 90 := by
    show decide (c.val ≥ 65 ∧ c.val ≤ 90) = true ↔ _
    simp only [decide_eq_true_eq, ge_iff_le, UInt32.le_iff_toNat_le]
    rfl
  have lower : c.isLower = true ↔ 97 ≤ c.toNat ∧ c.toNat ≤ 122 := by
    show (decide (c.val ≥ 97) && decide (c.val ≤ 122)) = true ↔ _
    simp only [Bool.and_eq_true, decide_eq_true_eq, ge_iff_le, UInt32.le_iff_toNat_le]
    rfl
  show (c.isUpper || c.isLower) = true ↔ _
  rw [Bool.or_eq_true, upper, lower]

theorem isAlpha_of_isDigit {c : Char} (digit : c.isDigit = true) : c.isAlpha = false := by
  have range : 48 ≤ c.toNat ∧ c.toNat ≤ 57 := by
    simp only [Char.isDigit, Bool.and_eq_true, decide_eq_true_eq, ge_iff_le,
      UInt32.le_iff_toNat_le] at digit
    exact digit
  apply Bool.eq_false_iff.mpr
  intro letter
  have letters := isAlpha_iff.mp letter
  omega

theorem isAlpha_toLower {c : Char} (letter : c.isAlpha = true) : c.toLower.isAlpha = true := by
  unfold Char.toLower
  split
  · next upper =>
    have low : 65 ≤ c.toNat := UInt32.le_iff_toNat_le.mp upper.1
    have high : c.toNat ≤ 90 := UInt32.le_iff_toNat_le.mp upper.2
    have shifted : (c.val + ('a'.val - 'A'.val)).toNat = c.toNat + 32 := by
      rw [UInt32.toNat_add]
      exact Nat.mod_eq_of_lt (by show c.toNat + 32 < 2 ^ 32; omega)
    apply isAlpha_iff.mpr
    right
    show 97 ≤ (c.val + ('a'.val - 'A'.val)).toNat ∧ (c.val + ('a'.val - 'A'.val)).toNat ≤ 122
    omega
  · exact letter

theorem toList_numberedAlias (stem : String) (number : Nat) :
    (numberedAlias stem number).toList =
      stem.toList ++ (Nat.toDigits 10 number ++ ['_', '0']) := by
  simp [numberedAlias, String.toList_append, Nat.toString_eq_repr, Nat.toList_repr]

theorem isDigit_toDigits {c : Char} {number : Nat} (member : c ∈ Nat.toDigits 10 number) :
    c.isDigit = true :=
  Nat.isDigit_of_mem_toDigits (by decide) (by decide) member

/-- What follows the letters of an alias starts with no letter. -/
theorem dropWhile_numberedAlias {stem : String} (number : Nat)
    (letters : ∀ c ∈ stem.toList, c.isAlpha = true) :
    (numberedAlias stem number).toList.dropWhile Char.isAlpha =
      Nat.toDigits 10 number ++ ['_', '0'] := by
  rw [toList_numberedAlias, List.dropWhile_append_of_pos letters]
  cases digits : Nat.toDigits 10 number with
  | nil => rfl
  | cons c rest =>
      have first : c ∈ Nat.toDigits 10 number := by
        rw [digits]
        exact List.mem_cons_self
      have digit : c.isDigit = true := isDigit_toDigits first
      rw [List.cons_append, List.dropWhile_cons_of_neg]
      simp [isAlpha_of_isDigit digit]

/-- The number of a table can be read off its alias. -/
theorem numberedAlias_number {stem other : String} {m n : Nat}
    (letters : ∀ c ∈ stem.toList, c.isAlpha = true)
    (letters' : ∀ c ∈ other.toList, c.isAlpha = true)
    (same : numberedAlias stem m = numberedAlias other n) : m = n := by
  have rests : Nat.toDigits 10 m ++ ['_', '0'] = Nat.toDigits 10 n ++ ['_', '0'] := by
    rw [← dropWhile_numberedAlias m letters, ← dropWhile_numberedAlias n letters', same]
  have digits : Nat.toDigits 10 m = Nat.toDigits 10 n := List.append_cancel_right rests
  have numbers := congrArg (fun digits => Nat.ofDigitChars 10 digits 0) digits
  simpa using numbers

/-- The alias of a table is that of no later one. -/
theorem Numbered.ne {limit number : Nat} {aliasName stem : String}
    (numbered : Numbered limit aliasName) (letters : ∀ c ∈ stem.toList, c.isAlpha = true)
    (later : limit < number) : aliasName ≠ numberedAlias stem number := by
  obtain ⟨other, earlier, letters', within, rfl⟩ := numbered
  intro same
  have equal : earlier = number := numberedAlias_number letters' letters same
  omega

theorem Numbered.no_dot {limit : Nat} {aliasName : String} (numbered : Numbered limit aliasName) :
    '.' ∉ aliasName.toList := by
  obtain ⟨stem, number, letters, -, rfl⟩ := numbered
  rw [toList_numberedAlias]
  intro member
  rcases List.mem_append.mp member with inStem | inRest
  · exact absurd (letters _ inStem) (by decide)
  · rcases List.mem_append.mp inRest with inDigits | inEnd
    · exact absurd (isDigit_toDigits inDigits) (by decide)
    · exact absurd inEnd (by decide)

/-- What stands before the first dot of a text. -/
theorem takeWhile_upToDot {l : List Char} (rest : List Char) (free : '.' ∉ l) :
    (l ++ '.' :: rest).takeWhile (· ≠ '.') = l := by
  rw [List.takeWhile_append_of_pos]
  · simp
  · intro x inside
    have different : x ≠ '.' := fun isDot => free (isDot ▸ inside)
    simpa using different

/-- A qualified name shows the alias and the column, provided that the alias has no dot. -/
theorem qualifiedName_inj {a b c d : String} (noDot : '.' ∉ a.toList) (noDot' : '.' ∉ b.toList)
    (same : qualifiedName a c = qualifiedName b d) : a = b ∧ c = d := by
  have lists : a.toList ++ '.' :: c.toList = b.toList ++ '.' :: d.toList := by
    simpa [qualifiedName, String.toList_append] using congrArg String.toList same
  have aliases : a.toList = b.toList := by
    rw [← takeWhile_upToDot c.toList noDot, lists, takeWhile_upToDot d.toList noDot']
  rw [aliases] at lists
  have rests := List.append_cancel_left lists
  simp only [List.cons.injEq, true_and] at rests
  exact ⟨String.toList_inj.mp aliases, String.toList_inj.mp rests⟩

theorem aliasStem_letters (length : Nat) (entity : String) :
    ∀ c ∈ (aliasStem length entity).toList, c.isAlpha = true := by
  intro c member
  simp only [aliasStem] at member
  split at member
  · simp only [String.reduceToList, List.mem_singleton] at member
    subst member
    decide
  · rw [String.toList_ofList] at member
    obtain ⟨letter, taken, rfl⟩ := List.mem_map.mp member
    have isLetter : letter.isAlpha = true := by
      have kept := List.mem_of_mem_take taken
      simpa using (List.mem_filter.mp kept).2
    exact isAlpha_toLower isLetter

end EntityQuery
