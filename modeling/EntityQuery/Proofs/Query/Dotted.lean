import EntityQuery.Query.Path

/-! # Dotted paths as texts

Reading a path from a text and writing it. What is written reads as the path again if its segments
contain no dot and have no white space at either end, as those of every path that was read. So
reading and writing change nothing more than the white space around the segments.
-/

namespace EntityQuery

section Trimming

open Text

/-- There is no white space at either end. -/
def Text.IsBare (cs : List Char) : Prop :=
  cs.head?.any isBlank = false ∧ cs.getLast?.any isBlank = false

instance (cs : List Char) : Decidable (Text.IsBare cs) :=
  inferInstanceAs (Decidable (_ = false ∧ _ = false))

variable {cs : List Char}

theorem dropWhile_isBlank (begins : cs.head?.any isBlank = false) : cs.dropWhile isBlank = cs := by
  cases cs with
  | nil => rfl
  | cons c rest => exact List.dropWhile_cons_of_neg (Bool.eq_false_iff.mp begins)

theorem head?_dropWhile_isBlank (cs : List Char) :
    (cs.dropWhile isBlank).head?.any isBlank = false := by
  have notBlank := List.head?_dropWhile_not isBlank cs
  cases first : (cs.dropWhile isBlank).head? with
  | none => rfl
  | some c => rwa [first] at notBlank

theorem trimList_of_isBare (bare : IsBare cs) : trimList cs = cs := by
  have ends : cs.reverse.head?.any isBlank = false := by
    rw [List.head?_reverse]
    exact bare.2
  rw [trimList, dropWhile_isBlank bare.1, dropWhile_isBlank ends, List.reverse_reverse]

/-- Trimming cuts off white space in front and then at the end. -/
theorem trimList_front (cs : List Char) : trimList cs <+: cs.dropWhile isBlank := by
  have cut := List.dropWhile_suffix (l := (cs.dropWhile isBlank).reverse) isBlank
  simpa [trimList] using List.reverse_prefix.mpr cut

theorem isBare_trimList (cs : List Char) : IsBare (trimList cs) := by
  constructor
  · obtain ⟨cut, rejoined⟩ := trimList_front cs
    cases first : (trimList cs).head? with
    | none => rfl
    | some c =>
        have begins := head?_dropWhile_isBlank cs
        rwa [← rejoined, List.head?_append, first, Option.some_or] at begins
  · rw [trimList, List.getLast?_reverse]
    exact head?_dropWhile_isBlank _

theorem trimList_eq_self_iff : trimList cs = cs ↔ IsBare cs :=
  ⟨fun same => same ▸ isBare_trimList cs, trimList_of_isBare⟩

theorem mem_of_mem_trimList {c : Char} (inside : c ∈ trimList cs) : c ∈ cs :=
  (List.dropWhile_suffix isBlank).subset ((trimList_front cs).subset inside)

end Trimming

section Splitting

theorem splitDots_eq_splitOn (cs : List Char) : Path.splitDots cs = cs.splitOn '.' := by
  induction cs with
  | nil => rfl
  | cons c rest ih =>
      rw [Path.splitDots, ih, List.splitOn_cons_eq_if_modifyHead]
      cases pieces : rest.splitOn '.' with
      | nil => exact absurd pieces (List.splitOn_ne_nil _ _)
      | cons first later => by_cases dot : c = '.' <;> simp [dot]

theorem notMem_of_mem_splitOn {cs piece : List Char} {c : Char}
    (inside : piece ∈ cs.splitOn c) : c ∉ piece := by
  induction cs generalizing piece with
  | nil =>
      rw [List.splitOn_nil] at inside
      rw [List.mem_singleton.mp inside]
      exact List.not_mem_nil
  | cons first rest ih =>
      rw [List.splitOn_cons_eq_if_modifyHead] at inside
      split at inside
      · rcases List.mem_cons.mp inside with rfl | later
        · exact List.not_mem_nil
        · exact ih later
      · next other =>
        cases pieces : rest.splitOn c with
        | nil => exact absurd pieces (List.splitOn_ne_nil _ _)
        | cons start later =>
            rw [pieces, List.modifyHead_cons] at inside
            rcases List.mem_cons.mp inside with rfl | behind
            · intro within
              rcases List.mem_cons.mp within with rfl | deeper
              · exact other (beq_self_eq_true c)
              · exact ih (pieces ▸ List.mem_cons_self) deeper
            · exact ih (pieces ▸ List.mem_cons_of_mem _ behind)

end Splitting

namespace Path

open Text

variable {path other : Path}

/-- The alias and the names of the attributes. -/
def segments (path : Path) : List String := path.aliasName :: path.attributes

theorem eq_of_segments (same : path.segments = other.segments) : path = other := by
  cases path
  cases other
  cases same
  rfl

theorem toList_toText (path : Path) :
    path.toText.toList = ['.'].intercalate (path.segments.map String.toList) :=
  String.toList_intercalate

theorem segments_ofText (text : String) :
    (ofText text).segments.map String.toList = (text.toList.splitOn '.').map trimList := by
  rw [ofText, splitDots_eq_splitOn]
  cases pieces : text.toList.splitOn '.' with
  | nil => exact absurd pieces (List.splitOn_ne_nil _ _)
  | cons first later => simp [segments, Function.comp_def]

/-- Segments that a text can tell apart and that reading leaves as they are. -/
def IsPlain (path : Path) : Prop :=
  ∀ segment ∈ path.segments, '.' ∉ segment.toList ∧ IsBare segment.toList

instance (path : Path) : Decidable path.IsPlain :=
  inferInstanceAs (Decidable (∀ segment ∈ path.segments, _))

theorem isPlain_ofText (text : String) : (ofText text).IsPlain := by
  intro segment inside
  have written : segment.toList ∈ (text.toList.splitOn '.').map trimList :=
    segments_ofText text ▸ List.mem_map_of_mem inside
  obtain ⟨piece, isPiece, same⟩ := List.mem_map.mp written
  rw [← same]
  exact ⟨fun dot => notMem_of_mem_splitOn isPiece (mem_of_mem_trimList dot), isBare_trimList piece⟩

theorem splitOn_toText (plain : path.IsPlain) :
    path.toText.toList.splitOn '.' = path.segments.map String.toList := by
  rw [toList_toText]
  refine List.splitOn_intercalate '.' (List.forall_mem_map.mpr ?_) (List.cons_ne_nil _ _)
  exact fun segment inside => (plain segment inside).1

theorem ofText_toText (plain : path.IsPlain) : ofText path.toText = path := by
  apply eq_of_segments
  apply (List.map_inj_right fun _ _ => String.toList_inj.mp).mp
  rw [segments_ofText, splitOn_toText plain, List.map_map]
  exact List.map_congr_left fun segment inside => trimList_of_isBare (plain segment inside).2

theorem toText_ofText_iff (text : String) :
    (ofText text).toText = text ↔ ∀ segment ∈ text.toList.splitOn '.', IsBare segment := by
  have split := splitOn_toText (isPlain_ofText text)
  rw [segments_ofText] at split
  constructor
  · intro same segment inside
    rw [same, ← List.map_id (text.toList.splitOn '.'), List.map_map] at split
    exact trimList_eq_self_iff.mp (List.map_inj_left.mp split segment inside).symm
  · intro bare
    have kept : (text.toList.splitOn '.').map trimList = text.toList.splitOn '.' :=
      (List.map_congr_left fun segment inside => trimList_of_isBare (bare segment inside)).trans
        (List.map_id _)
    rw [← String.toList_inj, toList_toText, segments_ofText, kept]
    exact List.intercalate_splitOn '.'

/-- Reading a text that was read before and written changes nothing, a text is written as it was
    just if its segments are bare, and a plain path is read as it was written. -/
theorem text_roundTrip :
    (∀ text, ofText (ofText text).toText = ofText text) ∧
      (∀ text, (ofText text).toText = text ↔
        ∀ segment ∈ text.toList.splitOn '.', IsBare segment) ∧
      ∀ path : Path, path.IsPlain → ofText path.toText = path :=
  ⟨fun text => ofText_toText (isPlain_ofText text), toText_ofText_iff, fun _ => ofText_toText⟩

/-- Segments may be empty, also at both ends. -/
theorem text_roundTrip_empty :
    IsPlain ⟨"", ["first name", "", ""]⟩ ∧
      ofText ".first name.." = ⟨"", ["first name", "", ""]⟩ := by
  have plain : IsPlain ⟨"", ["first name", "", ""]⟩ := by decide
  exact ⟨plain, text_roundTrip.2.2 _ plain⟩

end Path

end EntityQuery
