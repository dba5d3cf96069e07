import EntityQuery.Text.Pattern

/-! # What patterns stand for

A pattern stands for the texts that it can be spelled out to: a percent sign as any run of wild
characters, an underscore as one, every other character as itself. Matching by answers for tails
decides this, with all characters but line feeds being wild.
-/

namespace EntityQuery.Text

namespace Pattern

/-- The pattern can be spelled out to the text, where wildcards stand for wild characters only. -/
inductive StandsFor (wild : Char → Prop) : List Char → List Char → Prop where
  | nil : StandsFor wild [] []
  | run {taken pattern text : List Char} (all : ∀ c ∈ taken, wild c)
      (rest : StandsFor wild pattern text) : StandsFor wild ('%' :: pattern) (taken ++ text)
  | one {c : Char} {pattern text : List Char} (isWild : wild c)
      (rest : StandsFor wild pattern text) : StandsFor wild ('_' :: pattern) (c :: text)
  | char {c : Char} {pattern text : List Char} (noRun : c ≠ '%') (noOne : c ≠ '_')
      (rest : StandsFor wild pattern text) : StandsFor wild (c :: pattern) (c :: text)

theorem StandsFor.mono {wild more : Char → Prop} {pattern text : List Char}
    (stands : StandsFor wild pattern text) (wilder : ∀ c ∈ text, wild c → more c) :
    StandsFor more pattern text := by
  induction stands with
  | nil => exact .nil
  | run all rest ih =>
      refine .run (fun c inside => wilder c ?_ (all c inside)) (ih fun c inside => wilder c ?_)
      · exact List.mem_append_left _ inside
      · exact List.mem_append_right _ inside
  | one isWild rest ih =>
      exact .one (wilder _ List.mem_cons_self isWild)
        (ih fun c inside => wilder c (List.mem_cons_of_mem _ inside))
  | char noRun noOne rest ih =>
      exact .char noRun noOne (ih fun c inside => wilder c (List.mem_cons_of_mem _ inside))

/-- Whether the pattern matches the whole text. -/
def accepts (pattern text : List Char) : Bool := (answers text pattern).headD false

theorem afterOne_tail (test : Char → Bool) (c : Char) (text : List Char) (rest : List Bool) :
    (afterOne test (c :: text) rest).tail = afterOne test text rest.tail := rfl

theorem afterRun_tail (c : Char) (text : List Char) (rest : List Bool) :
    (afterRun (c :: text) rest).tail = afterRun text rest.tail := rfl

/-- The answers for the tails of a text are those behind the first one. -/
theorem answers_tail (c : Char) (text pattern : List Char) :
    (answers (c :: text) pattern).tail = answers text pattern := by
  induction pattern with
  | nil => rfl
  | cons p pattern ih =>
      simp only [answers]
      split
      · rw [afterRun_tail, ih]
      · split
        · rw [afterOne_tail, ih]
        · rw [afterOne_tail, ih]

@[simp] theorem accepts_nil_nil : accepts [] [] = true := rfl

@[simp] theorem accepts_nil_cons (c : Char) (text : List Char) : accepts [] (c :: text) = false :=
  rfl

@[simp] theorem accepts_run_nil (pattern : List Char) :
    accepts ('%' :: pattern) [] = accepts pattern [] := rfl

@[simp] theorem accepts_run_cons (pattern : List Char) (c : Char) (text : List Char) :
    accepts ('%' :: pattern) (c :: text) =
      (accepts pattern (c :: text) || (isWild c && accepts ('%' :: pattern) text)) := by
  simp only [accepts, answers, if_true, afterRun, answers_tail, List.headD_cons]

@[simp] theorem accepts_one_nil (pattern : List Char) : accepts ('_' :: pattern) [] = false := rfl

@[simp] theorem accepts_one_cons (pattern : List Char) (c : Char) (text : List Char) :
    accepts ('_' :: pattern) (c :: text) = (isWild c && accepts pattern text) := by
  have noRun : '_' ≠ '%' := by decide
  simp only [accepts, answers, if_neg noRun, if_true, afterOne, answers_tail, List.headD_cons]

section Char

variable {p : Char} (noRun : p ≠ '%') (noOne : p ≠ '_')
include noRun noOne

theorem accepts_char_nil (pattern : List Char) : accepts (p :: pattern) [] = false := by
  simp only [accepts, answers, if_neg noRun, if_neg noOne, afterOne, List.headD_cons]

theorem accepts_char_cons (pattern : List Char) (c : Char) (text : List Char) :
    accepts (p :: pattern) (c :: text) = (c == p && accepts pattern text) := by
  simp only [accepts, answers, if_neg noRun, if_neg noOne, afterOne, answers_tail,
    List.headD_cons]

end Char

/-- A character of a pattern is a percent sign, an underscore, or stands for itself. -/
theorem char_cases (p : Char) : p = '%' ∨ p = '_' ∨ p ≠ '%' ∧ p ≠ '_' := by
  by_cases run : p = '%'
  · exact .inl run
  · by_cases one : p = '_'
    · exact .inr (.inl one)
    · exact .inr (.inr ⟨run, one⟩)

theorem isWild_iff (c : Char) : isWild c = true ↔ c ≠ '\n' := by
  simp [isWild]

/-- A run can be empty. -/
theorem StandsFor.emptyRun {wild : Char → Prop} {pattern text : List Char}
    (rest : StandsFor wild pattern text) : StandsFor wild ('%' :: pattern) text :=
  .run (List.forall_mem_nil wild) rest

/-- A run can begin with one more wild character. -/
theorem StandsFor.longerRun {wild : Char → Prop} {pattern text : List Char} {c : Char}
    (first : wild c) (rest : StandsFor wild ('%' :: pattern) text) :
    StandsFor wild ('%' :: pattern) (c :: text) := by
  generalize whole : '%' :: pattern = percent at rest
  cases rest with
  | nil => cases whole
  | run all rest =>
      obtain ⟨-, rfl⟩ := List.cons.inj whole
      exact .run (List.forall_mem_cons.mpr ⟨first, all⟩) rest
  | one _ _ => exact absurd (List.cons.inj whole).1 (by decide)
  | char noRun _ _ => exact absurd (List.cons.inj whole).1.symm noRun

theorem accepts_of_run {pattern taken text : List Char} (all : ∀ c ∈ taken, c ≠ '\n')
    (rest : accepts pattern text = true) : accepts ('%' :: pattern) (taken ++ text) = true := by
  induction taken with
  | nil =>
      cases text with
      | nil => exact rest
      | cons c text => rw [List.nil_append, accepts_run_cons, rest, Bool.true_or]
  | cons c taken ih =>
      obtain ⟨first, others⟩ := List.forall_mem_cons.mp all
      rw [List.cons_append, accepts_run_cons, (isWild_iff c).mpr first, ih others, Bool.true_and,
        Bool.or_true]

/-- What the tables answer can be spelled out. -/
theorem standsFor_of_accepts {pattern text : List Char} (matched : accepts pattern text = true) :
    StandsFor (· ≠ '\n') pattern text := by
  induction pattern generalizing text with
  | nil =>
      cases text with
      | nil => exact .nil
      | cons c text => rw [accepts_nil_cons] at matched; cases matched
  | cons p pattern ih =>
      rcases char_cases p with rfl | rfl | ⟨noRun, noOne⟩
      · induction text with
        | nil => exact (ih matched).emptyRun
        | cons c text longer =>
            rw [accepts_run_cons, Bool.or_eq_true, Bool.and_eq_true] at matched
            rcases matched with here | ⟨first, later⟩
            · exact (ih here).emptyRun
            · exact (longer later).longerRun ((isWild_iff c).mp first)
      · cases text with
        | nil => rw [accepts_one_nil] at matched; cases matched
        | cons c text =>
            rw [accepts_one_cons, Bool.and_eq_true] at matched
            exact .one ((isWild_iff c).mp matched.1) (ih matched.2)
      · cases text with
        | nil => rw [accepts_char_nil noRun noOne] at matched; cases matched
        | cons c text =>
            rw [accepts_char_cons noRun noOne, Bool.and_eq_true, beq_iff_eq] at matched
            obtain ⟨rfl, rest⟩ := matched
            exact .char noRun noOne (ih rest)

theorem accepts_of_standsFor {pattern text : List Char}
    (stands : StandsFor (· ≠ '\n') pattern text) : accepts pattern text = true := by
  induction stands with
  | nil => exact accepts_nil_nil
  | run all _ ih => exact accepts_of_run all ih
  | one notFeed _ ih => rw [accepts_one_cons, ih, (isWild_iff _).mpr notFeed, Bool.true_and]
  | char noRun noOne _ ih => rw [accepts_char_cons noRun noOne, ih, beq_self_eq_true, Bool.true_and]

/-- Matching decides whether the pattern stands for the text, with line feeds not wild. -/
theorem accepts_iff {pattern text : List Char} :
    accepts pattern text = true ↔ StandsFor (· ≠ '\n') pattern text :=
  ⟨standsFor_of_accepts, accepts_of_standsFor⟩

end Pattern

open Pattern in
theorem matchesPattern_iff {text pattern : String} :
    matchesPattern text pattern = true ↔ StandsFor (· ≠ '\n') pattern.toList text.toList :=
  accepts_iff

end EntityQuery.Text
