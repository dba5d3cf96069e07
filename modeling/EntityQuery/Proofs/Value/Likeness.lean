import EntityQuery.Proofs.Text.Regex
import EntityQuery.Value.Order

/-! # Likeness and line feeds

A text is like a pattern if the pattern can be spelled out to it, with wildcards standing for all
characters. The truth of a match leaves out wildcards that stand for line feeds. A pattern spelled
out to a text has the line feeds of the text that no wildcard stands for, so the two differ exactly
where the text has more line feeds than the pattern.
-/

namespace EntityQuery

namespace Text

namespace Pattern

@[simp] theorem count_percent (pattern : List Char) :
    ('%' :: pattern).count '\n' = pattern.count '\n' := List.count_cons_of_ne (by decide)

@[simp] theorem count_underscore (pattern : List Char) :
    ('_' :: pattern).count '\n' = pattern.count '\n' := List.count_cons_of_ne (by decide)

variable {wild : Char → Prop} {pattern text : List Char}

/-- Every line feed of a pattern stands for one of the text. -/
theorem StandsFor.count_le (stands : StandsFor wild pattern text) :
    pattern.count '\n' ≤ text.count '\n' := by
  induction stands with
  | nil => exact Nat.le_refl _
  | run all rest ih =>
      rw [count_percent, List.count_append]
      exact Nat.le_add_left_of_le ih
  | one isWild rest ih =>
      rw [count_underscore, List.count_cons]
      exact Nat.le_add_right_of_le ih
  | char noRun noOne rest ih =>
      rw [List.count_cons, List.count_cons]
      exact Nat.add_le_add_right ih _

/-- Without wildcards for line feeds, text and pattern have as many of them. -/
theorem StandsFor.count_eq (stands : StandsFor (· ≠ '\n') pattern text) :
    text.count '\n' = pattern.count '\n' := by
  induction stands with
  | nil => rfl
  | run all rest ih =>
      have none := List.count_eq_zero.mpr fun inside => all '\n' inside rfl
      rw [count_percent, List.count_append, none, Nat.zero_add, ih]
  | one notFeed rest ih => rw [count_underscore, List.count_cons_of_ne notFeed, ih]
  | char noRun noOne rest ih => rw [List.count_cons, List.count_cons, ih]

/-- If they have as many line feeds, all those of the text are spelled out in the pattern. -/
theorem StandsFor.spelledOut (stands : StandsFor wild pattern text)
    (feeds : text.count '\n' = pattern.count '\n') : StandsFor (· ≠ '\n') pattern text := by
  induction stands with
  | nil => exact .nil
  | @run taken pattern text all rest ih =>
      rw [count_percent, List.count_append] at feeds
      have fewer := rest.count_le
      have none : taken.count '\n' = 0 := by omega
      refine .run (fun c inside feed => ?_) (ih (by omega))
      exact List.count_eq_zero.mp none (feed ▸ inside)
  | @one c pattern text isWild rest ih =>
      rw [count_underscore] at feeds
      have fewer := rest.count_le
      by_cases feed : c = '\n'
      · rw [feed, List.count_cons_self] at feeds
        omega
      · rw [List.count_cons_of_ne feed] at feeds
        exact .one feed (ih feeds)
  | char noRun noOne rest ih =>
      rw [List.count_cons, List.count_cons] at feeds
      exact .char noRun noOne (ih (Nat.add_right_cancel feeds))

end Pattern

/-- The pattern can be spelled out to the text, whatever the wildcards stand for. -/
def Like (text pattern : String) : Prop :=
  Pattern.StandsFor (fun _ => True) pattern.toList text.toList

def lineFeeds (text : String) : Nat := text.toList.count '\n'

theorem matchesPattern_iff_like {text pattern : String} :
    matchesPattern text pattern = true ↔
      Like text pattern ∧ lineFeeds text = lineFeeds pattern := by
  rw [matchesPattern_iff]
  constructor
  · intro stands
    exact ⟨stands.mono fun _ _ _ => trivial, stands.count_eq⟩
  · rintro ⟨stands, feeds⟩
    exact stands.spelledOut feeds

end Text

namespace Value

open Text

theorem likeTruth_holds {s p : String} :
    likeTruth (.string s) (.string p) = .holds ↔ matchesPattern s p = true := by
  rw [likeTruth, Truth.ofBool]
  split <;> simp_all

theorem likeTruth_fails {s p : String} :
    likeTruth (.string s) (.string p) = .fails ↔ ¬matchesPattern s p = true := by
  rw [likeTruth, Truth.ofBool]
  split <;> simp_all

/-- A match holds if the text is like the pattern and has no line feed beside those that the pattern
    spells out, and fails otherwise. So it is likeness on texts without line feeds, and it is what a
    search for the pattern's regular expression finds. -/
theorem likeTruth_like (s p : String) :
    (likeTruth (.string s) (.string p) = .holds ↔ Like s p ∧ lineFeeds s = lineFeeds p) ∧
      (likeTruth (.string s) (.string p) = .fails ↔ ¬(Like s p ∧ lineFeeds s = lineFeeds p)) ∧
      (lineFeeds s = 0 → (likeTruth (.string s) (.string p) = .holds ↔ Like s p)) ∧
      ∀ compile search, Regex.Documented compile →
        compile (Regex.ofPattern p.toList) = some search →
          likeTruth (.string s) (.string p) = .ofBool (search s) := by
  rw [likeTruth_holds, likeTruth_fails, matchesPattern_iff_like]
  refine ⟨Iff.rfl, Iff.rfl, fun noFeeds => ?_, fun compile search documented compiled => ?_⟩
  · refine and_iff_left_of_imp fun like => ?_
    have fewer : lineFeeds p ≤ lineFeeds s := like.count_le
    omega
  · rw [likeTruth, Regex.search_ofPattern documented compiled]

theorem likeTruth_like_name :
    likeTruth (.string "Jo.n") (.string "Jo._") = .holds ∧
      ∃ search, Regex.reference (Regex.ofPattern "Jo._".toList) = some search ∧
        Truth.holds = .ofBool (search "Jo.n") := by
  have noFeeds : lineFeeds "Jo.n" = 0 := by decide
  have like : Like "Jo.n" "Jo._" :=
    .char (by decide) (by decide) <| .char (by decide) (by decide) <|
      .char (by decide) (by decide) <| .one trivial .nil
  have holds := ((likeTruth_like "Jo.n" "Jo._").2.2.1 noFeeds).mpr like
  have compiled : Regex.reference (Regex.ofPattern "Jo._".toList) = some (Regex.find _) :=
    congrArg (Option.map Regex.find) (Regex.read_ofPattern _)
  refine ⟨holds, _, compiled, ?_⟩
  rw [← holds]
  exact (likeTruth_like "Jo.n" "Jo._").2.2.2 _ _ Regex.documented_reference compiled

/-- An underscore does not match a line feed, which it stands for. -/
theorem likeTruth_lineFeed :
    likeTruth (.string "a\nb") (.string "a_b") = .fails ∧ Like "a\nb" "a_b" := by
  refine ⟨by decide, ?_⟩
  exact .char (by decide) (by decide) <| .one trivial <| .char (by decide) (by decide) .nil

end Value

end EntityQuery
