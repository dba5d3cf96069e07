import EntityQuery.Relational.Slot

/-! # The kind of a value

The kind that a slot is given for its expression, before there is a row, against the value that the
expression then has on a row. The value is of a kind that the slot's kind accepts, but for the
absolute value of an integer beyond 64 signed bits: it becomes a float although the kind says
integer.
-/

namespace EntityQuery

namespace Kind

theorem accepts_iff {a b : Kind} :
    a.accepts b = true ↔ a = b ∨ b = .null ∨ a = .float ∧ b = .int := by
  simp [accepts, or_assoc]

theorem accepts_self (k : Kind) : k.accepts k = true := accepts_iff.mpr (.inl rfl)

theorem accepts_null (k : Kind) : k.accepts .null = true := accepts_iff.mpr (.inr (.inl rfl))

theorem accepts_trans {a b c : Kind} (outer : a.accepts b = true) (inner : b.accepts c = true) :
    a.accepts c = true := by
  rcases accepts_iff.mp outer with rfl | rfl | ⟨rfl, rfl⟩
  · exact inner
  · rcases accepts_iff.mp inner with rfl | rfl | ⟨impossible, -⟩
    · exact accepts_null a
    · exact accepts_null a
    · cases impossible
  · rcases accepts_iff.mp inner with rfl | rfl | ⟨impossible, -⟩
    · rfl
    · rfl
    · cases impossible

theorem promote_self (k : Kind) : k.promote k = k := if_pos rfl

theorem promote_null (k : Kind) : k.promote .null = k := by
  cases k <;> rfl

theorem null_promote (k : Kind) : Kind.null.promote k = k := by
  cases k <;> rfl

/-- Kinds that `coalesce` chooses from without a surprise: nulls apart they are all the same, or all
    numeric. -/
def Alike (kinds : List Kind) : Prop :=
  (∃ k, ∀ other ∈ kinds, other = .null ∨ other = k) ∨
    ∀ k ∈ kinds, k = .null ∨ k.isNumeric = true

/-- Kinds of a sort that is closed under promotion are accepted by what they are promoted to. -/
theorem foldl_promote_accepts {sort : Kind → Prop}
    (closed : ∀ a b, sort a → sort b →
      sort (a.promote b) ∧ (a.promote b).accepts a = true ∧ (a.promote b).accepts b = true)
    {kinds : List Kind} (sorted : ∀ k ∈ kinds, sort k) {first : Kind} (start : sort first) :
    (kinds.foldl promote first).accepts first = true ∧
      ∀ k ∈ kinds, (kinds.foldl promote first).accepts k = true := by
  induction kinds generalizing first with
  | nil => exact ⟨accepts_self first, nofun⟩
  | cons k kinds ih =>
      obtain ⟨sortK, others⟩ := List.forall_mem_cons.mp sorted
      obtain ⟨sortNext, acceptsFirst, acceptsK⟩ := closed first k start sortK
      obtain ⟨acceptsNext, acceptsOthers⟩ := ih others sortNext
      exact ⟨accepts_trans acceptsNext acceptsFirst,
        List.forall_mem_cons.mpr ⟨accepts_trans acceptsNext acceptsK, acceptsOthers⟩⟩

theorem Alike.promoted {kinds : List Kind} (alike : Alike kinds) {k : Kind} (among : k ∈ kinds) :
    (kinds.foldl promote .null).accepts k = true := by
  rcases alike with ⟨own, same⟩ | numeric
  · refine (foldl_promote_accepts ?_ same (.inl rfl)).2 k among
    rintro a b (rfl | rfl) (rfl | rfl) <;>
      simp [promote_self, promote_null, null_promote, accepts_self, accepts_null]
  · refine (foldl_promote_accepts ?_ numeric (.inl rfl)).2 k among
    intro a b sortA sortB
    cases a <;> cases b <;> simp_all [isNumeric, promote, accepts]

theorem promote_ne_float {a b : Kind} (left : a ≠ .float) (right : b ≠ .float) :
    a.promote b ≠ .float := by
  cases a <;> cases b <;> simp_all [promote]

theorem foldl_promote_ne_float {kinds : List Kind} {first : Kind} (start : first ≠ .float)
    (integers : .float ∉ kinds) : kinds.foldl promote first ≠ .float := by
  induction kinds generalizing first with
  | nil => exact start
  | cons k kinds ih =>
      exact ih (promote_ne_float start (List.ne_of_not_mem_cons integers).symm)
        (List.not_mem_of_not_mem_cons integers)

end Kind

/-- The absolute value of an integer of 64 signed bits, of which the least one stays as it is. -/
theorem Value.absolute_of_within {i j : Int} (within : (Value.int i).toInt64? = some j) :
    (Value.int i).absolute = .int (if i = -0x8000000000000000 then i else i.natAbs) := by
  simp only [toInt64?, Option.ite_none_right_eq_some, Option.some.injEq] at within
  obtain ⟨⟨low, high⟩, rfl⟩ := within
  have fits : (Value.int i).toInt64? = some i := if_pos ⟨low, high⟩
  have word : (Int64.ofInt i).toBitVec.toInt = i := Int64.toInt_ofInt_of_le low high
  have least : (Int64.ofInt i).toBitVec = BitVec.intMin 64 ↔ i = -0x8000000000000000 := by
    rw [← BitVec.toInt_inj, word]
    rfl
  rw [absolute, fits]
  show Value.int (Int64.ofInt i).abs.toBitVec.toInt = _
  rw [Int64.toBitVec_abs, BitVec.toInt_abs_eq_natAbs, word]
  split
  · next isLeast =>
    rw [least.mp isLeast]
    rfl
  · next other => rw [if_neg (other ∘ least.mpr)]

example : (Value.int (-0x8000000000000000)).absolute = .int (-0x8000000000000000) := by decide

/-- The absolute value of an integer beyond 64 signed bits is a float. -/
theorem Value.absolute_of_beyond {i : Int} (beyond : (Value.int i).toInt64? = none) :
    (Value.int i).absolute = .float (Binary64.ofInt i).abs := by
  rw [Value.absolute, beyond]
  rfl

namespace Term

variable {ρ : Type} {refKind : ρ → Kind} {lookup : ρ → Value} {t : Term ρ} {args : List (Term ρ)}

theorem kindsOf_eq_map : kindsOf refKind args = args.map (kindOr refKind .null) := by
  induction args with
  | nil => rfl
  | cons t args ih => exact congrArg (_ :: ·) ih

theorem evalList_eq_map : evalList lookup args = args.map (eval lookup) := by
  induction args with
  | nil => rfl
  | cons t args ih => exact congrArg (_ :: ·) ih

theorem mem_refsOfList {r : ρ} : r ∈ refsOfList args ↔ ∃ u ∈ args, r ∈ u.refs := by
  induction args with
  | nil => simp [refsOfList]
  | cons t args ih => simp [refsOfList, ih]

/-- Every `coalesce` in the term chooses from arguments of alike kinds. -/
inductive CoalescesAlike (refKind : ρ → Kind) : Term ρ → Prop
  | ref (r : ρ) : CoalescesAlike refKind (.ref r)
  | literal (l : Literal) : CoalescesAlike refKind (.literal l)
  | call {name : String} {args : List (Term ρ)}
      (alike : name = "coalesce" → Kind.Alike (kindsOf refKind args))
      (inside : ∀ u ∈ args, CoalescesAlike refKind u) : CoalescesAlike refKind (.call name args)

/-- The value comes from the absolute value of an integer beyond 64 signed bits, and nothing around
    it in the term was prepared for a float. -/
inductive Overflows (refKind : ρ → Kind) (lookup : ρ → Value) : Term ρ → Prop
  | beyond {arg : Term ρ} {i : Int} (kind : arg.kindOr refKind .null = .int)
      (value : arg.eval lookup = .int i) (outside : (Value.int i).toInt64? = none) :
      Overflows refKind lookup (.call "abs" [arg])
  | again {arg : Term ρ} (inside : Overflows refKind lookup arg) :
      Overflows refKind lookup (.call "abs" [arg])
  | chosen {before after : List (Term ρ)} {arg : Term ρ}
      (skipped : ∀ u ∈ before, (u.eval lookup).isNull = true)
      (integers : ∀ u ∈ before ++ arg :: after, u.kindOr refKind .null ≠ .float)
      (inside : Overflows refKind lookup arg) :
      Overflows refKind lookup (.call "coalesce" (before ++ arg :: after))

/-- `coalesce` gives the first of its arguments that is not null. -/
theorem eval_coalesce : eval lookup (.call "coalesce" args) =
    ((args.find? fun u => !(u.eval lookup).isNull).map (eval lookup)).getD .null := by
  rw [eval, evalList_eq_map]
  unfold applyFunction
  rw [if_pos rfl, List.find?_map]
  rfl

theorem eval_coalesce_first {before after : List (Term ρ)} {arg : Term ρ}
    (skipped : ∀ u ∈ before, (u.eval lookup).isNull = true)
    (present : (arg.eval lookup).isNull = false) :
    eval lookup (.call "coalesce" (before ++ arg :: after)) = arg.eval lookup := by
  have nulls : before.find? (fun u => !(u.eval lookup).isNull) = none :=
    List.find?_eq_none.mpr fun u earlier => by simp [skipped u earlier]
  simp [eval_coalesce, nulls, present]

theorem kindOr_coalesce (fallback : Kind) (given : args ≠ []) :
    kindOr refKind fallback (.call "coalesce" args) =
      (kindsOf refKind args).foldl Kind.promote .null := by
  have kinds : (kindsOf refKind args).isEmpty = false := by
    rw [kindsOf_eq_map]
    simpa using given
  simp [kindOr, functionKind?, kinds]

/-- An overflown term has an integer's kind and the value of a float. -/
theorem Overflows.kind_int (overflown : Overflows refKind lookup t)
    (alike : t.CoalescesAlike refKind) (fallback : Kind) :
    t.kindOr refKind fallback = .int ∧ ∃ x, t.eval lookup = .float x := by
  induction overflown generalizing fallback with
  | @beyond arg i kind value outside =>
      refine ⟨by rw [kindOr, kindsOf, kindsOf, kind]; rfl, (Binary64.ofInt i).abs, ?_⟩
      simp only [eval, evalList, value]
      exact Value.absolute_of_beyond outside
  | again _ ih =>
      obtain _ | _ | ⟨-, inside⟩ := alike
      obtain ⟨kind, x, value⟩ := ih (inside _ List.mem_cons_self) .null
      refine ⟨by rw [kindOr, kindsOf, kindsOf, kind]; rfl, x.abs, ?_⟩
      simp only [eval, evalList, value]
      rfl
  | @chosen before after arg skipped integers _ ih =>
      obtain _ | _ | ⟨alike, inside⟩ := alike
      have among : arg ∈ before ++ arg :: after := List.mem_append_right _ List.mem_cons_self
      obtain ⟨kind, x, value⟩ := ih (inside arg among) .null
      refine ⟨?_, x, (eval_coalesce_first skipped (by rw [value]; rfl)).trans value⟩
      have holds : Kind.int ∈ kindsOf refKind (before ++ arg :: after) := by
        rw [kindsOf_eq_map]
        exact List.mem_map.mpr ⟨arg, among, kind⟩
      have noFloat : Kind.float ∉ kindsOf refKind (before ++ arg :: after) := by
        rw [kindsOf_eq_map, List.mem_map]
        rintro ⟨u, given, isFloat⟩
        exact integers u given isFloat
      rw [kindOr_coalesce fallback (List.ne_nil_of_mem among)]
      rcases Kind.accepts_iff.mp ((alike rfl).promoted holds) with isInt | isNull | ⟨isFloat, -⟩
      · exact isInt
      · cases isNull
      · exact absurd isFloat (Kind.foldl_promote_ne_float (by decide) noFloat)

/-- `coalesce` is of a kind that accepts its value where its arguments are. -/
theorem coalesce_accepts_or_overflows (alike : Kind.Alike (kindsOf refKind args))
    (inside : ∀ u ∈ args, u.CoalescesAlike refKind)
    (arguments : ∀ u ∈ args, (u.kindOr refKind .null).accepts (u.eval lookup).kind = true ∨
      u.Overflows refKind lookup) (fallback : Kind) :
    (kindOr refKind fallback (.call "coalesce" args)).accepts
        (eval lookup (.call "coalesce" args)).kind = true ∨
      (Term.call "coalesce" args).Overflows refKind lookup := by
  cases found : args.find? (fun u => !(u.eval lookup).isNull) with
  | none =>
      rw [eval_coalesce, found]
      exact .inl (Kind.accepts_null _)
  | some arg =>
      obtain ⟨present, before, after, rfl, earlier⟩ := List.find?_eq_some_iff_append.mp found
      have skipped : ∀ u ∈ before, (u.eval lookup).isNull = true := by simpa using earlier
      have among : arg ∈ before ++ arg :: after := List.mem_append_right _ List.mem_cons_self
      have kinds {u : Term ρ} (given : u ∈ before ++ arg :: after) :
          u.kindOr refKind .null ∈ kindsOf refKind (before ++ arg :: after) := by
        rw [kindsOf_eq_map]
        exact List.mem_map_of_mem given
      rw [eval_coalesce_first skipped (by simpa using present),
        kindOr_coalesce fallback (List.ne_nil_of_mem among)]
      rcases arguments arg among with accepted | overflown
      · exact .inl (Kind.accepts_trans (alike.promoted (kinds among)) accepted)
      · -- Beside a float the kind of the whole is a float, which is right for the value after all.
        by_cases float : ∃ u ∈ before ++ arg :: after, u.kindOr refKind .null = .float
        · obtain ⟨u, given, isFloat⟩ := float
          obtain ⟨-, x, value⟩ := overflown.kind_int (inside arg among) .null
          have accepted := alike.promoted (kinds given)
          rw [isFloat] at accepted
          rw [value]
          exact .inl accepted
        · exact .inr (.chosen skipped (fun u given isFloat => float ⟨u, given, isFloat⟩) overflown)

/-- Only `coalesce` takes other than one argument. -/
theorem applyFunction_eq_null {name : String} {values : List Value}
    (notCoalesce : name ≠ "coalesce") (count : values.length ≠ 1) :
    applyFunction name values = .null := by
  unfold applyFunction
  rw [if_neg notCoalesce]
  match values, count with
  | [], _ => rfl
  | [v], count => exact absurd rfl count
  | v :: w :: rest, _ => cases v <;> rfl

/-- A function of one argument, other than `abs`, is of its kind whatever it is given. -/
theorem applyFunction_accepted {name : String} (notCoalesce : name ≠ "coalesce")
    (notAbs : name ≠ "abs") (k fallback : Kind) (v : Value) :
    ((functionKind? name [k]).getD fallback).accepts (applyFunction name [v]).kind = true := by
  simp only [functionKind?, applyFunction, if_neg notCoalesce, notAbs, false_and, if_false]
  cases v with
  | string s =>
      by_cases text : name = "upper" ∨ name = "lower" ∨ name = "trim"
      · rw [if_pos text]
        rcases text with rfl | rfl | rfl <;> rfl
      · simp only [not_or] at text
        by_cases length : name = "length"
        · subst length
          rfl
        · simp [text, length, Value.kind, Kind.accepts_null]
  | null | bool b | int i | float x | array items | object fields => exact Kind.accepts_null _

/-- The absolute value is of the argument's kind, but for an integer beyond 64 signed bits. -/
theorem abs_accepted {k : Kind} {v : Value} (held : k.accepts v.kind = true) (fallback : Kind) :
    ((functionKind? "abs" [k]).getD fallback).accepts (applyFunction "abs" [v]).kind = true ∨
      k = .int ∧ ∃ i, v = .int i ∧ v.toInt64? = none := by
  cases v with
  | int i =>
      cases fits : (Value.int i).toInt64? with
      | none =>
          rcases Kind.accepts_iff.mp held with rfl | impossible | ⟨rfl, -⟩
          · exact .inr ⟨rfl, i, rfl, rfl⟩
          · cases impossible
          · refine .inl ?_
            show Kind.accepts .float (Value.int i).absolute.kind = true
            rw [Value.absolute_of_beyond fits]
            rfl
      | some j =>
          have value : applyFunction "abs" [.int i] =
              .int (if i = -0x8000000000000000 then i else i.natAbs) :=
            Value.absolute_of_within fits
          rw [value]
          rcases Kind.accepts_iff.mp held with rfl | impossible | ⟨rfl, -⟩
          · exact .inl rfl
          · cases impossible
          · exact .inl rfl
  | float x =>
      rcases Kind.accepts_iff.mp held with rfl | impossible | ⟨-, impossible⟩
      · exact .inl rfl
      · cases impossible
      · cases impossible
  | null | bool b | string s | array items | object fields => exact .inl (Kind.accepts_null _)

/-- A call with one argument is of a kind that accepts its value where its argument is. -/
theorem single_accepts_or_overflows {name : String} {arg : Term ρ} (notCoalesce : name ≠ "coalesce")
    (argument : (arg.kindOr refKind .null).accepts (arg.eval lookup).kind = true ∨
      arg.Overflows refKind lookup) (fallback : Kind) :
    (kindOr refKind fallback (.call name [arg])).accepts (eval lookup (.call name [arg])).kind =
        true ∨ (Term.call name [arg]).Overflows refKind lookup := by
  by_cases abs : name = "abs"
  · subst abs
    rcases argument with accepted | overflown
    · rcases abs_accepted accepted fallback with sound | ⟨kind, i, value, outside⟩
      · exact .inl sound
      · exact .inr (.beyond kind value (value ▸ outside))
    · exact .inr (.again overflown)
  · exact .inl (applyFunction_accepted notCoalesce abs _ fallback _)

/-- A term is of a kind that accepts its value, whatever is expected of it, unless it overflows. -/
theorem accepts_or_overflows (alike : t.CoalescesAlike refKind)
    (held : ∀ r ∈ t.refs, (refKind r).accepts (lookup r).kind = true) (fallback : Kind) :
    (t.kindOr refKind fallback).accepts (t.eval lookup).kind = true ∨
      t.Overflows refKind lookup := by
  -- By induction on the term; arguments are expected to be null, whatever the call is.
  induction alike generalizing fallback with
  | ref r => exact .inl (held r (List.mem_singleton.mpr rfl))
  | literal l =>
      refine .inl ?_
      rcases l with s | i | (x | negative) | b | _ <;> rfl
  | @call name args alike inside ih =>
      have arguments : ∀ u ∈ args, (u.kindOr refKind .null).accepts (u.eval lookup).kind = true ∨
          u.Overflows refKind lookup := fun u given =>
        ih u given (fun r within => held r (mem_refsOfList.mpr ⟨u, given, within⟩)) .null
      by_cases coalesce : name = "coalesce"
      · subst coalesce
        exact coalesce_accepts_or_overflows (alike rfl) inside arguments fallback
      · by_cases single : ∃ arg, args = [arg]
        · obtain ⟨arg, rfl⟩ := single
          exact single_accepts_or_overflows coalesce (arguments arg List.mem_cons_self) fallback
        · have isNull : eval lookup (.call name args) = .null :=
            applyFunction_eq_null coalesce
              (by simpa [evalList_eq_map, List.length_eq_one_iff] using single)
          rw [isNull]
          exact .inl (Kind.accepts_null _)

end Term

def Expression.Overflows (row : Fields) (e : Expression) : Prop :=
  Term.Overflows Column.kind (fun c => (Keyed.get? row c.rowKey).getD .null) e

/-- The kind of a slot accepts the value of its expression unless that overflows; then it is an
    integer's kind, and the value a float. -/
theorem SlotKey.slot_kind_accepts (row : Fields) (e : Expression)
    (alike : e.CoalescesAlike Column.kind)
    (held : ∀ c ∈ e.columns, c.kind.accepts (Expression.eval row (.ref c)).kind = true)
    (ordinal index : Nat) (fallback : Kind) :
    (((expression e).slot ordinal index fallback).kind.accepts (e.eval row).kind = true ↔
        ¬e.Overflows row) ∧
      (e.Overflows row → ((expression e).slot ordinal index fallback).kind = .int ∧
        ∃ x, e.eval row = .float x) := by
  have overflown (overflows : e.Overflows row) :
      ((expression e).slot ordinal index fallback).kind = .int ∧ ∃ x, e.eval row = .float x :=
    Term.Overflows.kind_int overflows alike fallback
  refine ⟨⟨fun accepted overflows => ?_, fun apart => ?_⟩, overflown⟩
  · obtain ⟨kind, x, value⟩ := overflown overflows
    rw [kind, value] at accepted
    cases accepted
  · exact (Term.accepts_or_overflows alike held fallback).resolve_right apart

/-- An integer column under `abs`. -/
def Sample.magnitude : Expression := .call "abs" [.ref ⟨"t", "n", .int⟩]

theorem Sample.magnitude_coalescesAlike : magnitude.CoalescesAlike Column.kind :=
  .call nofun (List.forall_mem_singleton.mpr (.ref _))

theorem SlotKey.slot_kind_accepts_magnitude :
    Sample.magnitude.CoalescesAlike Column.kind ∧
      (∀ c ∈ Sample.magnitude.columns,
        c.kind.accepts (Expression.eval [("t.n", .int (-5))] (.ref c)).kind = true) ∧
      ¬Sample.magnitude.Overflows [("t.n", .int (-5))] := by
  have alike := Sample.magnitude_coalescesAlike
  have held : ∀ c ∈ Sample.magnitude.columns,
      c.kind.accepts (Expression.eval [("t.n", .int (-5))] (.ref c)).kind = true :=
    List.forall_mem_singleton.mpr (by decide)
  exact ⟨alike, held,
    (slot_kind_accepts [("t.n", .int (-5))] Sample.magnitude alike held 1 0 .null).1.mp (by decide)⟩

/-- A row with an integer that takes 64 bits without a sign. -/
def Sample.unsigned : Fields := [("t.n", .int 0x8000000000000000)]

/-- Its absolute value does not stay an integer. -/
theorem SlotKey.slot_kind_refuses_magnitude :
    Sample.magnitude.CoalescesAlike Column.kind ∧
      (∀ c ∈ Sample.magnitude.columns,
        c.kind.accepts (Expression.eval Sample.unsigned (.ref c)).kind = true) ∧
      Sample.magnitude.eval Sample.unsigned = .float (Binary64.ofInt 0x8000000000000000) ∧
      ((expression Sample.magnitude).slot 1 0 .null).kind = .int ∧
      Kind.accepts .int (Sample.magnitude.eval Sample.unsigned).kind = false := by
  refine ⟨Sample.magnitude_coalescesAlike, List.forall_mem_singleton.mpr (by decide), rfl, rfl, ?_⟩
  decide

end EntityQuery
