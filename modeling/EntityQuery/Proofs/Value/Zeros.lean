import EntityQuery.Relational.Expression

/-! # Zeros without a sign

Slots are recognised by expressions in which zeros have no sign. `Value.unsignedZeros` is the view
of values that goes with that: expressions with the same slot have values that look alike in it.
-/

namespace EntityQuery

namespace Keyed

variable {α β : Type}

def mapValues (f : α → β) (entries : Keyed α) : Keyed β := entries.map fun entry => (entry.1, f entry.2)

theorem mapValues_insert (f : α → β) (entries : Keyed α) (key : String) (value : α) :
    mapValues f (insert entries key value) = insert (mapValues f entries) key (f value) := by
  induction entries with
  | nil => rfl
  | cons entry rest ih =>
      obtain ⟨name, old⟩ := entry
      simp only [mapValues, insert, List.map_cons] at ih ⊢
      split
      · rfl
      · split
        · rfl
        · rw [List.map_cons, ih]

theorem mapValues_ofList (f : α → β) (entries : List (String × α)) :
    mapValues f (ofList entries) = ofList (mapValues f entries) := by
  have fromAny : ∀ start : Keyed α,
      mapValues f (entries.foldl (fun m e => insert m e.1 e.2) start) =
        (mapValues f entries).foldl (fun m e => insert m e.1 e.2) (mapValues f start) := by
    induction entries with
    | nil => intro start; rfl
    | cons entry rest ih =>
        intro start
        rw [List.foldl_cons, ih, mapValues_insert]
        rfl
  exact fromAny []

end Keyed

namespace Value

mutual

/-- The value in which no zero has a sign. -/
def unsignedZeros : Value → Value
  | .float x => .ofExtended (Binary64.Extended.finite x).unsignedZero
  | .array items => .array (unsignedZerosOfItems items)
  | .object fields => .object (unsignedZerosOfFields fields)
  | v => v

def unsignedZerosOfItems : List Value → List Value
  | [] => []
  | v :: rest => v.unsignedZeros :: unsignedZerosOfItems rest

def unsignedZerosOfFields : List (String × Value) → List (String × Value)
  | [] => []
  | (name, v) :: rest => (name, v.unsignedZeros) :: unsignedZerosOfFields rest

end

theorem unsignedZeros_float (x : Binary64) :
    (float x).unsignedZeros = .float (if x.units = 0 then ⟨false, 0⟩ else x) := by
  rw [unsignedZeros]
  rfl

theorem unsignedZeros_array (items : List Value) :
    (array items).unsignedZeros = .array (items.map unsignedZeros) := by
  rw [unsignedZeros]
  congr 1
  induction items with
  | nil => rfl
  | cons v rest ih => rw [unsignedZerosOfItems, ih, List.map_cons]

theorem unsignedZeros_object (fields : Fields) :
    (object fields).unsignedZeros = .object (Keyed.mapValues unsignedZeros fields) := by
  rw [unsignedZeros]
  congr 1
  induction fields with
  | nil => rfl
  | cons field rest ih =>
      rw [unsignedZerosOfFields, ih]
      rfl

mutual

theorem unsignedZeros_twice (v : Value) : v.unsignedZeros.unsignedZeros = v.unsignedZeros := by
  cases v with
  | null | bool b | int i | string s => simp only [unsignedZeros]
  | float x =>
      rw [unsignedZeros_float, unsignedZeros_float]
      split <;> simp_all
  | array items => simp only [unsignedZeros, unsignedZerosOfItems_twice items]
  | object fields => simp only [unsignedZeros, unsignedZerosOfFields_twice fields]
termination_by sizeOf v

theorem unsignedZerosOfItems_twice (items : List Value) :
    unsignedZerosOfItems (unsignedZerosOfItems items) = unsignedZerosOfItems items := by
  cases items with
  | nil => rfl
  | cons v rest =>
      simp only [unsignedZerosOfItems, unsignedZeros_twice v, unsignedZerosOfItems_twice rest]
termination_by sizeOf items

theorem unsignedZerosOfFields_twice (fields : List (String × Value)) :
    unsignedZerosOfFields (unsignedZerosOfFields fields) = unsignedZerosOfFields fields := by
  cases fields with
  | nil => rfl
  | cons field rest =>
      obtain ⟨name, v⟩ := field
      simp only [unsignedZerosOfFields, unsignedZeros_twice v, unsignedZerosOfFields_twice rest]
termination_by sizeOf fields

end

@[simp] theorem isNull_unsignedZeros (v : Value) : v.unsignedZeros.isNull = v.isNull := by
  cases v <;> simp [unsignedZeros, isNull, ofExtended, Binary64.Extended.unsignedZero]

theorem absolute_unsignedZeros (v : Value) : v.unsignedZeros.absolute = v.absolute := by
  cases v with
  | null | bool b | int i | string s => simp only [unsignedZeros]
  | array items => rw [unsignedZeros_array]; rfl
  | object fields => rw [unsignedZeros_object]; rfl
  | float x =>
      rw [unsignedZeros_float]
      split
      · next zero => simp [absolute, toInt64?, toBinary64?, Binary64.abs, zero]
      · rfl

end Value

theorem applyFunction_several {name : String} (other : name ≠ "coalesce") (v w : Value)
    (rest : List Value) : applyFunction name (v :: w :: rest) = .null := by
  simp only [applyFunction, if_neg other]

/-- The sign of a zero among the arguments matters at most to the sign of a zero in the value of a
    function. -/
theorem applyFunction_unsignedZeros (name : String) (args : List Value) :
    (applyFunction name (args.map Value.unsignedZeros)).unsignedZeros =
      (applyFunction name args).unsignedZeros := by
  by_cases coalesce : name = "coalesce"
  · simp only [applyFunction, if_pos coalesce]
    rw [List.find?_map]
    have sameTest : (fun v : Value => !v.isNull) ∘ Value.unsignedZeros = fun v => !v.isNull := by
      funext v
      simp
    rw [sameTest]
    cases args.find? (fun v => !v.isNull) with
    | none => rfl
    | some v => exact v.unsignedZeros_twice
  · match args with
    | [] => rfl
    | v :: w :: rest =>
        rw [List.map_cons, List.map_cons, applyFunction_several coalesce,
          applyFunction_several coalesce]
    | [v] =>
        simp only [applyFunction, if_neg coalesce]
        cases v with
        | string s => simp only [List.map_cons, List.map_nil, Value.unsignedZeros]
        | null | bool b | int i => simp only [List.map_cons, List.map_nil, Value.unsignedZeros]
        | float x =>
            have same := Value.absolute_unsignedZeros (.float x)
            rw [Value.unsignedZeros_float] at same
            simp only [List.map_cons, List.map_nil, Value.unsignedZeros_float, same]
        | array items => simp only [List.map_cons, List.map_nil, Value.unsignedZeros_array]; rfl
        | object fields => simp only [List.map_cons, List.map_nil, Value.unsignedZeros_object]; rfl

theorem applyFunction_congr_unsignedZeros {name : String} {args others : List Value}
    (alike : args.map Value.unsignedZeros = others.map Value.unsignedZeros) :
    (applyFunction name args).unsignedZeros = (applyFunction name others).unsignedZeros := by
  rw [← applyFunction_unsignedZeros name args, alike, applyFunction_unsignedZeros]

theorem Literal.toValue_identity (l : Literal) : l.identity.toValue = l.toValue.unsignedZeros := by
  cases l with
  | string s | int i | bool b | null => simp only [identity, toValue, Value.unsignedZeros]
  | float x =>
      cases x with
      | finite x => simp only [identity, toValue, Value.ofExtended, Value.unsignedZeros]
      | infinite negative => rfl

mutual

/-- The term that recognises a slot has the value of the term, up to the signs of zeros. -/
theorem Term.eval_identity {ρ : Type} (lookup : ρ → Value) (t : Term ρ) :
    (t.identity.eval lookup).unsignedZeros = (t.eval lookup).unsignedZeros := by
  cases t with
  | ref r => rfl
  | literal l =>
      rw [identity, eval, eval, Literal.toValue_identity]
      exact l.toValue.unsignedZeros_twice
  | call name args =>
      rw [identity, eval, eval]
      exact applyFunction_congr_unsignedZeros (evalList_identity lookup args)
termination_by sizeOf t

theorem Term.evalList_identity {ρ : Type} (lookup : ρ → Value) (args : List (Term ρ)) :
    (evalList lookup (identityOfList args)).map Value.unsignedZeros =
      (evalList lookup args).map Value.unsignedZeros := by
  cases args with
  | nil => rfl
  | cons t rest =>
      simp only [identityOfList, evalList, List.map_cons, eval_identity lookup t,
        evalList_identity lookup rest]
termination_by sizeOf args

end

/-- Expressions that are recognised as the same one have the same value, up to the signs of
    zeros. -/
theorem Expression.eval_congr_identity {e other : Expression} (row : Fields)
    (same : e.identity = other.identity) :
    (e.eval row).unsignedZeros = (other.eval row).unsignedZeros := by
  rw [eval, eval, ← Term.eval_identity, same, Term.eval_identity]

end EntityQuery
