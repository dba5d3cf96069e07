import EntityQuery.Proofs.Compilation.Translation

/-! # Blocks elsewhere in a statement

The alias of its table is all that the columns of a block know of the place where the block stands.
Selections that name nothing but the root of their block ask for the same columns everywhere, each
under the alias of the table there.
-/

namespace EntityQuery

namespace Term

variable {ρ σ τ : Type}

mutual

/-- The term with other references in the places of its own. -/
def mapRefs (f : ρ → σ) : Term ρ → Term σ
  | .ref r => .ref (f r)
  | .literal l => .literal l
  | .call name args => .call name (mapRefsOfList f args)

def mapRefsOfList (f : ρ → σ) : List (Term ρ) → List (Term σ)
  | [] => []
  | t :: rest => t.mapRefs f :: mapRefsOfList f rest

end

mutual

@[simp] theorem mapRefs_mapRefs (f : ρ → σ) (g : σ → τ) (t : Term ρ) :
    (t.mapRefs f).mapRefs g = t.mapRefs (g ∘ f) := by
  cases t with
  | ref r | literal l => rfl
  | call name args => simp only [mapRefs, mapRefsOfList_mapRefsOfList f g args]
termination_by sizeOf t

theorem mapRefsOfList_mapRefsOfList (f : ρ → σ) (g : σ → τ) (args : List (Term ρ)) :
    mapRefsOfList g (mapRefsOfList f args) = mapRefsOfList (g ∘ f) args := by
  cases args with
  | nil => rfl
  | cons t rest =>
      simp only [mapRefsOfList, mapRefs_mapRefs f g t, mapRefsOfList_mapRefsOfList f g rest]
termination_by sizeOf args

end

mutual

theorem identity_mapRefs (f : ρ → σ) (t : Term ρ) :
    (t.mapRefs f).identity = t.identity.mapRefs f := by
  cases t with
  | ref r | literal l => rfl
  | call name args => simp only [mapRefs, identity, identityOfList_mapRefsOfList f args]
termination_by sizeOf t

theorem identityOfList_mapRefsOfList (f : ρ → σ) (args : List (Term ρ)) :
    identityOfList (mapRefsOfList f args) = mapRefsOfList f (identityOfList args) := by
  cases args with
  | nil => rfl
  | cons t rest =>
      simp only [mapRefsOfList, identityOfList, identity_mapRefs f t,
        identityOfList_mapRefsOfList f rest]
termination_by sizeOf args

end

mutual

/-- The value of a term with other references, if these have the values of the ones they stand
    for. -/
theorem eval_mapRefs {f : ρ → σ} {lookup : ρ → Value} {lookup' : σ → Value} {t : Term ρ}
    (same : ∀ r ∈ (t.mapRefs f).refs, ∀ r₀, r = f r₀ → lookup' r = lookup r₀) :
    (t.mapRefs f).eval lookup' = t.eval lookup := by
  cases t with
  | ref r => exact same (f r) List.mem_cons_self r rfl
  | literal l => rfl
  | call name args =>
      rw [mapRefs, eval, eval, evalList_mapRefsOfList same]
termination_by sizeOf t

theorem evalList_mapRefsOfList {f : ρ → σ} {lookup : ρ → Value} {lookup' : σ → Value}
    {args : List (Term ρ)}
    (same : ∀ r ∈ refsOfList (mapRefsOfList f args), ∀ r₀, r = f r₀ → lookup' r = lookup r₀) :
    evalList lookup' (mapRefsOfList f args) = evalList lookup args := by
  cases args with
  | nil => rfl
  | cons t rest =>
      rw [mapRefsOfList, refsOfList] at same
      rw [mapRefsOfList, evalList, evalList,
        eval_mapRefs fun r own => same r (List.mem_append_left _ own),
        evalList_mapRefsOfList fun r later => same r (List.mem_append_right _ later)]
termination_by sizeOf args

end

end Term

/-- The same column of a table that goes by another alias. -/
def Column.movedTo (qualifier : String) (c : Column) : Column := { c with qualifier := qualifier }

def Expression.movedTo (qualifier : String) (e : Expression) : Expression :=
  Term.mapRefs (Column.movedTo qualifier) e

theorem Expression.movedTo_movedTo (a b : String) (e : Expression) :
    movedTo b (movedTo a e) = movedTo b e := Term.mapRefs_mapRefs _ _ e

/-- Expressions without a table of their own are the same ones wherever they move. -/
theorem Expression.same_movedTo {e other : Expression} (qualifier : String)
    (bare : movedTo "" e = e) (bare' : movedTo "" other = other) :
    (movedTo qualifier e).same (movedTo qualifier other) = e.same other := by
  have back : ∀ t : Expression, movedTo "" t = t →
      t.identity = movedTo "" (movedTo qualifier t).identity := by
    intro t bare
    have moved : movedTo "" (movedTo qualifier t) = t := (movedTo_movedTo ..).trans bare
    rw [movedTo, ← Term.identity_mapRefs]
    exact congrArg Term.identity moved.symm
  apply Bool.eq_iff_iff.mpr
  simp only [same, decide_eq_true_eq]
  constructor
  · intro moved
    rw [back e bare, back other bare', moved]
  · intro identical
    rw [movedTo, movedTo, Term.identity_mapRefs, Term.identity_mapRefs, identical]

/-- Requests that stay apart under a map are mapped one by one. -/
theorem foldl_withRequest_map {f : Expression → Expression} {p : Expression → Prop}
    (apart : ∀ a b, p a → p b → (f a).same (f b) = a.same b) {requests : List Expression}
    (each : ∀ e ∈ requests, p e) {columns : List Expression} (before : ∀ e ∈ columns, p e) :
    (requests.map f).foldl withRequest (columns.map f) =
      (requests.foldl withRequest columns).map f := by
  induction requests generalizing columns with
  | nil => rfl
  | cons e rest ih =>
      have own : p e := each e List.mem_cons_self
      have known : (columns.map f).any (·.same (f e)) = columns.any (·.same e) := by
        rw [List.any_map, Bool.eq_iff_iff, List.any_eq_true, List.any_eq_true]
        exact exists_congr fun c => and_congr_right fun inside =>
          iff_of_eq (congrArg (· = true) (apart c e (before c inside) own))
      have step : withRequest (columns.map f) (f e) = (withRequest columns e).map f := by
        rw [withRequest, known, withRequest]
        split <;> simp
      rw [List.map_cons, List.foldl_cons, List.foldl_cons, step]
      refine ih (fun e' inside => each e' (List.mem_cons_of_mem _ inside)) ?_
      intro c inside
      rw [withRequest] at inside
      split at inside
      · exact before c inside
      · rcases List.mem_append.mp inside with old | new
        · exact before c old
        · exact List.mem_singleton.mp new ▸ own

/-- The operand names no other alias. -/
def Operand.NamesOnly (aliasName : String) (t : Operand) : Prop :=
  ∀ path ∈ t.refs, path.aliasName = aliasName

/-- The scope of an alias by itself, with a table that goes by no name. -/
def Scope.bare (aliasName : String) (e : Entity) : Scope :=
  Scope.within [] aliasName e ⟨e.table, ""⟩

namespace Scope

variable {aliasName : String} (outer : Scope) (registry : ConverterRegistry) (e : Entity)
  (table : TableRef)

theorem resolve?_within_own :
    (outer.within aliasName e table).resolve? aliasName = some ⟨e, table⟩ := by
  simp [within, resolve?, Keyed.get?]

mutual

theorem expression?_within {t : Operand} (own : t.NamesOnly aliasName) :
    (outer.within aliasName e table).expression? registry t =
      ((bare aliasName e).expression? registry t).map (Expression.movedTo table.aliasName) := by
  cases t with
  | ref path =>
      cases own path List.mem_cons_self
      simp only [expression?, column?, bare, resolve?_within_own, Option.bind_some, Option.map_map]
      rfl
  | literal l => rfl
  | call name args =>
      simp only [expression?, expressions?_within own, Option.map_map]
      rfl
termination_by sizeOf t

theorem expressions?_within {args : List Operand}
    (own : ∀ path ∈ Term.refsOfList args, path.aliasName = aliasName) :
    (outer.within aliasName e table).expressions? registry args =
      ((bare aliasName e).expressions? registry args).map
        (Term.mapRefsOfList (Column.movedTo table.aliasName)) := by
  cases args with
  | nil => rfl
  | cons t rest =>
      rw [Term.refsOfList] at own
      have first := expression?_within fun path inside => own path (List.mem_append_left _ inside)
      have others := expressions?_within
        fun path inside => own path (List.mem_append_right _ inside)
      rw [expressions?, expressions?, first, others]
      cases (bare aliasName e).expression? registry t with
      | none => rfl
      | some e' =>
          cases (bare aliasName e).expressions? registry rest with
          | none => rfl
          | some es => rfl
termination_by sizeOf args

end

/-- What selections ask for in a block, they ask for everywhere. -/
theorem requests_within {t : Operand} (own : t.NamesOnly aliasName) :
    (outer.within aliasName e table).requests registry t =
      ((bare aliasName e).requests registry t).map (Expression.movedTo table.aliasName) := by
  cases t with
  | ref path =>
      cases own path List.mem_cons_self
      simp only [requests, bare, resolve?_within_own, List.map_flatMap]
      apply List.flatMap_congr
      rintro ⟨inner, leaf⟩ -
      cases leaf with
      | basic a | transient kind => rfl
  | literal l | call name args =>
      rw [requests, requests, expression?_within outer registry e table own]
      · cases (bare aliasName e).expression? registry _ <;> rfl
      all_goals simp

theorem movedTo_requests_bare {t : Operand} (own : t.NamesOnly aliasName) :
    ∀ column ∈ (bare aliasName e).requests registry t, Expression.movedTo "" column = column := by
  have fixed : ((bare aliasName e).requests registry t).map (Expression.movedTo "") =
      ((bare aliasName e).requests registry t).map id := by
    rw [List.map_id]
    exact (requests_within [] registry e ⟨e.table, ""⟩ own).symm
  exact List.map_inj_left.mp fixed

/-- The columns that selections ask for, each once and without a table of its own. -/
def bareColumns (aliasName : String) (selections : List Selection) : List Expression :=
  (selections.flatMap fun selection =>
    (bare aliasName e).requests registry selection.operand).foldl withRequest []

/-- Selections have the same columns everywhere, but for the alias of the table. -/
theorem columns_within {selections : List Selection}
    (own : ∀ selection ∈ selections, selection.operand.NamesOnly aliasName) :
    (selections.flatMap fun selection =>
        (outer.within aliasName e table).requests registry selection.operand).foldl
        withRequest [] =
      (bareColumns registry e aliasName selections).map (Expression.movedTo table.aliasName) := by
  have bare : ∀ column ∈ selections.flatMap fun selection =>
      (bare aliasName e).requests registry selection.operand,
      Expression.movedTo "" column = column := by
    intro column inside
    obtain ⟨selection, member, requested⟩ := List.mem_flatMap.mp inside
    exact movedTo_requests_bare registry e (own selection member) column requested
  have moved : (selections.flatMap fun selection =>
      (outer.within aliasName e table).requests registry selection.operand) =
        (selections.flatMap fun selection =>
          (Scope.bare aliasName e).requests registry selection.operand).map
            (Expression.movedTo table.aliasName) := by
    rw [List.map_flatMap]
    exact List.flatMap_congr fun selection member =>
      requests_within outer registry e table (own selection member)
  have start : ∀ column ∈ ([] : List Expression), Expression.movedTo "" column = column := by simp
  rw [moved]
  exact foldl_withRequest_map (fun _ _ => Expression.same_movedTo table.aliasName) bare start

end Scope

end EntityQuery
