import EntityQuery.Proofs.Meaning.Restrictions
import EntityQuery.Proofs.Meaning.Results

/-! # Listing is evaluating

The results that an engine lists for a query it accepts are those of the query evaluated on the
stored rows. Selected expressions that differ only in the signs of zeros share a slot, so the
results agree up to these signs, and exactly where no selected operand holds a negative zero.
-/

namespace EntityQuery

variable {d : Domain} {q : Query} {compiled : CompiledSelect} {tables : Tables}
  {usage usage' : Option ColumnUsage}

/-- How the select list of an accepted query came about. -/
theorem Query.compile_selected (accepted : q.compile d = .ok compiled) :
    ∃ e st, d.model.entity? q.root.entity = some e ∧
      selectEach d (Scope.within [] q.root.aliasName e (CompileState.newTable {} d.config e))
        q.selected
        (.start 0 (CompileState.newTable {} d.config e) CompileState.listening.withBlock) =
        .ok (compiled.results, st) ∧
      compiled.block.table = CompileState.newTable {} d.config e ∧
      compiled.block.select = st.resolver.block.select ∧
      compiled.slots = st.resolver.block.select ∧
      st.state.usage.Within compiled.usage := by
  obtain ⟨block, s, ok, rfl⟩ := Query.compile_ok accepted
  cases q with
  | mk root selections restriction orderings limit offset =>
      obtain ⟨e, results, st, predicate, s₁, keys, -, known, selected, restricted, ordered, rfl⟩ :=
        compileBlock_ok ok
      have leads := selectEach_leads (fun selection member => member) selected
      refine ⟨e, st, known, selected, leads.table, rfl, ?_, ?_⟩
      · -- What the nested blocks leave on the channel is not heard.
        have heard : s.announcements.heard = st.resolver.block.select.map (((), ·)) := by
          rw [compileBlock_after [] ok]
          exact congrArg Channel.heard (Channel.announceAll_heard rfl _)
        simp [heard, Function.comp_def]
      · exact (compileOptional_grows restricted).usage.trans (compileOrderings_grows ordered).usage

theorem Query.runBlock_compiled (accepted : q.compile d = .ok compiled)
    (covers : Covers usage compiled.usage) :
    runBlock tables usage [] compiled.block =
      (solutions d tables [] q).map fun found => found.2.map (compiled.block.resultRow usage []) := by
  obtain ⟨block, s, ok, rfl⟩ := Query.compile_ok accepted
  exact runBlock_solutions ok covers (.empty _ _)

/-- The row under evaluation of the outermost block holds the stored row. -/
theorem represents_outermost {config : Config} {aliasName : String} {e : Entity} (source : Row) :
    Represents usage 1 (Scope.within [] aliasName e (CompileState.newTable {} config e))
      [⟨aliasName, e, source⟩] (scanRow usage (CompileState.newTable {} config e) [] source) :=
  (Represents.empty usage 0).enter config aliasName e source (s := {})

/-- The result row for a stored row does not depend on the columns that scans take over beyond the
    recorded ones. -/
theorem Query.resultRow_settled (accepted : q.compile d = .ok compiled)
    (covers : Covers usage compiled.usage) (covers' : Covers usage' compiled.usage)
    (source : Row) :
    compiled.block.resultRow usage [] source = compiled.block.resultRow usage' [] source := by
  obtain ⟨e, st, -, selected, table, select, -, within⟩ := Query.compile_selected accepted
  have selecting : Selecting d _ q.selected st :=
    (selectEach_leads (fun selection member => member) selected).selecting (.start _ _ _)
  unfold BlockOf.resultRow
  rw [table, select]
  apply List.map_congr_left
  intro column member
  exact (selecting.requested column member).settled (covers.mono within) (covers'.mono within)
    (represents_outermost source) (represents_outermost source)

/-- A view suits a query if it treats all columns and all compiled operands of selections alike. -/
structure View.Suits {wanted : Expression → Prop} (_ : View wanted) (d : Domain)
    (q : Query) : Prop where
  column : ∀ c, wanted (.ref c)
  operand : ∀ selection ∈ q.selected, ∀ {scope : Scope} {s s' : CompileState} {e : Expression},
    compileExpression d scope .select selection.operand s = .ok (e, s') → wanted e

section Viewed

variable {wanted : Expression → Prop} {view : View wanted}

theorem View.Suits.requested {scope : Scope} {recorded : ColumnUsage} {e : Expression}
    (suits : view.Suits d q) (requested : Requested d scope q.selected recorded e) : wanted e := by
  cases requested with
  | column a resolved has => exact suits.column _
  | operand member compiled within => exact suits.operand _ member compiled

theorem Query.readRow_assembled (accepted : q.compile d = .ok compiled) (suits : view.Suits d q)
    (covers : Covers usage compiled.usage) {e : Entity}
    (known : d.model.entity? q.root.entity = some e) (source : Row) :
    (readRow compiled.slots compiled.results
        (compiled.block.resultRow usage [] source)).map view.see =
      (Environment.assembled [⟨q.root.aliasName, e, source⟩] d.registry q.selected).map
        view.see := by
  obtain ⟨e', st, known', selected, table, select, slots, within⟩ := Query.compile_selected accepted
  have same : e' = e := Option.some.inj (known'.symm.trans known)
  subst same
  have selecting : Selecting d _ q.selected st :=
    (selectEach_leads (fun selection member => member) selected).selecting (.start _ _ _)
  have slotsWanted : ∀ e ∈ resultColumns st.resolver.block.select, wanted e :=
    fun e member => suits.requested (selecting.requested e member)
  unfold BlockOf.resultRow
  rw [table, select, slots]
  exact EntityQuery.readRow_assembled view (fun selection member => member) (.start _ _ _)
    selected (covers.mono within) (represents_outermost source) (selecting.ordered.spread _)
    (List.prefix_refl _) slotsWanted (fun selection member => suits.operand selection member)

/-- The result rows for stored rows read as the results for these rows. -/
theorem Query.readRows_results (accepted : q.compile d = .ok compiled) (suits : view.Suits d q)
    (covers : Covers usage compiled.usage) {e : Entity}
    (known : d.model.entity? q.root.entity = some e) (sources : List Row) :
    (Engine.readRows compiled.slots compiled.results
        (sources.map (compiled.block.resultRow usage []))).map (List.map view.see) =
      (resultsFor d.registry q.selected
        (sources.map fun source => [⟨q.root.aliasName, e, source⟩])).map (List.map view.see) := by
  induction sources with
  | nil => rfl
  | cons source rest ih =>
      exact map_cons_congr (Query.readRow_assembled accepted suits covers known source) ih

end Viewed

namespace Engine

theorem map_converting {α β : Type} (f : α → β) (x : Except ConversionError α) :
    (converting x).map f = converting (x.map f) := by
  cases x <;> rfl

theorem converting_eq_ok {α : Type} {x : Except ConversionError α} {a : α} :
    converting x = .ok a ↔ x = .ok a := by
  cases x <;> simp [converting]

/-- Whether scans are reduced or not, they take over all recorded columns. -/
theorem pruning_covers (engine : Engine) (recorded : ColumnUsage) :
    Covers (engine.pruning recorded) recorded := by
  unfold pruning
  split
  · exact covers_self recorded
  · exact covers_none recorded

variable {engine : Engine} {wanted : Expression → Prop} {view : View wanted}

/-- In every view that suits a query, listing it and evaluating it look alike. -/
theorem list_viewed (accepted : q.compile engine.domain = .ok compiled)
    (suits : view.Suits engine.domain q) :
    (engine.list q).map (List.map view.see) = (engine.evaluate q).map (List.map view.see) := by
  have covers := engine.pruning_covers compiled.usage
  unfold list evaluate Store.select Query.evaluate
  rw [accepted]
  simp only [compiling, ok_bind]
  cases engine.store.access with
  | error failure => rfl
  | ok tables =>
      simp only [ok_bind, Query.runBlock_compiled accepted covers]
      cases found : solutions engine.domain tables [] q with
      | error failure => rfl
      | ok result =>
          obtain ⟨e, rows⟩ := result
          have known := solutions_entity found
          show (converting (readRows _ _ _)).map (List.map view.see) =
            (converting (resultsFor _ _ _)).map (List.map view.see)
          rw [map_converting, map_converting]
          exact congrArg converting (Query.readRows_results accepted suits covers known rows)

end Engine

mutual

theorem compileOperand_identity {scope : Scope} {clause : Clause} {t : Operand}
    {s s' : CompileState} {e : Expression} {converter : Option Converter}
    (compiled : compileOperand d scope clause t s = .ok ((e, converter), s'))
    (unsigned : t.identity = t) : e.identity = e := by
  cases t with
  | ref path =>
      rw [compileOperand] at compiled
      obtain ⟨binding, a, -, -, -, rfl, -⟩ := compilePath_ok compiled
      rfl
  | literal l =>
      rw [compileOperand] at compiled
      cases compiled
      simpa [Term.identity] using unsigned
  | call name args =>
      obtain ⟨es, each, rfl, -⟩ := compileOperand_call_ok compiled
      have unsignedArgs : Term.identityOfList args = args := by simpa [Term.identity] using unsigned
      rw [Term.identity, compileOperands_identity each unsignedArgs]
termination_by sizeOf t

theorem compileOperands_identity {scope : Scope} {clause : Clause} {args : List Operand}
    {s s' : CompileState} {es : List Expression}
    (compiled : compileOperands d scope clause args s = .ok (es, s'))
    (unsigned : Term.identityOfList args = args) : Term.identityOfList es = es := by
  cases args with
  | nil =>
      rw [compileOperands] at compiled
      cases compiled
      rfl
  | cons t rest =>
      obtain ⟨e, converter, s₁, others, first, each, rfl⟩ := compileOperands_cons_ok compiled
      simp only [Term.identityOfList, List.cons.injEq] at unsigned ⊢
      exact ⟨compileOperand_identity first unsigned.1, compileOperands_identity each unsigned.2⟩
termination_by sizeOf args

end

theorem View.zeros_suits (d : Domain) (q : Query) : View.zeros.Suits d q :=
  ⟨fun _ => trivial, fun _ _ _ _ _ _ _ => trivial⟩

/-- Values can be taken as they are where no selected operand holds a negative zero. -/
theorem View.plain_suits (d : Domain)
    (unsigned : ∀ selection ∈ q.selections, selection.operand.identity = selection.operand) :
    View.plain.Suits d q where
  column := fun _ => rfl
  operand := by
    intro selection member scope s s' e compiled
    obtain ⟨converter, operand⟩ := compileExpression_ok compiled
    apply compileOperand_identity operand
    unfold QueryOf.selected at member
    split at member
    · rw [List.mem_singleton.mp member]
      rfl
    · exact unsigned selection member

namespace Engine

variable {engine : Engine}

theorem list_evaluate_plain (accepted : q.compile engine.domain = .ok compiled)
    (unsigned : ∀ selection ∈ q.selections, selection.operand.identity = selection.operand) :
    engine.list q = engine.evaluate q := by
  have same := list_viewed accepted (View.plain_suits engine.domain unsigned)
  simpa [View.plain, Except.map_id] using same

/-- Compilation preserves meaning: what an engine lists for a query it accepts is the query
    evaluated on the stored rows, up to the signs of zeros, and exactly unless a selected operand
    holds a negative zero. -/
theorem list_evaluate (accepted : q.compile engine.domain = .ok compiled) :
    (engine.list q).map (List.map Value.unsignedZeros) =
        (engine.evaluate q).map (List.map Value.unsignedZeros) ∧
      ((∀ selection ∈ q.selections, selection.operand.identity = selection.operand) →
        engine.list q = engine.evaluate q) :=
  ⟨list_viewed accepted (View.zeros_suits engine.domain q), list_evaluate_plain accepted⟩

end Engine

namespace Sample

/-- People with an address; whether somebody is active is stored as a number. -/
def person : Entity where
  name := "Person"
  table := "people"
  attributes :=
    [("id", .basic { column := "id", kind := .int }),
      ("active", .basic { column := "active", kind := .bool, converter := some "boolean_int" }),
      ("address", .embedded
        [("city", .basic { column := "city", kind := .string }), ("label", .transient .string)])]

/-- An engine with three people, of whom one has no city. -/
def people : Engine where
  domain := { model := ⟨[("Person", person)]⟩, registry := .standard, config := {} }
  store :=
    { tables := [("people",
        [[("active", .int 1), ("city", .string "Turin"), ("id", .int 1)],
          [("active", .int 0), ("city", .string "Turin"), ("id", .int 2)],
          [("active", .int 1), ("id", .int 3)]])] }

/-- The active people who share their city with somebody else. -/
def neighbours : Query where
  root := ⟨"Person", "p"⟩
  selections :=
    [{ operand := .call "Upper" [.ref ⟨"p", ["address", "city"]⟩], aliasName := some "town" },
      { operand := .ref ⟨"p", []⟩, aliasName := some "who" }]
  restriction := some (.and
    [.compare (.ref ⟨"p", ["active"]⟩) .eq (.literal (.bool true)),
      .existsQuery
        { root := ⟨"Person", "other"⟩
          restriction := some (.and
            [.compare (.ref ⟨"other", ["address", "city"]⟩) .eq (.ref ⟨"p", ["address", "city"]⟩),
              .compare (.ref ⟨"other", []⟩) .ne (.ref ⟨"p", []⟩)]) } false])
  orderings := [{ operand := .ref ⟨"town", []⟩, ascending := false }]

/-- Both zeros, selected for the first person. -/
def zeros : Query where
  root := ⟨"Person", "p"⟩
  selections :=
    [{ operand := .literal (.float (.finite ⟨false, 0⟩)) },
      { operand := .literal (.float (.finite ⟨true, 0⟩)) }]
  restriction := some (.compare (.ref ⟨"p", ["id"]⟩) .eq (.literal (.int 1)))

end Sample

theorem Engine.list_evaluate_neighbours :
    (Sample.neighbours.compile Sample.people.domain).isOk = true ∧
      (∀ selection ∈ Sample.neighbours.selections,
        selection.operand.identity = selection.operand) ∧
      Sample.people.list Sample.neighbours = Sample.people.evaluate Sample.neighbours := by
  have plain : ∀ selection ∈ Sample.neighbours.selections,
      selection.operand.identity = selection.operand := by decide
  refine ⟨by decide +kernel, plain, ?_⟩
  obtain ⟨compiled, accepted⟩ :
      ∃ compiled, Sample.neighbours.compile Sample.people.domain = .ok compiled :=
    isOk_iff.mp (by decide +kernel)
  exact (Engine.list_evaluate accepted).2 plain

/-- Two zeros share a slot, and both read as the one that was selected first. -/
theorem Engine.list_ne_evaluate_zeros :
    (Sample.zeros.compile Sample.people.domain).isOk = true ∧
      Sample.people.list Sample.zeros ≠ Sample.people.evaluate Sample.zeros := by
  refine ⟨by decide +kernel, ?_⟩
  have different : (Sample.people.list Sample.zeros).toOption ≠
      (Sample.people.evaluate Sample.zeros).toOption := by decide +kernel
  exact fun same => different (congrArg Except.toOption same)

end EntityQuery
