import EntityQuery.Proofs.Meaning.Evaluation
import EntityQuery.Proofs.Outcome

/-! # Results that cannot be read

What a query lists for a row can only fail to be read because a converter refuses the stored value
of an attribute that is selected.
-/

namespace EntityQuery

variable {registry : ConverterRegistry} {failure : ConversionError}

/-- The converter of an attribute refuses the value that is stored in the column of a row. -/
inductive Row.Refuses (registry : ConverterRegistry) (row : Row) (failure : ConversionError) :
    BasicAttribute → Prop where
  | converter {a : BasicAttribute} {c : Converter}
      (effective : registry.converterFor a = .ok (some c))
      (refused : c.toDomain (row.stored a.column) = .error failure) :
      Refuses registry row failure a

theorem Row.leafResult_error {row : Row} {leaf : Leaf}
    (failed : row.leafResult registry leaf = .error failure) :
    ∃ a, leaf = .basic a ∧ row.Refuses registry failure a := by
  cases leaf with
  | transient kind => cases failed
  | basic a =>
      refine ⟨a, rfl, ?_⟩
      unfold leafResult ConverterRegistry.inEffect? at failed
      cases effective : registry.converterFor a with
      | error name =>
          simp only [effective] at failed
          cases failed
      | ok converter =>
          simp only [effective] at failed
          cases converter with
          | none => cases failed
          | some c => exact .converter effective failed

theorem Row.objectResult_error {row : Row} {leaves : List (AttributePath × Leaf)} {fields : Fields}
    (failed : row.objectResult registry leaves fields = .error failure) :
    ∃ a, .basic a ∈ leaves.map (·.2) ∧ row.Refuses registry failure a := by
  induction leaves generalizing fields with
  | nil => cases failed
  | cons leaf rest ih =>
      rw [objectResult] at failed
      rcases bind_eq_error.mp failed with first | ⟨v, -, later⟩
      · obtain ⟨a, same, refuses⟩ := row.leafResult_error first
        exact ⟨a, List.mem_cons.mpr (.inl same.symm), refuses⟩
      · obtain ⟨a, inside, refuses⟩ := ih later
        exact ⟨a, List.mem_cons_of_mem _ inside, refuses⟩

theorem Frame.result_error {f : Frame} {path : Path}
    (failed : f.result registry path = .error failure) :
    ∃ a, .basic a ∈ (f.entity.leavesAt path).map (·.2) ∧ f.row.Refuses registry failure a := by
  unfold result at failed
  unfold Entity.leavesAt
  split at failed
  · next isEntity =>
    rw [if_pos isEntity]
    exact f.row.objectResult_error (map_eq_error.mp failed)
  · next isEntity =>
    rw [if_neg isEntity]
    split at failed
    · next attributes mapping =>
      rw [mapping]
      exact f.row.objectResult_error (map_eq_error.mp failed)
    · next a mapping =>
      rw [mapping]
      obtain ⟨b, same, refuses⟩ := f.row.leafResult_error failed
      cases same
      exact ⟨a, List.mem_cons_self, refuses⟩
    · cases failed
    · cases failed

/-- A row that one of the selections reads has a value that a converter refuses. -/
inductive Frame.Refuses (f : Frame) (registry : ConverterRegistry) (selections : List Selection)
    (failure : ConversionError) : Prop where
  | selected {selection : Selection} {path : Path} {a : BasicAttribute}
      (member : selection ∈ selections) (reads : selection.operand = .ref path)
      (own : path.aliasName = f.aliasName) (leaf : .basic a ∈ (f.entity.leavesAt path).map (·.2))
      (refuses : f.row.Refuses registry failure a)

variable {selections : List Selection}

theorem Environment.result_error {env : Environment} {t : Operand}
    (failed : env.result registry t = .error failure) :
    ∃ path f, t = .ref path ∧ env.frame? path.aliasName = some f ∧
      f.result registry path = .error failure := by
  cases t with
  | ref path =>
      unfold result at failed
      cases located : env.frame? path.aliasName with
      | none =>
          simp only [located] at failed
          cases failed
      | some f =>
          simp only [located] at failed
          exact ⟨path, f, rfl, located, failed⟩
  | literal l | call name args => cases failed

theorem Environment.results_error {env : Environment}
    (failed : env.results registry selections = .error failure) :
    ∃ selection ∈ selections, env.result registry selection.operand = .error failure := by
  induction selections with
  | nil => cases failed
  | cons selection rest ih =>
      rw [results] at failed
      rcases bind_eq_error.mp failed with first | ⟨v, -, failed⟩
      · exact ⟨selection, List.mem_cons_self, first⟩
      · rcases bind_eq_error.mp failed with later | ⟨vs, -, done⟩
        · obtain ⟨other, member, result⟩ := ih later
          exact ⟨other, List.mem_cons_of_mem _ member, result⟩
        · cases done

theorem Environment.assembled_error {env : Environment}
    (failed : env.assembled registry selections = .error failure) :
    ∃ selection ∈ selections, env.result registry selection.operand = .error failure := by
  unfold assembled at failed
  split at failed
  · next single => exact ⟨single, List.mem_singleton.mpr rfl, failed⟩
  · rcases bind_eq_error.mp failed with each | ⟨values, -, done⟩
    · exact results_error each
    · split at done <;> cases done

theorem resultsFor_error {envs : List Environment}
    (failed : resultsFor registry selections envs = .error failure) :
    ∃ env ∈ envs, env.assembled registry selections = .error failure := by
  induction envs with
  | nil => cases failed
  | cons env rest ih =>
      rw [resultsFor] at failed
      rcases bind_eq_error.mp failed with first | ⟨v, -, failed⟩
      · exact ⟨env, List.mem_cons_self, first⟩
      · rcases bind_eq_error.mp failed with later | ⟨vs, -, done⟩
        · obtain ⟨other, member, result⟩ := ih later
          exact ⟨other, List.mem_cons_of_mem _ member, result⟩
        · cases done

/-- Assembling a result for a single row fails where the row holds a refused value. -/
theorem Frame.assembled_error {f : Frame}
    (failed : Environment.assembled [f] registry selections = .error failure) :
    f.Refuses registry selections failure := by
  obtain ⟨selection, member, result⟩ := Environment.assembled_error failed
  obtain ⟨path, g, reads, located, refused⟩ := Environment.result_error result
  have own : g = f := List.mem_singleton.mp (List.mem_of_find?_eq_some located)
  subst own
  have named : path.aliasName = g.aliasName := by
    simpa [eq_comm] using List.find?_some located
  obtain ⟨a, leaf, refuses⟩ := g.result_error refused
  exact .selected member reads named leaf refuses

end EntityQuery
