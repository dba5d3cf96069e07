import EntityQuery.Proofs.Engine.Sequence

/-! # Persisting, call by call

What a persist call does as a function of the id that the generator of the entity gives: the
generator is asked first, and whatever becomes of the value afterwards, it keeps what it has seen.
A call that does not come to that does nothing.
-/

namespace EntityQuery

namespace IdGenerator

/-- The id for a new row, supplied or generated, and the generator after it has taken note of it. -/
def give (g : IdGenerator) (supplied : Option Value) (uuid : String) :
    Option Value × IdGenerator :=
  match supplied with
  | some id => (some id, g.observe id)
  | none => g.next uuid

theorem observe_generation (g : IdGenerator) (id : Value) :
    (g.observe id).generation = g.generation := by
  unfold observe
  split
  · split
    · rfl
    · split <;> rfl
  · rfl

/-- Only sequences take note of ids. -/
theorem observe_of_ne {g : IdGenerator} (other : g.generation ≠ .sequence) (id : Value) :
    g.observe id = g := by
  unfold observe
  split
  · next sequence _ => exact absurd sequence other
  · rfl

theorem give_generation (g : IdGenerator) (supplied : Option Value) (uuid : String) :
    (g.give supplied uuid).2.generation = g.generation := by
  cases supplied with
  | some id => exact g.observe_generation id
  | none =>
      show (g.next uuid).2.generation = _
      unfold next
      split
      · rfl
      · rfl
      · split <;> rfl

theorem give_of_ne {g : IdGenerator} (other : g.generation ≠ .sequence) (supplied : Option Value)
    (uuid : String) : (g.give supplied uuid).2 = g := by
  cases supplied with
  | some id => exact observe_of_ne other id
  | none =>
      show (g.next uuid).2 = g
      unfold next
      split
      · rfl
      · rfl
      · next sequence => exact absurd sequence other

theorem observe_all_generation (g : IdGenerator) (ids : List Value) :
    (ids.foldl observe g).generation = g.generation := by
  induction ids generalizing g with
  | nil => rfl
  | cons id rest ih => exact (ih _).trans (g.observe_generation id)

theorem observe_all_of_ne {g : IdGenerator} (other : g.generation ≠ .sequence)
    (ids : List Value) : ids.foldl observe g = g := by
  induction ids with
  | nil => rfl
  | cons id rest ih => rw [List.foldl_cons, observe_of_ne other, ih]

end IdGenerator

namespace Engine

/-- Why a call to persist comes to no id: there is no such entity, no object or no store. -/
def idle? (m : Model) (broken : Bool) (name : String) (v : Value) : Option ExecutionError :=
  match m.entity? name, v with
  | none, _ => some (.compile (.unknownEntity name))
  | some _, .object _ => if broken then some .storeUnavailable else none
  | some _, v => some (.invalidData (.notAnObject name v))

/-- The rows that a new one of the entity joins. -/
abbrev rowsBefore (engine : Engine) (e : Entity) : List Row :=
  (engine.store.tables.rows? e.table).getD []

/-- The answer to a value with the id it was given, and the store afterwards. -/
def settle (engine : Engine) (e : Entity) (fields : Fields) (id : Option Value) :
    Except ExecutionError Value × Store :=
  match id with
  | none => (.error (.missingId e.name), engine.store)
  | some id =>
      match newRow engine.domain.registry e id (.object fields) (engine.rowsBefore e) with
      | .error failure => (.error failure, engine.store)
      | .ok row =>
          (.ok id, { engine.store with tables := engine.store.tables.append e.table [row] })

/-- What the generator of the entity gives for a new row, and the generator afterwards. -/
def given (engine : Engine) (e : Entity) (fields : Fields) (uuid : String) :
    Option Value × IdGenerator :=
  (engine.generatorFor e (engine.rowsBefore e)).give (supplied? e fields) uuid

variable {engine : Engine} {name : String} {v : Value} {e : Entity} {fields : Fields}
  {uuid : String} {failure : ExecutionError}

theorem persist_idle (idle : idle? engine.domain.model engine.store.broken name v = some failure) :
    engine.persist name v uuid = (.error failure, engine) := by
  unfold idle? at idle
  unfold persist
  cases known : engine.domain.model.entity? name with
  | none =>
      simp only [known] at idle
      cases idle
      rfl
  | some e =>
      cases v with
      | object fields =>
          simp only [known, Option.ite_none_right_eq_some] at idle
          obtain ⟨broken, same⟩ := idle
          cases same
          simp only [Store.access, broken, if_true]
      | null | bool b | int i | float x | string s | array items =>
          simp only [known] at idle
          cases idle
          rfl

theorem idle?_eq_none {m : Model} {broken : Bool} (busy : idle? m broken name v = none) :
    ∃ e fields, m.entity? name = some e ∧ v = .object fields ∧ broken = false := by
  unfold idle? at busy
  split at busy
  · cases busy
  · next e fields known =>
    split at busy
    · cases busy
    · next unbroken => exact ⟨e, fields, known, rfl, Bool.eq_false_iff.mpr unbroken⟩
  · cases busy

theorem assignId_given (engine : Engine) (e : Entity) (fields : Fields) (uuid : String) :
    (engine.assignId e fields (engine.rowsBefore e) uuid).1 = (engine.given e fields uuid).1 ∧
      (engine.assignId e fields (engine.rowsBefore e) uuid).2.generators =
        Keyed.put engine.generators e.name (engine.given e fields uuid).2 := by
  unfold given
  cases supplied : supplied? e fields with
  | some id =>
      rw [assignId_supplied supplied]
      exact ⟨rfl, rfl⟩
  | none =>
      unfold supplied? at supplied
      simp only [assignId, supplied]
      exact ⟨rfl, rfl⟩

theorem given_supplied {id : Value} (supplied : supplied? e fields = some id) :
    (engine.given e fields uuid).1 = some id := by
  unfold given
  rw [supplied]
  rfl

/-- A call that comes to an id settles the value with it, and the generator keeps what it has seen
    in any case. -/
theorem persist_given (known : engine.domain.model.entity? name = some e)
    (unbroken : engine.store.broken = false) (fields : Fields) (uuid : String) :
    (engine.persist name (.object fields) uuid).1 =
        (engine.settle e fields (engine.given e fields uuid).1).1 ∧
      (engine.persist name (.object fields) uuid).2.domain = engine.domain ∧
      (engine.persist name (.object fields) uuid).2.store =
        (engine.settle e fields (engine.given e fields uuid).1).2 ∧
      (engine.persist name (.object fields) uuid).2.generators =
        Keyed.put engine.generators e.name (engine.given e fields uuid).2 := by
  have access := Store.access_eq_ok.mpr ⟨unbroken, rfl⟩
  obtain ⟨domain, store⟩ := engine.assignId_unchanged e fields (engine.rowsBefore e) uuid
  obtain ⟨id, generators⟩ := engine.assignId_given e fields uuid
  unfold persist
  simp only [known, access]
  cases assigned : engine.assignId e fields (engine.rowsBefore e) uuid with
  | mk supply engine₁ =>
      rw [assigned] at domain store id generators
      simp only at domain store id generators
      rw [← id]
      cases supply with
      | none => exact ⟨rfl, domain, store, generators⟩
      | some given =>
          simp only [settle, domain]
          cases newRow engine.domain.registry e given (.object fields) (engine.rowsBefore e) with
          | error failure => exact ⟨rfl, domain, store, generators⟩
          | ok row => exact ⟨rfl, rfl, by rw [store], generators⟩

/-- The generator of an entity after the one of another entity, or its own, was written. -/
theorem generator_put {engine' : Engine} {g : IdGenerator}
    (generators : engine'.generators = Keyed.put engine.generators e.name g) (f : Entity) :
    engine'.generator f = if e.name = f.name then g else engine.generator f := by
  unfold generator
  rw [generators, Keyed.get?_put]
  split <;> rfl

theorem given_generation (engine : Engine) (e : Entity) (fields : Fields) (uuid : String) :
    (engine.given e fields uuid).2.generation = (engine.generator e).generation := by
  unfold given
  rw [IdGenerator.give_generation, generatorFor_eq, IdGenerator.observe_all_generation]

/-- A generator that is no sequence stays as it is. -/
theorem given_of_ne (other : (engine.generator e).generation ≠ .sequence) (fields : Fields)
    (uuid : String) : (engine.given e fields uuid).2 = engine.generator e := by
  unfold given
  rw [generatorFor_eq, IdGenerator.observe_all_of_ne other, IdGenerator.give_of_ne other]

end Engine

end EntityQuery
