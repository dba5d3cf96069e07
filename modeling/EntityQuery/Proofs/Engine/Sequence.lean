import EntityQuery.Proofs.Engine.Requests

/-! # Sequences over runs

A sequence continues after the largest integer that its entity has shown so far: among the stored
ids it finds, the ids it is supplied with and the ids it has handed out. `Tracks` is the invariant:
the generator of the entity has come to the largest number seen. It does not matter what happens to
the store between two calls, or whether a call that was given an id goes on to fail.
-/

namespace EntityQuery

/-- The largest of several numbers, 0 if there are none. -/
def largest (ns : List Nat) : Nat := ns.foldr max 0

@[simp] theorem largest_nil : largest [] = 0 := rfl

@[simp] theorem largest_cons (n : Nat) (ns : List Nat) :
    largest (n :: ns) = max n (largest ns) := rfl

@[simp] theorem largest_append (ns ms : List Nat) :
    largest (ns ++ ms) = max (largest ns) (largest ms) := by
  induction ns with
  | nil => simp
  | cons n rest ih => rw [List.cons_append, largest_cons, ih, largest_cons, Nat.max_assoc]

theorem le_largest {n : Nat} {ns : List Nat} (member : n ∈ ns) : n ≤ largest ns := by
  induction ns with
  | nil => cases member
  | cons first rest ih =>
      rw [largest_cons]
      rcases List.mem_cons.mp member with rfl | later
      · exact Nat.le_max_left _ _
      · exact Nat.le_trans (ih later) (Nat.le_max_right _ _)

theorem largest_le {ns : List Nat} {bound : Nat} (each : ∀ n ∈ ns, n ≤ bound) :
    largest ns ≤ bound := by
  induction ns with
  | nil => exact Nat.zero_le _
  | cons n rest ih =>
      exact Nat.max_le.mpr ⟨each n List.mem_cons_self,
        ih fun m inside => each m (List.mem_cons_of_mem _ inside)⟩

namespace IdGenerator

/-- The number that a sequence has come to. -/
def reached (g : IdGenerator) : Nat := g.current.getD 0

variable {g : IdGenerator}

theorem observe_sequence (sequence : g.generation = .sequence) (id : Value) :
    (g.observe id).generation = .sequence ∧
      (g.observe id).reached = max g.reached (largest id.toNat?.toList) := by
  obtain ⟨generation, current⟩ := g
  subst sequence
  unfold observe reached
  cases id.toNat? with
  | none => simp
  | some n =>
      cases current with
      | none => simp
      | some c =>
          simp only [Option.getD_some, Option.toList_some, largest_cons, largest_nil]
          split
          · exact ⟨rfl, by simp only [Option.getD_some]; omega⟩
          · exact ⟨rfl, by simp only [Option.getD_some]; omega⟩

theorem observe_sequence_all (sequence : g.generation = .sequence) (ids : List Value) :
    (ids.foldl observe g).generation = .sequence ∧
      (ids.foldl observe g).reached = max g.reached (largest (ids.filterMap Value.toNat?)) := by
  induction ids generalizing g with
  | nil => simp [sequence]
  | cons id rest ih =>
      obtain ⟨kept, observed⟩ := observe_sequence sequence id
      obtain ⟨kept', reached⟩ := ih kept
      refine ⟨kept', ?_⟩
      rw [List.foldl_cons, reached, observed, List.filterMap_cons]
      cases id.toNat? <;> simp [Nat.max_assoc]

theorem next_sequence (sequence : g.generation = .sequence) (uuid : String) :
    g.next uuid =
      if g.reached < last then
        (some (.int (g.reached + 1 : Nat)), { g with current := some (g.reached + 1) })
      else (none, g) := by
  obtain ⟨generation, current⟩ := g
  subst sequence
  unfold next nextInSequence reached
  cases current with
  | none => rfl
  | some c =>
      simp only [Option.getD_some]
      by_cases more : c < last <;> simp [more]

end IdGenerator

/-- Every entity of the model stands under its own name. -/
def Model.Named (m : Model) : Prop := ∀ name e, m.entity? name = some e → e.name = name

theorem Model.named_empty : Model.Named {} := by
  intro name e known
  cases known

/-- Models are made of entities under their names. -/
theorem Model.Named.withEntity {m : Model} (named : m.Named) (e : Entity) :
    (m.withEntity e).Named := by
  intro name f known
  rw [Model.entity?, Model.withEntity, Keyed.get?_put] at known
  split at known
  · next own =>
    cases known
    exact own
  · exact named name f known

/-- A call to an engine, or anything that is done to its store directly. -/
inductive Event where
  | call (call : Call)
  | change (store : Store)

/-- What happened when a persist call came to assign an id. -/
structure Assignment where
  /-- The values in the id column at the time. -/
  stored : List Value
  supplied : Option Value
  /-- The id for the new row, if there was one to be had. -/
  id : Option Value
  outcome : Except ExecutionError Answer

namespace Assignment

/-- The integers that the sequence has seen afterwards. -/
def numbers (a : Assignment) : List Nat := (a.stored ++ a.id.toList).filterMap Value.toNat?

/-- The integer that was generated, if one was. -/
def generated? (a : Assignment) : Option Nat :=
  match a.supplied with
  | some _ => none
  | none => a.id.bind Value.toNat?

/-- The id that was generated continues the sequence after the numbers seen. -/
structure Continues (a : Assignment) (e : Entity) (seen : List Nat) : Prop where
  id : a.id = if largest seen < IdGenerator.last then some (.int (largest seen + 1 : Nat)) else none
  unseen : ∀ n ∈ seen, a.id ≠ some (.int n)
  answered : ∀ answer, a.outcome = .ok answer → answer = .id (.int (largest seen + 1 : Nat))
  missing : a.outcome = .error (.missingId e.name) ↔ IdGenerator.last ≤ largest seen
  /-- JSON integers do not exceed the last number of a sequence. -/
  exhausted : (∀ n ∈ seen, n ≤ IdGenerator.last) →
    (a.outcome = .error (.missingId e.name) ↔ largest seen = IdGenerator.last)

theorem Continues.generated {a : Assignment} {e : Entity} {seen : List Nat} {n : Nat}
    (continues : a.Continues e seen) (generated : a.generated? = some n) :
    largest seen < n ∧ a.id = some (.int n) := by
  unfold generated? at generated
  split at generated
  · cases generated
  · rw [continues.id] at generated ⊢
    split at generated
    · next more =>
      rw [if_pos more]
      simp only [Option.bind_some, Value.toNat?, if_pos (Int.natCast_nonneg _), Int.toNat_natCast,
        Option.some.injEq] at generated
      exact ⟨by omega, by rw [generated]⟩
    · cases generated

end Assignment

namespace Engine

/-- The engine after an event. -/
def through (engine : Engine) : Event → Engine
  | .call call => (engine.serve call).2
  | .change store => { engine with store := store }

/-- The id that was supplied for a new row. -/
def supplied? (e : Entity) (fields : Fields) : Option Value :=
  (Keyed.get? fields e.idAttribute).filter (!·.isNull)

/-- The values in the id column of rows. -/
def storedIds (e : Entity) (rows : List Row) : List Value :=
  rows.filterMap (Keyed.get? · e.idColumn)

/-- How an id is assigned to a value of the entity, if a call comes to that: it must persist an
    object, and the store must be there. -/
def assignment? (engine : Engine) (e : Entity) (call : Call) : Option Assignment :=
  match call.request, engine.store.access with
  | .persist name (.object fields), .ok tables =>
      if name = e.name then
        let existing := (tables.rows? e.table).getD []
        some
          { stored := storedIds e existing
            supplied := supplied? e fields
            id := (engine.assignId e fields existing call.uuid).1
            outcome := (engine.serve call).1 }
      else none
  | _, _ => none

def assignmentAt? (engine : Engine) (e : Entity) : Event → Option Assignment
  | .call call => engine.assignment? e call
  | .change _ => none

/-- The assignments of ids to values of the entity in the course of events. -/
def assignments (engine : Engine) (e : Entity) : List Event → List Assignment
  | [] => []
  | event :: rest =>
      (engine.assignmentAt? e event).toList ++ (engine.through event).assignments e rest

/-- The generator of the entity, whether it was in use or not. -/
def generator (engine : Engine) (e : Entity) : IdGenerator :=
  (Keyed.get? engine.generators e.name).getD { generation := e.idGeneration }

/-- The sequence of the entity has come to the largest number seen. -/
structure Tracks (engine : Engine) (d : Domain) (e : Entity) (seen : List Nat) : Prop where
  domain : engine.domain = d
  sequence : (engine.generator e).generation = .sequence
  reached : (engine.generator e).reached = largest seen

variable {engine : Engine} {d : Domain} {e : Entity} {seen : List Nat}

theorem Tracks.of_generators {engine' : Engine} (tracks : engine.Tracks d e seen)
    (domain : engine'.domain = engine.domain)
    (same : Keyed.get? engine'.generators e.name = Keyed.get? engine.generators e.name) :
    engine'.Tracks d e seen := by
  have generator : engine'.generator e = engine.generator e := by
    unfold Engine.generator
    rw [same]
  exact ⟨domain.trans tracks.domain, generator ▸ tracks.sequence, generator ▸ tracks.reached⟩

theorem generatorFor_eq (engine : Engine) (e : Entity) (existing : List Row) :
    engine.generatorFor e existing =
      (storedIds e existing).foldl IdGenerator.observe (engine.generator e) := by
  unfold storedIds
  rw [List.foldl_filterMap]
  show existing.foldl _ (engine.generator e) = existing.foldl _ (engine.generator e)
  congr 1
  funext g row
  cases Keyed.get? row e.idColumn <;> rfl

theorem Tracks.generatorFor (tracks : engine.Tracks d e seen) (existing : List Row) :
    (engine.generatorFor e existing).generation = .sequence ∧
      (engine.generatorFor e existing).reached =
        largest (seen ++ (storedIds e existing).filterMap Value.toNat?) := by
  rw [generatorFor_eq, largest_append, ← tracks.reached]
  exact IdGenerator.observe_sequence_all tracks.sequence _

variable {fields : Fields} {existing : List Row} {uuid : String}

theorem assignId_supplied {id : Value} (supplied : supplied? e fields = some id) :
    engine.assignId e fields existing uuid =
      (some id,
        { engine with
          generators := Keyed.put engine.generators e.name
            ((engine.generatorFor e existing).observe id) }) := by
  unfold supplied? at supplied
  simp only [assignId, supplied]

theorem assignId_generated (unsupplied : supplied? e fields = none) :
    (engine.assignId e fields existing uuid).1 =
        ((engine.generatorFor e existing).next uuid).1 ∧
      (engine.assignId e fields existing uuid).2.domain = engine.domain ∧
      (engine.assignId e fields existing uuid).2.generator e =
        ((engine.generatorFor e existing).next uuid).2 := by
  unfold supplied? at unsupplied
  simp only [assignId, unsupplied, generator, Keyed.get?_put, if_true, Option.getD_some]
  exact ⟨trivial, trivial, trivial⟩

/-- A sequence gives the number after the largest one seen, as long as there is one. -/
theorem Tracks.assignId_next (tracks : engine.Tracks d e seen) (existing : List Row)
    (uuid : String) (unsupplied : supplied? e fields = none) :
    (engine.assignId e fields existing uuid).1 =
      if largest (seen ++ (storedIds e existing).filterMap Value.toNat?) < IdGenerator.last then
        some (.int
          (largest (seen ++ (storedIds e existing).filterMap Value.toNat?) + 1 : Nat))
      else none := by
  obtain ⟨sequence, reached⟩ := tracks.generatorFor existing
  rw [(assignId_generated unsupplied).1, IdGenerator.next_sequence sequence, reached]
  split <;> rfl

/-- The sequence follows an assignment, whether the id was supplied or is the next one. -/
theorem Tracks.assignId (tracks : engine.Tracks d e seen) (fields : Fields)
    (existing : List Row) (uuid : String) :
    (engine.assignId e fields existing uuid).2.Tracks d e (seen ++
      (storedIds e existing ++ (engine.assignId e fields existing uuid).1.toList).filterMap
        Value.toNat?) := by
  obtain ⟨sequence, reached⟩ := tracks.generatorFor existing
  rw [List.filterMap_append, ← List.append_assoc]
  cases supplied : supplied? e fields with
  | some id =>
      obtain ⟨sequence', observed⟩ := IdGenerator.observe_sequence sequence id
      have own : (engine.assignId e fields existing uuid).2.generator e =
          (engine.generatorFor e existing).observe id := by
        simp only [assignId_supplied supplied, generator, Keyed.get?_put, if_true,
          Option.getD_some]
      rw [assignId_supplied supplied] at own ⊢
      refine ⟨tracks.domain, own.symm ▸ sequence', ?_⟩
      rw [own, observed, reached, largest_append _ (List.filterMap ..)]
      cases number : id.toNat? <;> simp [number]
  | none =>
      obtain ⟨given, domain, own⟩ :
          _ ∧ (engine.assignId e fields existing uuid).2.domain = engine.domain ∧ _ :=
        assignId_generated supplied
      have next := IdGenerator.next_sequence sequence uuid
      rw [next] at given own
      refine ⟨domain.trans tracks.domain, ?_, ?_⟩
      · rw [own]
        split <;> exact sequence
      · rw [own, given, largest_append _ (List.filterMap ..), ← reached]
        split
        · rw [Option.toList_some, List.filterMap_cons, Value.toNat?, if_pos (Int.natCast_nonneg _),
            Int.toNat_natCast]
          simp [IdGenerator.reached]
        · simp

section Persisting

theorem storedValue_not_missing {registry : ConverterRegistry} {entity name : String}
    {path : AttributePath} {a : BasicAttribute} {v : Value} :
    storedValue registry entity path a v ≠ .error (.missingId name) := by
  unfold storedValue
  split
  · split
    · simp
    · simp
    · next c _ => cases c.toDatabase v <;> simp [converting]
  · simp

theorem storedRow_not_missing {registry : ConverterRegistry} {id v : Value} {name : String}
    {leaves : List (AttributePath × Leaf)} {row : Row} :
    storedRow registry e id v leaves row ≠ .error (.missingId name) := by
  induction leaves generalizing row with
  | nil => simp [storedRow]
  | cons leaf rest ih =>
      obtain ⟨path, a | kind⟩ := leaf
      · rw [storedRow]
        cases stored : storedValue registry e.name path a
            (if path = [e.idAttribute] then id else v.atPath path) with
        | error failure =>
            rintro ⟨⟩
            exact storedValue_not_missing stored
        | ok value => exact ih
      · exact ih

/-- A value that has been given an id is not refused for want of one. -/
theorem newRow_not_missing {registry : ConverterRegistry} {id v : Value} {rows : List Row}
    {name : String} : newRow registry e id v rows ≠ .error (.missingId name) := by
  unfold newRow
  cases stored : storedRow registry e id v e.leaves [] with
  | error failure =>
      intro same
      exact storedRow_not_missing (stored.trans same)
  | ok row =>
      rw [ok_bind]
      split <;> simp

/-- What a persist call makes of the outcome of the assignment. -/
theorem persist_assigned (engine : Engine) (fields : Fields) (uuid : String) {name : String}
    {tables : Tables} (known : engine.domain.model.entity? name = some e)
    (access : engine.store.access = .ok tables) :
    (engine.persist name (.object fields) uuid).2.generators =
        (engine.assignId e fields ((tables.rows? e.table).getD []) uuid).2.generators ∧
      ((engine.persist name (.object fields) uuid).1 = .error (.missingId e.name) ↔
        (engine.assignId e fields ((tables.rows? e.table).getD []) uuid).1 = none) ∧
      ∀ id, (engine.persist name (.object fields) uuid).1 = .ok id →
        (engine.assignId e fields ((tables.rows? e.table).getD []) uuid).1 = some id := by
  unfold persist
  simp only [known, access]
  cases assigned : engine.assignId e fields ((tables.rows? e.table).getD []) uuid with
  | mk given engine₁ =>
      cases given with
      | none => exact ⟨rfl, by simp, by simp⟩
      | some id =>
          simp only
          cases created : newRow engine₁.domain.registry e id (.object fields)
              ((tables.rows? e.table).getD []) with
          | error failure =>
              refine ⟨rfl, ?_, by simp⟩
              simp only [Except.error.injEq, reduceCtorEq, iff_false]
              rintro rfl
              exact newRow_not_missing created
          | ok row => exact ⟨rfl, by simp, by simp⟩

theorem assignId_others {other : String} (different : e.name ≠ other) :
    Keyed.get? (engine.assignId e fields existing uuid).2.generators other =
      Keyed.get? engine.generators other := by
  unfold Engine.assignId
  split <;> simp [Keyed.get?_put, different]

end Persisting

theorem delete_generators (engine : Engine) (q : DeleteQuery) :
    (engine.delete q).2.generators = engine.generators := by
  unfold delete
  split
  · rfl
  · split <;> rfl

section Runs

variable {call : Call} {a : Assignment}

theorem assignment?_eq_some (assigned : engine.assignment? e call = some a) :
    ∃ fields tables, call.request = .persist e.name (.object fields) ∧
      engine.store.access = .ok tables ∧
      a =
        { stored := storedIds e ((tables.rows? e.table).getD [])
          supplied := supplied? e fields
          id := (engine.assignId e fields ((tables.rows? e.table).getD []) call.uuid).1
          outcome := (engine.serve call).1 } := by
  unfold assignment? at assigned
  split at assigned
  · next name fields tables request access =>
    split at assigned
    · next own =>
      cases assigned
      exact ⟨fields, tables, own ▸ request, access, rfl⟩
    · cases assigned
  · cases assigned

/-- A call that comes to no assignment for the entity leaves its generator alone. -/
theorem serve_generators (named : engine.domain.model.Named)
    (unassigned : engine.assignment? e call = none) :
    Keyed.get? (engine.serve call).2.generators e.name =
      Keyed.get? engine.generators e.name := by
  obtain ⟨request, uuid⟩ := call
  cases request with
  | persist name v =>
      cases known : engine.domain.model.entity? name with
      | none => simp only [serve, perform, persist, known]
      | some f =>
          cases v with
          | null | bool b | int i | float x | string s | array items =>
              simp only [serve, perform, persist, known]
          | object fields =>
              cases access : engine.store.access with
              | error failure => simp only [serve, perform, persist, known, access]
              | ok tables =>
                  -- The call assigns an id, but to a value of another entity.
                  have other : f.name ≠ e.name := by
                    intro own
                    rw [named name f known] at own
                    simp [assignment?, access, own] at unassigned
                  have generators := (engine.persist_assigned fields uuid known access).1
                  simp only [serve, perform, generators]
                  exact assignId_others other
  | delete q =>
      simp only [serve, perform, delete_generators]
  | list q => rfl
  | uniqueResult q => rfl
  | load table data =>
      simp only [serve, perform]
      cases engine.store.load table data <;> rfl
  | loadFile table contents =>
      simp only [serve, perform]
      cases engine.store.loadFile table contents <;> rfl

theorem Tracks.unassigned (tracks : engine.Tracks d e seen) (named : d.model.Named)
    (unassigned : engine.assignment? e call = none) : (engine.serve call).2.Tracks d e seen := by
  rw [← tracks.domain] at named
  exact tracks.of_generators (serve_domain engine call) (serve_generators named unassigned)

theorem Tracks.assigned (tracks : engine.Tracks d e seen)
    (known : d.model.entity? e.name = some e) (assigned : engine.assignment? e call = some a) :
    (engine.serve call).2.Tracks d e (seen ++ a.numbers) := by
  obtain ⟨fields, tables, request, access, rfl⟩ := assignment?_eq_some assigned
  obtain ⟨request', uuid⟩ := call
  subst request
  rw [← tracks.domain] at known
  obtain ⟨generators, -, -⟩ := engine.persist_assigned fields uuid known access
  refine (tracks.assignId fields ((tables.rows? e.table).getD []) uuid).of_generators ?_ ?_
  · rw [serve_domain, (assignId_unchanged ..).1]
  · simp only [serve, perform, generators]

/-- A generated id continues the sequence. -/
theorem Tracks.continues (tracks : engine.Tracks d e seen)
    (known : d.model.entity? e.name = some e) (assigned : engine.assignment? e call = some a)
    (unsupplied : a.supplied = none) :
    a.Continues e (seen ++ a.stored.filterMap Value.toNat?) := by
  obtain ⟨fields, tables, request, access, rfl⟩ := assignment?_eq_some assigned
  obtain ⟨request', uuid⟩ := call
  subst request
  rw [← tracks.domain] at known
  obtain ⟨-, missing, answered⟩ := engine.persist_assigned fields uuid known access
  have next := tracks.assignId_next ((tables.rows? e.table).getD []) uuid unsupplied
  generalize seen ++ (storedIds e ((tables.rows? e.table).getD [])).filterMap Value.toNat? = now
    at next ⊢
  have outcome : ∀ failure, (engine.serve ⟨.persist e.name (.object fields), uuid⟩).1 =
        .error failure ↔
      (engine.persist e.name (.object fields) uuid).1 = .error failure := by
    intro failure
    simp only [serve, perform]
    cases (engine.persist e.name (.object fields) uuid).1 <;> simp [Except.map]
  have exhausted : (engine.serve ⟨.persist e.name (.object fields), uuid⟩).1 =
      .error (.missingId e.name) ↔ IdGenerator.last ≤ largest now := by
    rw [outcome, missing, next]
    split <;> simp <;> omega
  refine ⟨next, ?_, ?_, exhausted, ?_⟩
  · intro n member same
    have within := le_largest member
    rw [next] at same
    split at same
    · cases same
      omega
    · cases same
  · intro answer answers
    simp only [serve, perform] at answers
    cases stored : (engine.persist e.name (.object fields) uuid).1 with
    | error failure => simp [stored, Except.map] at answers
    | ok id =>
        have given := answered id stored
        rw [next] at given
        split at given
        · cases given
          simp only [stored, Except.map, Except.ok.injEq] at answers
          exact answers.symm
        · cases given
  · intro bounded
    have within := largest_le bounded
    show (engine.serve _).1 = _ ↔ _
    rw [exhausted]
    omega

/-- What every event does to the sequence. -/
theorem Tracks.through (tracks : engine.Tracks d e seen) (named : d.model.Named)
    (known : d.model.entity? e.name = some e) (event : Event) :
    (engine.through event).Tracks d e
      (seen ++ (engine.assignmentAt? e event).toList.flatMap (·.numbers)) := by
  cases event with
  | change store =>
      simp only [assignmentAt?, Option.toList_none, List.flatMap_nil, List.append_nil]
      exact tracks.of_generators rfl rfl
  | call call =>
      simp only [assignmentAt?]
      cases assigned : engine.assignment? e call with
      | none =>
          simp only [Option.toList_none, List.flatMap_nil, List.append_nil]
          exact tracks.unassigned named assigned
      | some a =>
          simp only [Option.toList_some, List.flatMap_singleton]
          exact tracks.assigned known assigned

theorem Tracks.continuesAt (tracks : engine.Tracks d e seen)
    (known : d.model.entity? e.name = some e) {event : Event}
    (assigned : engine.assignmentAt? e event = some a) (unsupplied : a.supplied = none) :
    a.Continues e (seen ++ a.stored.filterMap Value.toNat?) := by
  cases event with
  | change store => cases assigned
  | call call => exact tracks.continues known assigned unsupplied

/-- In the course of events, every generated id continues the sequence after all numbers seen up to
    then. -/
theorem Tracks.assignments_continue {events : List Event} (tracks : engine.Tracks d e seen)
    (named : d.model.Named) (known : d.model.entity? e.name = some e)
    {before later : List Assignment} (split : engine.assignments e events = before ++ a :: later)
    (unsupplied : a.supplied = none) :
    a.Continues e (seen ++ before.flatMap (·.numbers) ++ a.stored.filterMap Value.toNat?) := by
  induction events generalizing engine seen before with
  | nil => simp [assignments] at split
  | cons event rest ih =>
      have next := tracks.through named known event
      rw [assignments] at split
      cases assigned : engine.assignmentAt? e event with
      | none =>
          rw [assigned] at next split
          simp only [Option.toList_none, List.flatMap_nil, List.append_nil] at next
          exact ih next split
      | some first =>
          rw [assigned, Option.toList_some] at next split
          rw [List.flatMap_singleton] at next
          rw [List.singleton_append] at split
          cases before with
          | nil =>
              obtain ⟨rfl, -⟩ := List.cons.inj split
              simpa using tracks.continuesAt known assigned unsupplied
          | cons other before =>
              obtain ⟨rfl, tails⟩ := List.cons.inj split
              simpa using ih next tails

/-- The generated ids grow beyond all numbers seen before. -/
theorem Tracks.generated_increasing {events : List Event} (tracks : engine.Tracks d e seen)
    (named : d.model.Named) (known : d.model.entity? e.name = some e) :
    (∀ n ∈ (engine.assignments e events).filterMap (·.generated?), largest seen < n) ∧
      ((engine.assignments e events).filterMap (·.generated?)).Pairwise (· < ·) := by
  induction events generalizing engine seen with
  | nil => simp [assignments]
  | cons event rest ih =>
      obtain ⟨beyond, increasing⟩ := ih (tracks.through named known event)
      rw [assignments, List.filterMap_append]
      cases assigned : engine.assignmentAt? e event with
      | none =>
          rw [assigned] at beyond
          simp only [Option.toList_none, List.flatMap_nil, List.append_nil] at beyond
          exact ⟨beyond, increasing⟩
      | some first =>
          rw [assigned] at beyond
          simp only [Option.toList_some, List.flatMap_singleton, largest_append] at beyond
          have later : ∀ n ∈ ((engine.through event).assignments e rest).filterMap (·.generated?),
              largest seen < n := fun n member =>
            Nat.lt_of_le_of_lt (Nat.le_max_left _ _) (beyond n member)
          cases generated : first.generated? with
          | none =>
              simp only [Option.toList_some, List.filterMap_cons, generated, List.filterMap_nil,
                List.nil_append]
              exact ⟨later, increasing⟩
          | some n =>
              have unsupplied : first.supplied = none := by
                cases supplied : first.supplied with
                | none => rfl
                | some id => simp [Assignment.generated?, supplied] at generated
              obtain ⟨own, given⟩ :=
                (tracks.continuesAt known assigned unsupplied).generated generated
              rw [largest_append] at own
              have noted : n ∈ first.numbers := by
                refine List.mem_filterMap.mpr ⟨.int n, ?_, by simp [Value.toNat?]⟩
                rw [given]
                simp
              have within := le_largest noted
              simp only [Option.toList_some, List.filterMap_cons, generated, List.filterMap_nil,
                List.singleton_append, List.forall_mem_cons, List.pairwise_cons]
              refine ⟨⟨by omega, later⟩, fun m member => ?_, increasing⟩
              have after := beyond m member
              omega

end Runs

theorem start_tracks {store : Store} {fresh : Engine} (started : Engine.start store d = .ok fresh)
    (sequence : e.idGeneration = .sequence) : fresh.Tracks d e [] := by
  unfold start at started
  obtain ⟨filled, -, started⟩ := bind_eq_ok.mp started
  cases started
  exact ⟨rfl, sequence, rfl⟩

/-- Whatever happens to an engine and its store, an id that a sequence generates is the number after
    the largest one seen: among the ids generated and supplied before and the stored ids that this
    and every earlier assignment found. So generated ids increase, and no id that was seen is given
    again; there is none left exactly when the last number was seen. -/
theorem run_sequence {store : Store} {fresh : Engine} (named : d.model.Named)
    (started : Engine.start store d = .ok fresh) (known : d.model.entity? e.name = some e)
    (sequence : e.idGeneration = .sequence) (events : List Event) :
    (∀ before a later, fresh.assignments e events = before ++ a :: later → a.supplied = none →
        a.Continues e
          (before.flatMap (·.numbers) ++ a.stored.filterMap Value.toNat?)) ∧
      ((fresh.assignments e events).filterMap (·.generated?)).Pairwise (· < ·) := by
  have tracks := start_tracks started sequence
  exact ⟨fun _ _ _ split unsupplied => tracks.assignments_continue named known split unsupplied,
    (tracks.generated_increasing named known).2⟩

end Engine

namespace Sample

/-- Tickets are numbered. -/
def ticket : Entity where
  name := "Ticket"
  table := "tickets"
  idGeneration := .sequence
  attributes :=
    [("id", .basic { column := "id", kind := .int }),
      ("title", .basic { column := "title", kind := .string })]

def counter : Engine where
  domain := { model := Model.withEntity {} ticket, registry := .standard, config := {} }
  store := { tables := [("tickets", [])] }

def issue (fields : Fields) : Event := .call ⟨.persist "Ticket" (.object fields), uuid⟩

def titled (title : String) : Fields := [("title", .string title)]

/-- Stored tickets with the given ids, and no others. -/
def restock (ids : List Int) : Event :=
  .change { tables := [("tickets", ids.map fun id => [("id", .int id)])] }

/-- Tickets come with and without an id, are deleted and loaded; the one without a proper title is
    refused. -/
def shift : List Event :=
  [issue (titled "a"), issue (("id", .int 10) :: titled "b"), issue (titled "c"),
    .call ⟨.delete { target := ⟨"Ticket", "t"⟩ }, uuid⟩, issue (titled "d"), restock [20, 4],
    issue [("title", .int 0)], issue (titled "e"), restock [IdGenerator.last], issue (titled "f")]

end Sample

theorem Engine.run_sequence_shift :
    (Sample.counter.assignments Sample.ticket Sample.shift).map (·.id) =
        [some (.int 1), some (.int 10), some (.int 11), some (.int 12), some (.int 21),
          some (.int 22), none] ∧
      (∀ before a later, Sample.counter.assignments Sample.ticket Sample.shift =
          before ++ a :: later → a.supplied = none →
        a.Continues Sample.ticket
          (before.flatMap (·.numbers) ++ a.stored.filterMap Value.toNat?)) ∧
      ((Sample.counter.assignments Sample.ticket Sample.shift).filterMap (·.generated?)).Pairwise
        (· < ·) := by
  have named : Sample.counter.domain.model.Named := Model.named_empty.withEntity Sample.ticket
  have started : Engine.start {} Sample.counter.domain = .ok Sample.counter := rfl
  exact ⟨by decide +kernel, Engine.run_sequence named started rfl rfl Sample.shift⟩

end EntityQuery
