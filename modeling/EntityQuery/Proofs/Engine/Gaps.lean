import EntityQuery.Proofs.Engine.Duplicates
import EntityQuery.Proofs.Engine.Failures
import EntityQuery.Proofs.Engine.Identity
import EntityQuery.Proofs.Engine.Interference

/-! # Ids that were passed over

What becomes of the answers when the sequence of an entity is ahead of where it would be, and its
table has other rows. As long as the sequence has room, a value without an id gets one; and whatever
has nothing to do with the ids succeeds if it would have succeeded otherwise.
-/

namespace EntityQuery

/-- The call asks for a new id for a value of the entity. -/
def Call.generates (e : Entity) (call : Call) : Bool :=
  match call.request with
  | .persist name (.object fields) => decide (name = e.name) && (Engine.supplied? e fields).isNone
  | _ => false

theorem Call.generates_iff {e : Entity} {call : Call} :
    call.generates e = true ↔ ∃ fields, call.request = .persist e.name (.object fields) ∧
      Engine.supplied? e fields = none := by
  unfold generates
  split
  · next name fields request => simp [request, and_assoc]
  · next other =>
    simp only [Bool.false_eq_true, false_iff, not_exists, not_and]
    exact fun fields request => absurd request (other _ _)

/-- Nothing that the query selects goes through a converter. -/
def Query.Unconverted (d : Domain) (q : Query) : Prop :=
  ∀ e, d.model.entity? q.root.entity = some e → ∀ selection ∈ q.selected, ∀ path,
    selection.operand = .ref path → ∀ a, .basic a ∈ (e.leavesAt path).map (·.2) →
      ∀ c, d.registry.converterFor a ≠ .ok (some c)

/-- Whether the request succeeds is no matter of the ids that the values of the entity have: it
    avoids their table, removes rows of no other one, or lists what is stored as it is. -/
inductive Request.Indifferent (d : Domain) (e : Entity) : Request → Prop where
  | avoids {request : Request} (avoids : request.avoids d.model e) : Indifferent d e request
  | removes {q : DeleteQuery} (own : q.table? d.model = some e.table) : Indifferent d e (.delete q)
  | lists {q : Query} (unconverted : q.Unconverted d) : Indifferent d e (.list q)

namespace Engine

/-- The answers to several calls, one after the other. -/
def answers : Engine → List Call → List (Except ExecutionError Answer)
  | _, [] => []
  | engine, call :: rest => (engine.serve call).1 :: (engine.serve call).2.answers rest

variable {engine engine' : Engine} {e f : Entity} {name : String} {v : Value} {fields : Fields}
  {uuid : String}

/-- In a model every name stands for one entity. -/
theorem eq_of_name {m : Model} (named : m.Named) (known : m.entity? e.name = some e)
    (known' : m.entity? name = some f) (same : f.name = e.name) : f = e := by
  rw [named name f known'] at same
  subst same
  exact Option.some.inj (known'.symm.trans known)

theorem persist_generation (named : engine.domain.model.Named)
    (known : engine.domain.model.entity? e.name = some e) (name : String) (v : Value)
    (uuid : String) :
    ((engine.persist name v uuid).2.generator e).generation =
      (engine.generator e).generation := by
  cases idle : idle? engine.domain.model engine.store.broken name v with
  | some failure => rw [persist_idle idle]
  | none =>
      obtain ⟨f, fields, known', rfl, unbroken⟩ := idle?_eq_none idle
      obtain ⟨-, -, -, generators⟩ := persist_given known' unbroken fields uuid
      rw [generator_put generators]
      split
      · next same =>
        cases eq_of_name named known known' same
        exact given_generation engine e fields uuid
      · rfl

/-- No call turns a generator into one of another kind. -/
theorem serve_generation (named : engine.domain.model.Named)
    (known : engine.domain.model.entity? e.name = some e) (call : Call) :
    ((engine.serve call).2.generator e).generation = (engine.generator e).generation := by
  obtain ⟨request, uuid⟩ := call
  by_cases persists : ∃ name v, request = .persist name v
  · obtain ⟨name, v, rfl⟩ := persists
    exact persist_generation named known name v uuid
  · have other : ∀ name v, request ≠ .persist name v := fun name v same =>
      persists ⟨name, v, same⟩
    exact congrArg IdGenerator.generation
      (generator_of_eq (perform_generators engine other uuid) e)

section Room

variable {a : BasicAttribute} {room : Nat}

/-- The only leaf at the path of the id is the id attribute. -/
theorem eq_idMapping {b : BasicAttribute} (apart : NamedApart e.attributes)
    (isId : e.idMapping? = some a) (inside : ([e.idAttribute], Leaf.basic b) ∈ e.leaves) :
    b = a := by
  have own := leavesOf_at? apart (Entity.id_leaf isId)
  cases (leavesOf_at? apart inside).symm.trans own
  rfl

/-- Where the id is stored as it is, a value that can be stored under one number can be stored under
    any other. -/
theorem storedRow_number {registry : ConverterRegistry} {leaves : List (AttributePath × Leaf)}
    {row : Row} {m : Nat} (plain : ∀ b, ([e.idAttribute], Leaf.basic b) ∈ leaves →
      registry.converterFor b = .ok none)
    (stored : Succeeds (storedRow registry e (.int m) v leaves row)) (n : Nat) (row' : Row) :
    Succeeds (storedRow registry e (.int n) v leaves row') := by
  induction leaves generalizing row row' with
  | nil => exact ⟨row', rfl⟩
  | cons first rest ih =>
      obtain ⟨path, leaf⟩ := first
      have later : ∀ b, ([e.idAttribute], Leaf.basic b) ∈ rest →
          registry.converterFor b = .ok none :=
        fun b inside => plain b (List.mem_cons_of_mem _ inside)
      cases leaf with
      | transient kind => exact ih later stored row'
      | basic b =>
          obtain ⟨final, stored⟩ := stored
          rw [storedRow] at stored ⊢
          obtain ⟨held, own, stored⟩ := bind_eq_ok.mp stored
          have fits : Succeeds (storedValue registry e.name path b
              (if path = [e.idAttribute] then .int n else v.atPath path)) := by
            by_cases isId : path = [e.idAttribute]
            · subst isId
              rw [if_pos rfl] at own ⊢
              obtain ⟨accepted, -⟩ := storedValue_ok own
              refine ⟨.int n, ?_⟩
              have accepted' : b.kind.accepts (Value.int n).kind = true := accepted
              rw [storedValue, if_pos accepted', plain b List.mem_cons_self]
            · rw [if_neg isId] at own ⊢
              exact ⟨held, own⟩
          obtain ⟨held', own'⟩ := fits
          rw [own', ok_bind]
          exact ih later ⟨final, stored⟩ _

/-- Ids of the entity are numbers of a sequence, and stored as they are. -/
structure Sequenced (d : Domain) (e : Entity) (a : BasicAttribute) : Prop where
  named : d.model.Named
  known : d.model.entity? e.name = some e
  apart : NamedApart e.attributes
  columns : (leafColumns e.leaves).Nodup
  isId : e.idMapping? = some a
  plain : d.registry.converterFor a = .ok none

/-- The sequence can give so many numbers more that comparisons tell apart from all that is
    stored. -/
structure HasRoom (engine : Engine) (e : Entity) (room : Nat) : Prop where
  sequence : (engine.generator e).generation = .sequence
  floatless : ∀ x, .float x ∉ storedIds e (engine.rowsBefore e)
  small : (engine.generatorFor e (engine.rowsBefore e)).reached + room < 2 ^ 53

theorem generatorFor_reached (sequence : (engine.generator e).generation = .sequence)
    (rows : List Row) :
    (engine.generatorFor e rows).generation = .sequence ∧
      (engine.generatorFor e rows).reached =
        max (engine.generator e).reached (largest ((storedIds e rows).filterMap Value.toNat?)) := by
  rw [generatorFor_eq]
  exact IdGenerator.observe_sequence_all sequence _

/-- Without a supplied id, a sequence gives the number after the one it has come to. -/
theorem given_next (sequence : (engine.generator e).generation = .sequence)
    (unsupplied : supplied? e fields = none) :
    (engine.given e fields uuid).1 =
        (if (engine.generatorFor e (engine.rowsBefore e)).reached < IdGenerator.last then
          some (.int ((engine.generatorFor e (engine.rowsBefore e)).reached + 1 : Nat))
        else none) ∧
      (engine.given e fields uuid).2.reached ≤
        (engine.generatorFor e (engine.rowsBefore e)).reached + 1 := by
  obtain ⟨sequence', -⟩ := engine.generatorFor_reached sequence (engine.rowsBefore e)
  unfold given
  rw [unsupplied]
  show ((IdGenerator.next _ _).1 = _) ∧ (IdGenerator.next _ _).2.reached ≤ _
  rw [IdGenerator.next_sequence sequence']
  split
  · exact ⟨rfl, Nat.le_refl _⟩
  · exact ⟨rfl, Nat.le_succ _⟩

theorem HasRoom.weaken (room' : engine.HasRoom e (room + 1)) : engine.HasRoom e room :=
  ⟨room'.sequence, room'.floatless, by have := room'.small; omega⟩

theorem HasRoom.of_untouched (room' : engine.HasRoom e room)
    (generator : engine'.generator e = engine.generator e)
    (rows : engine'.store.tables.rows? e.table = engine.store.tables.rows? e.table) :
    engine'.HasRoom e room := by
  have sameRows : engine'.rowsBefore e = engine.rowsBefore e := congrArg (·.getD []) rows
  refine ⟨generator ▸ room'.sequence, sameRows ▸ room'.floatless, ?_⟩
  rw [generatorFor_eq, generator, sameRows, ← generatorFor_eq]
  exact room'.small

/-- The room that is left when the sequence has gone on by one number, which may have been
    stored. -/
theorem HasRoom.next (room' : engine.HasRoom e (room + 1))
    (sequence : (engine'.generator e).generation = .sequence)
    (next : (engine'.generator e).reached ≤
      (engine.generatorFor e (engine.rowsBefore e)).reached + 1)
    (ids : ∀ id ∈ storedIds e (engine'.rowsBefore e), id ∈ storedIds e (engine.rowsBefore e) ∨
      id = .int ((engine.generatorFor e (engine.rowsBefore e)).reached + 1 : Nat)) :
    engine'.HasRoom e room := by
  obtain ⟨-, reached⟩ := engine.generatorFor_reached room'.sequence (engine.rowsBefore e)
  obtain ⟨-, reached'⟩ := engine'.generatorFor_reached sequence (engine'.rowsBefore e)
  have small := room'.small
  refine ⟨sequence, ?_, ?_⟩
  · intro x member
    rcases ids _ member with old | new
    · exact room'.floatless x old
    · cases new
  · have seen : largest ((storedIds e (engine'.rowsBefore e)).filterMap Value.toNat?) ≤
        (engine.generatorFor e (engine.rowsBefore e)).reached + 1 := by
      apply largest_le
      intro n inside
      obtain ⟨id, member, number⟩ := List.mem_filterMap.mp inside
      rcases ids id member with old | rfl
      · have := le_largest (List.mem_filterMap.mpr ⟨id, old, number⟩)
        omega
      · simp only [Value.toNat?, Int.natCast_nonneg, if_true, Int.toNat_natCast,
          Option.some.injEq] at number
        omega
    omega

theorem storedIds_subset {rows more : List Row} (within : ∀ row ∈ rows, row ∈ more) {id : Value}
    (member : id ∈ storedIds e rows) : id ∈ storedIds e more := by
  obtain ⟨row, inside, present⟩ := List.mem_filterMap.mp member
  exact List.mem_filterMap.mpr ⟨row, within row inside, present⟩

/-- The ids in a table after a row with the id was appended. -/
theorem storedIds_concat {rows : List Row} {row : Row} {id : Value}
    (present : Keyed.get? row e.idColumn = some id) :
    storedIds e (rows ++ [row]) = storedIds e rows ++ [id] := by
  simp [storedIds, present]

theorem storedRow_id_present {id : Value} {row : Row} {d : Domain} (sequenced : Sequenced d e a)
    (stored : storedRow d.registry e id v e.leaves [] = .ok row) :
    Keyed.get? row e.idColumn = some id := by
  have own := storedRow_id sequenced.isId sequenced.plain sequenced.columns stored
  obtain ⟨held, present⟩ := Option.isSome_iff_exists.mp
    ((storedRow_present stored).2 _ a (Entity.id_leaf sequenced.isId))
  rw [← Entity.idColumn_eq sequenced.isId] at present
  rw [Row.stored, present] at own
  exact present.trans (congrArg some own)

theorem accepted_of_delete {q : DeleteQuery} (deleted : Succeeds (engine.delete q).1) :
    Succeeds (q.compile engine.domain) := by
  unfold Engine.delete at deleted
  cases accepted : q.compile engine.domain with
  | error failure =>
      rw [accepted] at deleted
      exact absurd deleted (not_succeeds_error _)
  | ok compiled => exact succeeds_ok compiled

/-- A statement on the table of the entity changes nothing else. -/
theorem delete_elsewhere {q : DeleteQuery} (own : q.table? engine.domain.model = some e.table) :
    engine.Elsewhere e (engine.delete q).2 := by
  rcases engine.delete_cases q with ⟨failure, refused⟩ |
    ⟨f, rows, count, after, done, known, deletes⟩
  · rw [refused]
    exact .refl e engine
  · have generators := generator_of_eq (delete_generators engine q)
    rw [done] at generators ⊢
    rw [DeleteQuery.table?, known] at own
    have own : f.table = e.table := Option.some.inj own
    refine ⟨deletes.domain, by rw [deletes.store], ?_, fun h _ => generators h⟩
    exact fun table other => deletes.replaced.others table (own ▸ other)

theorem succeeds_map {α β : Type} {x y : Except ExecutionError α} {f : α → β}
    (succeeds : Succeeds x → Succeeds y) (mapped : Succeeds (x.map f)) : Succeeds (y.map f) := by
  obtain ⟨b, mapped⟩ := mapped
  obtain ⟨a, done, -⟩ := map_eq_ok.mp mapped
  obtain ⟨a', done'⟩ := succeeds ⟨a, done⟩
  exact ⟨f a', map_eq_ok.mpr ⟨a', done', rfl⟩⟩

/-- The second engine differs from the first one at most in the table of the entity and in its
    generator, and its sequence has room for so many numbers more. -/
structure Ahead (e : Entity) (a : BasicAttribute) (room : Nat) (engine engine' : Engine) :
    Prop where
  elsewhere : engine.Elsewhere e engine'
  sequenced : Sequenced engine'.domain e a
  provided : engine'.Provided
  sequence : (engine.generator e).generation = .sequence
  room : engine'.HasRoom e room

namespace Ahead

theorem after {call : Call} {left : Nat} (ahead : engine.Ahead e a room engine')
    (elsewhere : (engine.serve call).2.Elsewhere e (engine'.serve call).2)
    (room' : (engine'.serve call).2.HasRoom e left) :
    (engine.serve call).2.Ahead e a left (engine'.serve call).2 where
  elsewhere := elsewhere
  sequenced := by
    rw [serve_domain]
    exact ahead.sequenced
  provided := ahead.provided.operate (.call call)
  sequence := by
    have domain := ahead.elsewhere.domain
    rw [serve_generation (domain ▸ ahead.sequenced.named) (domain ▸ ahead.sequenced.known)]
    exact ahead.sequence
  room := room'

variable (ahead : engine.Ahead e a (room + 1) engine')
include ahead

/-- A value that the first engine stores under a number of its own is stored by the second one under
    the next number, and uses up the room for one. -/
theorem persist (unsupplied : supplied? e fields = none) :
    (Succeeds (engine.persist e.name (.object fields) uuid).1 →
        Succeeds (engine'.persist e.name (.object fields) uuid).1) ∧
      (engine'.persist e.name (.object fields) uuid).2.HasRoom e room := by
  obtain ⟨elsewhere, sequenced, provided, sequence, room'⟩ := ahead
  have small := room'.small
  have within : (engine'.generatorFor e (engine'.rowsBefore e)).reached < IdGenerator.last := by
    unfold IdGenerator.last
    omega
  obtain ⟨id', reached'⟩ := given_next room'.sequence unsupplied
  rw [if_pos within] at id'
  obtain ⟨id, -⟩ := given_next sequence unsupplied
  have unbroken' := provided.unbroken _ e sequenced.known
  obtain ⟨answer, -, -, -⟩ := persist_given (elsewhere.domain ▸ sequenced.known)
    (elsewhere.broken.symm.trans unbroken') fields uuid
  obtain ⟨-, -, store, generators⟩ := persist_given sequenced.known unbroken' fields uuid
  constructor
  · intro succeeded
    rw [answer] at succeeded
    rcases engine.settle_cases e fields (engine.given e fields uuid).1 with ⟨failure, settled⟩ |
      ⟨given, row, assigned, created, settled⟩
    · rw [settled] at succeeded
      exact absurd succeeded (not_succeeds_error _)
    · rw [id] at assigned
      split at assigned
      · cases assigned
        have stored := (newRow_ok created).1
        rw [← elsewhere.domain] at stored
        obtain ⟨row', stored'⟩ := storedRow_number
          (fun b inside => eq_idMapping sequenced.apart sequenced.isId inside ▸ sequenced.plain)
          ⟨row, stored⟩ ((engine'.generatorFor e (engine'.rowsBefore e)).reached + 1) []
        have offers : engine'.Offers e.name e fields uuid
            (.int ((engine'.generatorFor e (engine'.rowsBefore e)).reached + 1 : Nat)) row' :=
          ⟨sequenced.known, unbroken', (engine'.assignId_given e fields uuid).1.trans id', stored'⟩
        exact ⟨_, offers.persist_generated sequenced.isId sequenced.plain sequenced.columns rfl
          (by omega) unsupplied room'.sequence
          fun x member => absurd member (room'.floatless x)⟩
      · cases assigned
  · have generator : (engine'.persist e.name (.object fields) uuid).2.generator e =
        (engine'.given e fields uuid).2 := by
      rw [generator_put generators, if_pos rfl]
    refine room'.next (by rw [generator, given_generation, room'.sequence])
      (generator ▸ reached') ?_
    unfold rowsBefore
    rw [store]
    rcases engine'.settle_cases e fields (engine'.given e fields uuid).1 with ⟨failure, settled⟩ |
      ⟨given, row, assigned, created, settled⟩
    · rw [settled]
      exact fun id member => .inl member
    · rw [id'] at assigned
      cases assigned
      have present := storedRow_id_present sequenced (newRow_ok created).1
      rw [settled, (Tables.replaces_append _ _ _).own, Option.getD_some, storedIds_concat present]
      intro id member
      exact (List.mem_append.mp member).imp_right List.mem_singleton.mp

theorem delete (q : DeleteQuery) :
    (Succeeds (engine.delete q).1 → Succeeds (engine'.delete q).1) ∧
      (engine'.delete q).2.HasRoom e room := by
  constructor
  · intro deleted
    have compiles := accepted_of_delete deleted
    rw [← ahead.elsewhere.domain] at compiles
    exact ahead.provided.delete_succeeds compiles
  · have generator := generator_of_eq (delete_generators engine' q) e
    rcases engine'.delete_cases q with ⟨failure, refused⟩ |
      ⟨f, rows, count, after, done, known, deletes⟩
    · rw [refused]
      exact ahead.room.weaken
    · rw [done] at generator ⊢
      have reached : (after.generator e).reached ≤
          (engine'.generatorFor e (engine'.rowsBefore e)).reached + 1 := by
        obtain ⟨-, seen⟩ :=
          engine'.generatorFor_reached ahead.room.sequence (engine'.rowsBefore e)
        rw [generator]
        omega
      refine ahead.room.next (generator ▸ ahead.room.sequence) reached ?_
      intro id member
      refine .inl (storedIds_subset (fun row inside => ?_) member)
      by_cases own : e.table = f.table
      · unfold rowsBefore at inside ⊢
        rw [own, deletes.replaced.own] at inside
        rw [own, deletes.stored]
        exact (List.mem_filter.mp inside).1
      · unfold rowsBefore at inside ⊢
        rwa [deletes.replaced.others _ own] at inside

theorem list {q : Query} (unconverted : q.Unconverted engine.domain)
    (listed : Succeeds (engine.list q)) : Succeeds (engine'.list q) := by
  obtain ⟨xs, listed⟩ := listed
  obtain ⟨compiled, accepted⟩ := accepted_of_list listed
  have domain := ahead.elsewhere.domain
  rcases ahead.provided.list_cases (q := q) ⟨compiled, by rw [domain, accepted]⟩ with found |
    ⟨f, rows, row, failure, about, -, refuses, -⟩
  · exact found
  · obtain ⟨member, reads, own, leaf, refuses⟩ := refuses
    obtain ⟨effective, -⟩ := refuses
    rw [domain] at effective about
    exact absurd effective (unconverted f (solutions_entity about) _ member _ reads _ leaf _)

/-- A value that asks for an id gets one, and what is indifferent to ids does not notice. -/
theorem serve {call : Call} (each : call.generates e = true ∨
      call.request.Indifferent engine.domain e) :
    (Succeeds (engine.serve call).1 → Succeeds (engine'.serve call).1) ∧
      (engine.serve call).2.Ahead e a room (engine'.serve call).2 := by
  have domain := ahead.elsewhere.domain
  obtain ⟨request, uuid⟩ := call
  rcases each with generates | indifferent
  · obtain ⟨fields, rfl, unsupplied⟩ := Call.generates_iff.mp generates
    obtain ⟨succeeds, left⟩ := ahead.persist unsupplied
    refine ⟨succeeds_map succeeds, ahead.after ?_ left⟩
    have first : engine.Elsewhere e (engine.persist e.name (.object fields) uuid).2 :=
      persist_elsewhere (domain ▸ ahead.sequenced.known)
    have second : engine'.Elsewhere e (engine'.persist e.name (.object fields) uuid).2 :=
      persist_elsewhere ahead.sequenced.known
    exact ahead.elsewhere.both first second
  · cases indifferent with
    | avoids avoids =>
        obtain ⟨answer, after⟩ :=
          @Elsewhere.serve engine engine' e ahead.elsewhere ⟨request, uuid⟩ avoids
        obtain ⟨generator, rows⟩ := engine'.perform_untouched (by rwa [domain])
        refine ⟨fun succeeded => answer ▸ succeeded, ahead.after after ?_⟩
        exact ahead.room.weaken.of_untouched generator rows
    | @removes q own =>
        obtain ⟨succeeds, left⟩ := ahead.delete q
        refine ⟨succeeds_map succeeds, ahead.after ?_ left⟩
        exact ahead.elsewhere.both (delete_elsewhere own) (delete_elsewhere (by rwa [domain]))
    | lists unconverted =>
        refine ⟨succeeds_map (ahead.list unconverted), ahead.after ahead.elsewhere ?_⟩
        exact ahead.room.weaken

end Ahead

/-- What would have succeeded still succeeds. -/
theorem Ahead.answers {calls : List Call} (ahead : engine.Ahead e a calls.length engine')
    (each : ∀ call ∈ calls,
      call.generates e = true ∨ call.request.Indifferent engine.domain e) :
    List.Forall₂ (fun answer answer' => Succeeds answer → Succeeds answer')
      (engine.answers calls) (engine'.answers calls) := by
  induction calls generalizing engine engine' with
  | nil => exact .nil
  | cons call rest ih =>
      obtain ⟨succeeds, after⟩ := ahead.serve (each call List.mem_cons_self)
      refine .cons succeeds (ih after ?_)
      rw [serve_domain]
      exact fun other inside => each other (List.mem_cons_of_mem _ inside)

end Room

end Engine

end EntityQuery
