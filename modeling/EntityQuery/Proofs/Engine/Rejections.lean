import EntityQuery.Proofs.Engine.Gaps

/-! # After a refused value

A value that is refused leaves nothing behind but the number that the sequence of its entity has
come to. So whatever is called afterwards has the same answers, unless it asks this sequence for an
id; and as long as the sequence has room, and nothing looks at the ids it gives, what would have
succeeded still succeeds.
-/

namespace EntityQuery

namespace Engine

/-- Two engines that differ at most in what the sequence of the entity has come to. -/
structure Alike (e : Entity) (engine engine' : Engine) : Prop where
  domain : engine'.domain = engine.domain
  store : engine'.store = engine.store
  generators : ∀ f : Entity, f.name ≠ e.name → engine'.generator f = engine.generator f
  own : engine'.generator e = engine.generator e ∨
    (engine.generator e).generation = .sequence ∧ (engine'.generator e).generation = .sequence

variable {engine engine' : Engine} {e f : Entity} {name : String} {v : Value}
  {fields : Fields} {uuid : String}

theorem Alike.elsewhere (alike : engine.Alike e engine') : engine.Elsewhere e engine' :=
  ⟨alike.domain, by rw [alike.store], fun _ _ => by rw [alike.store], alike.generators⟩

theorem Alike.refl (e : Entity) (engine : Engine) : engine.Alike e engine :=
  ⟨rfl, rfl, fun _ _ => rfl, .inl rfl⟩

/-- A value that is refused leaves nothing behind but what the sequence of its entity has come
    to. -/
theorem persist_refused_alike {failure : ExecutionError}
    (known : engine.domain.model.entity? name = some e)
    (refused : (engine.persist name v uuid).1 = .error failure) :
    engine.Alike e (engine.persist name v uuid).2 := by
  cases idle : idle? engine.domain.model engine.store.broken name v with
  | some failure =>
      rw [persist_idle idle]
      exact .refl e engine
  | none =>
      obtain ⟨f, fields, known', rfl, unbroken⟩ := idle?_eq_none idle
      cases known.symm.trans known'
      obtain ⟨answer, domain, store, generators⟩ := persist_given known unbroken fields uuid
      refine ⟨domain, ?_, (persist_elsewhere known).generators, ?_⟩
      · rw [store]
        rw [answer] at refused
        rcases engine.settle_cases e fields (engine.given e fields uuid).1 with ⟨failure, settled⟩ |
          ⟨id, row, -, -, settled⟩
        · rw [settled]
        · rw [settled] at refused
          cases refused
      · rw [generator_put generators, if_pos rfl, engine.given_generation]
        by_cases sequence : (engine.generator e).generation = .sequence
        · exact .inr ⟨sequence, sequence⟩
        · exact .inl (given_of_ne sequence fields uuid)

theorem settle_congr (domain : engine'.domain = engine.domain)
    (store : engine'.store = engine.store) (id : Option Value) :
    engine'.settle f fields id = engine.settle f fields id := by
  obtain ⟨d, s, generators⟩ := engine
  obtain ⟨d', s', generators'⟩ := engine'
  cases domain
  cases store
  rfl

theorem perform_congr {request : Request} (other : ∀ name v, request ≠ .persist name v)
    (domain : engine'.domain = engine.domain) (store : engine'.store = engine.store)
    (uuid : String) :
    (engine'.perform request uuid).1 = (engine.perform request uuid).1 ∧
      (engine'.perform request uuid).2.domain = (engine.perform request uuid).2.domain ∧
      (engine'.perform request uuid).2.store = (engine.perform request uuid).2.store := by
  obtain ⟨d, s, generators⟩ := engine
  obtain ⟨d', s', generators'⟩ := engine'
  cases domain
  cases store
  cases request with
  | persist name v => exact absurd rfl (other name v)
  | list q | uniqueResult q => exact ⟨rfl, rfl, rfl⟩
  | delete q =>
      simp only [perform, delete, pruning]
      cases compiling (q.compile d) with
      | error failure => exact ⟨rfl, rfl, rfl⟩
      | ok compiled =>
          simp only
          cases s.delete (if d.config.pruneColumns then some compiled.usage else none)
              compiled.statement <;> exact ⟨rfl, rfl, rfl⟩
  | load table data =>
      simp only [perform]
      cases s.load table data <;> exact ⟨rfl, rfl, rfl⟩
  | loadFile table contents =>
      simp only [perform]
      cases s.loadFile table contents <;> exact ⟨rfl, rfl, rfl⟩

namespace Alike

variable (alike : engine.Alike e engine')
include alike

/-- Where no id is asked of the sequence, the ids agree, and so do the generators but perhaps for
    what the sequence has come to. -/
theorem given (named : engine.domain.model.Named)
    (known : engine.domain.model.entity? e.name = some e)
    (known' : engine.domain.model.entity? name = some f)
    (supplied : (engine.generator e).generation = .sequence → f = e →
      ∃ id, supplied? e fields = some id) :
    (engine'.given f fields uuid).1 = (engine.given f fields uuid).1 ∧
      ((engine'.given f fields uuid).2 = (engine.given f fields uuid).2 ∨
        f = e ∧ (engine.generator e).generation = .sequence ∧
          (engine'.generator e).generation = .sequence) := by
  have rows : engine'.rowsBefore f = engine.rowsBefore f := by
    unfold rowsBefore
    rw [alike.store]
  by_cases same : f.name = e.name
  · cases eq_of_name named known known' same
    rcases alike.own with own | ⟨sequence, sequence'⟩
    · rw [given_congr own rows]
      exact ⟨rfl, .inl rfl⟩
    · obtain ⟨id, isSome⟩ := supplied sequence rfl
      refine ⟨?_, .inr ⟨rfl, sequence, sequence'⟩⟩
      rw [given_supplied isSome, given_supplied isSome]
  · rw [given_congr (alike.generators f same) rows]
    exact ⟨rfl, .inl rfl⟩

/-- Persisting a value has the same answer for both, unless it asks the sequence for an id. -/
theorem persist (named : engine.domain.model.Named)
    (known : engine.domain.model.entity? e.name = some e)
    (supplied : ∀ fields, name = e.name → v = .object fields →
      (engine.generator e).generation = .sequence → ∃ id, supplied? e fields = some id)
    (uuid : String) :
    (engine'.persist name v uuid).1 = (engine.persist name v uuid).1 ∧
      (engine.persist name v uuid).2.Alike e (engine'.persist name v uuid).2 := by
  have domain := alike.domain
  have store := alike.store
  cases idle : idle? engine.domain.model engine.store.broken name v with
  | some failure =>
      have idle' : idle? engine'.domain.model engine'.store.broken name v = some failure := by
        rw [domain, store, idle]
      rw [persist_idle idle, persist_idle idle']
      exact ⟨rfl, alike⟩
  | none =>
      obtain ⟨f, fields, known', rfl, unbroken⟩ := idle?_eq_none idle
      have known'' : engine'.domain.model.entity? name = some f := by rw [domain, known']
      obtain ⟨answer, domain₁, store₁, generators⟩ := persist_given known' unbroken fields uuid
      obtain ⟨answer', domain₁', store₁', generators'⟩ :=
        persist_given known'' (by rw [store, unbroken]) fields uuid
      obtain ⟨ids, given⟩ := alike.given named known known' fun sequence same =>
        supplied fields (by rw [← same, named name f known']) rfl sequence
      refine ⟨by rw [answer, answer', ids, settle_congr domain store], ?_, ?_, ?_, ?_⟩
      · rw [domain₁, domain₁', domain]
      · rw [store₁, store₁', ids, settle_congr domain store]
      · intro h other
        rw [generator_put generators, generator_put generators']
        split
        · next same =>
          rcases given with given | ⟨rfl, -, -⟩
          · exact given
          · exact absurd same.symm other
        · exact alike.generators h other
      · rw [generator_put generators, generator_put generators']
        split
        · next same =>
          cases eq_of_name named known known' same
          rw [engine.given_generation, engine'.given_generation]
          exact given.imp_right And.right
        · exact alike.own

/-- Calls that ask for no id of the sequence have the same answer, and leave the engines alike. -/
theorem serve (named : engine.domain.model.Named)
    (known : engine.domain.model.entity? e.name = some e) {call : Call}
    (ungenerated : (engine.generator e).generation = .sequence → call.generates e = false) :
    (engine'.serve call).1 = (engine.serve call).1 ∧
      (engine.serve call).2.Alike e (engine'.serve call).2 := by
  obtain ⟨request, uuid⟩ := call
  by_cases persists : ∃ name v, request = .persist name v
  · obtain ⟨name, v, rfl⟩ := persists
    have supplied : ∀ fields, name = e.name → v = .object fields →
        (engine.generator e).generation = .sequence → ∃ id, supplied? e fields = some id := by
      rintro fields rfl rfl sequence
      simpa [Call.generates, Option.isSome_iff_exists] using ungenerated sequence
    obtain ⟨answer, after⟩ := alike.persist named known supplied uuid
    simp only [Engine.serve, perform]
    exact ⟨congrArg (Except.map Answer.id) answer, after⟩
  · have other : ∀ name v, request ≠ .persist name v := fun name v same =>
      persists ⟨name, v, same⟩
    obtain ⟨answer, domain, store⟩ := perform_congr other alike.domain alike.store uuid
    have generators := generator_of_eq (perform_generators engine other uuid)
    have generators' := generator_of_eq (perform_generators engine' other uuid)
    refine ⟨answer, domain, store, ?_, ?_⟩
    · intro f different
      exact (generators' f).trans ((alike.generators f different).trans (generators f).symm)
    · unfold Engine.serve
      simp only [generators, generators']
      exact alike.own

end Alike

theorem Alike.answers (alike : engine.Alike e engine') (named : engine.domain.model.Named)
    (known : engine.domain.model.entity? e.name = some e) {calls : List Call}
    (ungenerated : (engine.generator e).generation = .sequence →
      ∀ call ∈ calls, call.generates e = false) :
    engine'.answers calls = engine.answers calls := by
  induction calls generalizing engine engine' with
  | nil => rfl
  | cons call rest ih =>
      obtain ⟨answer, after⟩ := alike.serve named known fun sequence =>
        ungenerated sequence call List.mem_cons_self
      have domain := serve_domain engine call
      have later := ih after (by rwa [domain]) (by rwa [domain]) fun sequence other inside =>
        ungenerated ((serve_generation named known call).symm.trans sequence) other
          (List.mem_cons_of_mem _ inside)
      rw [Engine.answers, Engine.answers, answer, later]

/-- A value that is refused leaves the model and the store as they are, whatever the reason. What is
    called afterwards has the answers that it would have had without the refused call, unless the
    sequence of the entity is asked for an id. As long as this sequence has room, and the other
    calls are indifferent to the ids, asking is harmless as well: whatever would have succeeded still
    succeeds, with other ids perhaps. -/
theorem persist_refused {failure : ExecutionError} (named : engine.domain.model.Named)
    (refused : (engine.persist name v uuid).1 = .error failure) :
    (engine.persist name v uuid).2.domain = engine.domain ∧
      (engine.persist name v uuid).2.store = engine.store ∧
      (engine.domain.model.entity? name = none → (engine.persist name v uuid).2 = engine) ∧
      ∀ e, engine.domain.model.entity? name = some e →
        (∀ calls, ((engine.generator e).generation = .sequence →
            ∀ call ∈ calls, call.generates e = false) →
          (engine.persist name v uuid).2.answers calls = engine.answers calls) ∧
        ∀ a calls, Sequenced engine.domain e a → engine.Provided →
          (engine.persist name v uuid).2.HasRoom e calls.length →
          (∀ call ∈ calls, call.generates e = true ∨ call.request.Indifferent engine.domain e) →
          List.Forall₂ (fun answer answer' => Succeeds answer → Succeeds answer')
            (engine.answers calls) ((engine.persist name v uuid).2.answers calls) := by
  cases known : engine.domain.model.entity? name with
  | none =>
      have idle : idle? engine.domain.model engine.store.broken name v =
          some (.compile (.unknownEntity name)) := by simp only [idle?, known]
      rw [persist_idle idle]
      exact ⟨rfl, rfl, fun _ => rfl, fun _ unknown => by cases unknown⟩
  | some e =>
      have alike := persist_refused_alike known refused
      refine ⟨alike.domain, alike.store, (fun unknown => by cases unknown), ?_⟩
      rintro f ⟨⟩
      obtain rfl := named name e known
      refine ⟨fun calls => alike.answers named known, ?_⟩
      intro a calls sequenced provided room each
      have provided' : (engine.persist e.name v uuid).2.Provided := by
        refine ⟨?_, ?_⟩
        · rw [alike.domain, alike.store]
          exact provided.tables
        · rw [alike.domain, alike.store]
          exact provided.unbroken
      have sequence := (persist_generation named known e.name v uuid).symm.trans room.sequence
      exact Ahead.answers
        ⟨alike.elsewhere, alike.domain ▸ sequenced, provided', sequence, room⟩ each

end Engine

namespace Sample

/-- The counter after a ticket with these fields was refused. -/
def bothered (fields : Fields) : Engine := (counter.persist "Ticket" (.object fields) uuid).2

def ask (request : Request) : Call := ⟨request, uuid⟩

/-- A ticket comes without an id and goes, another one stays and is listed, and something is stored
    for nobody. -/
def afternoon : List Call :=
  [ask (.persist "Ticket" (.object (titled "a"))),
    ask (.delete
      { target := ⟨"Ticket", "t"⟩
        restriction := some (.compare (.ref ⟨"t", ["title"]⟩) .eq (.literal (.string "a"))) }),
    ask (.persist "Ticket" (.object (titled "b"))), ask (.list { root := ⟨"Ticket", "t"⟩ }),
    ask (.load "lost" (.array []))]

/-- A ticket with an id comes, and all are listed. -/
def morning : List Call :=
  [ask (.persist "Ticket" (.object (("id", .int 1) :: titled "a"))),
    ask (.list { root := ⟨"Ticket", "t"⟩ })]

theorem ticket_sequenced :
    Engine.Sequenced counter.domain ticket { column := "id", kind := .int } where
  named := Model.named_empty.withEntity ticket
  known := rfl
  apart := by simp [ticket, NamedApart, AttributeMapping.Named]
  columns := ticket_columns
  isId := rfl
  plain := rfl

theorem tickets_unconverted :
    Query.Unconverted counter.domain { root := ⟨"Ticket", "t"⟩ } := by
  intro e known selection member path reads a leaf c effective
  cases (known : some ticket = some e)
  obtain rfl := List.mem_singleton.mp member
  cases reads
  have leaves : (ticket.leavesAt ⟨"t", []⟩).map (·.2) =
      [.basic { column := "id", kind := .int }, .basic { column := "title", kind := .string }] :=
    rfl
  rw [leaves] at leaf
  simp only [List.mem_cons, List.not_mem_nil, or_false, Leaf.basic.injEq] at leaf
  rcases leaf with rfl | rfl <;> cases effective

end Sample

theorem Engine.persist_refused_untitled :
    (Sample.counter.persist "Ticket" (.object [("title", .int 5)]) Sample.uuid).1.isOk = false ∧
      (Sample.bothered [("title", .int 5)]).store = Sample.counter.store ∧
      (Sample.bothered [("title", .int 5)]).answers Sample.morning =
        Sample.counter.answers Sample.morning ∧
      List.Forall₂ (fun answer answer' => Succeeds answer → Succeeds answer')
        (Sample.counter.answers Sample.afternoon)
        ((Sample.bothered [("title", .int 5)]).answers Sample.afternoon) ∧
      (Sample.counter.answers Sample.afternoon).map Except.toOption =
        [some (.id (.int 1)), some (.count 1), some (.id (.int 2)),
          some (.values [.object (Sample.ticketRow 2 "b")]), some (.count 0)] ∧
      ((Sample.bothered [("title", .int 5)]).answers Sample.afternoon).map Except.toOption =
        [some (.id (.int 2)), some (.count 1), some (.id (.int 3)),
          some (.values [.object (Sample.ticketRow 3 "b")]), some (.count 0)] := by
  have sequenced := Sample.ticket_sequenced
  obtain ⟨failure, refused⟩ : ∃ failure,
      (Sample.counter.persist "Ticket" (.object [("title", .int 5)]) Sample.uuid).1 =
        .error failure := ⟨_, rfl⟩
  obtain ⟨-, store, -, after⟩ := Engine.persist_refused sequenced.named refused
  obtain ⟨same, succeed⟩ := after Sample.ticket rfl
  refine ⟨by rw [refused]; rfl, store, same _ fun _ => by decide +kernel, ?_, by decide +kernel,
    by decide +kernel⟩
  have started : Engine.start {} Sample.counter.domain = .ok Sample.counter := rfl
  refine succeed _ _ sequenced (Engine.start_provided started) ⟨rfl, nofun, by decide +kernel⟩ ?_
  intro call inside
  simp only [Sample.afternoon, List.mem_cons, List.not_mem_nil, or_false] at inside
  rcases inside with rfl | rfl | rfl | rfl | rfl
  · exact .inl (by decide +kernel)
  · exact .inr (.removes rfl)
  · exact .inl (by decide +kernel)
  · exact .inr (.lists Sample.tickets_unconverted)
  · exact .inr (.avoids (by decide : "lost" ≠ "tickets"))

/-- A refused ticket with the largest id takes the sequence to its end, though no row has this id:
    no ticket gets an id any more, where the first one would have had the id 1. -/
theorem Engine.persist_refused_exhausts :
    (Sample.counter.persist "Ticket"
          (.object [("id", .int IdGenerator.last), ("title", .int 5)]) Sample.uuid).1 =
        .error (.invalidData (.wrongKind "Ticket" ["title"] .string (.int 5))) ∧
      ((Sample.counter.persist "Ticket"
          (.object [("id", .int IdGenerator.last), ("title", .int 5)]) Sample.uuid).2.persist
            "Ticket" (.object (Sample.titled "a")) Sample.uuid).1 = .error (.missingId "Ticket") ∧
      (Sample.counter.persist "Ticket" (.object (Sample.titled "a")) Sample.uuid).1 =
        .ok (.int 1) :=
  ⟨rfl, rfl, rfl⟩

end EntityQuery
