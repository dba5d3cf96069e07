import EntityQuery.Proofs.Resolver.Ordered

/-! # Runs of a resolver

A session is a resolver in use: requests for slots come in any order, and in between listeners and
clauses are swapped and swapped back. The session keeps a record of the requests, of whether a slot
was created for them, and of who listened at that moment; the main statement ties slots, answers and
announcements to that record after every sequence of steps.
-/

namespace EntityQuery

/-- What may happen to the resolver of a block while the block compiles. -/
inductive ResolverStep (ω : Type) where
  | resolve (e : Expression) (kind : Kind)
  | placeholder
  | swapListener (listener : Option ω)
  | dropListener (guard : Nat)
  | swapClause (clause : Clause)
  | dropClause (guard : Nat)

/-- A request for a slot, as it was answered. -/
structure SlotRequest (ω : Type) where
  key : SlotKey
  answer : Except CompileError Slot
  /-- Whether the slot was created for this request. -/
  isNew : Bool
  listener : Option ω

namespace SlotRequest

variable {ω : Type}

/-- Whether the request is for the slot of the expression. -/
def isFor (request : SlotRequest ω) (e : Expression) : Bool :=
  match request.key with
  | .expression other => other.same e
  | .placeholder => false

/-- The slot that was created for the request, if there is one. -/
def created? (request : SlotRequest ω) : Option Slot :=
  if request.isNew then request.answer.toOption else none

/-- What was announced when the request was made: the new slot to whoever listened. -/
def announced? (request : SlotRequest ω) : Option (ω × Slot) :=
  match request.listener, request.created? with
  | some listener, some slot => some (listener, slot)
  | _, _ => none

end SlotRequest

structure ResolverSession (ω : Type) where
  resolver : Resolver ω
  clause : SwapCell Clause
  requests : List (SlotRequest ω) := []

namespace ResolverSession

variable {ω : Type}

/-- The session of a new resolver. -/
def start (id : Nat) (table : TableRef) (listener : Option ω) (clause : Clause) :
    ResolverSession ω :=
  { resolver := .new id table listener, clause := ⟨clause, []⟩ }

/-- Record a request for a key, after which the resolver is `r`. -/
def record (s : ResolverSession ω) (key : SlotKey) (answer : Except CompileError Slot)
    (r : Resolver ω) : ResolverSession ω :=
  { s with
    resolver := r
    requests :=
      s.requests ++
        [⟨key, answer, decide (s.resolver.count < r.count),
          s.resolver.announcements.listener.current⟩] }

def step (s : ResolverSession ω) : ResolverStep ω → ResolverSession ω
  | .resolve e kind =>
      let (slot, r) := s.resolver.resolve e kind
      s.record (.expression e) (.ok slot) r
  | .placeholder =>
      match s.resolver.placeholder with
      | .ok (slot, r) => s.record .placeholder (.ok slot) r
      | .error refusal => s.record .placeholder (.error refusal) s.resolver
  | .swapListener listener =>
      { s with
        resolver :=
          { s.resolver with announcements := s.resolver.announcements.swap listener } }
  | .dropListener guard =>
      { s with
        resolver := { s.resolver with announcements := s.resolver.announcements.drop guard } }
  | .swapClause clause => { s with clause := s.clause.swap clause }
  | .dropClause guard => { s with clause := s.clause.drop guard }

def run (s : ResolverSession ω) (steps : List (ResolverStep ω)) : ResolverSession ω :=
  steps.foldl step s

/-- How the resolver of a session belongs to the record of requests. -/
structure Recorded (s : ResolverSession ω) : Prop where
  ordered : s.resolver.Ordered
  one_empty : (s.resolver.block.select.filter Slot.isEmpty).length ≤ 1
  /-- An expression has a slot exactly if it was requested: the one that its first request got. -/
  resolved_eq : ∀ e, (s.resolver.resolved? e).map Except.ok =
    (s.requests.find? (·.isFor e)).map (·.answer)
  /-- The slots are those that were created for requests. -/
  created_eq : s.resolver.block.select = s.requests.filterMap SlotRequest.created?
  /-- Every slot was announced once, to whoever listened when it was created. -/
  heard_eq : s.resolver.announcements.heard = s.requests.filterMap SlotRequest.announced?

theorem start_recorded (id : Nat) (table : TableRef) (listener : Option ω) (clause : Clause) :
    (start id table listener clause).Recorded where
  ordered := Resolver.announcing_ordered id table (.new listener)
  one_empty := by simp [start, Resolver.new, Resolver.announcing]
  resolved_eq := by
    intro e
    rfl
  created_eq := rfl
  heard_eq := rfl

/-- Expressions that are the same one have the same slot. -/
theorem resolved?_congr (r : Resolver ω) {e other : Expression} (same : e.same other = true) :
    r.resolved? e = r.resolved? other := by
  have key : (SlotKey.expression e).identity = (SlotKey.expression other).identity := by
    simpa [Expression.same, SlotKey.identity] using same
  rw [Resolver.resolved?, Resolver.resolved?, Resolver.slotOf?_eq, Resolver.slotOf?_eq, key]

theorem count_create (r : Resolver ω) (key : SlotKey) (kind : Kind) :
    r.count < (r.create key kind).2.count := by
  show r.assigned.length < (r.create key kind).2.assigned.length
  rw [Resolver.create_assigned, List.length_append]
  exact Nat.lt_succ_self _

/-- A request that creates no slot only adds to the record. Where it was for an expression, the
    expression had a slot, and that was the answer. -/
theorem Recorded.repeated {s : ResolverSession ω} (recorded : s.Recorded) {key : SlotKey}
    {answer : Except CompileError Slot}
    (known : ∀ e, key = .expression e → (s.resolver.resolved? e).map Except.ok = some answer) :
    (s.record key answer s.resolver).Recorded where
  ordered := recorded.ordered
  one_empty := recorded.one_empty
  resolved_eq := by
    intro e
    show _ = ((s.requests ++ [_]).find? _).map _
    rw [List.find?_append]
    cases earlier : s.requests.find? (·.isFor e) with
    | some request =>
        have old := recorded.resolved_eq e
        rw [earlier] at old
        exact old
    | none =>
        have unresolved := recorded.resolved_eq e
        rw [earlier] at unresolved
        have mismatch : ∀ other, key = .expression other → other.same e = false := by
          intro other isKey
          apply Bool.eq_false_iff.mpr
          intro same
          have resolved := known other isKey
          rw [resolved?_congr s.resolver same, unresolved] at resolved
          cases resolved
        cases key with
        | expression other => simpa [SlotRequest.isFor, record, mismatch other rfl] using unresolved
        | placeholder => simpa [SlotRequest.isFor, record] using unresolved
  created_eq := by
    show _ = (s.requests ++ [_]).filterMap _
    rw [List.filterMap_append, ← recorded.created_eq]
    simp [SlotRequest.created?, record]
  heard_eq := by
    show _ = (s.requests ++ [_]).filterMap _
    rw [List.filterMap_append, ← recorded.heard_eq]
    simp [SlotRequest.announced?, SlotRequest.created?, record]

/-- A request that creates a slot adds to the record what was created and announced. -/
theorem Recorded.created {s : ResolverSession ω} (recorded : s.Recorded) {key : SlotKey}
    (kind : Kind) (fresh : s.resolver.slotOf? key = none)
    (allowed : key = .placeholder → s.resolver.block.select ≠ []) :
    (s.record key (.ok (s.resolver.create key kind).1) (s.resolver.create key kind).2).Recorded where
  ordered := recorded.ordered.create kind fresh allowed
  one_empty := by
    show ((s.resolver.create key kind).2.block.select.filter _).length ≤ 1
    rw [Resolver.create_select, List.filter_append, List.length_append]
    cases key with
    | expression e => simpa [SlotKey.slot, Slot.isEmpty] using recorded.one_empty
    | placeholder =>
        have filled := recorded.ordered.all_filled fresh
        have none_empty : s.resolver.block.select.filter Slot.isEmpty = [] := by
          simpa [List.filter_eq_nil_iff] using filled
        rw [none_empty, List.length_nil, Nat.zero_add]
        exact List.length_filter_le _ [_]
  resolved_eq := by
    intro e
    show ((s.resolver.create key kind).2.slotOf? (.expression e)).map _ =
      ((s.requests ++ [_]).find? _).map _
    rw [Resolver.slotOf?_create kind fresh, List.find?_append]
    have old := recorded.resolved_eq e
    cases key with
    | placeholder =>
        simp only [SlotKey.identity, reduceCtorEq, if_false, SlotRequest.isFor, List.find?_cons,
          List.find?_nil, Option.or_none]
        exact old
    | expression other =>
        cases same : other.same e with
        | false =>
            have different : other.identity ≠ e.identity := by
              simpa [Expression.same] using same
            simp only [SlotKey.identity, SlotKey.expression.injEq, different, if_false,
              SlotRequest.isFor, List.find?_cons, same, List.find?_nil, Option.or_none]
            exact old
        | true =>
            have identity : other.identity = e.identity := by
              simpa [Expression.same] using same
            have missing : s.requests.find? (·.isFor e) = none := by
              rw [← resolved?_congr s.resolver same, Resolver.resolved?, fresh] at old
              simpa using old.symm
            rw [missing, SlotKey.identity, SlotKey.identity, identity]
            simp [SlotRequest.isFor, same]
  created_eq := by
    show (s.resolver.create key kind).2.block.select = (s.requests ++ [_]).filterMap _
    rw [Resolver.create_select, List.filterMap_append, ← recorded.created_eq]
    simp [SlotRequest.created?, count_create, Except.toOption]
  heard_eq := by
    show (s.resolver.create key kind).2.announcements.heard = (s.requests ++ [_]).filterMap _
    rw [Resolver.create_announcements, List.filterMap_append, ← recorded.heard_eq]
    unfold Channel.announce
    cases s.resolver.announcements.listener.current <;>
      simp [SlotRequest.announced?, SlotRequest.created?, count_create, Except.toOption]

/-- Who listens matters to nothing but later announcements. -/
theorem Recorded.listening {s : ResolverSession ω} (recorded : s.Recorded)
    (listener : SwapCell (Option ω)) :
    { s with
      resolver :=
        { s.resolver with
          announcements := { s.resolver.announcements with listener := listener } } }.Recorded where
  ordered := ⟨recorded.ordered.select_eq, recorded.ordered.keyed, recorded.ordered.keys_nodup,
    recorded.ordered.index_eq, recorded.ordered.ordinals_eq, recorded.ordered.head_filled,
    recorded.ordered.slots_ne⟩
  one_empty := recorded.one_empty
  resolved_eq := recorded.resolved_eq
  created_eq := recorded.created_eq
  heard_eq := recorded.heard_eq

/-- What the clause is matters to nothing. -/
theorem Recorded.inClause {s : ResolverSession ω} (recorded : s.Recorded)
    (clause : SwapCell Clause) : { s with clause := clause }.Recorded :=
  ⟨recorded.ordered, recorded.one_empty, recorded.resolved_eq, recorded.created_eq,
    recorded.heard_eq⟩

theorem Recorded.step {s : ResolverSession ω} (recorded : s.Recorded) (step : ResolverStep ω) :
    (s.step step).Recorded := by
  cases step with
  | resolve e kind =>
      rcases s.resolver.resolve_cases e kind with ⟨slot, found, answered⟩ | ⟨fresh, answered⟩
      · simp only [ResolverSession.step, answered]
        apply recorded.repeated
        intro other isKey
        cases isKey
        rw [found]
        rfl
      · simp only [ResolverSession.step, answered]
        exact recorded.created kind fresh (by simp)
  | placeholder =>
      rcases s.resolver.placeholder_cases with ⟨refusal, refused⟩ | ⟨started, fresh, answered⟩
      · simp only [ResolverSession.step, refused]
        exact recorded.repeated (by simp)
      · simp only [ResolverSession.step, answered]
        exact recorded.created .null fresh (fun _ => recorded.ordered.slots_ne started)
  | swapListener listener => exact recorded.listening _
  | dropListener guard => exact recorded.listening _
  | swapClause clause => exact recorded.inClause _
  | dropClause guard => exact recorded.inClause _

theorem Recorded.run {s : ResolverSession ω} (recorded : s.Recorded)
    (steps : List (ResolverStep ω)) : (s.run steps).Recorded := by
  induction steps generalizing s with
  | nil => exact recorded
  | cons step rest ih => exact ih (recorded.step step)

/-- Whatever happens to a new resolver, its slots, answers and announcements agree with the
    requests. -/
theorem start_run_recorded (id : Nat) (table : TableRef) (listener : Option ω) (clause : Clause)
    (steps : List (ResolverStep ω)) : ((start id table listener clause).run steps).Recorded :=
  (start_recorded id table listener clause).run steps

end ResolverSession

end EntityQuery
