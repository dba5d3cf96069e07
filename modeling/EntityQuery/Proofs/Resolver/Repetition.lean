import EntityQuery.Proofs.Resolver.Session

/-! # Requests that leave no trace

A request for an expression that has its slot, and a request for the empty slot that is refused,
change nothing. Whether a request is of these can be told from the steps before it, and a run
without them ends like the run with them.
-/

namespace EntityQuery

variable {ω : Type}

namespace ResolverStep

/-- Whether the step requests the slot of the expression. -/
def asksFor (e : Expression) : ResolverStep ω → Bool
  | .resolve other _ => other.same e
  | _ => false

/-- Whether the step requests the slot of any expression. -/
def asksForAny : ResolverStep ω → Bool
  | .resolve .. => true
  | _ => false

def asksForEmpty : ResolverStep ω → Bool
  | .placeholder => true
  | _ => false

/-- What the step requests a slot for, if it is a request. -/
def key? : ResolverStep ω → Option SlotKey
  | .resolve e _ => some (.expression e)
  | .placeholder => some .placeholder
  | _ => none

/-- Whether the empty slot was requested once there was another one. -/
def emptied (before : List (ResolverStep ω)) : Bool :=
  (before.dropWhile (!·.asksForAny)).any asksForEmpty

/-- Whether the step requests, after the steps before it, what was requested already, or an empty
    slot that it cannot have: one before all other slots, or a second one. -/
def idle (before : List (ResolverStep ω)) : ResolverStep ω → Bool
  | .resolve e _ => before.any (asksFor e)
  | .placeholder => !before.any asksForAny || emptied before
  | _ => false

/-- Each of the steps with all that come before it. -/
def withHistory (before : List (ResolverStep ω)) :
    List (ResolverStep ω) → List (List (ResolverStep ω) × ResolverStep ω)
  | [] => []
  | step :: rest => (before, step) :: withHistory (before ++ [step]) rest

/-- The steps without the idle ones. -/
def effective (before steps : List (ResolverStep ω)) : List (ResolverStep ω) :=
  ((withHistory before steps).filter fun moment => !idle moment.1 moment.2).map (·.2)

theorem asksForAny_of_asksFor {e : Expression} {step : ResolverStep ω}
    (asks : step.asksFor e = true) : step.asksForAny = true := by
  cases step with
  | resolve => rfl
  | placeholder | swapListener | dropListener | swapClause | dropClause => cases asks

theorem emptied_concat (before : List (ResolverStep ω)) (step : ResolverStep ω) :
    emptied (before ++ [step]) =
      (emptied before || before.any asksForAny && step.asksForEmpty) := by
  induction before with
  | nil => cases step <;> rfl
  | cons first rest ih =>
      cases asks : first.asksForAny with
      | true => simp [emptied, asks, Bool.or_assoc]
      | false => simpa [emptied, asks] using ih

theorem effective_cons_idle {before : List (ResolverStep ω)} {step : ResolverStep ω}
    (isIdle : idle before step = true) (rest : List (ResolverStep ω)) :
    effective before (step :: rest) = effective (before ++ [step]) rest := by
  simp [effective, withHistory, isIdle]

theorem effective_cons {before : List (ResolverStep ω)} {step : ResolverStep ω}
    (acts : idle before step = false) (rest : List (ResolverStep ω)) :
    effective before (step :: rest) = step :: effective (before ++ [step]) rest := by
  simp [effective, withHistory, acts]

end ResolverStep

/-- The empty slot is refused before the first slot and after the first empty one. -/
theorem Resolver.placeholder_eq_error (r : Resolver ω) :
    (∃ refusal, r.placeholder = .error refusal) ↔
      (!r.slots.isSome || (r.slotOf? .placeholder).isSome) = true := by
  unfold Resolver.placeholder
  cases started : r.slots with
  | none => simp
  | some slots => cases emptied : r.slotOf? .placeholder <;> simp

namespace ResolverSession

open ResolverStep

section Steps

variable {s : ResolverSession ω} {steps : List (ResolverStep ω)}

/-- The steps that a session has taken tell which slots it has. -/
structure Took (s : ResolverSession ω) (steps : List (ResolverStep ω)) : Prop where
  resolved : ∀ e, (s.resolver.resolved? e).isSome = steps.any (asksFor e)
  started : s.resolver.slots.isSome = steps.any asksForAny
  emptied : (s.resolver.slotOf? .placeholder).isSome = emptied steps

theorem start_took (id : Nat) (table : TableRef) (listener : Option ω) (clause : Clause) :
    (start id table listener clause).Took [] where
  resolved := fun _ => rfl
  started := rfl
  emptied := rfl

theorem Took.idle_resolve (took : s.Took steps) (e : Expression) (kind : Kind) :
    idle steps (.resolve e kind) = (s.resolver.resolved? e).isSome :=
  (took.resolved e).symm

theorem Took.idle_placeholder (took : s.Took steps) :
    idle steps .placeholder = true ↔ ∃ refusal, s.resolver.placeholder = .error refusal := by
  rw [Resolver.placeholder_eq_error, took.started, took.emptied]
  rfl

/-- A step that creates no slot must not request one that is not there. -/
theorem Took.unchanged {after : ResolverSession ω} {step : ResolverStep ω} (took : s.Took steps)
    (slots : after.resolver.slots = s.resolver.slots)
    (known : ∀ e, step.asksFor e = true → steps.any (asksFor e) = true)
    (begun : step.asksForAny = true → steps.any asksForAny = true)
    (refused : step.asksForEmpty = true →
      steps.any asksForAny = true → ResolverStep.emptied steps = true) :
    after.Took (steps ++ [step]) where
  resolved := by
    intro e
    have same : after.resolver.resolved? e = s.resolver.resolved? e := by
      simp only [Resolver.resolved?, Resolver.slotOf?, slots]
    rw [same, took.resolved, List.any_append]
    cases asks : step.asksFor e <;> simp_all
  started := by
    rw [slots, took.started, List.any_append]
    cases asks : step.asksForAny <;> simp_all
  emptied := by
    have same : after.resolver.slotOf? .placeholder = s.resolver.slotOf? .placeholder := by
      simp only [Resolver.slotOf?, slots]
    rw [same, took.emptied, emptied_concat]
    cases asks : step.asksForEmpty <;> cases started : steps.any asksForAny <;> simp_all

theorem Took.swapped {after : ResolverSession ω} {step : ResolverStep ω} (took : s.Took steps)
    (slots : after.resolver.slots = s.resolver.slots) (requestsNothing : step.key? = none) :
    after.Took (steps ++ [step]) := by
  apply took.unchanged slots
  · cases step <;> simp_all [key?, asksFor]
  · cases step <;> simp_all [key?, asksForAny]
  · cases step <;> simp_all [key?, asksForEmpty]

/-- The first request for an expression creates its slot. -/
theorem Took.resolved_new (took : s.Took steps) {e : Expression} (kind : Kind)
    (fresh : s.resolver.resolved? e = none) :
    (s.step (.resolve e kind)).Took (steps ++ [.resolve e kind]) := by
  have created : (s.step (.resolve e kind)).resolver =
      (s.resolver.create (.expression e) kind).2 := by
    simp only [step, Resolver.resolve, fresh, record]
  refine ⟨?_, ?_, ?_⟩
  · intro other
    rw [created, Resolver.resolved?, Resolver.slotOf?_create kind fresh, List.any_append,
      ← took.resolved, Resolver.resolved?]
    by_cases same : e.identity = other.identity
    · simp [SlotKey.identity, asksFor, Expression.same, same]
    · simp [SlotKey.identity, asksFor, Expression.same, same]
  · rw [created, List.any_append]
    simp [Resolver.create, asksForAny]
  · rw [created, Resolver.slotOf?_create kind fresh, emptied_concat, ← took.emptied]
    simp [SlotKey.identity, asksForEmpty]

/-- The empty slot is created where it is not refused. -/
theorem Took.emptied_new (took : s.Took steps) (started : s.resolver.slots.isSome = true)
    (fresh : s.resolver.slotOf? .placeholder = none)
    (answered : s.resolver.placeholder = .ok (s.resolver.create .placeholder .null)) :
    (s.step .placeholder).Took (steps ++ [.placeholder]) := by
  have created : (s.step .placeholder).resolver = (s.resolver.create .placeholder .null).2 := by
    simp only [step, answered, record]
  have begun : steps.any asksForAny = true := took.started.symm.trans started
  refine ⟨?_, ?_, ?_⟩
  · intro e
    rw [created, Resolver.resolved?, Resolver.slotOf?_create .null fresh, List.any_append,
      ← took.resolved]
    simp [SlotKey.identity, asksFor, Resolver.resolved?]
  · rw [created, List.any_append, begun]
    rfl
  · rw [created, Resolver.slotOf?_create .null fresh, emptied_concat, begun]
    simp [asksForEmpty]

theorem Took.step (took : s.Took steps) (step : ResolverStep ω) :
    (s.step step).Took (steps ++ [step]) := by
  cases step with
  | resolve e kind =>
      rcases s.resolver.resolve_cases e kind with ⟨slot, found, answered⟩ | ⟨fresh, -⟩
      · have requested : steps.any (asksFor e) = true := by
          rw [← took.resolved, found]
          rfl
        apply took.unchanged
        · simp only [ResolverSession.step, answered, record]
        · intro other same
          rw [← took.resolved, ← resolved?_congr s.resolver same, found]
          rfl
        · intro _
          obtain ⟨step, inside, asks⟩ := List.any_eq_true.mp requested
          exact List.any_eq_true.mpr ⟨step, inside, asksForAny_of_asksFor asks⟩
        · simp [asksForEmpty]
      · exact took.resolved_new kind fresh
  | placeholder =>
      rcases s.resolver.placeholder_cases with ⟨refusal, refused⟩ | ⟨started, fresh, answered⟩
      · apply took.unchanged
        · simp only [ResolverSession.step, refused, record]
        · simp [asksFor]
        · simp [asksForAny]
        · intro _ begun
          have idle := took.idle_placeholder.mpr ⟨refusal, refused⟩
          simpa [ResolverStep.idle, begun] using idle
      · exact took.emptied_new started fresh answered
  | swapListener listener => exact took.swapped rfl rfl
  | dropListener guard => exact took.swapped rfl rfl
  | swapClause clause => exact took.swapped rfl rfl
  | dropClause guard => exact took.swapped rfl rfl

theorem run_cons (s : ResolverSession ω) (step : ResolverStep ω) (rest : List (ResolverStep ω)) :
    s.run (step :: rest) = (s.step step).run rest := rfl

/-- The requests that a step adds to the record. -/
def added (s : ResolverSession ω) (step : ResolverStep ω) : List (SlotRequest ω) :=
  ({ s with requests := [] }.step step).requests

/-- What a step does has nothing to do with the record. -/
theorem step_withRequests (s : ResolverSession ω) (step : ResolverStep ω)
    (requests : List (SlotRequest ω)) :
    { s with requests := requests }.step step =
      { s.step step with requests := requests ++ s.added step } := by
  cases step with
  | resolve e kind => rfl
  | placeholder =>
      simp only [ResolverSession.step, added]
      cases s.resolver.placeholder <;> rfl
  | swapListener | dropListener | swapClause | dropClause => simp [ResolverSession.step, added]

theorem requests_step (s : ResolverSession ω) (step : ResolverStep ω) :
    (s.step step).requests = s.requests ++ s.added step :=
  congrArg requests (step_withRequests s step s.requests)

/-- A request creates a slot unless it is idle. -/
theorem Took.added_eq (took : s.Took steps) (step : ResolverStep ω) :
    (s.added step).map (fun request => (request.key, request.isNew)) =
      (step.key?.map fun key => (key, !idle steps step)).toList := by
  cases step with
  | resolve e kind =>
      rw [took.idle_resolve]
      rcases s.resolver.resolve_cases e kind with ⟨slot, found, answered⟩ | ⟨fresh, answered⟩
      · simp [added, ResolverSession.step, answered, record, key?, found]
      · simp [added, ResolverSession.step, answered, record, key?, fresh, count_create]
  | placeholder =>
      rcases s.resolver.placeholder_cases with ⟨refusal, refused⟩ | ⟨-, -, answered⟩
      · have isIdle := took.idle_placeholder.mpr ⟨refusal, refused⟩
        simp [added, ResolverSession.step, refused, record, key?, isIdle]
      · have acts : idle steps .placeholder = false := by
          apply Bool.eq_false_iff.mpr
          intro isIdle
          obtain ⟨refusal, refused⟩ := took.idle_placeholder.mp isIdle
          rw [answered] at refused
          cases refused
        simp [added, ResolverSession.step, answered, record, key?, acts, count_create]
  | swapListener | dropListener | swapClause | dropClause => rfl

theorem Took.isNew_added (took : s.Took steps) {step : ResolverStep ω} {request : SlotRequest ω}
    (inside : request ∈ s.added step) : request.isNew = !idle steps step := by
  have located : (request.key, request.isNew) ∈ (step.key?.map fun key =>
      (key, !idle steps step)).toList := by
    rw [← took.added_eq step]
    exact List.mem_map_of_mem inside
  obtain ⟨key, -, same⟩ := Option.map_eq_some_iff.mp (Option.mem_toList.mp located)
  exact (congrArg Prod.snd same).symm

/-- An idle step only adds to the record. -/
theorem Took.step_idle (took : s.Took steps) {step : ResolverStep ω}
    (isIdle : idle steps step = true) :
    s.step step = { s with requests := s.requests ++ s.added step } := by
  cases step with
  | resolve e kind =>
      rw [took.idle_resolve] at isIdle
      obtain ⟨slot, found⟩ := Option.isSome_iff_exists.mp isIdle
      simp [ResolverSession.step, Resolver.resolve, found, record, added]
  | placeholder =>
      obtain ⟨refusal, refused⟩ := took.idle_placeholder.mp isIdle
      simp [ResolverSession.step, refused, record, added]
  | swapListener | dropListener | swapClause | dropClause => cases isIdle

/-- The requests that are not idle, made one after the other, end like all of them. -/
theorem Took.run_effective (took : s.Took steps) (later : List (ResolverStep ω)) :
    { s with requests := s.requests.filter (·.isNew) }.run (effective steps later) =
      { s.run later with requests := (s.run later).requests.filter (·.isNew) } := by
  induction later generalizing s steps with
  | nil => rfl
  | cons step rest ih =>
      have next := ih (took.step step)
      cases isIdle : idle steps step with
      | true =>
          have nothingNew : (s.added step).filter (·.isNew) = [] := by
            rw [List.filter_eq_nil_iff]
            intro request inside
            simp [took.isNew_added inside, isIdle]
          have unchanged : { s with requests := s.requests.filter (·.isNew) } =
              { s.step step with requests := (s.step step).requests.filter (·.isNew) } := by
            rw [took.step_idle isIdle]
            simp only [List.filter_append, nothingNew, List.append_nil]
          rw [effective_cons_idle isIdle, unchanged, run_cons]
          exact next
      | false =>
          have allNew : (s.added step).filter (·.isNew) = s.added step := by
            rw [List.filter_eq_self]
            intro request inside
            simp [took.isNew_added inside, isIdle]
          rw [effective_cons isIdle, run_cons]
          rw [requests_step, List.filter_append, allNew, ← step_withRequests] at next
          exact next

theorem Took.requests_run (took : s.Took steps) (later : List (ResolverStep ω)) :
    (s.run later).requests.map (fun request => (request.key, request.isNew)) =
      s.requests.map (fun request => (request.key, request.isNew)) ++
        (withHistory steps later).filterMap fun moment =>
          moment.2.key?.map fun key => (key, !idle moment.1 moment.2) := by
  induction later generalizing s steps with
  | nil => simp [run, withHistory]
  | cons step rest ih =>
      have next := ih (took.step step)
      rw [requests_step, List.map_append, took.added_eq step, List.append_assoc] at next
      rw [run_cons, withHistory, List.filterMap_cons]
      cases requested : step.key? <;> simpa [requested] using next

end Steps

/-- An expression keeps its slot. -/
theorem resolved?_step {s : ResolverSession ω} {e : Expression} {slot : Slot}
    (found : s.resolver.resolved? e = some slot) (step : ResolverStep ω) :
    (s.step step).resolver.resolved? e = some slot := by
  have kept {key : SlotKey} (kind : Kind) (fresh : s.resolver.slotOf? key = none) :
      (s.resolver.create key kind).2.resolved? e = some slot := by
    rw [Resolver.resolved?, Resolver.slotOf?_create kind fresh]
    split
    · next same =>
      rw [Resolver.resolved?, Resolver.slotOf?_eq, ← same, ← Resolver.slotOf?_eq, fresh] at found
      cases found
    · exact found
  cases step with
  | resolve other kind =>
      rcases s.resolver.resolve_cases other kind with ⟨_, -, answered⟩ | ⟨fresh, answered⟩
      · simpa only [step, answered, record] using found
      · simpa only [step, answered, record] using kept kind fresh
  | placeholder =>
      rcases s.resolver.placeholder_cases with ⟨refusal, refused⟩ | ⟨-, fresh, answered⟩
      · simpa only [step, refused, record] using found
      · simpa only [step, answered, record] using kept .null fresh
  | swapListener | dropListener | swapClause | dropClause => exact found

theorem resolved?_resolve (s : ResolverSession ω) (e : Expression) (kind : Kind) :
    (s.step (.resolve e kind)).resolver.resolved? e = some (s.resolver.resolve e kind).1 := by
  rcases s.resolver.resolve_cases e kind with ⟨slot, found, answered⟩ | ⟨fresh, answered⟩
  · simpa only [step, answered, record] using found
  · simp only [step, answered, record]
    rw [Resolver.resolved?, Resolver.slotOf?_create kind fresh, if_pos rfl]

theorem added_placeholder (s : ResolverSession ω) :
    s.added .placeholder =
      [⟨.placeholder, s.resolver.placeholder.map (·.1), s.resolver.placeholder.isOk,
        s.resolver.announcements.listener.current⟩] := by
  rcases s.resolver.placeholder_cases with ⟨refusal, refused⟩ | ⟨-, -, answered⟩
  · simp [added, step, record, refused, Except.map, Except.isOk, Except.toBool]
  · simp [added, step, record, answered, Except.map, Except.isOk, Except.toBool, count_create]

/-- How the requests of a session were answered: those for an expression all with its slot, those
    for the empty slot with the new one or with a refusal. -/
structure Answered (s : ResolverSession ω) : Prop where
  expression : ∀ request ∈ s.requests, ∀ e, request.key = .expression e →
    (s.resolver.resolved? e).map Except.ok = some request.answer
  placeholder : ∀ request ∈ s.requests, request.key = .placeholder →
    (request.isNew = false ↔ ∃ refusal, request.answer = .error refusal)

theorem Answered.step {s : ResolverSession ω} (answered : s.Answered) (step : ResolverStep ω) :
    (s.step step).Answered where
  expression := by
    intro request inside e isFor
    rw [requests_step, List.mem_append] at inside
    rcases inside with earlier | own
    · have before := answered.expression request earlier e isFor
      obtain ⟨slot, found, isAnswer⟩ := Option.map_eq_some_iff.mp before
      rw [resolved?_step found, Option.map_some, isAnswer]
    · cases step with
      | resolve other kind =>
          cases List.mem_singleton.mp own
          cases isFor
          rw [resolved?_resolve]
          rfl
      | placeholder =>
          rw [added_placeholder] at own
          cases List.mem_singleton.mp own
          cases isFor
      | swapListener | dropListener | swapClause | dropClause => cases own
  placeholder := by
    intro request inside isFor
    rw [requests_step, List.mem_append] at inside
    rcases inside with earlier | own
    · exact answered.placeholder request earlier isFor
    · cases step with
      | resolve other kind =>
          cases List.mem_singleton.mp own
          cases isFor
      | placeholder =>
          rw [added_placeholder] at own
          cases List.mem_singleton.mp own
          cases s.resolver.placeholder <;> simp [Except.map, Except.isOk, Except.toBool]
      | swapListener | dropListener | swapClause | dropClause => cases own

theorem Answered.run {s : ResolverSession ω} (answered : s.Answered)
    (steps : List (ResolverStep ω)) : (s.run steps).Answered := by
  induction steps generalizing s with
  | nil => exact answered
  | cons step rest ih => exact ih (answered.step step)

/-- What comes of steps without the idle ones among them. -/
structure LeavesNoTrace (start : ResolverSession ω) (steps : List (ResolverStep ω)) : Prop where
  /-- Slots, counters, select list, who listens, and what every listener has heard. -/
  resolver : (start.run (effective [] steps)).resolver = (start.run steps).resolver
  clause : (start.run (effective [] steps)).clause = (start.run steps).clause
  /-- The requests that remain have the same answers, and all create a slot. -/
  remaining : (start.run (effective [] steps)).requests =
    (start.run steps).requests.filter (·.isNew)
  /-- The other requests are those of the idle steps. -/
  isNew_eq : (start.run steps).requests.map (fun request => (request.key, request.isNew)) =
    (withHistory [] steps).filterMap fun moment =>
      moment.2.key?.map fun key => (key, !idle moment.1 moment.2)
  /-- Every request for an expression was answered as the first one. -/
  repeated : ∀ request ∈ (start.run steps).requests, ∀ e, request.key = .expression e →
    ((start.run steps).requests.find? (·.isFor e)).map (·.answer) = some request.answer
  /-- A request for the empty slot that creates none is refused. -/
  refused : ∀ request ∈ (start.run steps).requests, request.key = .placeholder →
    (request.isNew = false ↔ ∃ refusal, request.answer = .error refusal)

/-- Repeated and refused requests leave no trace in what happens to a new resolver. -/
theorem start_leavesNoTrace (id : Nat) (table : TableRef) (listener : Option ω) (clause : Clause)
    (steps : List (ResolverStep ω)) : (start id table listener clause).LeavesNoTrace steps := by
  have took := start_took id table listener clause
  have thinned := took.run_effective steps
  have answered : ((start id table listener clause).run steps).Answered :=
    Answered.run ⟨by simp [start], by simp [start]⟩ steps
  have recorded := (start_recorded id table listener clause).run steps
  exact {
    resolver := congrArg (·.resolver) thinned
    clause := congrArg (·.clause) thinned
    remaining := congrArg (·.requests) thinned
    isNew_eq := took.requests_run steps
    repeated := fun request inside e isFor =>
      (recorded.resolved_eq e).symm.trans (answered.expression request inside e isFor)
    refused := answered.placeholder }

end ResolverSession

end EntityQuery
