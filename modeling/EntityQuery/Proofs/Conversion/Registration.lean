import Mathlib.Data.List.Induction
import EntityQuery.Conversion.Registry

/-! # Registering converters

The converter in effect for the attributes of a kind after any number of registrations. A kind is
kept with the name of the converter that was last to apply to it, and the name is looked up whenever
the converter is needed. So the converter that applies by itself lasts until another one is
registered by its name, for whatever purpose.
-/

namespace EntityQuery

/-- A call that registers a converter. -/
inductive Registration where
  | known (c : Converter)
  /-- Registered for every attribute of its domain kind as well. -/
  | autoApplied (c : Converter)

namespace Registration

def converter : Registration → Converter
  | .known c | .autoApplied c => c

/-- The converter that a call applies to every attribute of the kind. -/
def appliedTo? (k : Kind) : Registration → Option Converter
  | .known _ => none
  | .autoApplied c => if c.domainKind = k then some c else none

/-- The converter that a call makes known by the name. -/
def knownAs? (name : String) (call : Registration) : Option Converter :=
  if call.converter.name = name then some call.converter else none

/-- The converter that the last such call applies to the kind. -/
def lastApplied? (calls : List Registration) (k : Kind) : Option Converter :=
  (calls.filterMap (appliedTo? k)).getLast?

/-- The converter that the last such call makes known by the name. -/
def lastKnown? (calls : List Registration) (name : String) : Option Converter :=
  (calls.filterMap (knownAs? name)).getLast?

variable {calls later : List Registration} {call : Registration} {c : Converter} {k : Kind}
  {name : String}

theorem lastApplied?_append :
    lastApplied? (calls ++ later) k = (lastApplied? later k).or (lastApplied? calls k) := by
  rw [lastApplied?, List.filterMap_append, List.getLast?_append]
  rfl

theorem lastKnown?_append :
    lastKnown? (calls ++ later) name = (lastKnown? later name).or (lastKnown? calls name) := by
  rw [lastKnown?, List.filterMap_append, List.getLast?_append]
  rfl

theorem lastApplied?_singleton : lastApplied? [call] k = call.appliedTo? k := by
  cases applied : call.appliedTo? k <;> simp [lastApplied?, applied]

theorem lastKnown?_singleton : lastKnown? [call] name = call.knownAs? name := by
  cases known : call.knownAs? name <;> simp [lastKnown?, known]

theorem lastApplied?_eq_none :
    lastApplied? calls k = none ↔ ∀ call ∈ calls, call.appliedTo? k = none := by
  rw [lastApplied?, List.getLast?_eq_none_iff, List.filterMap_eq_nil_iff]

theorem name_of_lastKnown? (known : lastKnown? calls name = some c) : c.name = name := by
  obtain ⟨call, -, isNamed⟩ := List.mem_filterMap.mp (List.mem_of_getLast? known)
  obtain ⟨same, own⟩ := Option.ite_none_right_eq_some.mp isNamed
  cases own
  exact same

/-- A converter that was applied to a kind is known by its name. -/
theorem lastKnown?_of_lastApplied? (applied : lastApplied? calls k = some c) :
    ∃ d, lastKnown? calls c.name = some d := by
  obtain ⟨call, called, isApplied⟩ := List.mem_filterMap.mp (List.mem_of_getLast? applied)
  have named : call.knownAs? c.name = some c := by
    cases call with
    | known c => cases isApplied
    | autoApplied d =>
        obtain ⟨-, own⟩ := Option.ite_none_right_eq_some.mp isApplied
        cases own
        exact if_pos rfl
  have inside : c ∈ calls.filterMap (knownAs? c.name) :=
    List.mem_filterMap.mpr ⟨call, called, named⟩
  exact ⟨_, List.getLast?_eq_some_getLast (List.ne_nil_of_mem inside)⟩

end Registration

namespace ConverterRegistry

open Registration

/-- The registry as a call leaves it. -/
def perform (r : ConverterRegistry) : Registration → ConverterRegistry
  | .known c => r.register c
  | .autoApplied c => r.registerAutoApplied c

/-- The registry as a number of calls leave it. -/
def performAll (r : ConverterRegistry) (calls : List Registration) : ConverterRegistry :=
  calls.foldl perform r

variable {r start : ConverterRegistry} {calls later : List Registration} {call : Registration}
  {a : BasicAttribute} {k : Kind} {name : String}

theorem performAll_append :
    r.performAll (calls ++ later) = (r.performAll calls).performAll later :=
  List.foldl_append

theorem converter?_perform :
    (r.perform call).converter? name = (call.knownAs? name).or (r.converter? name) := by
  cases call with
  | known c | autoApplied c =>
      refine (Keyed.get?_put ..).trans ?_
      by_cases same : c.name = name <;> simp [knownAs?, Registration.converter, same, converter?]

theorem autoApplied_perform :
    (r.perform call).autoApplied.lookup k =
      ((call.appliedTo? k).map (·.name)).or (r.autoApplied.lookup k) := by
  cases call with
  | known c => rfl
  | autoApplied c =>
      by_cases same : c.domainKind = k
      · simp [perform, registerAutoApplied, appliedTo?, same]
      · have other : (k == c.domainKind) = false := beq_false_of_ne (Ne.symm same)
        simp [perform, registerAutoApplied, appliedTo?, same, List.lookup_cons, other]

theorem converter?_performAll (calls : List Registration) :
    (r.performAll calls).converter? name = (lastKnown? calls name).or (r.converter? name) := by
  induction calls using List.reverseRecOn with
  | nil => rfl
  | append_singleton calls call ih =>
      rw [performAll_append, lastKnown?_append, lastKnown?_singleton, Option.or_assoc, ← ih]
      exact converter?_perform

theorem autoApplied_performAll (calls : List Registration) :
    (r.performAll calls).autoApplied.lookup k =
      ((lastApplied? calls k).map (·.name)).or (r.autoApplied.lookup k) := by
  induction calls using List.reverseRecOn with
  | nil => rfl
  | append_singleton calls call ih =>
      rw [performAll_append, lastApplied?_append, lastApplied?_singleton, Option.map_or,
        Option.or_assoc, ← ih]
      exact autoApplied_perform

/-- The converter in effect has the name of the last one applied to the kind, and is the one last
    registered by that name. -/
theorem converterFor_performAll (unapplied : start.autoApplied = []) (unnamed : a.converter = none)
    (converting : a.disableConversion = false) :
    (start.performAll calls).converterFor a =
      .ok ((lastApplied? calls a.kind).bind fun c => lastKnown? calls c.name) := by
  have names : (start.performAll calls).autoApplied.lookup a.kind =
      (lastApplied? calls a.kind).map (·.name) := by
    rw [autoApplied_performAll, unapplied, List.lookup_nil, Option.or_none]
  simp only [converterFor, unnamed, converting, names, Bool.false_eq_true, if_false]
  cases applied : lastApplied? calls a.kind with
  | none => rfl
  | some c =>
      obtain ⟨d, known⟩ := lastKnown?_of_lastApplied? applied
      simp only [Option.map_some, Option.bind_some, converter?_performAll, known, Option.some_or]

/-- What the converters that apply by themselves come to for an attribute without a converter of its
    own, after any number of calls. -/
structure AppliesLast (start : ConverterRegistry) (calls : List Registration)
    (a : BasicAttribute) : Prop where
  /-- The last converter registered by the name of the one last applied to the kind. -/
  inEffect : (start.performAll calls).converterFor a =
    .ok ((lastApplied? calls a.kind).bind fun c => lastKnown? calls c.name)
  /-- It is the one last applied itself just where no other took its name. -/
  asApplied : (start.performAll calls).converterFor a = .ok (lastApplied? calls a.kind) ↔
    ∀ c, lastApplied? calls a.kind = some c → lastKnown? calls c.name = some c
  unconverted : (start.performAll calls).converterFor a = .ok none ↔
    ∀ call ∈ calls, call.appliedTo? a.kind = none
  /-- Calls that apply none to the kind keep it, but for those that register another by its name. -/
  kept : ∀ later effective, (∀ call ∈ later, call.appliedTo? a.kind = none) →
    (start.performAll calls).converterFor a = .ok effective →
    (start.performAll (calls ++ later)).converterFor a =
      .ok (effective.map fun c => (lastKnown? later c.name).getD c)

theorem converterFor_appliesLast (start : ConverterRegistry) (calls : List Registration)
    (a : BasicAttribute) (unapplied : start.autoApplied = []) (unnamed : a.converter = none)
    (converting : a.disableConversion = false) : start.AppliesLast calls a := by
  have inEffect (calls : List Registration) : (start.performAll calls).converterFor a =
      .ok ((lastApplied? calls a.kind).bind fun c => lastKnown? calls c.name) :=
    converterFor_performAll unapplied unnamed converting
  cases applied : lastApplied? calls a.kind with
  | none =>
      have nothing : (start.performAll calls).converterFor a = .ok none := by
        rw [inEffect, applied, Option.bind_none]
      refine ⟨inEffect calls, ?_, ?_, ?_⟩
      · simp [nothing, applied]
      · exact iff_of_true nothing (lastApplied?_eq_none.mp applied)
      · intro later effective elsewhere before
        cases nothing.symm.trans before
        rw [inEffect, lastApplied?_append, lastApplied?_eq_none.mpr elsewhere, applied]
        rfl
  | some c =>
      obtain ⟨d, known⟩ := lastKnown?_of_lastApplied? applied
      have latest : (start.performAll calls).converterFor a = .ok (some d) := by
        rw [inEffect, applied, Option.bind_some, known]
      refine ⟨inEffect calls, ?_, ?_, ?_⟩
      · simp [latest, applied, known]
      · simp [latest, ← lastApplied?_eq_none, applied]
      · intro later effective elsewhere before
        cases latest.symm.trans before
        -- The name stays that of the converter last applied, so the later calls by it decide.
        have sameName : d.name = c.name := name_of_lastKnown? known
        rw [inEffect, lastApplied?_append, lastApplied?_eq_none.mpr elsewhere, applied]
        simp only [Option.none_or, Option.bind_some, Option.map_some, lastKnown?_append, known,
          sameName]
        cases lastKnown? later c.name <;> rfl

end ConverterRegistry

def Sample.salary : BasicAttribute := ⟨"salary", .float, none, false⟩

/-- A second converter under the name that all converters for scaled numbers share. -/
def Sample.rescaling : List Registration := [.autoApplied (.scaled 2), .known (.scaled 0)]

open ConverterRegistry Registration

theorem ConverterRegistry.converterFor_appliesLast_salary :
    standard.autoApplied = [] ∧ Sample.salary.converter = none ∧
      Sample.salary.disableConversion = false ∧
      standard.AppliesLast Sample.rescaling Sample.salary :=
  ⟨rfl, rfl, rfl, converterFor_appliesLast standard Sample.rescaling Sample.salary rfl rfl rfl⟩

/-- The second converter replaces the one that was to apply to the kind: 1.5 is stored as 2, not as
    150. -/
theorem ConverterRegistry.converterFor_rescaled :
    lastApplied? Sample.rescaling Sample.salary.kind = some (.scaled 2) ∧
      ∃ c, (standard.performAll Sample.rescaling).converterFor Sample.salary = .ok (some c) ∧
        c.toDatabase (.float ⟨false, 3 <<< 1073⟩) = .ok (.int 2) ∧
        (Converter.scaled 2).toDatabase (.float ⟨false, 3 <<< 1073⟩) = .ok (.int 150) ∧
        c ≠ .scaled 2 := by
  have rounded : (Converter.scaled 0).toDatabase (.float ⟨false, 3 <<< 1073⟩) = .ok (.int 2) := by
    decide +kernel
  have exactly : (Converter.scaled 2).toDatabase (.float ⟨false, 3 <<< 1073⟩) = .ok (.int 150) := by
    decide +kernel
  refine ⟨rfl, .scaled 0, rfl, rounded, exactly, fun same => ?_⟩
  rw [same, exactly] at rounded
  cases rounded

end EntityQuery
