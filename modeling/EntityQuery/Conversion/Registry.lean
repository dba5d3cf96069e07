import EntityQuery.Conversion.Converter
import EntityQuery.Mapping.Attribute

/-! # Registered converters

The converters known by name, and those that apply by themselves to the attributes of a kind. A
converter that an attribute names comes first; an attribute may refuse the ones that apply by kind.
-/

namespace EntityQuery

structure ConverterRegistry where
  byName : Keyed Converter := []
  /-- The name of the converter that applies to a kind, the latest entry first. -/
  autoApplied : List (Kind × String) := []

namespace ConverterRegistry

/-- Make a converter known by its name, in place of an earlier one of that name. -/
def register (r : ConverterRegistry) (c : Converter) : ConverterRegistry :=
  { r with byName := Keyed.put r.byName c.name c }

/-- Make a converter known and apply its name to every attribute of its domain kind. -/
def registerAutoApplied (r : ConverterRegistry) (c : Converter) : ConverterRegistry :=
  { r.register c with autoApplied := (c.domainKind, c.name) :: r.autoApplied }

/-- The registry to start from: booleans as integers, for attributes that ask for it. -/
def standard : ConverterRegistry := register {} .booleanInt

def converter? (r : ConverterRegistry) (name : String) : Option Converter :=
  Keyed.get? r.byName name

/-- The converter in effect for an attribute, if any; the name it asks for, if no such converter is
    registered. -/
def converterFor (r : ConverterRegistry) (a : BasicAttribute) : Except String (Option Converter) :=
  match a.converter with
  | some name =>
      match r.converter? name with
      | some c => .ok (some c)
      | none => .error name
  | none =>
      if a.disableConversion then .ok none
      else .ok ((r.autoApplied.lookup a.kind).bind r.converter?)

/-- The kind of the column behind an attribute. -/
def storedKind (r : ConverterRegistry) (a : BasicAttribute) : Kind :=
  match r.converterFor a with
  | .ok (some c) => c.storedKind
  | _ => a.kind

end ConverterRegistry

end EntityQuery
