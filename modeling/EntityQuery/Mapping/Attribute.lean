import EntityQuery.Keyed
import EntityQuery.Value.Kind

/-! # Attribute mappings

How the attributes of an entity are laid out in the columns of its table. Embedded attributes nest
to any depth; the leaves are the attributes with a column of their own and those that are not stored
at all.
-/

namespace EntityQuery

/-- The names that lead from an entity to one of its attributes. -/
abbrev AttributePath := List String

def AttributePath.dotted (path : AttributePath) : String := ".".intercalate path

/-- An attribute with a column of its own. -/
structure BasicAttribute where
  column : String
  kind : Kind
  /-- The converter asked for by name. -/
  converter : Option String := none
  /-- Whether the attribute is kept from the converters that apply by kind. -/
  disableConversion : Bool := false
  deriving Repr, DecidableEq

/-- How one attribute is mapped. -/
inductive AttributeMapping where
  | basic (column : BasicAttribute)
  /-- A value object whose attributes are stored in the same row. -/
  | embedded (attributes : List (String × AttributeMapping))
  /-- An attribute that is never stored and reads as null. -/
  | transient (kind : Kind)

abbrev Attributes := Keyed AttributeMapping

/-- An attribute mapping that has no attributes inside. -/
inductive Leaf where
  | basic (column : BasicAttribute)
  | transient (kind : Kind)
  deriving Repr, DecidableEq

def Leaf.toMapping : Leaf → AttributeMapping
  | .basic a => .basic a
  | .transient kind => .transient kind

mutual

/-- The leaves of a mapping with their paths inside it. -/
def AttributeMapping.leaves : AttributeMapping → List (AttributePath × Leaf)
  | .basic a => [([], .basic a)]
  | .embedded attributes => leavesOf attributes
  | .transient kind => [([], .transient kind)]

/-- The leaves of several attributes with their paths, in the order of declaration. -/
def leavesOf : List (String × AttributeMapping) → List (AttributePath × Leaf)
  | [] => []
  | (name, mapping) :: rest =>
      mapping.leaves.map (fun leaf => (name :: leaf.1, leaf.2)) ++ leavesOf rest

end

def AttributeMapping.at? : AttributeMapping → AttributePath → Option AttributeMapping
  | mapping, [] => some mapping
  | .embedded attributes, name :: rest =>
      match Keyed.get? attributes name with
      | some inner => inner.at? rest
      | none => none
  | _, _ :: _ => none

/-- The mapping at a path of attributes; the empty path has none. -/
def Attributes.at? (attributes : Attributes) : AttributePath → Option AttributeMapping
  | [] => none
  | name :: rest => (Keyed.get? attributes name).bind (·.at? rest)

end EntityQuery
