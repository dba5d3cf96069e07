import EntityQuery.Mapping.Attribute
import EntityQuery.Mapping.IdGenerator

/-! # Entities

An entity is a named set of attributes with the table that holds its rows; a model is the set of the
entities that statements may name.
-/

namespace EntityQuery

/-- How one type of entity is laid out in its table. -/
structure Entity where
  name : String
  table : String
  idAttribute : String := "id"
  idGeneration : IdGeneration := .assigned
  attributes : Attributes := []

namespace Entity

/-- Declare an attribute; a second declaration of a name takes the place of the first. -/
def withAttribute (e : Entity) (name : String) (mapping : AttributeMapping) : Entity :=
  { e with attributes := Keyed.put e.attributes name mapping }

/-- Declare the id attribute, which has a column of the same name and comes before all others. -/
def withId (e : Entity) (name : String) (kind : Kind) (generation : IdGeneration) : Entity :=
  { e with
    idAttribute := name
    idGeneration := generation
    attributes :=
      Keyed.putFirst e.attributes name (.basic { column := name, kind := kind }) }

/-- The leaves of the entity with their paths, in the order of declaration. -/
def leaves (e : Entity) : List (AttributePath × Leaf) := leavesOf e.attributes

def at? (e : Entity) (path : AttributePath) : Option AttributeMapping := e.attributes.at? path

/-- The id attribute, if it is declared and has a column of its own. -/
def idMapping? (e : Entity) : Option BasicAttribute :=
  match Keyed.get? e.attributes e.idAttribute with
  | some (.basic a) => some a
  | _ => none

def idColumn (e : Entity) : String :=
  match e.idMapping? with
  | some a => a.column
  | none => e.idAttribute

end Entity

/-- The entities that statements may name, in the order of their declaration. -/
structure Model where
  entities : Keyed Entity := []

namespace Model

/-- Declare an entity; a second declaration of a name takes the place of the first. -/
def withEntity (m : Model) (e : Entity) : Model := ⟨Keyed.put m.entities e.name e⟩

def entity? (m : Model) (name : String) : Option Entity := Keyed.get? m.entities name

end Model

end EntityQuery
