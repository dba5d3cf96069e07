import EntityQuery.Text.Blank

/-! # Attribute paths in statements

A path starts from the alias of an entity and leads through attribute names, separated by dots. A
bare alias stands for the entity itself.
-/

namespace EntityQuery

/-- A way from the alias of an entity to an attribute. -/
structure Path where
  aliasName : String
  attributes : List String
  deriving Repr, DecidableEq

namespace Path

/-- The runs of characters between dots; there is one more of them than dots. -/
def splitDots : List Char → List (List Char)
  | [] => [[]]
  | c :: rest =>
      match splitDots rest with
      | [] => [[c]]
      | segment :: segments =>
          if c = '.' then [] :: segment :: segments else (c :: segment) :: segments

/-- The path that a text denotes; white space around its segments does not matter. -/
def ofText (text : String) : Path :=
  match (splitDots text.toList).map fun segment => String.ofList (Text.trimList segment) with
  | [] => ⟨"", []⟩
  | aliasName :: attributes => ⟨aliasName, attributes⟩

def toText (path : Path) : String := ".".intercalate (path.aliasName :: path.attributes)

def isEntity (path : Path) : Bool := path.attributes.isEmpty

end Path

end EntityQuery
