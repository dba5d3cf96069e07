import Mathlib.Data.List.Induction
import EntityQuery.Proofs.Distinct
import EntityQuery.Proofs.Mapping.Leaves

/-! # Declaring an entity

An entity is made by calls that declare one attribute each, and a value object inside it in the same
way. A later declaration of a name takes the place of an earlier one, where that stands; only an id
attribute goes to the front. So on every level each name occurs once, in an order that the calls
give.
-/

namespace EntityQuery

/-- How an attribute is declared; a value object by the declarations of the attributes in it. -/
inductive Declaration where
  | basic (column : BasicAttribute)
  | transient (kind : Kind)
  | embedded (parts : List (String × Declaration))

mutual

def Declaration.mapping : Declaration → AttributeMapping
  | .basic a => .basic a
  | .transient kind => .transient kind
  | .embedded parts => .embedded (declareEach parts [])

/-- Attributes after further declarations. -/
def declareEach : List (String × Declaration) → Attributes → Attributes
  | [], attributes => attributes
  | (name, d) :: rest, attributes => declareEach rest (Keyed.put attributes name d.mapping)

end

/-- A call that declares an attribute of an entity. -/
inductive EntityCall where
  | declare (name : String) (d : Declaration)
  | id (name : String) (kind : Kind) (generation : IdGeneration)

namespace EntityCall

def idName? : EntityCall → Option String
  | .declare .. => none
  | .id name _ _ => some name

def attributeName? : EntityCall → Option String
  | .declare name _ => some name
  | .id .. => none

/-- The names that the calls declare: ids before all others, the last one first, and the others in
    the order of the calls. -/
def declaredNames (calls : List EntityCall) : List String :=
  ((calls.filterMap idName?).reverse ++ calls.filterMap attributeName?).eraseDups

end EntityCall

def Entity.perform (e : Entity) : EntityCall → Entity
  | .declare name d => e.withAttribute name d.mapping
  | .id name kind generation => e.withId name kind generation

/-- The entity that calls make. -/
def Entity.made (name table : String) (calls : List EntityCall) : Entity :=
  calls.foldl Entity.perform { name := name, table := table }

theorem Entity.made_concat (name table : String) (calls : List EntityCall) (call : EntityCall) :
    made name table (calls ++ [call]) = (made name table calls).perform call := by
  rw [made, List.foldl_append]
  rfl

section Apart

mutual

theorem Declaration.mapping_named (d : Declaration) : d.mapping.Named := by
  cases d with
  | basic a | transient kind => simp [Declaration.mapping, AttributeMapping.Named]
  | embedded parts =>
      rw [Declaration.mapping, AttributeMapping.Named]
      exact declareEach_named parts trivial
termination_by sizeOf d

theorem declareEach_named (parts : List (String × Declaration)) {attributes : Attributes}
    (named : NamedApart attributes) : NamedApart (declareEach parts attributes) := by
  match parts with
  | [] =>
      rw [declareEach]
      exact named
  | (name, d) :: rest =>
      rw [declareEach]
      exact declareEach_named rest (named.put name d.mapping_named)
termination_by sizeOf parts

end

theorem Entity.made_named (name table : String) (calls : List EntityCall) :
    NamedApart (made name table calls).attributes := by
  induction calls using List.reverseRecOn with
  | nil => trivial
  | append_singleton calls call ih =>
      rw [made_concat]
      cases call with
      | declare name d => exact withAttribute_named ih name d.mapping_named
      | id name kind generation => exact withId_named ih name kind generation

end Apart

section Names

variable {α : Type}

theorem Keyed.names_putFirst (entries : Keyed α) (key : String) (value : α) :
    names (putFirst entries key value) =
      key :: (names entries).filter fun name => !name == key := by
  rw [putFirst, names_cons, names, names, List.filter_map]
  congr 2
  apply List.filter_congr
  intro entry _
  simp [Function.comp, beq_eq_decide]

end Names

theorem names_declareEach (parts : List (String × Declaration)) (before : List String)
    {attributes : Attributes} (names : Keyed.names attributes = before.eraseDups) :
    Keyed.names (declareEach parts attributes) = (before ++ parts.map (·.1)).eraseDups := by
  induction parts generalizing before attributes with
  | nil => simpa [declareEach] using names
  | cons part rest ih =>
      obtain ⟨name, d⟩ := part
      have next := Keyed.names_put_distinct names name d.mapping
      rw [declareEach, ih (before ++ [name]) next, List.append_assoc]
      rfl

open EntityCall in
theorem Entity.made_names (name table : String) (calls : List EntityCall) :
    Keyed.names (made name table calls).attributes = declaredNames calls := by
  induction calls using List.reverseRecOn with
  | nil => rfl
  | append_singleton calls call ih =>
      rw [made_concat, declaredNames, List.filterMap_append, List.filterMap_append]
      cases call with
      | declare name d =>
          show Keyed.names (Keyed.put _ name _) = _
          rw [Keyed.names_put_eq, ih, declaredNames]
          simp only [List.filterMap_cons, idName?, attributeName?, List.filterMap_nil,
            List.append_nil, ← List.append_assoc, eraseDups_concat, List.mem_eraseDups]
      | id name kind generation =>
          show Keyed.names (Keyed.putFirst _ name _) = _
          rw [Keyed.names_putFirst, ih, declaredNames, ← eraseDups_filter]
          simp only [List.filterMap_cons, idName?, attributeName?, List.filterMap_nil,
            List.append_nil, List.reverse_append, List.reverse_singleton, List.nil_append,
            List.cons_append, List.eraseDups_cons]

end EntityQuery
