import EntityQuery.Compilation.Compiled
import EntityQuery.Compilation.Operand
import EntityQuery.Compilation.Resolver

/-! # Compiling select lists

Every selection asks the resolver of its block for the slots it needs. An entity or an embedded
value needs one for each of its leaves; all leaves that are not stored share the block's empty slot.
-/

namespace EntityQuery

/-- The select list of a block as far as it is built. -/
structure SelectState where
  resolver : Resolver Unit
  /-- The empty slot, once it was needed. -/
  placeholder : Option Slot := none
  state : CompileState

namespace SelectState

/-- The select list of a new block. Its resolver takes over the channel of the statement. -/
def start (id : Nat) (table : TableRef) (s : CompileState) : SelectState :=
  { resolver := .announcing id table s.announcements, state := s }

/-- The state behind the select list, with the channel as the resolver leaves it. -/
def finish (st : SelectState) : CompileState :=
  { st.state with announcements := st.resolver.announcements }

end SelectState

def selectLeaf (d : Domain) (table : TableRef) (path : AttributePath) (leaf : Leaf)
    (st : SelectState) : Except CompileError (ResultField × SelectState) :=
  match leaf with
  | .basic a => do
      let converter ← d.converterFor a path
      let (e, s) := st.state.refer d.registry table a
      let (slot, resolver) := st.resolver.resolve e a.kind
      .ok (⟨path, slot.index, converter⟩, { st with resolver := resolver, state := s })
  | .transient _ =>
      match st.placeholder with
      | some slot => .ok (⟨path, slot.index, none⟩, st)
      | none => do
          let (slot, resolver) ← st.resolver.placeholder
          .ok (⟨path, slot.index, none⟩,
            { st with resolver := resolver, placeholder := some slot })

def selectLeaves (d : Domain) (table : TableRef) :
    List (AttributePath × Leaf) → SelectState → Except CompileError (List ResultField × SelectState)
  | [], st => .ok ([], st)
  | (path, leaf) :: rest, st => do
      let (field, st) ← selectLeaf d table path leaf st
      let (fields, st) ← selectLeaves d table rest st
      .ok (field :: fields, st)

/-- The slots for a path: all leaves of an entity or of an embedded value, with their paths inside
    it, or a single attribute. -/
def selectPath (d : Domain) (scope : Scope) (path : Path) (aliasName : Option String)
    (st : SelectState) : Except CompileError (ResultPart × SelectState) := do
  let binding ← scope.resolve path.aliasName
  if path.isEntity then
    let (fields, st) ← selectLeaves d binding.table binding.entity.leaves st
    .ok (.composite aliasName fields, st)
  else
    match binding.entity.at? path.attributes with
    | none => .error (.unknownAttribute binding.entity.name path.attributes)
    | some (.embedded attributes) =>
        let (fields, st) ← selectLeaves d binding.table (leavesOf attributes) st
        .ok (.composite aliasName fields, st)
    | some (.basic a) =>
        let (field, st) ← selectLeaf d binding.table path.attributes (.basic a) st
        .ok (.basic aliasName field.index field.converter, st)
    | some (.transient kind) =>
        let (field, st) ← selectLeaf d binding.table path.attributes (.transient kind) st
        .ok (.basic aliasName field.index field.converter, st)

def selectOne (d : Domain) (scope : Scope) (selection : Selection) (st : SelectState) :
    Except CompileError (ResultPart × SelectState) :=
  match selection.operand with
  | .ref path => selectPath d scope path selection.aliasName st
  | operand => do
      let (e, s) ← compileExpression d scope .select operand st.state
      let (slot, resolver) := st.resolver.resolve e (e.kindOr .null)
      .ok (.basic selection.aliasName slot.index none, { st with resolver := resolver, state := s })

def selectEach (d : Domain) (scope : Scope) :
    List Selection → SelectState → Except CompileError (List ResultPart × SelectState)
  | [], st => .ok ([], st)
  | selection :: rest, st => do
      let (part, st) ← selectOne d scope selection st
      let (parts, st) ← selectEach d scope rest st
      .ok (part :: parts, st)

/-- What a block selects when nothing is asked for: its root entity, of which a query inside a
    restriction only needs the id. -/
def defaultSelection (root : Root) (entity : Entity) (enclosing : List Clause) : Selection :=
  let path : Path :=
    if enclosing.head? = some .restriction then ⟨root.aliasName, [entity.idAttribute]⟩
    else ⟨root.aliasName, []⟩
  { operand := .ref path }

end EntityQuery
