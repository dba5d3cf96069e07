import EntityQuery.Compilation.Compiled

/-! # Domain values from result rows

A result row is first spread into a buffer with one place for every slot; places without a result
column stay null. The elements of the result are then taken from the buffer, converted to their
domain form, and put together.
-/

namespace EntityQuery

/-- The buffer for a result row: the value of every slot's column at the place of the slot. -/
def fillBuffer (slots : List Slot) (row : List Value) : List Value :=
  slots.foldl
    (fun buffer slot =>
      match slot.ordinal? with
      | some ordinal => buffer.set slot.index (row[ordinal - 1]?.getD .null)
      | none => buffer)
    (List.replicate slots.length .null)

/-- The domain value for a place in the buffer. -/
def readSlot (buffer : List Value) (index : Nat) (converter : Option Converter) :
    Except ConversionError Value :=
  let raw := buffer[index]?.getD .null
  match converter with
  | some c => c.toDomain raw
  | none => .ok raw

/-- Write a value at a path of an object. The objects on the way are made where they are missing,
    or where something else stands in their place. -/
def placeAt : Fields → AttributePath → Value → Fields
  | fields, [], _ => fields
  | fields, [name], v => Keyed.insert fields name v
  | fields, name :: rest, v =>
      let inner :=
        match Keyed.get? fields name with
        | some (.object inner) => inner
        | _ => []
      Keyed.insert fields name (.object (placeAt inner rest v))

def assembleFields (buffer : List Value) : List ResultField → Fields → Except ConversionError Fields
  | [], fields => .ok fields
  | field :: rest, fields => do
      let v ← readSlot buffer field.index field.converter
      assembleFields buffer rest (placeAt fields field.path v)

def assemble (buffer : List Value) : ResultPart → Except ConversionError Value
  | .basic _ index converter => readSlot buffer index converter
  | .composite _ fields => (assembleFields buffer fields []).map Value.object

def assembleEach (buffer : List Value) : List ResultPart → Except ConversionError (List Value)
  | [] => .ok []
  | part :: rest => do
      let v ← assemble buffer part
      let vs ← assembleEach buffer rest
      .ok (v :: vs)

/-- The names of the elements, if all of them have one. -/
def allNames : List ResultPart → Option (List String)
  | [] => some []
  | part :: rest => do
      let name ← part.aliasName?
      let names ← allNames rest
      some (name :: names)

/-- The domain value of a result row: a single element as it is, several as an object if all of them
    have names, otherwise as a list. -/
def readRow (slots : List Slot) (results : List ResultPart) (row : List Value) :
    Except ConversionError Value :=
  let buffer := fillBuffer slots row
  match results with
  | [single] => assemble buffer single
  | _ => do
      let values ← assembleEach buffer results
      match allNames results with
      | some names => .ok (.object (Keyed.ofList (names.zip values)))
      | none => .ok (.array values)

end EntityQuery
