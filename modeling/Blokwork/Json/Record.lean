import Blokwork.Json.Shape

/-!
# Records

A record has named fields in an order. It is read from an object, member by member in the
order of the keys, where unknown keys are passed over; and, unless it is open, from an array of
its fields in order, where optional fields at the end may be left out. What is read from data
of type `α` is collected in a draft of type `σ`.
-/

namespace Blokwork

/-- One field of a record. -/
structure RecordField (α σ : Type) where
  name : String
  /-- The record cannot do without the field. -/
  required : Bool
  /-- Enters the field's value into the draft. -/
  enter : α → σ → Shaped σ

/-- The fields of a record, in order. -/
structure RecordShape (α σ : Type) where
  /-- The record as it is called in a message. -/
  title : String
  fields : List (RecordField α σ)

namespace RecordShape

variable {α σ : Type}

/-- The field of that name. -/
def field? (shape : RecordShape α σ) (name : String) : Option (RecordField α σ) :=
  shape.fields.find? fun f => f.name = name

/-- Enters the members of an object in the order of the keys. -/
def enterMembers (shape : RecordShape α σ) (draft : σ) (members : Dict α) : Shaped σ :=
  members.foldlM (fun draft (key, value) =>
    match shape.field? key with
    | some f => f.enter value draft
    | none => .ok draft) draft

/-- Enters the items of an array into the fields in order. `position` items came before. -/
def enterItems (shape : RecordShape α σ) (total position : Nat) (draft : σ) :
    List (RecordField α σ) → List α → Shaped σ
  | [], [] => .ok draft
  | [], _ :: _ => .error (.wrongLength total "fewer elements in array")
  | f :: fields, [] =>
    if f.required then
      .error (.wrongLength position
        (shape.title ++ " with " ++ shape.fields.length.repr ++ " elements"))
    else enterItems shape total (position + 1) draft fields []
  | f :: fields, x :: items => do
    let draft ← f.enter x draft
    enterItems shape total (position + 1) draft fields items

/-- The first required field that is not a key of the object. -/
def missing? (shape : RecordShape α σ) (members : Dict α) : Option (RecordField α σ) :=
  shape.fields.find? fun f => f.required && !Dict.has members f.name

/-- Reads an object: its members first, absent fields last. -/
def readMembers (shape : RecordShape α σ) (draft : σ) (members : Dict α) : Shaped σ := do
  let draft ← shape.enterMembers draft members
  match shape.missing? members with
  | some f => .error (.missingField f.name)
  | none => return draft

/-- Reads a record from an object or an array. -/
def read [Datum α] (shape : RecordShape α σ) (draft : σ) (a : α) : Shaped σ :=
  match Datum.found a with
  | .map => shape.readMembers draft (Datum.members a)
  | .sequence =>
    let items := Datum.items a
    let items := if Datum.refusesSurplus α then items else items.take shape.fields.length
    shape.enterItems items.length 0 draft shape.fields items
  | _ => Datum.unexpected a shape.title

end RecordShape

end Blokwork
