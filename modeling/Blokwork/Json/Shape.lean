import Blokwork.Json.Printer
import Blokwork.Text.Quoted

/-!
# Values of an expected shape

Reading a domain value out of a tree of data, with the first mismatch as the error. A type of
trees is a `Datum`: it shows what stands at a node and the nodes below it. JSON values are such
trees, and so are the values of a TOML text.
-/

namespace Blokwork

/-- What stands at a node. -/
inductive Found where
  | bool (value : Bool)
  | integer (value : Int)
  /-- A floating-point number, by its digits. -/
  | real (digits : String)
  | text (value : String)
  | null
  | sequence
  | map
deriving DecidableEq, Repr

/-- The wording of what was found. -/
def Found.message : Found → String
  | .bool b => "boolean `" ++ (if b then "true" else "false") ++ "`"
  | .integer n => "integer `" ++ (Number.int n).text ++ "`"
  | .real digits => "floating point `" ++ digits ++ "`"
  | .text s => "string " ++ Text.quoted s
  | .null => "null"
  | .sequence => "sequence"
  | .map => "map"

/-- A type of trees that domain values are read from. -/
class Datum (α : Type) where
  /-- What stands at the root. -/
  found : α → Found
  /-- The items of a sequence. -/
  items : α → List α
  /-- The members of a map. -/
  members : α → Dict α
  /-- A sequence with more items than a record has fields is no such record; otherwise the
  surplus is passed over. -/
  refusesSurplus : Bool

namespace Json

/-- What stands at the root of a JSON value. -/
def found : Json → Found
  | .null => .null
  | .bool b => .bool b
  | .num (.int n) => .integer n
  | .num (.real x) => .real (Number.real x).text
  | .str s => .text s
  | .arr _ => .sequence
  | .obj _ => .map

instance : Datum Json where
  found := found
  items j := j.items?.getD []
  members j := j.members?.getD []
  refusesSurplus := true

end Json

/-- Why a value does not have the expected shape. -/
inductive Mismatch where
  | wrongType (found : Found) (expected : String)
  | wrongValue (found : Found) (expected : String)
  | wrongLength (length : Nat) (expected : String)
  | unknownVariant (name : String) (expected : List String)
  | unknownField (name : String) (expected : List String)
  | missingField (name : String)
  | notScalar (found : Json)
  | other (message : String)
deriving DecidableEq, Repr

/-- The admissible names, as they stand in a message. -/
def expectedNames : List String → String
  | [a] => "`" ++ a ++ "`"
  | [a, b] => "`" ++ a ++ "` or `" ++ b ++ "`"
  | names => "one of " ++ String.intercalate ", " (names.map fun n => "`" ++ n ++ "`")

/-- The wording of a mismatch. -/
def Mismatch.message : Mismatch → String
  | .wrongType found expected => "invalid type: " ++ found.message ++ ", expected " ++ expected
  | .wrongValue found expected => "invalid value: " ++ found.message ++ ", expected " ++ expected
  | .wrongLength length expected => "invalid length " ++ length.repr ++ ", expected " ++ expected
  | .unknownVariant name expected =>
    "unknown variant `" ++ name ++ "`, expected " ++ expectedNames expected
  | .unknownField name expected =>
    "unknown field `" ++ name ++ "`, expected " ++ expectedNames expected
  | .missingField name => "missing field `" ++ name ++ "`"
  | .notScalar found => "expected a string, number or boolean, got " ++ found.compact
  | .other message => message

/-- A value of type `α`, or why there is none. -/
abbrev Shaped (α : Type) := Except Mismatch α

namespace Datum

variable {α : Type} [Datum α] {β : Type}

/-- The value has a type other than the expected one. -/
def unexpected (a : α) (expected : String) : Shaped β :=
  .error (.wrongType (found a) expected)

/-- A string. -/
def asString (a : α) : Shaped String :=
  match found a with
  | .text s => .ok s
  | _ => unexpected a "a string"

/-- A boolean. -/
def asBool (a : α) : Shaped Bool :=
  match found a with
  | .bool b => .ok b
  | _ => unexpected a "a boolean"

/-- A natural number. -/
def asNat (a : α) : Shaped Nat :=
  match found a with
  | .integer (.ofNat n) => .ok n
  | .integer n => .error (.wrongValue (.integer n) "usize")
  | _ => unexpected a "usize"

/-- A sequence, each item read by `item`. -/
def asList (item : α → Shaped β) (a : α) : Shaped (List β) :=
  match found a with
  | .sequence => (items a).mapM item
  | _ => unexpected a "a sequence"

/-- A map, each member read by `item`, keys in order. -/
def asDict (item : α → Shaped β) (a : α) : Shaped (Dict β) :=
  match found a with
  | .map => (members a).mapM fun (k, x) => (item x).map (k, ·)
  | _ => unexpected a "a map"

/-- `null` is absence; any other value is read by `item`. -/
def asOption (item : α → Shaped β) (a : α) : Shaped (Option β) :=
  match found a with
  | .null => .ok none
  | _ => (item a).map some

/-- `null` stands for `default`. -/
def orDefault (default : β) (item : α → Shaped β) (a : α) : Shaped β :=
  (asOption item a).map (·.getD default)

end Datum

end Blokwork
