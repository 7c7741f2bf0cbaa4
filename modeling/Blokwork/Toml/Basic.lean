import Blokwork.Json.Shape

/-!
# TOML values

A value of a TOML text. Tables are sorted by key, at every level. `Toml.toJson` turns a value
into JSON: a moment becomes an object with one key, and numbers that JSON does not have become
`null`; all else keeps its kind. Domain values are read from TOML values as from JSON values.
-/

namespace Blokwork

namespace Toml

/-- A floating-point number. -/
inductive Real where
  | finite (value : Binary64)
  | infinite (negative : Bool)
  | nan
deriving DecidableEq, Repr

/-- A day of the calendar. -/
structure Date where
  year : Nat
  month : Nat
  day : Nat
deriving DecidableEq, Repr

/-- A time of day; seconds and their fraction may be left out. -/
structure Time where
  hour : Nat
  minute : Nat
  second : Option Nat := none
  nanosecond : Option Nat := none
deriving DecidableEq, Repr

/-- The distance from universal time. -/
inductive Offset where
  | utc
  | minutes (east : Int)
deriving DecidableEq, Repr

/-- A date, a time or both, perhaps with an offset. -/
structure Moment where
  date : Option Date := none
  time : Option Time := none
  offset : Option Offset := none
deriving DecidableEq, Repr

end Toml

/-- A value of a TOML text. -/
inductive Toml where
  | str (value : String)
  | int (value : Int)
  | real (value : Toml.Real)
  | bool (value : Bool)
  | moment (value : Toml.Moment)
  | arr (items : List Toml)
  | table (members : List (String × Toml))

namespace Toml

instance : Inhabited Toml := ⟨.bool false⟩

/-- The table with some members, in the order of their keys. -/
def ofMembers (members : List (String × Toml)) : Toml :=
  .table (members.mergeSort fun a b => a.1 ≤ b.1)

/-- The kind of a value as it is called in a message. -/
def kind : Toml → String
  | .str _ => "string"
  | .int _ => "integer"
  | .real _ => "float"
  | .bool _ => "boolean"
  | .moment _ => "datetime"
  | .arr _ => "array"
  | .table _ => "table"

/-! ## Texts -/

/-- A number with zeros in front, up to a width. -/
def padded (width n : Nat) : String :=
  String.ofList (List.replicate (width - n.repr.length) '0') ++ n.repr

/-- The text of a day. -/
def Date.text (d : Date) : String :=
  padded 4 d.year ++ "-" ++ padded 2 d.month ++ "-" ++ padded 2 d.day

/-- The digits of a fraction of a second; zeros at the end are left out, but not all digits. -/
def fractionText (nanosecond : Nat) : String :=
  match (padded 9 nanosecond).toList.reverse.dropWhile (· = '0') with
  | [] => "0"
  | digits => String.ofList digits.reverse

/-- The text of a time of day. -/
def Time.text (t : Time) : String :=
  padded 2 t.hour ++ ":" ++ padded 2 t.minute
    ++ (match t.second with
      | none => ""
      | some s => ":" ++ padded 2 s)
    ++ (match t.nanosecond with
      | none => ""
      | some n => "." ++ fractionText n)

/-- The text of an offset. -/
def Offset.text : Offset → String
  | .utc => "Z"
  | .minutes east =>
    (if east < 0 then "-" else "+") ++ padded 2 (east.natAbs / 60) ++ ":"
      ++ padded 2 (east.natAbs % 60)

/-- The text of a moment. -/
def Moment.text (m : Moment) : String :=
  ((m.date.map Date.text).getD "")
    ++ (if m.date.isSome && m.time.isSome then "T" else "")
    ++ ((m.time.map Time.text).getD "")
    ++ ((m.offset.map Offset.text).getD "")

/-- Every magnitude is written in positional form. -/
def layout : Decimal.Layout := ⟨-400, 400⟩

/-- The digits of a floating-point number in a message. -/
def Real.text : Real → String
  | .finite x => (if x.negative then "-" else "") ++ x.shortest.text layout
  | .infinite negative => if negative then "-inf" else "inf"
  | .nan => "NaN"

/-! ## Other views -/

/-- The key of a moment in an object. -/
def momentKey : String := "$__toml_private_datetime"

mutual

/-- The value as JSON. -/
def toJson : Toml → Json
  | .str s => .str s
  | .int n => .int n
  | .real (.finite x) => .num (.real x)
  | .real _ => .null
  | .bool b => .bool b
  | .moment m => .obj [(momentKey, .str m.text)]
  | .arr xs => .arr (itemsToJson xs)
  | .table ms => .obj (membersToJson ms)

/-- The items as JSON. -/
def itemsToJson : List Toml → List Json
  | [] => []
  | x :: rest => toJson x :: itemsToJson rest

/-- The members as JSON. -/
def membersToJson : List (String × Toml) → List (String × Json)
  | [] => []
  | (k, x) :: rest => (k, toJson x) :: membersToJson rest

end

/-- What stands at the root of a value. -/
def found : Toml → Found
  | .str s => .text s
  | .int n => .integer n
  | .real x => .real x.text
  | .bool b => .bool b
  | .moment _ => .map
  | .arr _ => .sequence
  | .table _ => .map

/-- The items of an array. -/
def items : Toml → List Toml
  | .arr xs => xs
  | _ => []

/-- The members of a table; a moment has one, its text. -/
def members : Toml → Dict Toml
  | .table ms => ms
  | .moment m => [(momentKey, .str m.text)]
  | _ => []

instance : Datum Toml where
  found := found
  items := items
  members := members
  refusesSurplus := false

end Toml

end Blokwork
