import Blokwork.Dict
import Blokwork.Number.Binary64

/-!
# JSON values

A value is a tree whose objects keep the order of their members. Numbers are integers or
binary64 numbers, and the two never compare equal. `Json.same` is equality of values: the
order of members does not count and the two zeros are one. `Json.depth` is the number of
containers around the innermost value.
-/

namespace Blokwork

/-- A number: an integer of at most 64 bits, or a binary64 number. -/
inductive Number where
  | int (value : Int)
  | real (value : Binary64)
deriving DecidableEq, Repr

namespace Number

/-- Equality of values: an integer is no binary64 number, and the two zeros are one. -/
def same : Number → Number → Bool
  | .int a, .int b => a = b
  | .real x, .real y => x.sameValue y
  | _, _ => false

end Number

/-- A JSON value; the members of an object stand in order. -/
inductive Json where
  | null
  | bool (value : Bool)
  | num (value : Number)
  | str (value : String)
  | arr (items : List Json)
  | obj (members : List (String × Json))
deriving Repr

namespace Json

instance : Inhabited Json := ⟨.null⟩

/-- The integer `n`. -/
def int (n : Int) : Json := .num (.int n)

/-- The members of an object. -/
def members? : Json → Option (Dict Json)
  | .obj ms => some ms
  | _ => none

/-- The items of an array. -/
def items? : Json → Option (List Json)
  | .arr xs => some xs
  | _ => none

/-- The text of a string. -/
def string? : Json → Option String
  | .str s => some s
  | _ => none

/-- The value of a boolean. -/
def bool? : Json → Option Bool
  | .bool b => some b
  | _ => none

/-- The member of an object under `key`; a value that is no object has none. -/
def member? (j : Json) (key : String) : Option Json :=
  j.members?.bind (Dict.get? · key)

/-- The value is `null`. -/
def isNull : Json → Bool
  | .null => true
  | _ => false

/-- The value is an array. -/
def isArray : Json → Bool
  | .arr _ => true
  | _ => false

/-- A list of strings as an array. -/
def strings (texts : List String) : Json := .arr (texts.map .str)

/-! ## Equality of trees -/

mutual

/-- The two trees are identical, the order of members included. -/
def beq : Json → Json → Bool
  | .null, .null => true
  | .bool a, .bool b => a = b
  | .num a, .num b => a = b
  | .str a, .str b => a = b
  | .arr xs, .arr ys => beqItems xs ys
  | .obj xs, .obj ys => beqMembers xs ys
  | _, _ => false

/-- `beq` over items. -/
def beqItems : List Json → List Json → Bool
  | [], [] => true
  | x :: xs, y :: ys => beq x y && beqItems xs ys
  | _, _ => false

/-- `beq` over members. -/
def beqMembers : List (String × Json) → List (String × Json) → Bool
  | [], [] => true
  | (k, x) :: xs, (l, y) :: ys => k = l && beq x y && beqMembers xs ys
  | _, _ => false

end

mutual

/-- `beq` decides equality. -/
theorem beq_iff_eq : (x y : Json) → (beq x y = true ↔ x = y)
  | .null, y => by cases y <;> simp [beq]
  | .bool a, y => by cases y <;> simp [beq]
  | .num a, y => by cases y <;> simp [beq]
  | .str a, y => by cases y <;> simp [beq]
  | .arr xs, y => by
    cases y with
    | arr ys => simpa [beq] using beqItems_iff_eq xs ys
    | _ => simp [beq]
  | .obj xs, y => by
    cases y with
    | obj ys => simpa [beq] using beqMembers_iff_eq xs ys
    | _ => simp [beq]

/-- `beqItems` decides equality. -/
theorem beqItems_iff_eq : (xs ys : List Json) → (beqItems xs ys = true ↔ xs = ys)
  | [], ys => by cases ys <;> simp [beqItems]
  | x :: xs, ys => by
    cases ys with
    | nil => simp [beqItems]
    | cons y ys => simp [beqItems, beq_iff_eq x y, beqItems_iff_eq xs ys]

/-- `beqMembers` decides equality. -/
theorem beqMembers_iff_eq :
    (xs ys : List (String × Json)) → (beqMembers xs ys = true ↔ xs = ys)
  | [], ys => by cases ys <;> simp [beqMembers]
  | (k, x) :: xs, ys => by
    cases ys with
    | nil => simp [beqMembers]
    | cons y ys =>
      obtain ⟨l, y⟩ := y
      simp [beqMembers, beq_iff_eq x y, beqMembers_iff_eq xs ys, and_assoc]

end

instance : DecidableEq Json := fun x y => decidable_of_iff _ (beq_iff_eq x y)

/-! ## Equality of values -/

mutual

/-- The two values are equal: the order of members does not count. -/
def same : Json → Json → Bool
  | .null, .null => true
  | .bool a, .bool b => a = b
  | .num a, .num b => a.same b
  | .str a, .str b => a = b
  | .arr xs, .arr ys => sameItems xs ys
  | .obj xs, .obj ys => xs.length = ys.length && sameMembers xs ys
  | _, _ => false

/-- The items are pairwise equal. -/
def sameItems : List Json → List Json → Bool
  | [], [] => true
  | x :: xs, y :: ys => same x y && sameItems xs ys
  | _, _ => false

/-- Each member has an equal value under its key among `others`. -/
def sameMembers : List (String × Json) → Dict Json → Bool
  | [], _ => true
  | (k, x) :: xs, others =>
    (match Dict.get? others k with
      | some y => same x y
      | none => false) && sameMembers xs others

end

/-! ## Depth -/

mutual

/-- The largest number of containers around a value inside, the value's own one included. -/
def depth : Json → Nat
  | .arr xs => depthItems xs + 1
  | .obj ms => depthMembers ms + 1
  | _ => 0

/-- The largest depth of the items. -/
def depthItems : List Json → Nat
  | [] => 0
  | x :: xs => max (depth x) (depthItems xs)

/-- The largest depth of the members' values. -/
def depthMembers : List (String × Json) → Nat
  | [] => 0
  | (_, x) :: ms => max (depth x) (depthMembers ms)

end

end Json

end Blokwork
