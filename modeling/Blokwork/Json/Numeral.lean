import Blokwork.Json.Basic

/-!
# Numerals

The spelling of a number (`Numeral`) and the value it denotes. An integer numeral within 64
bits is an integer; any other numeral is read as a binary64 number in two roundings: as many
leading digits as fit into 64 bits are taken as the significand, and that is then multiplied
or divided by a power of ten. A magnitude beyond the format is refused, one below it is zero.
-/

namespace Blokwork

/-- Why a JSON text was refused: it ended early, it is malformed, or it is a JSON text whose
value has the wrong shape. -/
inductive TextFault where
  | ended
  | malformed
  | mismatched
deriving DecidableEq, Repr

/-- The parts of a spelled number. -/
structure Numeral where
  negative : Bool
  whole : List Char
  fraction : List Char
  /-- The sign of the exponent, true for minus, and its digits. -/
  exponent : Option (Bool × List Char)
  /-- There is a point or an exponent. -/
  isReal : Bool
deriving DecidableEq, Repr

namespace Numeral

/-- The value of a decimal digit. -/
def digitValue (c : Char) : Nat := c.toNat - '0'.toNat

/-- The largest significand. -/
def maxSignificand : Nat := 0xFFFFFFFFFFFFFFFF

/-- The significand extended by digits until one does not fit, and the digits from there on. -/
def absorb (significand : Nat) : List Char → Nat × List Char
  | [] => (significand, [])
  | c :: rest =>
    let next := significand * 10 + digitValue c
    if maxSignificand < next then (significand, c :: rest) else absorb next rest

/-- The power of ten of an exponent, `none` when its digits exceed 31 bits. -/
def exponentValue? (digits : List Char) : Option Nat :=
  digits.foldlM (fun e c =>
    let next := e * 10 + digitValue c
    if 0x7FFFFFFF < next then none else some next) 0

/-- `x` times `10 ^ exponent`: one product or quotient when the power is in range, and repeated
division by `10 ^ 308` below. -/
def scale (x : Binary64) (exponent : Int) : Nat → Option Binary64
  | 0 => none
  | fuel + 1 =>
    if exponent.natAbs ≤ 308 then do
      let power ← Binary64.powerOfTen? exponent.natAbs
      if 0 ≤ exponent then x.mul? power else x.div? power
    else if x.isZero then some x
    else if 0 ≤ exponent then none
    else do
      let power ← Binary64.powerOfTen? 308
      scale (← x.div? power) (exponent + 308) fuel

/-- The number nearest to the significand, scaled, with the sign set last. -/
def realValue? (negative : Bool) (significand : Nat) (exponent : Int) : Option Binary64 := do
  let x ← Binary64.ofRatio? false significand 1
  let y ← scale x exponent 8
  return { y with negative := negative }

/-- The number a numeral denotes; `none` when it is out of range. -/
def value? (n : Numeral) : Option Number :=
  let (significand, dropped) := absorb 0 n.whole
  if n.isReal then
    let (significand, unread) := absorb significand n.fraction
    let read := n.fraction.length - unread.length
    let start : Int := dropped.length - read
    match n.exponent with
    | none => (realValue? n.negative significand start).map .real
    | some (minus, digits) =>
      match exponentValue? digits with
      | some e =>
        (realValue? n.negative significand (if minus then start - e else start + e)).map .real
      | none =>
        if significand ≠ 0 ∧ !minus then none else some (.real (Binary64.zero n.negative))
  else if dropped ≠ [] then (realValue? n.negative significand dropped.length).map .real
  else if !n.negative then some (.int significand)
  else if significand = 0 ∨ 0x8000000000000000 < significand then
    (realValue? true significand 0).map .real
  else some (.int (-(significand : Int)))

/-- The decimal digits a text starts with, and the rest. -/
def digits (cs : List Char) : List Char × List Char :=
  (cs.takeWhile Char.isDigit, cs.dropWhile Char.isDigit)

/-- At least one digit; what fails is the end of the text or another character. -/
def digits1 (cs : List Char) : Except TextFault (List Char × List Char) :=
  match digits cs, cs with
  | ([], _), [] => .error .ended
  | ([], _), _ :: _ => .error .malformed
  | found, _ => .ok found

/-- An exponent, when the text starts with its letter. -/
def scanExponent (cs : List Char) : Except TextFault (Option (Bool × List Char) × List Char) :=
  match cs with
  | [] => .ok (none, [])
  | c :: rest =>
    if c = 'e' ∨ c = 'E' then
      let (minus, rest) :=
        match rest with
        | '+' :: r => (false, r)
        | '-' :: r => (true, r)
        | r => (false, r)
      (digits1 rest).map fun (ds, r) => (some (minus, ds), r)
    else .ok (none, c :: rest)

/-- The digits after a point, when the text starts with one. -/
def scanFraction (cs : List Char) : Except TextFault (Option (List Char) × List Char) :=
  match cs with
  | '.' :: rest => (digits1 rest).map fun (ds, r) => (some ds, r)
  | rest => .ok (none, rest)

/-- The digits before the point: a zero stands alone. -/
def scanWhole (cs : List Char) : Except TextFault (List Char × List Char) := do
  let (ds, rest) ← digits1 cs
  match ds with
  | '0' :: _ :: _ => .error .malformed
  | _ => .ok (ds, rest)

/-- The numeral a text without a minus sign starts with. -/
def scan (negative : Bool) (cs : List Char) : Except TextFault (Numeral × List Char) := do
  let (whole, rest) ← scanWhole cs
  let (fraction, rest) ← scanFraction rest
  let (exponent, rest) ← scanExponent rest
  return (⟨negative, whole, fraction.getD [], exponent, fraction.isSome || exponent.isSome⟩, rest)

end Numeral

end Blokwork
