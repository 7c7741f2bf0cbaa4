/-!
# Binary floating-point numbers

A finite binary64 number is `± mantissa · 2 ^ exponent` in units of `2 ^ -1074`, the
smallest positive number of the format. `Binary64.ofRatio?` rounds a fraction to the nearest
such number, a tie going to the even mantissa, and reports a magnitude beyond the largest
one. Products and quotients are the exact results, rounded once.
-/

namespace Blokwork

/-- A finite binary64 number in units of `2 ^ -1074`. In normal form the mantissa is below
`2 ^ 53`, and at least `2 ^ 52` unless the exponent is zero; the exponent is at most 2045. -/
structure Binary64 where
  negative : Bool
  mantissa : Nat
  exponent : Nat
deriving DecidableEq, Repr

namespace Binary64

/-- The zero of the given sign. -/
def zero (negative : Bool) : Binary64 := ⟨negative, 0, 0⟩

/-- The number is a zero, of either sign. -/
def isZero (x : Binary64) : Bool := x.mantissa = 0

/-- The number with the opposite sign. -/
def neg (x : Binary64) : Binary64 := { x with negative := !x.negative }

/-- The two numbers have the same value: the zeros count as one. -/
def sameValue (x y : Binary64) : Bool := x = y || (x.isZero && y.isZero)

/-- The quotient rounded to the nearest natural number, a tie to the even one. -/
def roundDiv (num den : Nat) : Nat :=
  let q := num / den
  let twice := 2 * (num % den)
  if den < twice || (twice == den && q % 2 == 1) then q + 1 else q

/-- The mantissa bits of the format, and the largest exponent in units of the smallest number. -/
def mantissaBits : Nat := 53

/-- The largest exponent a finite number has. -/
def maxExponent : Nat := 2045

/-- One in units of the smallest positive number. -/
def unit : Nat := Nat.pow 2 1074

/-- The number nearest to `num / den`, a tie to the even mantissa; `none` when the magnitude
rounds beyond the largest finite number. -/
def ofRatio? (negative : Bool) (num den : Nat) : Option Binary64 :=
  let scaled := num * unit
  let e := (scaled / den).log2 - (mantissaBits - 1)
  let m := roundDiv scaled (den * Nat.pow 2 e)
  let (m, e) :=
    if m = Nat.pow 2 mantissaBits then (Nat.pow 2 (mantissaBits - 1), e + 1) else (m, e)
  if maxExponent < e then none else some ⟨negative, m, e⟩

/-- The magnitude as a multiple of the smallest positive number. -/
def scaled (x : Binary64) : Nat := x.mantissa * Nat.pow 2 x.exponent

/-- The product, rounded once. -/
def mul? (x y : Binary64) : Option Binary64 :=
  ofRatio? (x.negative != y.negative) (x.scaled * y.scaled) (unit * unit)

/-- The quotient by a number other than zero, rounded once. -/
def div? (x y : Binary64) : Option Binary64 :=
  ofRatio? (x.negative != y.negative) x.scaled y.scaled

/-- The number nearest to `10 ^ n`. -/
def powerOfTen? (n : Nat) : Option Binary64 := ofRatio? false (Nat.pow 10 n) 1

/-- The number nearest to `± digits · 10 ^ exponent`. -/
def ofDecimal? (negative : Bool) (digits : Nat) (exponent : Int) : Option Binary64 :=
  match exponent with
  | .ofNat e => ofRatio? negative (digits * Nat.pow 10 e) 1
  | .negSucc e => ofRatio? negative digits (Nat.pow 10 (e + 1))

end Binary64

end Blokwork
