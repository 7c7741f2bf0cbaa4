import Blokwork.Number.Binary64

/-!
# Shortest decimal text

The text of a binary64 number has the fewest digits that read back as the number; of the
decimals with that many digits the nearest is taken, of two equally near ones the even one.
`Layout` says where the positional form ends and how an exponent is written.
-/

namespace Blokwork

/-- The decimal `digits · 10 ^ scale`. -/
structure Decimal where
  digits : Nat
  scale : Int
deriving DecidableEq, Repr

namespace Decimal

/-- The decimal as the fraction of two natural numbers. -/
def ratio (d : Decimal) : Nat × Nat :=
  match d.scale with
  | .ofNat e => (d.digits * Nat.pow 10 e, 1)
  | .negSucc e => (d.digits, Nat.pow 10 (e + 1))

/-- The digits with the trailing zeros moved into the scale. `fuel` bounds the number moved. -/
def stripZeros : Nat → Nat → Int → Decimal
  | 0, n, s => ⟨n, s⟩
  | fuel + 1, n, s => if n ≠ 0 ∧ n % 10 = 0 then stripZeros fuel (n / 10) (s + 1) else ⟨n, s⟩

end Decimal

namespace Binary64

/-- The reals that round to `x`, as numerators over `intervalUnit`: the lower end, the value
itself and the upper end. The lower half gap is halved at a power of two. -/
def interval (x : Binary64) : Nat × Nat × Nat :=
  let gap := Nat.pow 2 x.exponent
  let v := 4 * x.mantissa * gap
  let below := if x.mantissa = Nat.pow 2 52 ∧ 0 < x.exponent then gap else 2 * gap
  (v - below, v, v + 2 * gap)

/-- The denominator of the numerators in `interval`. -/
def intervalUnit : Nat := 4 * unit

/-- The decimal rounds to `x`: it lies within the interval, whose ends belong to it exactly
when the mantissa is even. -/
def reads (x : Binary64) (d : Decimal) : Bool :=
  let (lo, _, hi) := x.interval
  let (num, den) := d.ratio
  let point := num * intervalUnit
  if x.mantissa % 2 = 0 then lo * den ≤ point && point ≤ hi * den
  else lo * den < point && point < hi * den

/-- How many further places are needed before the fraction reaches one, up to `fuel`. -/
def leadingPlaces : Nat → Nat → Nat → Nat
  | 0, _, _ => 0
  | fuel + 1, num, den => if den ≤ num then 0 else leadingPlaces fuel (num * 10) den + 1

/-- The exponent of ten of the leading digit of a number other than zero. -/
def leadingExponent (x : Binary64) : Int :=
  if unit ≤ x.scaled then ((x.scaled / unit).repr.length - 1 : Nat)
  else - (leadingPlaces 400 x.scaled unit : Int)

/-- The value divided by `10 ^ place`, rounded down, and whether twice the remainder is below,
at or above one. -/
def gridBelow (x : Binary64) (place : Int) : Nat × Ordering :=
  let (num, den) :=
    match place with
    | .ofNat e => (x.scaled, unit * Nat.pow 10 e)
    | .negSucc e => (x.scaled * Nat.pow 10 (e + 1), unit)
  (num / den, compare (2 * (num % den)) den)

/-- The nearest decimal with its last digit at `place` that reads as `x`. -/
def onGrid? (x : Binary64) (place : Int) : Option Decimal :=
  let (n, half) := x.gridBelow place
  let low : Decimal := ⟨n, place⟩
  let high : Decimal := ⟨n + 1, place⟩
  match x.reads low, x.reads high with
  | false, false => none
  | true, false => some low
  | false, true => some high
  | true, true =>
    match half with
    | .lt => some low
    | .gt => some high
    | .eq => some (if n % 2 = 0 then low else high)

/-- The first hit on the grids of `done + 1`, `done + 2`, … digits, among at most `fuel`. -/
def firstGrid : Nat → Nat → Binary64 → Decimal
  | 0, digits, x => ⟨(x.gridBelow (x.leadingExponent - digits)).1, x.leadingExponent - digits⟩
  | fuel + 1, digits, x =>
    match x.onGrid? (x.leadingExponent - digits) with
    | some d => d
    | none => firstGrid fuel (digits + 1) x

/-- The shortest decimal that reads as `x`, the nearest of those. -/
def shortest (x : Binary64) : Decimal :=
  if x.isZero then ⟨0, 0⟩
  else
    let d := firstGrid 17 0 x
    Decimal.stripZeros 17 d.digits d.scale

end Binary64

/-- How a number is written: the exponents of the leading digit that are written in positional
form, from the first to below the second. -/
structure Decimal.Layout where
  positionalFrom : Int
  positionalBelow : Int

namespace Decimal

/-- The text of a decimal: positional with at least one place after the point, or one digit,
the further digits after a point, and an exponent with its sign. -/
def text (layout : Layout) (d : Decimal) : String :=
  let digits := d.digits.repr
  let count := digits.length
  let lead : Int := d.scale + count - 1
  if d.digits = 0 then "0.0"
  else if layout.positionalFrom ≤ lead ∧ lead < layout.positionalBelow then
    if 0 ≤ d.scale then digits ++ String.ofList (List.replicate d.scale.toNat '0') ++ ".0"
    else if 0 ≤ lead then
      let whole := lead.toNat + 1
      String.ofList (digits.toList.take whole) ++ "." ++ String.ofList (digits.toList.drop whole)
    else "0." ++ String.ofList (List.replicate (-lead - 1).toNat '0') ++ digits
  else
    let head := String.ofList (digits.toList.take 1)
    let tail := if count = 1 then "" else "." ++ String.ofList (digits.toList.drop 1)
    let sign := if lead < 0 then "-" else "+"
    head ++ tail ++ "e" ++ sign ++ lead.natAbs.repr

end Decimal

end Blokwork
