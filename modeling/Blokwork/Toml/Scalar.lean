import Blokwork.Timestamp
import Blokwork.Toml.Basic

/-!
# Bare values

The values of a TOML text that are written without delimiters: booleans, integers,
floating-point numbers and moments. `Toml.bare?` reads the whole of a bare text. Digits of a
number may be grouped by single underscores.
-/

namespace Blokwork.Toml

/-- The value of a decimal digit. -/
def digit? (c : Char) : Option Nat :=
  if c.isDigit then some (c.toNat - '0'.toNat) else none

/-- The value of a hexadecimal digit. -/
def hexDigit? (c : Char) : Option Nat :=
  if c.isDigit then some (c.toNat - '0'.toNat)
  else if 'a' ≤ c ∧ c ≤ 'f' then some (c.toNat - 'a'.toNat + 10)
  else if 'A' ≤ c ∧ c ≤ 'F' then some (c.toNat - 'A'.toNat + 10)
  else none

/-- The value of a digit to some base of at most sixteen. -/
def digitTo? (base : Nat) (c : Char) : Option Nat :=
  (hexDigit? c).filter (· < base)

/-- The digits of a group, where an underscore stands between two digits only. -/
def grouped? (base : Nat) (afterDigit : Bool) : List Char → Option (List Nat)
  | [] => if afterDigit then some [] else none
  | '_' :: rest => if afterDigit then grouped? base false rest else none
  | c :: rest => do
    let d ← digitTo? base c
    let ds ← grouped? base true rest
    return d :: ds

/-- The number that some digits spell. -/
def ofDigits (base : Nat) (digits : List Nat) : Nat :=
  digits.foldl (fun n d => n * base + d) 0

/-- The digits of a decimal number, which starts with zero only if it is zero. -/
def decimal? (cs : List Char) : Option (List Nat) := do
  match ← grouped? 10 false cs with
  | 0 :: _ :: _ => none
  | digits => some digits

/-- A sign, true for minus, and what follows it. -/
def signed : List Char → Bool × List Char
  | '+' :: rest => (false, rest)
  | '-' :: rest => (true, rest)
  | cs => (false, cs)

/-- The integer is a word of 64 bits, with or without a sign. -/
def inRange (n : Int) : Bool := -0x8000000000000000 ≤ n && n < 0x10000000000000000

/-- An integer. -/
def integer? (cs : List Char) : Option Int := do
  let n : Int ← match cs with
    | '0' :: 'x' :: rest => (grouped? 16 false rest).map fun ds => (ofDigits 16 ds : Int)
    | '0' :: 'o' :: rest => (grouped? 8 false rest).map fun ds => (ofDigits 8 ds : Int)
    | '0' :: 'b' :: rest => (grouped? 2 false rest).map fun ds => (ofDigits 2 ds : Int)
    | _ =>
      let (negative, rest) := signed cs
      (decimal? rest).map fun ds => if negative then - (ofDigits 10 ds : Int) else ofDigits 10 ds
  if inRange n then some n else none

/-- The number nearest to `± digits · 10 ^ exponent`; `none` when the magnitude is too large. -/
def nearest? (negative : Bool) (digits : List Nat) (exponent : Int) : Option Binary64 :=
  let digits := digits.dropWhile (· = 0)
  let lead := digits.length + exponent
  if digits.isEmpty || lead < -330 then some (Binary64.zero negative)
  else if 310 < lead then none
  else Binary64.ofDecimal? negative (ofDigits 10 digits) exponent

/-- The exponent of a floating-point number. -/
def exponent? (cs : List Char) : Option Int :=
  let (negative, rest) := signed cs
  (grouped? 10 false rest).map fun ds =>
    if negative then - (ofDigits 10 ds : Int) else ofDigits 10 ds

/-- The text before the first character that passes a test, and the text behind it. -/
def cutAt (test : Char → Bool) (cs : List Char) : List Char × Option (List Char) :=
  match cs.dropWhile fun c => !test c with
  | [] => (cs, none)
  | _ :: rest => (cs.takeWhile fun c => !test c, some rest)

/-- A floating-point number, which has a fraction or an exponent, or is a name. -/
def real? (cs : List Char) : Option Real := do
  let (negative, rest) := signed cs
  if rest = ['i', 'n', 'f'] then return .infinite negative
  if rest = ['n', 'a', 'n'] then return .nan
  let (mantissa, exponent) := cutAt (fun c => c = 'e' || c = 'E') rest
  let (whole, fraction) := cutAt (· = '.') mantissa
  if exponent.isNone && fraction.isNone then none
  let whole ← decimal? whole
  let fraction ← match fraction with
    | none => some []
    | some cs => grouped? 10 false cs
  let exponent ← match exponent with
    | none => some 0
    | some cs => exponent? cs
  let x ← nearest? negative (whole ++ fraction) (exponent - fraction.length)
  return .finite x

/-! ## Moments -/

/-- A number of two digits, up to a largest one. -/
def twoDigits? (most : Nat) : List Char → Option (Nat × List Char)
  | a :: b :: rest => do
    let n := 10 * (← digit? a) + (← digit? b)
    if n ≤ most then some (n, rest) else none
  | _ => none

/-- A day of the calendar, and what follows it. -/
def date? : List Char → Option (Date × List Char)
  | a :: b :: c :: d :: '-' :: rest => do
    let century := 10 * (← digit? a) + (← digit? b)
    let year := 100 * century + 10 * (← digit? c) + (← digit? d)
    let (month, rest) ← twoDigits? 12 rest
    match rest with
    | '-' :: rest =>
      let (day, rest) ← twoDigits? 31 rest
      if 1 ≤ month ∧ 1 ≤ day ∧ day ≤ Timestamp.daysInMonth year month then
        some (⟨year, month, day⟩, rest)
      else none
    | _ => none
  | _ => none

/-- Nine digits of a fraction of a second. -/
def nanoseconds (digits : List Char) : Nat :=
  ofDigits 10 ((digits ++ List.replicate 9 '0').take 9 |>.filterMap digit?)

/-- A time of day, and what follows it. -/
def time? (cs : List Char) : Option (Time × List Char) := do
  let (hour, cs) ← twoDigits? 23 cs
  match cs with
  | ':' :: cs =>
    let (minute, cs) ← twoDigits? 59 cs
    match cs with
    | ':' :: cs =>
      let (second, cs) ← twoDigits? 60 cs
      match cs with
      | '.' :: cs =>
        let digits := cs.takeWhile Char.isDigit
        if digits.isEmpty then none
        else
          some (⟨hour, minute, some second, some (nanoseconds digits)⟩, cs.dropWhile Char.isDigit)
      | cs => some (⟨hour, minute, some second, none⟩, cs)
    | cs => some (⟨hour, minute, none, none⟩, cs)
  | _ => none

/-- The offset that is the whole of a text; an empty text is none. -/
def offset? : List Char → Option (Option Offset)
  | [] => some none
  | ['Z'] => some (some .utc)
  | ['z'] => some (some .utc)
  | sign :: rest =>
    if sign = '+' ∨ sign = '-' then do
      let (hours, rest) ← twoDigits? 23 rest
      match rest with
      | [':', a, b] =>
        let (minutes, _) ← twoDigits? 59 [a, b]
        let total : Int := 60 * hours + minutes
        some (some (.minutes (if sign = '-' then - total else total)))
      | _ => none
    else none

/-- A moment. -/
def moment? (cs : List Char) : Option Moment :=
  match date? cs with
  | some (date, []) => some { date := some date }
  | some (date, c :: rest) =>
    if c = 'T' ∨ c = 't' ∨ c = ' ' then do
      let (time, rest) ← time? rest
      let offset ← offset? rest
      some { date := some date, time := some time, offset }
    else none
  | none =>
    match time? cs with
    | some (time, []) => some { time := some time }
    | _ => none

/-- The value of a bare text. -/
def bare? (cs : List Char) : Option Toml :=
  if cs = ['t', 'r', 'u', 'e'] then some (.bool true)
  else if cs = ['f', 'a', 'l', 's', 'e'] then some (.bool false)
  else
    ((integer? cs).map .int).or (((real? cs).map .real).or ((moment? cs).map .moment))

/-! ## Bare values in a text -/

/-- The character may stand in a bare value. -/
def isBareChar (c : Char) : Bool := c.isAlphanum || ['+', '-', '_', '.', ':'].contains c

/-- The text of a bare value and what follows it. A single space may stand between a date and a
time. -/
def bareText (cs : List Char) : List Char × List Char :=
  let text := cs.takeWhile isBareChar
  let rest := cs.dropWhile isBareChar
  match date? text, rest with
  | some (_, []), ' ' :: c :: rest =>
    if c.isDigit then
      (text ++ ' ' :: c :: rest.takeWhile isBareChar, rest.dropWhile isBareChar)
    else (text, ' ' :: c :: rest)
  | _, _ => (text, rest)

/-- The bare value that a text starts with. -/
def readBare (cs : List Char) : Option (Toml × List Char) :=
  let (text, rest) := bareText cs
  (bare? text).map (·, rest)

end Blokwork.Toml
