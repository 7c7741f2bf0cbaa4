import Blokwork.Text.Blank

/-!
# Timestamps

A point in time in UTC, read from and written as RFC 3339. Reading is lenient: a space may
stand for the `T`, blanks may stand between the parts, `UTC` may stand for `Z`, and a year may
have a sign and any number of digits. Writing takes the fewest of 0, 3, 6 or 9 places for the
fraction.
-/

namespace Blokwork

/-- A point in time: seconds since 1970 in UTC, and nanoseconds, which reach a whole second
within a leap second. -/
structure Timestamp where
  seconds : Int
  nanoseconds : Nat
deriving DecidableEq, Repr

/-- Why a text is no timestamp. -/
inductive TimestampFault where
  | tooShort
  | tooLong
  | invalid
  | outOfRange
deriving DecidableEq, Repr

/-- The wording of a fault. -/
def TimestampFault.message : TimestampFault → String
  | .tooShort => "premature end of input"
  | .tooLong => "trailing input"
  | .invalid => "input contains invalid characters"
  | .outOfRange => "input is out of range"

namespace Timestamp

/-! ## The calendar -/

/-- The days from 1970-01-01 to a day of the Gregorian calendar. -/
def daysFromCivil (year : Int) (month day : Nat) : Int :=
  let y := if month ≤ 2 then year - 1 else year
  let era := Int.fdiv y 400
  let yearOfEra := y - era * 400
  let monthFromMarch : Int := if 2 < month then (month : Int) - 3 else (month : Int) + 9
  let dayOfYear := (153 * monthFromMarch + 2) / 5 + day - 1
  let dayOfEra := yearOfEra * 365 + yearOfEra / 4 - yearOfEra / 100 + dayOfYear
  era * 146097 + dayOfEra - 719468

/-- The year, month and day of a number of days from 1970-01-01. -/
def civilFromDays (days : Int) : Int × Nat × Nat :=
  let z := days + 719468
  let era := Int.fdiv z 146097
  let dayOfEra := z - era * 146097
  let yearOfEra := (dayOfEra - dayOfEra / 1460 + dayOfEra / 36524 - dayOfEra / 146096) / 365
  let dayOfYear := dayOfEra - (365 * yearOfEra + yearOfEra / 4 - yearOfEra / 100)
  let monthFromMarch := (5 * dayOfYear + 2) / 153
  let day := dayOfYear - (153 * monthFromMarch + 2) / 5 + 1
  let month := if monthFromMarch < 10 then monthFromMarch + 3 else monthFromMarch - 9
  let year := yearOfEra + era * 400
  (if month ≤ 2 then year + 1 else year, month.toNat, day.toNat)

/-- The year has a 29th of February. -/
def isLeapYear (year : Int) : Bool :=
  year % 4 = 0 && (year % 100 ≠ 0 || year % 400 = 0)

/-- The days of a month. -/
def daysInMonth (year : Int) (month : Nat) : Nat :=
  if month = 2 then (if isLeapYear year then 29 else 28)
  else if month = 4 || month = 6 || month = 9 || month = 11 then 30
  else 31

/-- The years of the calendar. -/
def firstYear : Int := -262143

/-- The last year of the calendar. -/
def lastYear : Int := 262142

/-! ## Reading -/

/-- The text without blanks in front. -/
def skipBlank (cs : List Char) : List Char := cs.dropWhile Text.isBlankChar

/-- A decimal number of one to `most` digits. -/
def number (most : Nat) (cs : List Char) : Except TimestampFault (Nat × List Char) :=
  let digits := (cs.take most).takeWhile Char.isDigit
  match digits, cs with
  | [], [] => .error .tooShort
  | [], _ => .error .invalid
  | _, _ =>
    let n := digits.foldl (fun n c => n * 10 + (c.toNat - '0'.toNat)) 0
    if 0x8000000000000000 ≤ n then .error .outOfRange else .ok (n, cs.drop digits.length)

/-- A number of one to two digits behind blanks, between two bounds. -/
def numberBetween (low high : Nat) (cs : List Char) : Except TimestampFault (Nat × List Char) := do
  let (n, rest) ← number 2 (skipBlank cs)
  if low ≤ n ∧ n ≤ high then return (n, rest) else .error .outOfRange

/-- A year: four digits, or a sign and any number of digits. -/
def year (cs : List Char) : Except TimestampFault (Int × List Char) := do
  let (y, rest) ←
    match skipBlank cs with
    | '-' :: rest => (number rest.length rest).map fun (n, rest) => (-(n : Int), rest)
    | '+' :: rest => (number rest.length rest).map fun (n, rest) => ((n : Int), rest)
    | rest => (number 4 rest).map fun (n, rest) => ((n : Int), rest)
  if -0x80000000 ≤ y ∧ y < 0x80000000 then return (y, rest) else .error .outOfRange

/-- One character behind blanks. -/
def separator (c : Char) (cs : List Char) : Except TimestampFault (Unit × List Char) :=
  match skipBlank cs with
  | [] => .error .tooShort
  | d :: rest => if c = d then .ok ((), rest) else .error .invalid

/-- The nanoseconds of a fraction: nine digits count, further ones are passed over. -/
def fraction (cs : List Char) : Except TimestampFault (Nat × List Char) :=
  match cs with
  | '.' :: rest => do
    let (n, behind) ← number 9 rest
    let places := rest.length - behind.length
    return (n * Nat.pow 10 (9 - places), behind.dropWhile Char.isDigit)
  | _ => .ok (0, cs)

/-- Two digits. -/
def twoDigits (cs : List Char) : Except TimestampFault (Nat × List Char) :=
  match cs with
  | a :: b :: rest =>
    if a.isDigit && b.isDigit then
      .ok ((a.toNat - '0'.toNat) * 10 + (b.toNat - '0'.toNat), rest)
    else .error .invalid
  | _ => if 2 ≤ (String.ofList cs).utf8ByteSize then .error .invalid else .error .tooShort

/-- The offset from UTC in seconds. -/
def offset (cs : List Char) : Except TimestampFault (Int × List Char) :=
  match cs with
  | [] => .error .tooShort
  | c :: rest =>
    if c = 'Z' ∨ c = 'z' then .ok (0, rest)
    else if (cs.take 3).map Char.toUpper = ['U', 'T', 'C'] then .ok (0, cs.drop 3)
    else if c = '+' ∨ c = '-' ∨ c = '−' then do
      let (hours, rest) ← twoDigits rest
      let rest := rest.dropWhile fun c => c = ':' || Text.isBlankChar c
      let (minutes, rest) ← twoDigits rest
      if 60 ≤ minutes then .error .outOfRange
      else
        let seconds : Int := hours * 3600 + minutes * 60
        return (if c = '+' then seconds else -seconds, rest)
    else .error .invalid

/-- The separator between date and time. -/
def dateEnd (cs : List Char) : Except TimestampFault (Unit × List Char) :=
  match cs with
  | [] => .error .tooShort
  | c :: rest => if c = 't' ∨ c = 'T' ∨ c = ' ' then .ok ((), rest) else .error .invalid

/-- The time of a text. -/
def parse (text : String) : Except TimestampFault Timestamp := do
  let (year, rest) ← year text.toList
  let ((), rest) ← separator '-' rest
  let (month, rest) ← numberBetween 1 12 rest
  let ((), rest) ← separator '-' rest
  let (day, rest) ← numberBetween 1 31 rest
  let ((), rest) ← dateEnd rest
  let (hour, rest) ← numberBetween 0 23 rest
  let ((), rest) ← separator ':' rest
  let (minute, rest) ← numberBetween 0 59 rest
  let ((), rest) ← separator ':' rest
  let (second, rest) ← numberBetween 0 60 rest
  let (nanos, rest) ← fraction rest
  let (shift, rest) ← offset (skipBlank rest)
  if skipBlank rest ≠ [] then .error .tooLong
  else if year < firstYear ∨ lastYear < year then .error .outOfRange
  else if daysInMonth year month < day then .error .outOfRange
  else if shift ≤ -86400 ∨ 86400 ≤ shift then .error .outOfRange
  else
    let leap := second = 60
    let whole := if leap then 59 else second
    return {
      seconds := daysFromCivil year month day * 86400
        + ((hour * 3600 + minute * 60 + whole : Nat) : Int) - shift
      nanoseconds := if leap then nanos + 1000000000 else nanos }

/-! ## Writing -/

/-- A number with zeros in front, up to `width` digits. -/
def padded (width n : Nat) : String :=
  let digits := n.repr
  String.ofList (List.replicate (width - digits.length) '0') ++ digits

/-- A year: four digits, with a sign outside of the first ten thousand years. -/
def yearText (year : Int) : String :=
  if 0 ≤ year ∧ year ≤ 9999 then padded 4 year.toNat
  else (if year < 0 then "-" else "+") ++ padded 4 year.natAbs

/-- The fraction of a second behind its point, with no, three, six or nine places. -/
def fractionText (nanos : Nat) : String :=
  if nanos = 0 then ""
  else if nanos % 1000000 = 0 then "." ++ padded 3 (nanos / 1000000)
  else if nanos % 1000 = 0 then "." ++ padded 6 (nanos / 1000)
  else "." ++ padded 9 nanos

/-- The text of a timestamp. -/
def text (t : Timestamp) : String :=
  let days := Int.fdiv t.seconds 86400
  let inDay := (t.seconds - days * 86400).toNat
  let (year, month, day) := civilFromDays days
  let leap := 1000000000 ≤ t.nanoseconds
  let second := inDay % 60 + (if leap then 1 else 0)
  let nanos := if leap then t.nanoseconds - 1000000000 else t.nanoseconds
  yearText year ++ "-" ++ padded 2 month ++ "-" ++ padded 2 day ++ "T"
    ++ padded 2 (inDay / 3600) ++ ":" ++ padded 2 (inDay / 60 % 60) ++ ":" ++ padded 2 second
    ++ fractionText nanos ++ "Z"

end Timestamp

end Blokwork
