import HypermediaApi.Text.Digits

/-!
# HypermediaApi.Blog.Timestamp — points in time

A point in time in UTC: whole seconds since 1970-01-01 and nanoseconds within the second. From a thousand
million nanoseconds on it lies in the leap second that follows second 59 of a minute.

The text of a time is its date and time of day as ISO 8601 has them, years of four digits standing without a
sign and all others with one. The fraction has 3, 6 or 9 digits, as few as are exact, or is missing.
-/

namespace HypermediaApi.Blog

/-- A point in time. -/
structure Timestamp where
  seconds : Int
  nanos : Nat := 0
  deriving DecidableEq, Repr, Inhabited

namespace Timestamp

instance : Ord Timestamp where
  compare a b := (compare a.seconds b.seconds).then (compare a.nanos b.nanos)

/-- The time so many seconds later. -/
def plusSeconds (t : Timestamp) (n : Int) : Timestamp := { t with seconds := t.seconds + n }

/-! ### The calendar -/

/-- A date of the Gregorian calendar. -/
structure Date where
  year : Int
  month : Nat
  day : Nat
  deriving DecidableEq, Repr

/-- The days of 400 years. -/
def daysOfEra : Int := 146097

/-- The date so many days after 1970-01-01. Years are counted from March, so that the leap day comes last.
-/
def Date.ofDays (days : Int) : Date :=
  let shifted := days + 719468
  let era := shifted.fdiv daysOfEra
  let doe := (shifted.fmod daysOfEra).toNat
  let yoe := (doe - doe / 1460 + doe / 36524 - doe / 146096) / 365
  let doy := doe - (365 * yoe + yoe / 4 - yoe / 100)
  let mp := (5 * doy + 2) / 153
  let day := doy - (153 * mp + 2) / 5 + 1
  let month := if mp < 10 then mp + 3 else mp - 9
  { year := (yoe : Int) + era * 400 + (if month ≤ 2 then 1 else 0), month, day }

/-- The days from 1970-01-01 to the date. -/
def Date.toDays (d : Date) : Int :=
  let y := if d.month ≤ 2 then d.year - 1 else d.year
  let era := y.fdiv 400
  let yoe := (y.fmod 400).toNat
  let mp := if d.month > 2 then d.month - 3 else d.month + 9
  let doy := (153 * mp + 2) / 5 + d.day - 1
  let doe := yoe * 365 + yoe / 4 - yoe / 100 + doy
  era * daysOfEra + doe - 719468

/-! ### Text -/

/-- The digits of a number, with zeros before them up to the given width. -/
def padded (width n : Nat) : List Char :=
  let ds := Nat.toDigits 10 n
  List.replicate (width - ds.length) '0' ++ ds

/-- The year: four digits, or a sign and at least four digits. -/
def yearText (y : Int) : List Char :=
  if 0 ≤ y ∧ y ≤ 9999 then padded 4 y.toNat
  else (if y < 0 then '-' else '+') :: padded 4 y.natAbs

/-- The fraction of a second: no digits, or 3, 6 or 9. -/
def fractionText (nanos : Nat) : List Char :=
  if nanos = 0 then []
  else if nanos % 1000000 = 0 then '.' :: padded 3 (nanos / 1000000)
  else if nanos % 1000 = 0 then '.' :: padded 6 (nanos / 1000)
  else '.' :: padded 9 nanos

/-- The date and time of day with the given mark of UTC after it. -/
def textWith (utc : String) (t : Timestamp) : String :=
  let date := Date.ofDays (t.seconds.fdiv 86400)
  let clock := (t.seconds.fmod 86400).toNat
  let leap := 1000000000 ≤ t.nanos
  let second := clock % 60 + (if leap then 1 else 0)
  let nanos := if leap then t.nanos - 1000000000 else t.nanos
  .ofList (yearText date.year ++ '-' :: padded 2 date.month ++ '-' :: padded 2 date.day ++
    'T' :: padded 2 (clock / 3600) ++ ':' :: padded 2 (clock / 60 % 60) ++ ':' :: padded 2 second ++
    fractionText nanos ++ utc.toList)

/-- The text in records. -/
def text (t : Timestamp) : String := t.textWith "+00:00"

/-- The text in the JSON form of a post. -/
def shortText (t : Timestamp) : String := t.textWith "Z"

/-! ### Reading -/

/-- A year: four digits, or a sign and at least four digits. -/
def readYear? (cs : List Char) : Option (Int × List Char) :=
  let signed := fun (r : List Char) =>
    let ds := r.takeWhile Char.isDigit
    if 4 ≤ ds.length then some (Text.digitsValue 10 ds, r.dropWhile Char.isDigit) else none
  match cs with
  | '-' :: r => (signed r).map fun (n, rest) => (-(n : Int), rest)
  | '+' :: r => (signed r).map fun (n, rest) => ((n : Int), rest)
  | r => (Text.readDigits? 4 r).map fun (n, rest) => ((n : Int), rest)

/-- A fraction of a second of at most nine digits, in nanoseconds. -/
def readFraction (cs : List Char) : Nat × List Char :=
  match cs with
  | '.' :: r =>
    let ds := (r.takeWhile Char.isDigit).take 9
    (Text.digitsValue 10 ds * Nat.pow 10 (9 - ds.length), r.dropWhile Char.isDigit)
  | r => (0, r)

/-- The time that a text in the JSON form of a post writes. -/
def read? (s : String) : Option Timestamp := do
  let (year, r) ← readYear? s.toList
  let (month, r) ← (Text.skip? '-' r).bind (Text.readDigits? 2)
  let (day, r) ← (Text.skip? '-' r).bind (Text.readDigits? 2)
  let (hour, r) ← (Text.skip? 'T' r).bind (Text.readDigits? 2)
  let (minute, r) ← (Text.skip? ':' r).bind (Text.readDigits? 2)
  let (second, r) ← (Text.skip? ':' r).bind (Text.readDigits? 2)
  let (nanos, r) := readFraction r
  let date : Date := { year, month, day }
  let inRange := hour < 24 ∧ minute < 60 ∧ second ≤ 60 ∧ Date.ofDays date.toDays = date
  if r = ['Z'] ∧ inRange then
    let leap := if second = 60 then 1 else 0
    some {
      seconds := date.toDays * 86400 + (hour * 3600 + minute * 60 + second - leap : Nat)
      nanos := nanos + leap * 1000000000 }
  else none

end Timestamp

end HypermediaApi.Blog
