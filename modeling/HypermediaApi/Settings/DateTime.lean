import HypermediaApi.Text.Digits

/-!
# HypermediaApi.Settings.DateTime — dates and times in files

A date, a time of day, or a date with a time of day behind it, which then may have an offset from UTC. No
setting is a date or a time, so what counts is that one is accepted and where it ends: each function here gives
what follows the thing it is about.
-/

namespace HypermediaApi.Settings

/-- The number of days in a month of the Gregorian calendar. -/
def monthLength (year month : Nat) : Nat :=
  if month = 2 then if year % 4 = 0 ∧ (year % 100 ≠ 0 ∨ year % 400 = 0) then 29 else 28
  else if month ∈ [4, 6, 9, 11] then 30
  else 31

/-- A date: year, month and day with a hyphen between them. -/
def skipDate? (cs : List Char) : Option (List Char) := do
  let (year, r) ← Text.readDigits? 4 cs
  let (month, r) ← (Text.skip? '-' r).bind (Text.readDigits? 2)
  let (day, r) ← (Text.skip? '-' r).bind (Text.readDigits? 2)
  if 1 ≤ month ∧ month ≤ 12 ∧ 1 ≤ day ∧ day ≤ monthLength year month then some r else none

/-- Hours and minutes with a colon between them. -/
def skipClock? (cs : List Char) : Option (List Char) := do
  let (hour, r) ← Text.readDigits? 2 cs
  let (minute, r) ← (Text.skip? ':' r).bind (Text.readDigits? 2)
  if hour < 24 ∧ minute < 60 then some r else none

/-- A point and at least one digit, if they are there. -/
def skipFraction : List Char → List Char
  | '.' :: d :: r => if d.isDigit then r.dropWhile Char.isDigit else '.' :: d :: r
  | r => r

/-- A time of day. Second 60 is a leap second. -/
def skipTime? (cs : List Char) : Option (List Char) := do
  let r ← skipClock? cs
  let (second, r) ← (Text.skip? ':' r).bind (Text.readDigits? 2)
  if second ≤ 60 then some (skipFraction r) else none

/-- An offset from UTC, if there is one: the letter `Z`, or a sign and the hours and minutes. -/
def skipOffset : List Char → List Char
  | [] => []
  | c :: r =>
    if c = 'Z' ∨ c = 'z' then r
    else if c = '+' ∨ c = '-' then (skipClock? r).getD (c :: r)
    else c :: r

/-- A time of day with its offset behind a date, if they are there. A space may stand in place of the letter
`T`, so what looks like the end of the date may not be it. -/
def skipTimeOfDate : List Char → List Char
  | [] => []
  | c :: r =>
    if c = 'T' ∨ c = 't' ∨ c = ' ' then ((skipTime? r).map skipOffset).getD (c :: r) else c :: r

/-- A date or a time. -/
def skipDateTime? (cs : List Char) : Option (List Char) :=
  match skipDate? cs with
  | some r => some (skipTimeOfDate r)
  | none => skipTime? cs

end HypermediaApi.Settings
