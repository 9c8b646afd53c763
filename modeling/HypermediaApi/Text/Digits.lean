/-!
# HypermediaApi.Text.Digits — numbers written with digits

The number that a run of digits writes, in a base of up to sixteen, and the sign in front of it. Every
reader of numbers — JSON, times, settings, percent-encoded bytes — builds on these. The figures of a date or
a time of day have a fixed width, with a character between them that has to be there.
-/

namespace HypermediaApi.Text

/-- A hexadecimal digit of either case. -/
def isHexDigit (c : Char) : Bool :=
  c.isDigit || ('a' ≤ c && c ≤ 'f') || ('A' ≤ c && c ≤ 'F')

/-- The value of a hexadecimal digit. -/
def hexValue (c : Char) : Nat :=
  if c.isDigit then c.toNat - '0'.toNat
  else if 'a' ≤ c then c.toNat - 'a'.toNat + 10
  else c.toNat - 'A'.toNat + 10

/-- The number that digits write in the given base. -/
def digitsValue (base : Nat) (ds : List Char) : Nat := ds.foldl (fun n d => n * base + hexValue d) 0

@[simp] theorem digitsValue_nil (base : Nat) : digitsValue base [] = 0 := rfl

/-- A sign that may be left out: whether it is a minus, and what follows. -/
def readSign : List Char → Bool × List Char
  | '-' :: r => (true, r)
  | '+' :: r => (false, r)
  | r => (false, r)

/-! ### Figures of a fixed width -/

/-- The number that exactly so many digits write, and what follows. -/
def readDigits? (width : Nat) (cs : List Char) : Option (Nat × List Char) :=
  let ds := cs.take width
  if ds.length = width ∧ ds.all Char.isDigit then some (digitsValue 10 ds, cs.drop width) else none

/-- What follows a character that has to be there. -/
def skip? (c : Char) : List Char → Option (List Char)
  | d :: r => if d = c then some r else none
  | [] => none

end HypermediaApi.Text
