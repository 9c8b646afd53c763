import HypermediaApi.Decimal.Binary64

/-!
# HypermediaApi.Decimal.Shortest — the fewest digits that read back

The shortest decimal that rounds to a given finite number of the binary64 format, the nearest one where
several are equally short. The decimals that round to `m * 2 ^ e` fill an interval around it, with its ends
exactly when `m` is even; for one digit, two digits, … the two neighbours of the number on that decimal grid
are tried, and seventeen digits always suffice.
-/

namespace HypermediaApi.Decimal

/-- The decimal `digits * 10 ^ scale`; zero is `0 * 10 ^ 0`, any other has a last digit that is not zero. -/
structure Digits where
  digits : Nat
  scale : Int
  deriving DecidableEq, Repr

/-- `a * 10 ^ g` compared with `b * 2 ^ s`. -/
def compareScaled (a : Nat) (g : Int) (b : Nat) (s : Int) : Ordering :=
  compare ((a * Nat.pow 10 g.toNat) <<< (-s).toNat) ((b * Nat.pow 10 (-g).toNat) <<< s.toNat)

/-- The interval of reals that round to `m * 2 ^ e`, in quarters of its last place. -/
structure Rounding where
  low : Nat
  value : Nat
  high : Nat
  /-- The exponent of the quarter. -/
  quarter : Int
  /-- Whether the ends belong to the interval. -/
  closed : Bool

/-- The interval around `m * 2 ^ e`; below a power of two the numbers lie twice as close. -/
def Rounding.around (m : Nat) (e : Int) : Rounding where
  low := if m = 1 <<< 52 && Binary64.leastExponent < e then 4 * m - 1 else 4 * m - 2
  value := 4 * m
  high := 4 * m + 2
  quarter := e - 2
  closed := m % 2 = 0

/-- Membership of `a * 10 ^ g` in the interval. -/
def Rounding.contains (r : Rounding) (a : Nat) (g : Int) : Bool :=
  let below := compareScaled a g r.low r.quarter
  let above := compareScaled a g r.high r.quarter
  (below == .gt || (r.closed && below == .eq)) && (above == .lt || (r.closed && above == .eq))

/-- The greatest multiple of `10 ^ g` that is not above the value, divided by `10 ^ g`. -/
def Rounding.floorAt (r : Rounding) (g : Int) : Nat :=
  ((r.value * Nat.pow 10 (-g).toNat) <<< r.quarter.toNat) / (Nat.pow 10 g.toNat <<< (-r.quarter).toNat)

/-- The neighbour of the value on the grid of step `10 ^ g` that reads back, the nearer one of two and the
even one at a tie. -/
def Rounding.pick? (r : Rounding) (g : Int) : Option Nat :=
  let lo := r.floorAt g
  let hi := lo + 1
  match r.contains lo g, r.contains hi g with
  | true, true =>
    match compareScaled (lo + hi) g (2 * r.value) r.quarter with
    | .gt => some lo
    | .lt => some hi
    | .eq => some (if lo % 2 = 0 then lo else hi)
  | true, false => some lo
  | false, true => some hi
  | false, false => none

/-- The decimal without zeros at its end; the fuel is at least the number of digits. -/
def Digits.trim : Nat → Nat → Int → Digits
  | 0, d, g => ⟨d, g⟩
  | fuel + 1, d, g => if d ≠ 0 && d % 10 = 0 then trim fuel (d / 10) (g + 1) else ⟨d, g⟩

/-- The first of the grids from `10 ^ g` downwards that holds a decimal that reads back. -/
def Rounding.search (r : Rounding) : Nat → Int → Digits
  | 0, g => ⟨r.floorAt g, g⟩
  | fuel + 1, g =>
    match r.pick? g with
    | some d => if d = 0 then search r fuel (g - 1) else .trim 20 d g
    | none => search r fuel (g - 1)

/-- The shortest decimal of `m * 2 ^ e`. -/
def shortest (m : Nat) (e : Int) : Digits :=
  if m = 0 then ⟨0, 0⟩
  else
    -- `2 ^ (m.log2 + e)` is at most the value, and ten thirds of a binary exponent is a decimal one
    let top : Int := Int.fdiv (((m.log2 : Int) + e) * 30103) 100000 + 1
    (Rounding.around m e).search 25 top

/-- The digits of a decimal around its point, without an exponent; a whole number has no point. -/
def Digits.positional (d : Digits) : List Char :=
  let ds := Nat.toDigits 10 d.digits
  let point : Int := ds.length + d.scale
  if 0 ≤ d.scale then ds ++ List.replicate d.scale.toNat '0'
  else if 0 < point then ds.take point.toNat ++ '.' :: ds.drop point.toNat
  else '0' :: '.' :: (List.replicate (-point).toNat '0' ++ ds)

end HypermediaApi.Decimal
