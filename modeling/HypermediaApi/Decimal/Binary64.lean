/-!
# HypermediaApi.Decimal.Binary64 — rounding to 64-bit floating point

The numbers of the binary64 format as exact data, and rounding to them. A finite number is a sign and a
magnitude `mantissa * 2 ^ exponent`; rounding a quotient of naturals goes to the nearest such number, a tie
to the even mantissa, and to an infinity beyond the largest one. All arithmetic is on `Nat` and `Int`.
-/

namespace HypermediaApi.Decimal

/-- A number of the binary64 format. -/
inductive Binary64 where
  /-- The number of magnitude `mantissa * 2 ^ exponent`. -/
  | finite (negative : Bool) (mantissa : Nat) (exponent : Int)
  | infinite (negative : Bool)
  | nan
  deriving DecidableEq, Repr

namespace Binary64

/-- The exponent of the smallest positive number, shared by all numbers below `2 ^ (-1022)`. -/
def leastExponent : Int := -1074

/-- The exponent of the largest finite number. -/
def greatestExponent : Int := 971

/-- The mantissas of the format are below this. -/
def mantissaLimit : Nat := 1 <<< 53

/-- The quotient `num / den` divided by `2 ^ e`, as a quotient of naturals. -/
def unscale (num den : Nat) (e : Int) : Nat × Nat :=
  (num <<< (-e).toNat, den <<< e.toNat)

/-- The natural number nearest to `num / den`, of two the even one. -/
def roundHalfEven (num den : Nat) : Nat :=
  let q := num / den
  let r := num % den
  if 2 * r < den || (2 * r = den && q % 2 = 0) then q else q + 1

/-- The exponent at which the quotient has a mantissa of 53 bits, or the least exponent of the format. -/
def exponentOf (num den : Nat) : Int :=
  let guess : Int := (num.log2 : Int) - den.log2 - 52
  let (n, d) := unscale num den guess
  max leastExponent (if n < d <<< 52 then guess - 1 else guess)

/-- The number of the format nearest to `num / den`, with the given sign. -/
def ofQuotient (negative : Bool) (num den : Nat) : Binary64 :=
  if num = 0 then .finite negative 0 leastExponent
  else
    let e := exponentOf num den
    let (n, d) := unscale num den e
    let m := roundHalfEven n d
    let (m, e) := if m = mantissaLimit then (m / 2, e + 1) else (m, e)
    if e ≤ greatestExponent then .finite negative m e else .infinite negative

/-- The number of the format nearest to a natural number. -/
def ofNat (n : Nat) : Binary64 := ofQuotient false n 1

/-- The number nearest to `digits * 10 ^ scale`. Scales so small or large that the answer is zero or
infinite anyway are cut short. -/
def ofDecimal (negative : Bool) (digits : Nat) (scale : Int) : Binary64 :=
  if digits = 0 then .finite negative 0 leastExponent
  else if scale > 400 then .infinite negative
  else if scale < -400 - (Nat.log2 digits : Int) then .finite negative 0 leastExponent
  else ofQuotient negative (digits * Nat.pow 10 scale.toNat) (Nat.pow 10 (-scale).toNat)

/-- The number with its sign reversed. -/
def neg : Binary64 → Binary64
  | .finite s m e => .finite (!s) m e
  | .infinite s => .infinite (!s)
  | .nan => .nan

/-- The product, rounded, of two non-negative finite numbers; anything else has no product here. -/
def mul : Binary64 → Binary64 → Binary64
  | .finite _ m e, .finite _ m' e' =>
    let s := e + e'
    ofQuotient false ((m * m') <<< s.toNat) (1 <<< (-s).toNat)
  | _, _ => .nan

/-- The quotient, rounded, of two non-negative finite numbers, the second of them not zero. -/
def div : Binary64 → Binary64 → Binary64
  | .finite _ m e, .finite _ m' e' =>
    let s := e - e'
    if m' = 0 then .nan else ofQuotient false (m <<< s.toNat) (m' <<< (-s).toNat)
  | _, _ => .nan

/-- The number is finite. -/
def isFinite : Binary64 → Bool
  | .finite .. => true
  | _ => false

end Binary64

end HypermediaApi.Decimal
