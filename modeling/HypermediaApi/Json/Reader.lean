import HypermediaApi.Json.Basic
import HypermediaApi.Json.Tree

/-!
# HypermediaApi.Json.Reader — what JSON text denotes

From the written form to values: escapes are resolved, numerals become numbers, and nesting is limited. A
text denotes nothing when half of a surrogate pair stands alone in it, a numeral when it lies beyond the
binary64 range. Arrays and objects may be nested `nestingLimit` deep.

A numeral with a fraction or an exponent, and an integer outside the 64-bit ranges, becomes a binary64
number in two roundings: its digits, as many as fit 64 bits, give one number, the power of ten another, and
their product or quotient is rounded again. `-0` is the negative zero.
-/

namespace HypermediaApi.Json

open Decimal (Binary64)

/-! ### Texts -/

/-- The unit that four hexadecimal digits write. -/
def unitValue (a b c d : Char) : Nat :=
  Text.digitsValue 16 [a, b, c, d]

/-- The character that an escape of one letter writes. -/
def shortEscape : Char → Char
  | 'b' => '\x08'
  | 'f' => '\x0c'
  | 'n' => '\n'
  | 'r' => '\r'
  | 't' => '\t'
  | c => c

/-- The first half of a surrogate pair. -/
def isHighSurrogate (n : Nat) : Bool := 0xD800 ≤ n && n ≤ 0xDBFF

/-- The second half of a surrogate pair. -/
def isLowSurrogate (n : Nat) : Bool := 0xDC00 ≤ n && n ≤ 0xDFFF

/-- The characters that the text between two quotes denotes. -/
def unescape? : List Char → Option (List Char)
  | [] => some []
  | '\\' :: 'u' :: a :: b :: c :: d :: '\\' :: 'u' :: e :: f :: g :: h :: r =>
    let high := unitValue a b c d
    let low := unitValue e f g h
    if isHighSurrogate high then
      if isLowSurrogate low then
        (unescape? r).map (.ofNat (0x10000 + (high - 0xD800) * 0x400 + (low - 0xDC00)) :: ·)
      else none
    else if isLowSurrogate high then none
    else (unescape? ('\\' :: 'u' :: e :: f :: g :: h :: r)).map (.ofNat high :: ·)
  | '\\' :: 'u' :: a :: b :: c :: d :: r =>
    let unit := unitValue a b c d
    if isHighSurrogate unit || isLowSurrogate unit then none
    else (unescape? r).map (.ofNat unit :: ·)
  | '\\' :: c :: r => (unescape? r).map (shortEscape c :: ·)
  | c :: r => (unescape? r).map (c :: ·)

/-! ### Numbers -/

/-- The least integer of 64 bits. -/
def leastInt : Int := Int64.minValue.toInt

/-- The greatest unsigned integer of 64 bits. -/
def greatestUnsigned : Nat := UInt64.size - 1

/-- The digits that fit 64 bits after `n`: the number they give and how many of them are left. -/
def absorb (n : Nat) : List Char → Nat × Nat
  | [] => (n, 0)
  | d :: r =>
    let n' := n * 10 + (d.toNat - '0'.toNat)
    if n' ≤ greatestUnsigned then absorb n' r else (n, r.length + 1)

/-- `digits * 10 ^ scale` for a number of 64 bits, rounded in two steps; nothing beyond the largest number.
-/
def scaled? (digits : Nat) (scale : Int) : Option Binary64 :=
  let f := Binary64.ofNat digits
  let finite? := fun (x : Binary64) => if x.isFinite then some x else none
  if digits = 0 then some f
  else if scale > 308 then none
  else if 0 ≤ scale then finite? (f.mul (.ofNat (Nat.pow 10 scale.toNat)))
  else if -308 ≤ scale then some (f.div (.ofNat (Nat.pow 10 (-scale).toNat)))
  else if -616 ≤ scale then
    some ((f.div (.ofNat (Nat.pow 10 308))).div (.ofNat (Nat.pow 10 (-(scale + 308)).toNat)))
  else some (.ofQuotient false 0 1)

/-- The number that a numeral denotes. -/
def Numeral.toNumber? (n : Numeral) : Option Number :=
  let whole := Text.digitsValue 10 n.whole
  if n.fraction.isEmpty && n.exponent.isNone && !n.negative && whole ≤ greatestUnsigned then
    some (.int whole)
  else if n.fraction.isEmpty && n.exponent.isNone && n.negative && 0 < whole && leastInt ≤ -(whole : Int) then
    some (.int (-whole))
  else
    let (digits, dropped) := absorb 0 n.whole
    let (digits, left) := absorb digits n.fraction
    let scale := (dropped : Int) - (n.fraction.length - left : Nat) + n.exponent.getD 0
    (scaled? digits scale).map fun x => .float (if n.negative then x.neg else x)

/-! ### Values -/

/-- Arrays and objects may be nested this deep. -/
def nestingLimit : Nat := 127

mutual

/-- The value that a document denotes, with room for so many nested arrays and objects. -/
def Tree.toJson? (room : Nat) : Tree → Option Json
  | .null => some .null
  | .bool b => some (.bool b)
  | .number n => n.toNumber?.map .number
  | .text s => (unescape? s).map fun cs => .string (.ofList cs)
  | .array ts =>
    match room with
    | 0 => none
    | room + 1 => (itemsToJson? room ts).map .array
  | .object ms =>
    match room with
    | 0 => none
    | room + 1 => (membersToJson? room ms).map .object

/-- The values of the items of an array. -/
def itemsToJson? (room : Nat) : List Tree → Option (List Json)
  | [] => some []
  | t :: r => do
    let v ← t.toJson? room
    let vs ← itemsToJson? room r
    some (v :: vs)

/-- The keys and values of the members of an object. -/
def membersToJson? (room : Nat) : List (List Char × Tree) → Option (List (String × Json))
  | [] => some []
  | (k, t) :: r => do
    let key ← unescape? k
    let v ← t.toJson? room
    let ms ← membersToJson? room r
    some ((.ofList key, v) :: ms)

end

/-- The value of a whole document. -/
def Tree.value? (t : Tree) : Option Json := t.toJson? nestingLimit

/-- The value that a text denotes, objects in writing order. -/
def read? (s : String) : Option Json := (Tree.read? s).bind Tree.value?

end HypermediaApi.Json
