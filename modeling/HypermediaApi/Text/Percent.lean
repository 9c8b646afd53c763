import HypermediaApi.Text.Digits

/-!
# HypermediaApi.Text.Percent — percent-encoding of URI components

Encoding writes the UTF-8 bytes of a text: letters and digits of ASCII and the characters `-`, `_`, `.`, `~`
stand for themselves, and every other byte is written as `%` and two upper-case hexadecimal digits. Decoding
reads such triplets back to bytes and the bytes as UTF-8; anything else stands for itself.
-/

namespace HypermediaApi.Text.Percent

/-- The characters that stand for themselves in every URI component. -/
def isUnreserved (c : Char) : Bool :=
  c.isAlphanum || c = '-' || c = '_' || c = '.' || c = '~'

/-- The upper-case hexadecimal digit of a number below 16. -/
def hexDigit (n : Nat) : Char := if n < 10 then .ofNat ('0'.toNat + n) else .ofNat ('A'.toNat + (n - 10))

/-- The triplet of a byte. -/
def encodeByte (b : UInt8) : List Char := ['%', hexDigit (b.toNat / 16), hexDigit (b.toNat % 16)]

/-- The encoded form of a character. -/
def encodeChar (c : Char) : List Char :=
  if isUnreserved c then [c] else (String.utf8EncodeChar c).flatMap encodeByte

/-- The encoded form of characters. -/
def encodeChars (cs : List Char) : List Char := cs.flatMap encodeChar

/-- The encoded form of a text. -/
def encode (s : String) : String := .ofList (encodeChars s.toList)

/-- The bytes that an encoded component denotes. -/
def decodeBytes : List Char → List UInt8
  | '%' :: a :: b :: r =>
    if isHexDigit a && isHexDigit b then .ofNat (digitsValue 16 [a, b]) :: decodeBytes r
    else String.utf8EncodeChar '%' ++ decodeBytes (a :: b :: r)
  | c :: r => String.utf8EncodeChar c ++ decodeBytes r
  | [] => []

/-- The text that an encoded component denotes, if its bytes are UTF-8. -/
def decode? (s : String) : Option String := String.fromUTF8? (decodeBytes s.toList).toByteArray

end HypermediaApi.Text.Percent
