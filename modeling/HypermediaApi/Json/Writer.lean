import HypermediaApi.Json.Basic
import HypermediaApi.Decimal.Shortest

/-!
# HypermediaApi.Json.Writer — JSON text

The compact text of a value: no space anywhere, members in the order of the value. A text escapes the quote,
the backslash and the characters below U+0020, by a letter where there is one and otherwise by four
lower-case hexadecimal digits; every other character stands for itself.

A binary64 number is written by its shortest digits: positionally, with `.0` when it is whole, from `1e-5`
up to but not including `1e16`, and otherwise with an exponent that always has its sign.
-/

namespace HypermediaApi.Json

open Decimal (Binary64 Digits)

/-- The lower-case hexadecimal digit of a number below 16. -/
def hexDigit (n : Nat) : Char := Nat.digitChar n

/-- The written form of a character inside a text. -/
def escapedChar (c : Char) : List Char :=
  match c with
  | '"' => ['\\', '"']
  | '\\' => ['\\', '\\']
  | '\x08' => ['\\', 'b']
  | '\x0c' => ['\\', 'f']
  | '\n' => ['\\', 'n']
  | '\r' => ['\\', 'r']
  | '\t' => ['\\', 't']
  | c =>
    if c.toNat < 0x20 then ['\\', 'u', '0', '0', hexDigit (c.toNat / 16), hexDigit (c.toNat % 16)]
    else [c]

/-- The written form of a text, without its quotes. -/
def escape (s : String) : List Char := s.toList.flatMap escapedChar

/-- The written form of a text. -/
def stringText (s : String) : List Char := '"' :: (escape s ++ ['"'])

/-- The decimal digits of an integer. -/
def intText (n : Int) : List Char :=
  if n < 0 then '-' :: Nat.toDigits 10 n.natAbs else Nat.toDigits 10 n.natAbs

/-- The written form of an exponent, always with its sign. -/
def exponentText (n : Int) : List Char := if n < 0 then intText n else '+' :: intText n

/-- The written form of a decimal. -/
def digitsText (d : Digits) : List Char :=
  let ds := Nat.toDigits 10 d.digits
  let point : Int := ds.length + d.scale
  if 0 ≤ d.scale && point ≤ 16 then ds ++ List.replicate d.scale.toNat '0' ++ ['.', '0']
  else if 0 < point && point ≤ 16 then ds.take point.toNat ++ '.' :: ds.drop point.toNat
  else if -5 < point && point ≤ 0 then '0' :: '.' :: (List.replicate (-point).toNat '0' ++ ds)
  else
    let rest := ds.drop 1
    ds.take 1 ++ (if rest.isEmpty then [] else '.' :: rest) ++ 'e' :: exponentText (point - 1)

/-- The written form of a binary64 number; one that is not finite has none in JSON and reads `null`. -/
def floatText : Binary64 → List Char
  | .finite negative m e =>
    (if negative then ['-'] else []) ++ digitsText (Decimal.shortest m e)
  | _ => ['n', 'u', 'l', 'l']

/-- The written form of a number. -/
def numberText : Number → List Char
  | .int n => intText n
  | .float x => floatText x

mutual

/-- The characters of the text of a value. -/
def text : Json → List Char
  | .null => ['n', 'u', 'l', 'l']
  | .bool true => ['t', 'r', 'u', 'e']
  | .bool false => ['f', 'a', 'l', 's', 'e']
  | .number n => numberText n
  | .string s => stringText s
  | .array items => '[' :: (itemsText items ++ [']'])
  | .object members => '\x7b' :: (membersText members ++ ['\x7d'])

/-- The items of an array, a comma between two of them. -/
def itemsText : List Json → List Char
  | [] => []
  | v :: r => text v ++ itemsRest r

/-- The items after the first one, each after a comma. -/
def itemsRest : List Json → List Char
  | [] => []
  | v :: r => ',' :: (text v ++ itemsRest r)

/-- The members of an object, a comma between two of them. -/
def membersText : List (String × Json) → List Char
  | [] => []
  | (k, v) :: r => stringText k ++ ':' :: (text v ++ membersRest r)

/-- The members after the first one, each after a comma. -/
def membersRest : List (String × Json) → List Char
  | [] => []
  | (k, v) :: r => ',' :: (stringText k ++ ':' :: (text v ++ membersRest r))

end

/-- The compact text of a value. -/
def render (v : Json) : String := .ofList (text v)

end HypermediaApi.Json
