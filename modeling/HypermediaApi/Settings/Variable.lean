import HypermediaApi.Decimal.Binary64
import HypermediaApi.Settings.Quoting
import HypermediaApi.Settings.Value
import HypermediaApi.Text.Basic

/-!
# HypermediaApi.Settings.Variable — the values of environment variables

An environment variable holds text, and this is the notation in which it says what kind of value it means:
`true` and `false`, numbers, texts in double quotes, single characters in single quotes, lists in brackets
and dictionaries in braces. Everything that is not such a value to its very end is a text as it stands, so
that a setting that wants a text rarely needs quotes.

A number is a float only when it has a point; `1e3` is a text.
-/

namespace HypermediaApi.Settings.Variable

open Decimal (Binary64)

/-- Space around values: blank characters of ASCII. -/
def isSpace (c : Char) : Bool := c = ' ' || c = '\t' || c = '\n' || c = '\x0c' || c = '\r'

/-- What follows the space. -/
def skipSpace (cs : List Char) : List Char := cs.dropWhile isSpace

/-- The characters that end a word. -/
def isDelimiter (c : Char) : Bool := c = ',' || c = '\x7b' || c = '\x7d' || c = '[' || c = ']'

/-! ### Words -/

/-- An unsigned integer of 64 bits; a plus may stand before it. -/
def readUnsigned? (w : List Char) : Option UInt64 :=
  let ds := match w with
    | '+' :: r => r
    | r => r
  let n := Text.digitsValue 10 ds
  if !ds.isEmpty && ds.all Char.isDigit && n < UInt64.size then some (.ofNat n) else none

/-- A negative integer of 64 bits, or a zero with a minus. -/
def readNegative? : List Char → Option Int64
  | '-' :: ds =>
    let n := -(Text.digitsValue 10 ds : Int)
    if !ds.isEmpty && ds.all Char.isDigit && Int64.minValue.toInt ≤ n then some (.ofInt n) else none
  | _ => none

/-- The exponent at the end of a number, zero when there is none. -/
def readExponent? : List Char → Option Int
  | [] => some 0
  | e :: r =>
    let (negative, ds) := Text.readSign r
    if (e = 'e' || e = 'E') && !ds.isEmpty && ds.all Char.isDigit then
      let n := Text.digitsValue 10 ds
      some (if negative then -(n : Int) else n)
    else none

/-- A number with a point, which has a digit on at least one of its sides. -/
def readFloat? (w : List Char) : Option Binary64 :=
  let (negative, r) := Text.readSign w
  let whole := r.takeWhile Char.isDigit
  match r.dropWhile Char.isDigit with
  | '.' :: r =>
    let fraction := r.takeWhile Char.isDigit
    if whole.isEmpty && fraction.isEmpty then none
    else (readExponent? (r.dropWhile Char.isDigit)).map fun exponent =>
      .ofDecimal negative (Text.digitsValue 10 (whole ++ fraction)) (exponent - fraction.length)
  | _ => none

/-- The value that a word is. -/
def wordValue (w : List Char) : SettingValue :=
  match readFloat? w, readUnsigned? w, readNegative? w with
  | some x, _, _ => .float x
  | _, some n, _ => .unsigned n
  | _, _, some n => .signed n
  | _, _, _ => .text (.ofList w)

/-! ### Values -/

mutual

/-- The value at the start of a text, the space around it included, and what follows. Every step takes a
character away or goes inside what has just been opened, so twice the length of the text is fuel enough. -/
def readValue? : Nat → List Char → Option (SettingValue × List Char)
  | 0, _ => none
  | fuel + 1, cs => do
    let (v, r) ← match skipSpace cs with
      | 't' :: 'r' :: 'u' :: 'e' :: r => some (.bool true, r)
      | 'f' :: 'a' :: 'l' :: 's' :: 'e' :: r => some (.bool false, r)
      | '\x7b' :: r => (readMembers? fuel [] r).map fun (es, r) => (.dict es, r)
      | '[' :: r => (readItems? fuel r).map fun (vs, r) => (.list vs, r)
      | '"' :: r => (readQuoted? .line r).map fun (text, r) => (.text (.ofList text), r)
      | '\'' :: c :: '\'' :: r => some (.text (.ofList [c]), r)
      | '\'' :: _ => none
      | cs => some (wordValue (Text.trimChars (cs.takeWhile (! isDelimiter ·))), cs.dropWhile (! isDelimiter ·))
    some (v, skipSpace r)

/-- The rest of a list up to its end. A comma may stand after the last item. -/
def readItems? : Nat → List Char → Option (List SettingValue × List Char)
  | 0, _ => none
  | _ + 1, ']' :: r => some ([], r)
  | fuel + 1, cs => do
    let (v, r) ← readValue? fuel cs
    match r with
    | ',' :: r =>
      let (vs, r) ← readItems? fuel r
      some (v :: vs, r)
    | ']' :: r => some ([v], r)
    | _ => none

/-- The rest of a dictionary up to its end, after the given entries. A comma may stand after the last entry.
-/
def readMembers? : Nat → SettingEntries → List Char → Option (SettingEntries × List Char)
  | 0, _, _ => none
  | _ + 1, es, '\x7d' :: r => some (es, r)
  | fuel + 1, es, cs => do
    let (key, r) ← match skipSpace cs with
      | '"' :: r => readQuoted? .line r
      | cs => readBareKey? cs
    match skipSpace r with
    | '=' :: r =>
      let (v, r) ← readValue? fuel r
      let es := putSorted (.ofList key) v es
      match r with
      | ',' :: r => readMembers? fuel es r
      | '\x7d' :: r => some (es, r)
      | _ => none
    | _ => none

end

/-- The value that a variable holds, given its text. -/
def value (s : String) : SettingValue :=
  match readValue? (2 * s.toList.length + 2) s.toList with
  | some (v, []) => v
  | _ => .text s

end HypermediaApi.Settings.Variable
