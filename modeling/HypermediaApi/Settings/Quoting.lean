import HypermediaApi.Text.Digits

/-!
# HypermediaApi.Settings.Quoting — keys and quoted texts

What the two notations of settings, files and environment variables, have in common: bare keys and texts
between double quotes. A backslash starts an escape: of one letter, or the code point of a character in four or
eight hexadecimal digits; any other use of it is refused.

A quoted text stays on one line, but in files there are also texts over several lines, which begin and end
with three quotes. In these one or two quotes stand for themselves, and a backslash at the end of a line joins
the line to the next one.
-/

namespace HypermediaApi.Settings

/-- The characters that may stand in a text and in a comment: all but control characters, of which the tab
is allowed. -/
def isTextChar (c : Char) : Bool := c = '\t' || (0x20 ≤ c.toNat && c.toNat ≠ 0x7F)

/-- The characters of keys without quotes. -/
def isBareKeyChar (c : Char) : Bool := c.isAlphanum || c = '_' || c = '-'

/-- Space inside a line. -/
def isLineSpace (c : Char) : Bool := c = ' ' || c = '\t'

/-- The character that a letter after a backslash stands for. -/
def escapedLetter? : Char → Option Char
  | 'b' => some '\x08'
  | 't' => some '\t'
  | 'n' => some '\n'
  | 'f' => some '\x0c'
  | 'r' => some '\r'
  | '"' => some '"'
  | '\\' => some '\\'
  | _ => none

/-- The character whose code point the hexadecimal digits give. -/
def codePoint? (ds : List Char) : Option Char :=
  let n := Text.digitsValue 16 ds
  if ds.all Text.isHexDigit ∧ n.isValidChar then some (.ofNat n) else none

/-- Where in a text between double quotes its reader is. -/
inductive QuotedPlace where
  /-- In a text on one line. -/
  | line
  /-- In a text over several lines. -/
  | lines
  /-- In a text over several lines, between the backslash at the end of a line and the next character that is
  neither space nor a line end. -/
  | lineBreak
  deriving DecidableEq, Repr

/-- The place after a character of the text. -/
def QuotedPlace.next : QuotedPlace → QuotedPlace
  | .line => .line
  | .lines | .lineBreak => .lines

/-- The quotes at the end of a text over several lines, and what follows it: of the quotes that stand behind
three in a row, up to two are part of the text, and the last three close it. -/
def takeQuotes (quote : Char) (cs : List Char) : List Char × List Char :=
  let quotes := (cs.take 2).takeWhile (· = quote)
  (quotes, cs.drop quotes.length)

/-- The text that begins after the opening double quotes, and what follows the closing ones. -/
def readQuoted? : QuotedPlace → List Char → Option (List Char × List Char)
  | _, [] => none
  | place, '"' :: r =>
    if place = .line then some ([], r)
    else match r with
      | '"' :: '"' :: r => some (takeQuotes '"' r)
      | _ => (readQuoted? .lines r).map fun (text, r) => ('"' :: text, r)
  | place, '\\' :: 'u' :: a :: b :: c :: d :: r => do
    let char ← codePoint? [a, b, c, d]
    let (text, r) ← readQuoted? place.next r
    some (char :: text, r)
  | place, '\\' :: 'U' :: a :: b :: c :: d :: e :: f :: g :: h :: r => do
    let char ← codePoint? [a, b, c, d, e, f, g, h]
    let (text, r) ← readQuoted? place.next r
    some (char :: text, r)
  | place, '\\' :: c :: r =>
    if place ≠ .line ∧ ((c :: r).dropWhile isLineSpace).head? = some '\n' then readQuoted? .lineBreak r
    else do
      let char ← escapedLetter? c
      let (text, r) ← readQuoted? place.next r
      some (char :: text, r)
  | place, c :: r =>
    if place = .lineBreak ∧ (isLineSpace c ∨ c = '\n') then readQuoted? .lineBreak r
    else if c ≠ '\\' ∧ (isTextChar c ∨ (c = '\n' ∧ place ≠ .line)) then do
      let (text, r) ← readQuoted? place.next r
      some (c :: text, r)
    else none

/-- A key without quotes, and what follows it. -/
def readBareKey? (cs : List Char) : Option (List Char × List Char) :=
  let key := cs.takeWhile isBareKeyChar
  if key.isEmpty then none else some (key, cs.dropWhile isBareKeyChar)

end HypermediaApi.Settings
