import HypermediaApi.Text.Basic
import HypermediaApi.Text.CasingTable

/-!
# HypermediaApi.Text.Casing — lower case of whole texts

Full lower-casing. Every character is mapped on its own, by the simple mapping of the table, with two
exceptions: `İ` becomes `i` with a dot above, and `Σ` becomes the final form `ς` at the end of a word,
that is where a cased letter stands before it and none after it, case-ignorable characters skipped.
-/

namespace HypermediaApi.Text

/-- Letters that have a case. -/
def isCased (c : Char) : Bool := inRanges casedRanges c

/-- Characters that do not interrupt a word when the case of its letters is looked at. -/
def isCaseIgnorable (c : Char) : Bool := inRanges caseIgnorableRanges c

/-- Membership of a code point in a row of the lower-case mapping. -/
def CaseShift.covers (row : CaseShift) (n : Nat) : Bool :=
  row.first ≤ n && n ≤ row.last && (n - row.first) % row.stride == 0

/-- The lower case of a character by the simple mapping. -/
def simpleLower (c : Char) : Char :=
  if c.toNat < 0x80 then c.toLower
  else match caseShifts.find? (·.covers c.toNat) with
    | some row => .ofNat (c.toNat + row.offset).toNat
    | none => c

/-- The first character that is not case-ignorable is cased. -/
def startsCased (cs : List Char) : Bool :=
  match cs.dropWhile isCaseIgnorable with
  | c :: _ => isCased c
  | [] => false

/-- The lower case of a character between the characters before it (nearest first) and those after. -/
def lowerBetween (before : List Char) (c : Char) (after : List Char) : List Char :=
  if c = 'Σ' then if startsCased before && !startsCased after then ['ς'] else ['σ']
  else if c = 'İ' then ['i', '\u0307']
  else [simpleLower c]

/-- The lower case of the rest of a text whose characters `before` are done. -/
def lowerAfter (before : List Char) : List Char → List Char
  | [] => []
  | c :: r => lowerBetween before c r ++ lowerAfter (c :: before) r

/-- The lower case of a text. -/
def lower (s : String) : String := .ofList (lowerAfter [] s.toList)

/-- Equality of texts up to case. -/
def sameText (a b : String) : Bool := lower a == lower b

end HypermediaApi.Text
