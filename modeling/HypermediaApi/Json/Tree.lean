import HypermediaApi.Text.Digits

/-!
# HypermediaApi.Json.Tree — the grammar of JSON text

Reading JSON text in two steps that know nothing of what the text means. The *lexer* goes through the text
character by character and cuts it into tokens; the *parser* goes through the tokens with a stack of open
arrays and objects. Both are one structural recursion over a transition function, so they are total without
a bound on size or nesting.

The result keeps texts as they stand between their quotes and numbers as they are written. A text with half
a surrogate pair or a number beyond every range is therefore well-formed here: whether it denotes a value is
asked only of the parts of a document that are used.
-/

namespace HypermediaApi.Json

/-! ### Numerals -/

/-- A number as it is written. -/
structure Numeral where
  negative : Bool
  /-- The digits before the point, without leading zeros. -/
  whole : List Char
  /-- The digits after the point, empty when there is no point. -/
  fraction : List Char
  /-- The exponent, if one is written. -/
  exponent : Option Int
  deriving DecidableEq, Repr

/-- The exponent at the end of a number. -/
def readExponent? : List Char → Option (Option Int)
  | [] => some none
  | e :: r =>
    if e = 'e' || e = 'E' then
      let (negative, ds) := Text.readSign r
      if !ds.isEmpty && ds.all Char.isDigit then
        some (some (if negative then -(Text.digitsValue 10 ds : Int) else Text.digitsValue 10 ds))
      else none
    else none

/-- A whole number without a leading zero, a fraction with a digit, an exponent with a digit. -/
def Numeral.read? (cs : List Char) : Option Numeral :=
  let (negative, cs) := match cs with
    | '-' :: r => (true, r)
    | r => (false, r)
  let whole := cs.takeWhile Char.isDigit
  let rest := cs.dropWhile Char.isDigit
  if whole.isEmpty || (whole.head? = some '0' && whole.length ≠ 1) then none
  else match rest with
    | '.' :: r =>
      let fraction := r.takeWhile Char.isDigit
      if fraction.isEmpty then none
      else (readExponent? (r.dropWhile Char.isDigit)).map (⟨negative, whole, fraction, ·⟩)
    | r => (readExponent? r).map (⟨negative, whole, [], ·⟩)

/-! ### Tokens -/

/-- The smallest pieces of JSON text. -/
inductive Token where
  | openArray
  | closeArray
  | openObject
  | closeObject
  | comma
  | colon
  | null
  | bool (b : Bool)
  | number (n : Numeral)
  /-- The characters between the quotes, escapes as written. -/
  | text (body : List Char)
  deriving DecidableEq, Repr

/-- Space between tokens. -/
def isSpace (c : Char) : Bool := c = ' ' || c = '\t' || c = '\n' || c = '\r'

/-- The characters of the words `null`, `true`, `false` and of numbers. -/
def isWordChar (c : Char) : Bool := c.isAlphanum || c = '+' || c = '-' || c = '.'

/-- The token that a word writes. -/
def wordToken? (w : List Char) : Option Token :=
  if w = ['n', 'u', 'l', 'l'] then some .null
  else if w = ['t', 'r', 'u', 'e'] then some (.bool true)
  else if w = ['f', 'a', 'l', 's', 'e'] then some (.bool false)
  else (Numeral.read? w).map .number

/-- The token that one character writes. -/
def punctuation? : Char → Option Token
  | '[' => some .openArray
  | ']' => some .closeArray
  | '\x7b' => some .openObject
  | '\x7d' => some .closeObject
  | ',' => some .comma
  | ':' => some .colon
  | _ => none

/-- Where the lexer stands; characters read so far are in reverse. -/
inductive LexState where
  | between
  | word (read : List Char)
  | text (read : List Char)
  /-- After a backslash. -/
  | escape (read : List Char)
  /-- Inside `\u`, with so many digits to come. -/
  | hex (left : Nat) (read : List Char)
  deriving DecidableEq, Repr

/-- The step from outside every token. -/
def startToken (c : Char) (done : List Token) : Option (LexState × List Token) :=
  if isSpace c then some (.between, done)
  else if c = '"' then some (.text [], done)
  else if isWordChar c then some (.word [c], done)
  else (punctuation? c).map (.between, · :: done)

/-- One character further; finished tokens are in reverse. -/
def LexState.step (c : Char) (done : List Token) : LexState → Option (LexState × List Token)
  | .between => startToken c done
  | .word w =>
    if isWordChar c then some (.word (c :: w), done)
    else (wordToken? w.reverse).bind fun t => startToken c (t :: done)
  | .text r =>
    if c = '"' then some (.between, .text r.reverse :: done)
    else if c = '\\' then some (.escape (c :: r), done)
    else if c.toNat < 0x20 then none
    else some (.text (c :: r), done)
  | .escape r =>
    if c ∈ ['"', '\\', '/', 'b', 'f', 'n', 'r', 't'] then some (.text (c :: r), done)
    else if c = 'u' then some (.hex 4 (c :: r), done)
    else none
  | .hex left r =>
    if Text.isHexDigit c then
      some (if left ≤ 1 then .text (c :: r) else .hex (left - 1) (c :: r), done)
    else none

/-- The tokens of the rest of a text. -/
def tokensFrom? (s : LexState) (done : List Token) : List Char → Option (List Token)
  | [] =>
    match s with
    | .between => some done.reverse
    | .word w => (wordToken? w.reverse).map fun t => (t :: done).reverse
    | _ => none
  | c :: r =>
    match s.step c done with
    | some (s', done') => tokensFrom? s' done' r
    | none => none

/-- The tokens of a text. -/
def tokens? (cs : List Char) : Option (List Token) := tokensFrom? .between [] cs

/-! ### Trees -/

/-- A JSON document as it is written. -/
inductive Tree where
  | null
  | bool (b : Bool)
  | number (n : Numeral)
  | text (body : List Char)
  | array (items : List Tree)
  | object (members : List (List Char × Tree))
  deriving Repr, Inhabited

/-- An array or object that is still open, with its finished parts in reverse. -/
inductive Frame where
  | items (done : List Tree)
  /-- The last key is the one whose value is being read. -/
  | members (done : List (List Char × Tree)) (key : List Char)

/-- What the parser expects, inside the open arrays and objects. -/
inductive ParseState where
  | value (stack : List Frame)
  /-- A value or the end of the array that was just opened. -/
  | firstItem (stack : List Frame)
  /-- A key or the end of the object that was just opened. -/
  | firstKey (stack : List Frame)
  /-- A key, after a comma. -/
  | key (done : List (List Char × Tree)) (stack : List Frame)
  | colon (done : List (List Char × Tree)) (key : List Char) (stack : List Frame)
  /-- A value is complete. -/
  | after (t : Tree) (stack : List Frame)

/-- A token that starts a value. -/
def startValue? (stack : List Frame) : Token → Option ParseState
  | .null => some (.after .null stack)
  | .bool b => some (.after (.bool b) stack)
  | .number n => some (.after (.number n) stack)
  | .text s => some (.after (.text s) stack)
  | .openArray => some (.firstItem stack)
  | .openObject => some (.firstKey stack)
  | _ => none

/-- One token further. -/
def ParseState.step : ParseState → Token → Option ParseState
  | .value stack, t => startValue? stack t
  | .firstItem stack, .closeArray => some (.after (.array []) stack)
  | .firstItem stack, t => startValue? (.items [] :: stack) t
  | .firstKey stack, .closeObject => some (.after (.object []) stack)
  | .firstKey stack, .text k => some (.colon [] k stack)
  | .key done stack, .text k => some (.colon done k stack)
  | .colon done k stack, .colon => some (.value (.members done k :: stack))
  | .after v (.items done :: stack), .comma => some (.value (.items (v :: done) :: stack))
  | .after v (.items done :: stack), .closeArray => some (.after (.array (v :: done).reverse) stack)
  | .after v (.members done k :: stack), .comma => some (.key ((k, v) :: done) stack)
  | .after v (.members done k :: stack), .closeObject =>
    some (.after (.object ((k, v) :: done).reverse) stack)
  | _, _ => none

/-- The document that the rest of the tokens completes. -/
def treeFrom? (s : ParseState) : List Token → Option Tree
  | [] =>
    match s with
    | .after v [] => some v
    | _ => none
  | t :: r =>
    match s.step t with
    | some s' => treeFrom? s' r
    | none => none

/-- The document that a text writes, space around it allowed. -/
def Tree.read? (s : String) : Option Tree :=
  (tokens? s.toList).bind (treeFrom? (.value []))

end HypermediaApi.Json
