import HypermediaApi.Decimal.Binary64
import HypermediaApi.Settings.DateTime
import HypermediaApi.Settings.Quoting
import HypermediaApi.Settings.Value
import HypermediaApi.Text.Basic

/-!
# HypermediaApi.Settings.File — TOML files

Reading TOML: tables with headers and dotted keys, arrays of tables, texts on one line and over several,
integers, floats, booleans, dates and times, arrays and inline tables.

A file is read in two steps. The first cuts it into *statements*, each of which opens a table or sets a key;
the second carries the statements out, and is where a key that is set twice and a table that is opened twice
are refused. What may still be added to a table depends on how it came to be, so the tables under
construction remember that (`Origin`).
-/

namespace HypermediaApi.Settings.File

open Decimal (Binary64)

/-- How many arrays and inline tables may be open at once, and how many keys a path may have. -/
def maxDepth : Nat := 79

/-! ### Numbers and words -/

/-- The characters of numbers and of the words `true`, `false`, `inf` and `nan`. -/
def isWordChar (c : Char) : Bool := c.isAlphanum || c = '_' || c = '+' || c = '-' || c = '.'

/-- The digits of a number in which an underscore may stand between two digits. -/
def digits? (isDigit : Char → Bool) (cs : List Char) : Option (List Char) :=
  let groups := Text.pieces (· = '_') cs
  if groups.all fun g => !g.isEmpty && g.all isDigit then some groups.flatten else none

/-- The digits of a whole number without leading zeros. -/
def wholeDigits? (cs : List Char) : Option (List Char) := do
  let ds ← digits? Char.isDigit cs
  if ds.head? = some '0' ∧ ds.length ≠ 1 then none else some ds

/-- An integer: decimal with an optional sign, or without one in base sixteen, eight or two. -/
def readInteger? (w : List Char) : Option Int :=
  match w with
  | '0' :: 'x' :: r => (digits? Text.isHexDigit r).map fun ds => Text.digitsValue 16 ds
  | '0' :: 'o' :: r => (digits? (fun c => '0' ≤ c && c ≤ '7') r).map fun ds => Text.digitsValue 8 ds
  | '0' :: 'b' :: r => (digits? (fun c => c = '0' || c = '1') r).map fun ds => Text.digitsValue 2 ds
  | w =>
    let (negative, r) := Text.readSign w
    (wholeDigits? r).map fun ds =>
      let n := Text.digitsValue 10 ds
      if negative then -(n : Int) else n

/-- The digits after the point, none when there is no point. -/
def fraction? : List Char → Option (List Char)
  | [] => some []
  | _ :: ds => digits? Char.isDigit ds

/-- The exponent after its letter, zero when there is none. -/
def exponent? : List Char → Option Int
  | [] => some 0
  | _ :: r => do
    let (negative, r) := Text.readSign r
    let n := Text.digitsValue 10 (← digits? Char.isDigit r)
    some (if negative then -(n : Int) else n)

/-- A number with a point or an exponent, an infinity or not a number. A number so large that it would be
the positive infinity is refused. -/
def readFloat? (w : List Char) : Option Binary64 := do
  let (negative, r) := Text.readSign w
  if r = ['i', 'n', 'f'] then some (.infinite negative)
  else if r = ['n', 'a', 'n'] then some .nan
  else
    let mantissa := r.takeWhile fun c => c ≠ 'e' && c ≠ 'E'
    let exponent := r.dropWhile fun c => c ≠ 'e' && c ≠ 'E'
    let fraction := mantissa.dropWhile (· ≠ '.')
    if fraction.isEmpty && exponent.isEmpty then none
    else
      let whole ← wholeDigits? (mantissa.takeWhile (· ≠ '.'))
      let fraction ← fraction? fraction
      let x := Binary64.ofDecimal negative (Text.digitsValue 10 (whole ++ fraction))
        ((← exponent? exponent) - fraction.length)
      if x = .infinite false then none else some x

/-- The value that a word writes. -/
def wordValue? (w : List Char) : Option SettingValue :=
  if w = ['t', 'r', 'u', 'e'] then some (.bool true)
  else if w = ['f', 'a', 'l', 's', 'e'] then some (.bool false)
  else match readInteger? w with
    | some n =>
      if Int64.minValue.toInt ≤ n ∧ n ≤ Int64.maxValue.toInt then some (.signed (.ofInt n)) else none
    | none => (readFloat? w).map .float

/-- The date or time at the start of a text, and what follows it. It is taken for a dictionary whose only entry
is its text, under a key that no setting has. -/
def readDateTime? (cs : List Char) : Option (SettingValue × List Char) :=
  (skipDateTime? cs).map fun r =>
    (.dict [("$__toml_private_datetime", .text (.ofList (cs.take (cs.length - r.length))))], r)

/-! ### Tables under construction -/

/-- How a table came to be. -/
inductive Origin where
  /-- Opened by a header of its own. -/
  | header
  /-- Needed by the header of a table inside it. -/
  | outerHeader
  /-- Needed by a dotted key. -/
  | dottedKey
  /-- Opened by a header as the item of an array of tables that comes after the given ones. -/
  | item (before : List SettingValue)
  deriving Repr

/-- Dotted keys do not lead to such a table. The flag tells whether it is the table that a key ends in; those
on the way there may also have been needed by a header, or be the last item of an array. -/
def Origin.isClosed (last : Bool) : Origin → Bool
  | .header => true
  | .outerHeader | .item _ => last
  | .dottedKey => false

/-- What a key stands for while a file is being read. -/
inductive Node where
  | value (v : SettingValue)
  | table (origin : Origin) (entries : List (String × Node))
  deriving Repr, Inhabited

/-- The entries of a table under construction. -/
abbrev Nodes := List (String × Node)

/-- The entries with a value for a key, or for a path of dotted keys, which does not lead into tables that are
closed to it. -/
def assign (v : SettingValue) : List String → Nodes → Option Nodes
  | [], _ => none
  | [key], ns => if (ns.lookup key).isSome then none else some (putSorted key (.value v) ns)
  | key :: next :: path, ns =>
    match ns.lookup key with
    | none => (assign v (next :: path) []).map fun inner => putSorted key (.table .dottedKey inner) ns
    | some (.table origin inner) =>
      if origin.isClosed path.isEmpty then none
      else (assign v (next :: path) inner).map fun inner => putSorted key (.table origin inner) ns
    | some (.value _) => none

/-- The entries with the table at a path changed. -/
def changeTable (change : Nodes → Option Nodes) : List String → Nodes → Option Nodes
  | [], ns => change ns
  | key :: path, ns =>
    match ns.lookup key with
    | some (.table origin inner) =>
      (changeTable change path inner).map fun inner => putSorted key (.table origin inner) ns
    | _ => none

mutual

/-- The value that is complete when its file is. -/
def Node.finish : Node → SettingValue
  | .value v => v
  | .table (.item before) ns => .list (before ++ [.dict (finishAll ns)])
  | .table _ ns => .dict (finishAll ns)

/-- The entries that are complete when their file is. -/
def finishAll : Nodes → SettingEntries
  | [] => []
  | (key, n) :: r => (key, n.finish) :: finishAll r

end

/-- What a key stands for after the header of a table with that key, given what it has stood for. -/
def Node.openTable? : Option Node → Option Node
  | none => some (.table .header [])
  | some (.table .outerHeader inner) => some (.table .header inner)
  | some _ => none

/-- What a key stands for after the header of an item of an array of tables with that key, given what it has
stood for. -/
def Node.openItem? : Option Node → Option Node
  | none => some (.table (.item []) [])
  | some (.table (.item before) inner) => some (.table (.item (before ++ [.dict (finishAll inner)])) [])
  | some _ => none

/-- The entries with the node at a path opened by a header. -/
def openAt (openNode? : Option Node → Option Node) : List String → Nodes → Option Nodes
  | [], _ => none
  | [key], ns => (openNode? (ns.lookup key)).map fun n => putSorted key n ns
  | key :: next :: path, ns =>
    match ns.lookup key with
    | none =>
      (openAt openNode? (next :: path) []).map fun inner => putSorted key (.table .outerHeader inner) ns
    | some (.table origin inner) =>
      (openAt openNode? (next :: path) inner).map fun inner => putSorted key (.table origin inner) ns
    | some (.value _) => none

/-! ### Space -/

/-- What follows the space inside a line. -/
def skipSpace (cs : List Char) : List Char := cs.dropWhile isLineSpace

/-- What follows space, line ends and comments; the flag tells whether the text starts inside a comment. -/
def skipLines (inComment : Bool) : List Char → List Char
  | [] => []
  | c :: r =>
    if c = '\n' then skipLines false r
    else if inComment then if isTextChar c then skipLines true r else c :: r
    else if isLineSpace c then skipLines false r
    else if c = '#' then skipLines true r
    else c :: r

/-- Nothing but space and a comment is left of the line. -/
def endsLine (cs : List Char) : Bool :=
  match skipSpace cs with
  | [] => true
  | c :: _ => c = '\n' || c = '#'

/-- The text with every line end as one character. -/
def joinLineEnds : List Char → List Char
  | '\r' :: '\n' :: r => '\n' :: joinLineEnds r
  | c :: r => c :: joinLineEnds r
  | [] => []

/-- The text without the line end that it starts with. -/
def dropLineEnd : List Char → List Char
  | '\n' :: r => r
  | r => r

/-! ### Keys and values -/

/-- The text that begins after a single quote, and what follows its closing quote. -/
def readLiteral? (cs : List Char) : Option (List Char × List Char) :=
  let inside := fun c => isTextChar c && c ≠ '\''
  match cs.dropWhile inside with
  | '\'' :: r => some (cs.takeWhile inside, r)
  | _ => none

/-- The text over several lines that begins after three single quotes, and what follows the three that close
it. -/
def readLiteralLines? : List Char → Option (List Char × List Char)
  | [] => none
  | '\'' :: '\'' :: '\'' :: r => some (takeQuotes '\'' r)
  | c :: r =>
    if isTextChar c || c = '\n' then (readLiteralLines? r).map fun (text, r) => (c :: text, r) else none

/-- The text whose first quote is the given one, and what follows it: over several lines, beginning after the
line end if there is one, if two more quotes stand there. -/
def readText? : Char → List Char → Option (List Char × List Char)
  | '"', '"' :: '"' :: r => readQuoted? .lines (dropLineEnd r)
  | '"', r => readQuoted? .line r
  | '\'', '\'' :: '\'' :: r => readLiteralLines? (dropLineEnd r)
  | _, r => readLiteral? r

/-- A key, and what follows it. -/
def readKey? (cs : List Char) : Option (String × List Char) :=
  (match cs with
    | '"' :: r => readQuoted? .line r
    | '\'' :: r => readLiteral? r
    | cs => readBareKey? cs).map fun (key, r) => (.ofList key, r)

/-- A path of keys with dots between them, of at most the given number of keys, and what follows it. -/
def readPath? : Nat → List Char → Option (List String × List Char)
  | 0, _ => none
  | room + 1, cs => do
    let (key, r) ← readKey? (skipSpace cs)
    match skipSpace r with
    | '.' :: r =>
      let (path, r) ← readPath? room r
      some (key :: path, r)
    | r => some ([key], r)

mutual

/-- The value at the start of a text, and what follows it, when `room` more arrays and inline tables may be
opened. Every step takes a character away or goes inside what has just been opened, so twice the length of
the text is fuel enough. -/
def readValue? (room : Nat) : Nat → List Char → Option (SettingValue × List Char)
  | 0, _ => none
  | fuel + 1, cs =>
    match cs, room with
    | '"' :: r, _ => (readText? '"' r).map fun (text, r) => (.text (.ofList text), r)
    | '\'' :: r, _ => (readText? '\'' r).map fun (text, r) => (.text (.ofList text), r)
    | '[' :: r, room + 1 => (readItems? room fuel r).map fun (vs, r) => (.list vs, r)
    | '\x7b' :: r, room + 1 =>
      match skipSpace r with
      | '\x7d' :: r => some (.dict [], r)
      | r => (readMembers? room fuel [] r).map fun (ns, r) => (.dict (finishAll ns), r)
    | cs, _ =>
      (readDateTime? cs).or <|
        (wordValue? (cs.takeWhile isWordChar)).map fun v => (v, cs.dropWhile isWordChar)

/-- The rest of an array up to its end. It may go over several lines, and a comma may stand after the last
item. -/
def readItems? (room : Nat) : Nat → List Char → Option (List SettingValue × List Char)
  | 0, _ => none
  | fuel + 1, cs =>
    match skipLines false cs with
    | ']' :: r => some ([], r)
    | cs => do
      let (v, r) ← readValue? room fuel cs
      match skipLines false r with
      | ',' :: r =>
        let (vs, r) ← readItems? room fuel r
        some (v :: vs, r)
      | ']' :: r => some ([v], r)
      | _ => none

/-- The rest of an inline table up to its end, after the given entries. -/
def readMembers? (room : Nat) : Nat → Nodes → List Char → Option (Nodes × List Char)
  | 0, _, _ => none
  | fuel + 1, ns, cs => do
    let (path, r) ← readPath? maxDepth cs
    match r with
    | '=' :: r =>
      let (v, r) ← readValue? room fuel (skipSpace r)
      let ns ← assign v path ns
      match skipSpace r with
      | ',' :: r => readMembers? room fuel ns r
      | '\x7d' :: r => some (ns, r)
      | _ => none
    | _ => none

end

/-! ### Statements -/

/-- A line of a file. -/
inductive Statement where
  /-- The header of a table. -/
  | header (path : List String)
  /-- The header of an item of an array of tables. -/
  | itemHeader (path : List String)
  | assign (path : List String) (v : SettingValue)
  deriving Repr, Inhabited

/-- The statement at the start of a text, and what follows it. -/
def readStatement? (cs : List Char) : Option (Statement × List Char) :=
  match cs with
  | '[' :: '[' :: r => do
    match ← readPath? maxDepth r with
    | (path, ']' :: ']' :: r) => some (.itemHeader path, r)
    | _ => none
  | '[' :: r => do
    match ← readPath? maxDepth r with
    | (path, ']' :: r) => some (.header path, r)
    | _ => none
  | cs => do
    match ← readPath? maxDepth cs with
    | (path, '=' :: r) =>
      (readValue? maxDepth (2 * r.length + 2) (skipSpace r)).map fun (v, r) => (.assign path v, r)
    | _ => none

/-- The statements of a text. Each takes at least one character, so the length of the text is fuel enough.
-/
def statements? : Nat → List Char → Option (List Statement)
  | fuel, cs =>
    match skipLines false cs, fuel with
    | [], _ => some []
    | _, 0 => none
    | cs, fuel + 1 => do
      let (statement, r) ← readStatement? cs
      if endsLine r then (statements? fuel r).map (statement :: ·) else none

/-- The table whose entries are being set, and the whole file so far. -/
structure Draft where
  path : List String := []
  root : Nodes := []

/-- The file so far after one more statement. -/
def Draft.step (d : Draft) : Statement → Option Draft
  | .header path => (openAt Node.openTable? path d.root).map fun root => { path, root }
  | .itemHeader path => (openAt Node.openItem? path d.root).map fun root => { path, root }
  | .assign path v => (changeTable (assign v path) d.path d.root).map fun root => { d with root }

/-- The entries that a file holds; none when its text is not accepted. A byte order mark may stand before
it. -/
def read? (s : String) : Option SettingEntries := do
  let cs := match s.toList with
    | '\uFEFF' :: r => r
    | cs => cs
  let cs := joinLineEnds cs
  let statements ← statements? cs.length cs
  let d ← statements.foldlM Draft.step {}
  some (finishAll d.root)

end HypermediaApi.Settings.File
