import HypermediaApi.Failure
import HypermediaApi.Json.Fields
import HypermediaApi.Text.Basic

/-!
# HypermediaApi.Ordering.Expression — reading `orderBy`

A sort expression is a comma-separated list of keys, each a field name with an optional `asc` or `desc`
after it, in any case. Entries without a word are left out. A third word, or a second one that is no
direction, makes the whole expression unreadable, and the failure names the entry.
-/

namespace HypermediaApi

/-- The direction of a sort. -/
inductive Direction where
  | ascending
  | descending
  deriving DecidableEq, Repr, Inhabited

namespace Direction

/-- The opposite direction. -/
def reverse : Direction → Direction
  | ascending => descending
  | descending => ascending

@[simp] theorem reverse_reverse (d : Direction) : d.reverse.reverse = d := by cases d <;> rfl

/-- The direction is descending. -/
def isDescending : Direction → Bool
  | ascending => false
  | descending => true

/-- The keyword of the direction. -/
def label : Direction → String
  | ascending => "asc"
  | descending => "desc"

/-- The direction that a keyword names, in any case. -/
def ofKeyword? (word : String) : Option Direction :=
  if Text.sameName word "desc" then some descending
  else if Text.sameName word "asc" then some ascending
  else none

/-- A direction in JSON: its keyword, or an object with the keyword as its one key and `null` under it. -/
def ofTree? (t : Json.Tree) : Option Direction :=
  let named := fun (word : String) =>
    if word = "asc" then some ascending else if word = "desc" then some descending else none
  match t with
  | .text _ => t.string?.bind named
  | .object [(k, .null)] => (Json.unescape? k).bind fun cs => named (.ofList cs)
  | _ => none

def toJson (d : Direction) : Json := .string d.label

end Direction

/-- One key of a sort expression. -/
structure SortKey where
  field : String
  direction : Direction
  deriving DecidableEq, Repr

/-- The key that a trimmed entry writes. -/
def SortKey.read (entry : String) : Except Failure SortKey :=
  match Text.words entry with
  | [field] => .ok ⟨field, .ascending⟩
  | [field, word] =>
    match Direction.ofKeyword? word with
    | some direction => .ok ⟨field, direction⟩
    | none => .error (.unknownSortField entry)
  | _ => .error (.unknownSortField entry)

/-- The keys of a sort expression. -/
def readOrderBy (orderBy : String) : Except Failure (List SortKey) :=
  (Text.entries orderBy).mapM SortKey.read

end HypermediaApi
