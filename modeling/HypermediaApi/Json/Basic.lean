import HypermediaApi.Decimal.Binary64
import HypermediaApi.SortedEntries

/-!
# HypermediaApi.Json.Basic — JSON values

The values that the library reads, stores in records and writes. An object is the list of its members in
writing order; two readings of an object differ in what they make of that order. A *plain* value forgets it:
`Json.canonical` sorts the members of every object by key, and the last of several members with one key
wins. Records and fixed structures keep it.

A number is an exact integer or a finite binary64 number. A text denotes an integer when it has neither a
fraction nor an exponent and lies in the range of signed or unsigned 64-bit integers.
-/

namespace HypermediaApi

open Decimal (Binary64)

/-- A JSON number. -/
inductive Number where
  | int (n : Int)
  | float (x : Binary64)
  deriving DecidableEq, Repr

/-- A JSON value whose objects keep their members in order. -/
inductive Json where
  | null
  | bool (b : Bool)
  | number (n : Number)
  | string (s : String)
  | array (items : List Json)
  | object (members : List (String × Json))
  deriving Repr, Inhabited

namespace Json

/-- An integer as a JSON value. -/
def int (n : Int) : Json := .number (.int n)

/-- A natural number as a JSON value. -/
def nat (n : Nat) : Json := .int n

/-- An optional text, `null` when absent. -/
def optionalString : Option String → Json
  | some s => .string s
  | none => .null

/-- A member that is left out when there is nothing to say. -/
def optionalMember (name : String) : Option String → List (String × Json)
  | some text => [(name, .string text)]
  | none => []

/-! ### Plain values -/

mutual

/-- The value with the members of every object sorted, the last of several with one key. -/
def canonical : Json → Json
  | .array items => .array (canonicalItems items)
  | .object members => .object (sortEntries (canonicalMembers members))
  | .null => .null
  | .bool b => .bool b
  | .number n => .number n
  | .string s => .string s

/-- `canonical` of every item. -/
def canonicalItems : List Json → List Json
  | [] => []
  | v :: r => canonical v :: canonicalItems r

/-- `canonical` of the value of every member. -/
def canonicalMembers : List (String × Json) → List (String × Json)
  | [] => []
  | (k, v) :: r => (k, canonical v) :: canonicalMembers r

end

/-- The members of an object, none for any other value. -/
def members : Json → List (String × Json)
  | .object ms => ms
  | _ => []

/-- The items of an array, none for any other value. -/
def items : Json → List Json
  | .array vs => vs
  | _ => []

/-- The value at a position of an array; a missing position, and any position of a value that is no
array, reads as `null`. -/
def nth (v : Json) (i : Nat) : Json := v.items[i]?.getD .null

end Json

end HypermediaApi
