import HypermediaApi.Json.Reader

/-!
# HypermediaApi.Json.Fields — reading structures with fixed fields

A structure with fixed fields is written as an object or, by position, as an array. In an object unknown
keys are ignored, with whatever stands under them, and a known key may stand only once. In an array the
fields stand in declaration order; trailing ones may be missing as far as the structure has defaults for
them, and more items than fields are refused.

A *mixed* structure has such fields next to keys that it does not know in advance. It is written as an
object only, and since nothing stands under an ignored key, everything under an unknown one has to denote a
value.
-/

namespace HypermediaApi.Json

/-- The parts of a document that stand for fields of a structure. -/
abbrev Fields := List (String × Tree)

/-- The keys of an object, as the texts they denote. -/
def decodeKeys? : List (List Char × Tree) → Option Fields
  | [] => some []
  | (k, t) :: r => do
    let key ← unescape? k
    let rest ← decodeKeys? r
    some ((.ofList key, t) :: rest)

/-- No key of `names` stands more than once. -/
def noneRepeated (names : List String) (fields : Fields) : Bool :=
  names.all fun name => (fields.filter (·.1 == name)).length ≤ 1

/-- The fields of a structure with the given names, of which an array has to hold the first `required`. -/
def Tree.fields? (names : List String) (required : Nat) : Tree → Option Fields
  | .object ms => do
    let fields ← decodeKeys? ms
    if noneRepeated names fields then some (fields.filter (names.contains ·.1)) else none
  | .array ts => if required ≤ ts.length && ts.length ≤ names.length then some (names.zip ts) else none
  | _ => none

/-- The known fields of a mixed structure, and its other members as plain values in writing order. There is room for so
many nested arrays and objects, the structure among them. -/
def Tree.mixedFields? (room : Nat) (names : List String) : Tree → Option (Fields × List (String × Json))
  | .object ms =>
    match room with
    | 0 => none
    | room + 1 => do
      let fields ← decodeKeys? ms
      if noneRepeated names fields then
        let others ← (fields.filter (! names.contains ·.1)).mapM fun (k, t) =>
          (t.toJson? room).map fun v => (k, v.canonical)
        some (fields.filter (names.contains ·.1), others)
      else none
  | _ => none

/-- A text. -/
def Tree.string? : Tree → Option String
  | .text s => (unescape? s).map String.ofList
  | _ => none

/-- An integer of the given range, written without a fraction or an exponent. -/
def Tree.int? (low high : Int) : Tree → Option Int
  | .number n =>
    match n.toNumber? with
    | some (.int i) => if low ≤ i ∧ i ≤ high then some i else none
    | _ => none
  | _ => none

/-- A signed integer of 64 bits. -/
def Tree.int64? (t : Tree) : Option Int64 := (t.int? Int64.minValue.toInt Int64.maxValue.toInt).map Int64.ofInt

/-- A signed integer of 32 bits. -/
def Tree.int32? (t : Tree) : Option Int32 := (t.int? Int32.minValue.toInt Int32.maxValue.toInt).map Int32.ofInt

/-- An unsigned integer of 64 bits. -/
def Tree.uint64? (t : Tree) : Option UInt64 := (t.int? 0 (UInt64.size - 1)).map fun i => .ofNat i.toNat

/-- An unsigned integer of 32 bits. -/
def Tree.uint32? (t : Tree) : Option UInt32 := (t.int? 0 (UInt32.size - 1)).map fun i => .ofNat i.toNat

/-- `null` or something that `read` accepts. -/
def Tree.nullable? (read : Tree → Option α) : Tree → Option (Option α)
  | .null => some none
  | t => (read t).map some

/-- An array of things that `read` accepts. -/
def Tree.list? (read : Tree → Option α) : Tree → Option (List α)
  | .array ts => ts.mapM read
  | _ => none

/-- What a text holds that `read` accepts as a document. -/
def decode? (read : Tree → Option α) (s : String) : Option α := (Tree.read? s).bind read

namespace Fields

/-- A field that has to be there. -/
def required (fields : Fields) (name : String) (read : Tree → Option α) : Option α :=
  (fields.lookup name).bind read

/-- A field with a default for when it is absent; `null` counts as present. -/
def withDefault (fields : Fields) (name : String) (default : α) (read : Tree → Option α) : Option α :=
  match fields.lookup name with
  | some t => read t
  | none => some default

/-- A field that may be absent or `null`. -/
def optional (fields : Fields) (name : String) (read : Tree → Option α) : Option (Option α) :=
  fields.withDefault name none (·.nullable? read)

end Fields

end HypermediaApi.Json
