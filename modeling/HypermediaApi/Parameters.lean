import HypermediaApi.Failure
import HypermediaApi.Page
import HypermediaApi.Text.Percent

/-!
# HypermediaApi.Parameters — what a client may ask of a collection

The parameters of a collection request: a page, a sort expression, a field list and a filter of the
resource's own. They are read from a flat JSON object or from the pairs of a query string, and written back
as both; the links between pages are made of these pairs, so reading them gives the same request for another
page.

A blank sort expression or field list counts as none, and is then left out of links. An absent page size is
filled in twice: by the collection that resolves the request, and by `defaultPageSize` wherever that has not
happened.
-/

namespace HypermediaApi

variable {φ : Type}

/-- Filters that travel as a fixed set of named texts. -/
class Filter (φ : Type) where
  /-- The filter that lets everything pass. -/
  neutral : φ
  /-- The names of the filter's own parameters. -/
  names : List String
  /-- The filter that named parts of a document make. -/
  ofFields? : Json.Fields → Option φ
  /-- The filter that a JSON document of its own holds. -/
  ofTree? : Json.Tree → Option φ
  /-- The filter that named texts make. -/
  ofPairs : List (String × String) → φ
  /-- The filter as members of a JSON object. -/
  members : φ → List (String × Json)
  /-- The filter as pairs of a query string. -/
  queryPairs : φ → List (String × String)

/-- The filter of collections that cannot be filtered. -/
structure NoFilter where
  deriving DecidableEq, Repr

instance : Filter NoFilter where
  neutral := {}
  names := []
  ofFields? _ := some {}
  ofTree? t := (t.fields? [] 0).map fun _ => {}
  ofPairs _ := {}
  members _ := []
  queryPairs _ := []

/-- The page size where nobody says otherwise. -/
def defaultPageSize : Int64 := 10

/-- The greatest page size where nobody says otherwise. -/
def maxPageSize : Int64 := 100

/-- The parameters of a collection request. -/
structure Parameters (φ : Type) where
  pageIndex : Int64 := 0
  givenPageSize : Option Int64 := none
  givenOrderBy : Option String := none
  givenFields : Option String := none
  filter : φ
  deriving DecidableEq, Repr

namespace Parameters

/-- The request without any parameter. -/
def neutral [Filter φ] : Parameters φ := { filter := Filter.neutral }

/-- The request with a page size, unless it has one. -/
def orPageSize (p : Parameters φ) (size : Int64) : Parameters φ :=
  { p with givenPageSize := some (p.givenPageSize.getD size) }

/-- The request with its page size cut to a maximum. -/
def capped (p : Parameters φ) (maximum : Int64) : Parameters φ :=
  { p with givenPageSize := p.givenPageSize.map fun size => if size ≤ maximum then size else maximum }

/-- The page size in effect. -/
def pageSize (p : Parameters φ) : Int64 := p.givenPageSize.getD defaultPageSize

/-- The sort expression, if there is one that is not blank. -/
def orderBy (p : Parameters φ) : Option String := p.givenOrderBy.filter (! Text.isBlankText ·)

/-- The field list, if there is one that is not blank. -/
def fields (p : Parameters φ) : Option String := p.givenFields.filter (! Text.isBlankText ·)

/-- The window of the requested page, or why there is none. -/
def window (p : Parameters φ) : Except PageFault Window :=
  if p.pageIndex < 0 then .error (.negativeIndex p.pageIndex)
  else if p.pageSize ≤ 0 then .error (.sizeNotPositive p.pageSize)
  else .ok (.ofPage (.ofNat p.pageIndex.toInt.toNat) (.ofNat p.pageSize.toInt.toNat))

/-! ### Query pairs -/

/-- A pair that is left out when there is nothing to say. -/
def optionalPair (name : String) : Option String → List (String × String)
  | some text => [(name, text)]
  | none => []

/-- The pairs of a query for the page at an index of the same request. -/
def queryPairs [Filter φ] (p : Parameters φ) (index : Int64) : List (String × String) :=
  [("pageIndex", toString index.toInt), ("pageSize", toString p.pageSize.toInt)] ++
    optionalPair "orderBy" p.orderBy ++ optionalPair "fields" p.fields ++ Filter.queryPairs p.filter

/-- A decimal integer of 64 bits: digits of ASCII, with a minus before them if it is negative. -/
def readInt64? (s : String) : Option Int64 :=
  let (negative, ds) := match s.toList with
    | '-' :: r => (true, r)
    | r => (false, r)
  if ds.isEmpty || !ds.all Char.isDigit then none
  else
    let n : Int := if negative then -(Text.digitsValue 10 ds : Int) else Text.digitsValue 10 ds
    if Int64.minValue.toInt ≤ n ∧ n ≤ Int64.maxValue.toInt then some (.ofInt n) else none

/-- The request that the pairs of a query make. -/
def ofQueryPairs? [Filter φ] (pairs : List (String × String)) : Option (Parameters φ) := do
  let pageIndex ← match pairs.lookup "pageIndex" with
    | some text => readInt64? text
    | none => some 0
  let givenPageSize ← match pairs.lookup "pageSize" with
    | some text => (readInt64? text).map some
    | none => some none
  some {
    pageIndex, givenPageSize
    givenOrderBy := pairs.lookup "orderBy"
    givenFields := pairs.lookup "fields"
    filter := Filter.ofPairs pairs }

/-! ### JSON -/

/-- The names of the parameters that every collection has. -/
def names : List String := ["pageIndex", "pageSize", "orderBy", "fields"]

/-- The request as JSON; what was not given is left out. -/
def toJson [Filter φ] (p : Parameters φ) : Json :=
  .object ([("pageIndex", .int p.pageIndex.toInt)] ++
    (match p.givenPageSize with
      | some size => [("pageSize", .int size.toInt)]
      | none => []) ++
    Json.optionalMember "orderBy" p.givenOrderBy ++
    Json.optionalMember "fields" p.givenFields ++
    Filter.members p.filter)

def ofTree? [Filter φ] (t : Json.Tree) : Option (Parameters φ) := do
  let (fields, _) ← t.mixedFields? Json.nestingLimit (names ++ Filter.names φ)
  some {
    pageIndex := ← fields.withDefault "pageIndex" 0 (·.int64?)
    givenPageSize := ← fields.optional "pageSize" (·.int64?)
    givenOrderBy := ← fields.optional "orderBy" (·.string?)
    givenFields := ← fields.optional "fields" (·.string?)
    filter := ← Filter.ofFields? fields }

end Parameters

/-! ### Query strings -/

namespace Query

/-- The name and the encoded value of one part of a query, cut at the first `=`. -/
def cutPart (part : List Char) : List Char × List Char :=
  (part.takeWhile (· ≠ '='), (part.dropWhile (· ≠ '=')).drop 1)

/-- The pairs of a query string: cut at `&`, then at the first `=`, the values percent-decoded. -/
def pairs? (query : String) : Option (List (String × String)) :=
  (Text.pieces (· == '&') query.toList).mapM fun part =>
    let (name, value) := cutPart part
    (Text.Percent.decode? (.ofList value)).map (.ofList name, ·)

end Query

end HypermediaApi
