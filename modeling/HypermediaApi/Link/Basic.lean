import HypermediaApi.Json.Fields
import HypermediaApi.Link.Route
import HypermediaApi.Parameters

/-!
# HypermediaApi.Link.Basic — hypermedia links

Links as clients get them, and the links of the two kinds of answer. An item links to itself, with the field
list of the request, and to its deletion. A page of a collection links to itself and to its neighbours as
far as they exist, every link carrying all parameters of the request.
-/

namespace HypermediaApi

variable {φ : Type}

/-- A hypermedia link. -/
structure Link where
  href : String
  rel : String
  method : String
  deriving DecidableEq, Repr

def Link.toJson (l : Link) : Json :=
  .object [("href", .string l.href), ("rel", .string l.rel), ("method", .string l.method)]

def Link.ofTree? (t : Json.Tree) : Option Link := do
  let fields ← t.fields? ["href", "rel", "method"] 3
  some {
    href := ← fields.required "href" (·.string?)
    rel := ← fields.required "rel" (·.string?)
    method := ← fields.required "method" (·.string?) }

/-- Links in order. -/
abbrev LinkSet := List Link

namespace LinkSet

/-- The first link of that relation. -/
def withRel? (links : LinkSet) (rel : String) : Option Link := links.find? (·.rel == rel)

def toJson (links : LinkSet) : Json := .array (links.map Link.toJson)

def ofTree? (t : Json.Tree) : Option LinkSet := t.list? Link.ofTree?

end LinkSet

/-- The links of one resource: its routes in a table. -/
structure LinkBuilder where
  table : RouteTable
  routes : ResourceRoutes

namespace LinkBuilder

/-- The URI of a route, a fault being one of the library's failures. -/
def uri (b : LinkBuilder) (route : String) (params : List (String × String)) : Except Failure String :=
  (b.table.render route params).mapError fun fault => .route fault.message

/-- The URI of an item. -/
def itemUri (b : LinkBuilder) (id : String) : Except Failure String := b.uri b.routes.item [("id", id)]

/-- The links of an item: to itself with the field list, unless that is blank, and to its deletion. -/
def forItem (b : LinkBuilder) (id : String) (fields : Option String) : Except Failure LinkSet := do
  let selection := Parameters.optionalPair "fields" (fields.filter (! Text.isBlankText ·))
  let self ← b.uri b.routes.item (("id", id) :: selection)
  let delete ← b.uri b.routes.delete [("id", id)]
  .ok [⟨self, "self", "GET"⟩, ⟨delete, b.routes.delete, "DELETE"⟩]

variable [Filter φ]

/-- The URI of the page at an index of a request. -/
def collectionUri (b : LinkBuilder) (p : Parameters φ) (index : Int64) : Except Failure String :=
  b.uri b.routes.collection (p.queryPairs index)

/-- The URI of the page at an index of a request, if there is such a page. -/
def neighbourUri (b : LinkBuilder) (p : Parameters φ) (present : Bool) (index : Int64) :
    Except Failure (Option String) :=
  if present then (b.collectionUri p index).map some else .ok none

/-- A link to a neighbouring page, if it has a URI. -/
def neighbourLink (rel : String) : Option String → LinkSet
  | some href => [⟨href, rel, "GET"⟩]
  | none => []

/-- The links of a page: to itself, to the page before and to the page after, as far as they exist. -/
def forCollection (b : LinkBuilder) (p : Parameters φ) (hasPrevious hasNext : Bool) :
    Except Failure LinkSet := do
  let self ← b.collectionUri p p.pageIndex
  let previous ← b.neighbourUri p hasPrevious (p.pageIndex - 1)
  let next ← b.neighbourUri p hasNext (p.pageIndex + 1)
  .ok (⟨self, "self", "GET"⟩ :: (neighbourLink "previous_page" previous ++ neighbourLink "next_page" next))

end LinkBuilder

end HypermediaApi
