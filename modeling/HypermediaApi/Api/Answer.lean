import HypermediaApi.Api.Error
import HypermediaApi.Link.Basic
import HypermediaApi.Page
import HypermediaApi.Selection

/-!
# HypermediaApi.Api.Answer — successful answers

A single resource is answered as its record with its links beside the fields. A page is answered in one of
two forms: with the links of the items and of the page in the body, or as plain records, the links to the
neighbours in the page header. A created resource comes with its location.

In the text of a resource the links follow the fields under the key `links`. A record may itself have a
field of that name; the text then repeats the key and cannot be read back.
-/

namespace HypermediaApi

/-- A record with the links of its resource. -/
structure ShapedItem where
  record : Record
  links : LinkSet

namespace ShapedItem

/-- The key of the links. -/
def linksKey : String := "links"

/-- The item as JSON: the fields of the record in order, then the links. -/
def toJson (i : ShapedItem) : Json := .object (i.record.entries ++ [(linksKey, i.links.toJson)])

/-- The item that a part of a document holds, with room for so many nested arrays and objects. -/
def within? (room : Nat) (t : Json.Tree) : Option ShapedItem := do
  let (fields, others) ← t.mixedFields? room [linksKey]
  some {
    record := .ofList others
    links := ← fields.required linksKey LinkSet.ofTree? }

def ofTree? (t : Json.Tree) : Option ShapedItem := within? Json.nestingLimit t

/-- The response with the item. -/
def toResponse (i : ShapedItem) : Http.Response := .json 200 i.toJson

end ShapedItem

/-- The items of a page with their links and the links of the page. -/
structure ShapedPage where
  items : List ShapedItem
  links : LinkSet

namespace ShapedPage

def toJson (p : ShapedPage) : Json :=
  .object [("value", .array (p.items.map ShapedItem.toJson)), ("links", p.links.toJson)]

/-- The page that a document holds. Its items stand in two more containers, the page and their list. -/
def ofTree? (t : Json.Tree) : Option ShapedPage := do
  let fields ← t.fields? ["value", "links"] 2
  some {
    items := ← fields.required "value" (·.list? (ShapedItem.within? (Json.nestingLimit - 2)))
    links := ← fields.required "links" LinkSet.ofTree? }

end ShapedPage

def recordsToJson (records : List Record) : Json := .array (records.map Record.toJson)

/-- The answer to a refused header value. -/
def refusedHeader : Http.Response := (ApiError.internal "failed to parse header value").toResponse

/-- A body with the header of its page. -/
structure PageAnswer (β : Type) where
  body : β
  header : PageHeader

/-- The response with the page header, unless the header has a text that cannot be sent. -/
def PageAnswer.toResponse {β : Type} (toJson : β → Json) (a : PageAnswer β) : Http.Response :=
  if Http.isHeaderText a.header.text then
    (Http.Response.json 200 (toJson a.body)).withHeader PageHeader.headerName.toLower a.header.text
  else refusedHeader

/-- A created resource and where it is. -/
structure CreatedAnswer where
  location : String
  item : ShapedItem

/-- The response with the location, unless that cannot be sent. -/
def CreatedAnswer.toResponse (a : CreatedAnswer) : Http.Response :=
  if Http.isHeaderText a.location then
    (Http.Response.json 201 a.item.toJson).withHeader "location" a.location
  else refusedHeader

end HypermediaApi
