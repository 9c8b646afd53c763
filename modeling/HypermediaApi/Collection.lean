import HypermediaApi.Api.Answer
import HypermediaApi.Ordering.Registry
import HypermediaApi.Storage.Source

/-!
# HypermediaApi.Collection — answering requests for a collection

A collection ties together what is known of a resource: its schema and identity, how it is made from the
stored entity, the mapping for sorting, its links and its page sizes.

A request is answered in steps. The page size is resolved, the sort expression and then the field list are
checked, and only then is the source asked: first for the number of entities, then for those of the page.
The page is mapped to resources, cut to the field list and given its links.
-/

namespace HypermediaApi

variable {ε α φ : Type}

/-- What is known of a resource of type `α` made from entities of type `ε`. -/
structure Collection (ε α : Type) where
  schema : Schema α
  /-- The text of the resource's identity, for links. -/
  identify : α → String
  /-- The resource of a stored entity. -/
  present : ε → α
  types : TypePair
  registry : Registry
  links : LinkBuilder
  defaultSize : Int64 := defaultPageSize
  maxSize : Int64 := maxPageSize

namespace Collection

/-- The request with the page size in effect: the collection's own if none is given, cut to the maximum. -/
def resolve (c : Collection ε α) (p : Parameters φ) : Parameters φ :=
  (p.orPageSize c.defaultSize).capped c.maxSize

/-- Every entry of the field list is a field of the resource. -/
def checkFields (c : Collection ε α) (fields : Option String) : Except ApiError Unit :=
  if c.schema.fieldsExist fields then .ok () else .error (.badRequest ApiError.unknownFields)

/-- The steps of a request whose sort expression and field list are in order. -/
def check (c : Collection ε α) (p : Parameters φ) : Except ApiError (List SortStep) := do
  let accepted ← (c.registry.accepts c.types p.orderBy).mapError ApiError.ofFailure
  if accepted then
    c.checkFields p.fields
    (c.registry.compile c.types p.orderBy).mapError ApiError.ofFailure
  else .error (.badRequest ApiError.unknownSortFields)

/-- A reason why a page cannot exist, as clients see it. -/
def pageError (fault : PageFault) : ApiError := ApiError.ofFailure (.invalidPage fault.message)

/-- The requested page of the source. -/
def fetchPage (source : Source ε φ) (p : Parameters φ) (steps : List SortStep) :
    Except ApiError (Page ε) := do
  let window ← p.window.mapError pageError
  let total ← (source.count p.filter).mapError ApiError.ofStorage
  let items ← (source.fetch p.filter steps window).mapError ApiError.ofStorage
  (Page.make p.pageIndex p.pageSize total items).mapError pageError

/-- A resource cut to a field list, with its links. -/
def shapeItem (c : Collection ε α) (x : α) (fields : Option String) : Except ApiError ShapedItem := do
  let record ← (c.schema.select x fields).mapError ApiError.ofFailure
  let links ← (c.links.forItem (c.identify x) fields).mapError ApiError.ofFailure
  .ok { record, links }

variable [Filter φ]

/-- A page with all links in the body. -/
def shapePage (c : Collection ε α) (page : Page α) (p : Parameters φ) :
    Except ApiError (PageAnswer ShapedPage) := do
  let items ← page.items.mapM (c.shapeItem · p.fields)
  let links ← (c.links.forCollection p page.hasPrevious page.hasNext).mapError ApiError.ofFailure
  .ok { body := { items, links }, header := page.header }

/-- A page as plain records, the links to its neighbours in the header. -/
def shapePlain (c : Collection ε α) (page : Page α) (p : Parameters φ) :
    Except ApiError (PageAnswer (List Record)) := do
  let previous ← (c.links.neighbourUri p page.hasPrevious (p.pageIndex - 1)).mapError ApiError.ofFailure
  let next ← (c.links.neighbourUri p page.hasNext (p.pageIndex + 1)).mapError ApiError.ofFailure
  let records ← (c.schema.selectMany page.items p.fields).mapError ApiError.ofFailure
  .ok { body := records, header := page.header.withLinks previous next }

/-- The requested page of resources, and the request as resolved. -/
def requestedPage (c : Collection ε α) (source : Source ε φ) (p : Parameters φ) :
    Except ApiError (Page α × Parameters φ) := do
  let p := c.resolve p
  let steps ← c.check p
  let page ← fetchPage source p steps
  .ok (page.map c.present, p)

/-- The answer to a request, with all links in the body. -/
def list (c : Collection ε α) (source : Source ε φ) (p : Parameters φ) :
    Except ApiError (PageAnswer ShapedPage) := do
  let (page, p) ← c.requestedPage source p
  c.shapePage page p

/-- The answer to a request as plain records. -/
def listPlain (c : Collection ε α) (source : Source ε φ) (p : Parameters φ) :
    Except ApiError (PageAnswer (List Record)) := do
  let (page, p) ← c.requestedPage source p
  c.shapePlain page p

end Collection

end HypermediaApi
