import HypermediaApi.Failure
import HypermediaApi.Json.Fields
import HypermediaApi.Json.Writer

/-!
# HypermediaApi.Page — one page of a larger result

A page is a run of items with its zero-based index, its size and the number of items on all pages. A page
exists only for an index that is not negative, a positive size and at most as many items as the size; these
are proof fields, so that the figures derived from a page never divide by zero.

The figures travel to clients as a header in JSON, with the links to the neighbouring pages where they have
no other place.
-/

namespace HypermediaApi

variable {α β : Type}

/-- The window of a result that a storage is asked for. -/
structure Window where
  offset : UInt64
  limit : UInt64
  deriving DecidableEq, Repr

/-- The greatest unsigned number of 64 bits, at which counts stop growing. -/
def countLimit : Nat := UInt64.size - 1

/-- The window of a page; an offset beyond the counts is cut to the greatest count. -/
def Window.ofPage (index size : UInt64) : Window where
  offset := .ofNat (min (index.toNat * size.toNat) countLimit)
  limit := size

/-- The items in the window. -/
def Window.slice (w : Window) (xs : List α) : List α := (xs.drop w.offset.toNat).take w.limit.toNat

/-- One page of a result. -/
structure Page (α : Type) where
  index : Int64
  size : Int64
  /-- The number of items on all pages. -/
  total : UInt64
  items : List α
  index_nonneg : 0 ≤ index
  size_pos : 0 < size
  length_items_le : items.length ≤ size.toInt.toNat

namespace Page

/-- The page with these figures, or the first reason why it cannot exist. -/
def make (index size : Int64) (total : UInt64) (items : List α) : Except PageFault (Page α) :=
  if hi : 0 ≤ index then
    if hs : 0 < size then
      if hl : items.length ≤ size.toInt.toNat then .ok ⟨index, size, total, items, hi, hs, hl⟩
      else .error (.overfull items.length size)
    else .error (.sizeNotPositive size)
  else .error (.negativeIndex index)

/-- The page size as a natural number. -/
def width (p : Page α) : Nat := p.size.toInt.toNat

/-- The number of pages: the total divided by the size, rounded up, in counts that stop at `countLimit`. -/
def pageCount (p : Page α) : UInt64 :=
  .ofNat (min (p.total.toNat + (p.width - 1)) countLimit / p.width)

/-- There is a page before this one. -/
def hasPrevious (p : Page α) : Bool := 0 < p.index

/-- There is a page after this one. -/
def hasNext (p : Page α) : Bool := p.index.toInt + 1 < (p.pageCount.toNat : Int)

/-- The page with every item mapped. -/
def map (f : α → β) (p : Page α) : Page β :=
  { p with items := p.items.map f, length_items_le := by simpa using p.length_items_le }

end Page

/-- The figures of a page, and links to its neighbours where the body has none. -/
structure PageHeader where
  size : Int64
  index : Int64
  total : UInt64
  pageCount : UInt64
  previous : Option String := none
  next : Option String := none
  deriving DecidableEq, Repr

namespace PageHeader

/-- The name of the header. -/
def headerName : String := "X-Pagination"

/-- The header with other links. -/
def withLinks (h : PageHeader) (previous next : Option String) : PageHeader :=
  { h with previous, next }

def toJson (h : PageHeader) : Json :=
  .object ([("pageSize", .int h.size.toInt), ("pageIndex", .int h.index.toInt),
    ("totalItemsCount", .nat h.total.toNat), ("pageCount", .nat h.pageCount.toNat)] ++
    Json.optionalMember "previousPageLink" h.previous ++ Json.optionalMember "nextPageLink" h.next)

/-- The text of the header. -/
def text (h : PageHeader) : String := h.toJson.render

/-- The header that a JSON document holds; in the form of an array all six parts are needed. -/
def ofTree? (t : Json.Tree) : Option PageHeader := do
  let fields ← t.fields?
    ["pageSize", "pageIndex", "totalItemsCount", "pageCount", "previousPageLink", "nextPageLink"] 6
  some {
    size := ← fields.required "pageSize" (·.int64?)
    index := ← fields.required "pageIndex" (·.int64?)
    total := ← fields.required "totalItemsCount" (·.uint64?)
    pageCount := ← fields.required "pageCount" (·.uint64?)
    previous := ← fields.optional "previousPageLink" (·.string?)
    next := ← fields.optional "nextPageLink" (·.string?) }

end PageHeader

/-- The figures of the page, without links. -/
def Page.header (p : Page α) : PageHeader where
  size := p.size
  index := p.index
  total := p.total
  pageCount := p.pageCount

end HypermediaApi
