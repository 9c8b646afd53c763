import Mathlib.Data.List.Forall2
import HypermediaApi.Proofs.Link.Following
import HypermediaApi.Proofs.Page.Figures

/-!
# HypermediaApi.Proofs.Link.Carrying — the links of a page carry the request

A page of a collection links to itself and to its neighbours, in this order and as far as they exist
(`linkedPages`). Each of these links is the address of the collection and a query, and the query says what the request
said: taken apart it is the pairs of the request for that page, and read again these make a request that differs from
the first one in the page alone (`Link.IsToPage`).

`forCollection_isToPage` says so of every collection that a route leads to, at whatever path, and every request whose
neighbours have an index. When two filters count as equivalent is left open here.
-/

namespace HypermediaApi

variable {φ : Type}

/-- The second request asks for a page of what the first one asks for. -/
structure Parameters.SameButPage (equivalent : φ → φ → Prop) (p q : Parameters φ) : Prop where
  pageSize : q.pageSize = p.pageSize
  orderBy : q.orderBy = p.orderBy
  fields : q.fields = p.fields
  filter : equivalent q.filter p.filter

/-- The pages that a page links to, by relation and index. -/
def linkedPages (index : Int) (hasPrevious hasNext : Bool) : List (String × Int) :=
  ("self", index) :: ((if hasPrevious then [("previous_page", index - 1)] else []) ++
    if hasNext then [("next_page", index + 1)] else [])

/-- The neighbours that exist have an index of 64 bits. -/
def Parameters.HasNeighbours (p : Parameters φ) (hasPrevious hasNext : Bool) : Prop :=
  (hasPrevious = true → Int64.minValue.toInt ≤ p.pageIndex.toInt - 1) ∧
    (hasNext = true → p.pageIndex.toInt + 1 ≤ Int64.maxValue.toInt)

variable [Filter φ]

/-- The link has the relation and leads to the page at the index of what is asked for at a path below a base URL. Its
query, cut at `&` and then at the first `=` and decoded, is the pairs of the request for that page, and these make a
request that differs in the page alone. -/
structure Link.IsToPage (equivalent : φ → φ → Prop) (url path : String) (p : Parameters φ) (page : String × Int)
    (l : Link) : Prop where
  rel_eq : l.rel = page.1
  method_eq : l.method = "GET"
  carries : ∃ (index : Int64) (query : String), index.toInt = page.2 ∧
    l.href = Text.dropEnd '/' url ++ Text.dropEnd '/' path ++ "?" ++ query ∧
    Query.pairs? query = some (p.queryPairs index) ∧
    ∃ q, Parameters.ofQueryPairs? (p.queryPairs index) = some q ∧ q.pageIndex = index ∧ p.SameButPage equivalent q

variable {equivalent : φ → φ → Prop}

/-- The request for a page of the same collection differs in the page alone. -/
theorem Parameters.sameButPage_atPage
    (hequivalent : ∀ f : φ, equivalent (Filter.ofPairs (Filter.queryPairs f)) f) (p : Parameters φ) (index : Int64) :
    p.SameButPage equivalent (p.atPage index) where
  pageSize := rfl
  orderBy := p.atPage_orderBy index
  fields := p.atPage_fields index
  filter := hequivalent p.filter

namespace LinkBuilder

variable [LawfulFilter φ] {b : LinkBuilder} {url path : String}

theorem isToPage_pageUri (hequivalent : ∀ f : φ, equivalent (Filter.ofPairs (Filter.queryPairs f)) f)
    (hurl : b.table.baseUrl = Text.dropEnd '/' url) (p : Parameters φ) {rel : String} {index : Int64} {i : Int}
    (hindex : index.toInt = i) :
    Link.IsToPage equivalent url path p (rel, i) ⟨pageUri b.table path p index, rel, "GET"⟩ where
  rel_eq := rfl
  method_eq := rfl
  carries := by
    have hplain : ∀ q ∈ p.queryPairs index, Query.PlainName q.1 := fun q hq =>
      Parameters.plainName_of_mem_queryPairs hq
    refine ⟨index, RouteTable.queryText (p.queryPairs index), hindex, ?_, Query.pairs?_queryText hplain,
      p.atPage index, Parameters.ofQueryPairs?_queryPairs p index, rfl, ?_⟩
    · rw [← hurl]
      rfl
    · exact p.sameButPage_atPage hequivalent index

/-- **A page links to itself and to its neighbours, and each link carries the request.** -/
theorem forCollection_isToPage (hequivalent : ∀ f : φ, equivalent (Filter.ofPairs (Filter.queryPairs f)) f)
    (hurl : b.table.baseUrl = Text.dropEnd '/' url)
    (hroute : b.table.routes.get? b.routes.collection = some (Text.dropEnd '/' path))
    (hpath : '\x7b' ∉ path.toList) {p : Parameters φ} {hasPrevious hasNext : Bool}
    (h : p.HasNeighbours hasPrevious hasNext) :
    ∃ links, b.forCollection p hasPrevious hasNext = .ok links ∧
      List.Forall₂ (Link.IsToPage equivalent url path p) (linkedPages p.pageIndex.toInt hasPrevious hasNext)
        links := by
  refine ⟨_, forCollection_of_route hroute hpath p hasPrevious hasNext, ?_⟩
  have hlink {rel : String} {index : Int64} {i : Int} (hindex : index.toInt = i) :
      Link.IsToPage equivalent url path p (rel, i) ⟨pageUri b.table path p index, rel, "GET"⟩ :=
    isToPage_pageUri hequivalent hurl p hindex
  refine .cons (hlink rfl) (List.rel_append ?_ ?_)
  · cases hasPrevious with
    | false => exact .nil
    | true => exact .cons (hlink (toInt_sub_one (h.1 rfl))) .nil
  · cases hasNext with
    | false => exact .nil
    | true => exact .cons (hlink (toInt_add_one_of_le (h.2 rfl))) .nil

end LinkBuilder

end HypermediaApi
