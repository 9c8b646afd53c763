import HypermediaApi.Proofs.Link.Mount
import Mathlib.Data.List.Basic
import Mathlib.Data.List.TakeWhile

/-!
# HypermediaApi.Proofs.Link.Following — from a link back to a request

A client follows a link by sending the request that its query makes. The query of a URI stands between its first
question mark and its fragment, which begins at the first number sign (`Query.ofUri?`). Its pairs are taken apart
by the functions that read any query, and `Link.request?` puts them together to a request.

A query that was built here holds no number sign, whatever its values, and in front of it there is neither mark in
what was built here. A base URL may hold both, though. So the query is found by a client that reads what follows
the base URL, and by one that reads the whole link if the base URL holds neither mark. Both are clients that read
on from some start of the base URL, and all that matters is the rest of it (`RouteTable.ReadableFrom`).

A link to an item carries no more than the field list of the request, and no query if there is none;
`Query.fieldList?` reads it off.
-/

namespace HypermediaApi

namespace Query

/-! ### The query of a URI -/

/-- The text holds neither of the marks that a query and a fragment begin with. -/
def Unmarked (s : String) : Prop := '?' ∉ s.toList ∧ '#' ∉ s.toList

instance (s : String) : Decidable (Unmarked s) := inferInstanceAs (Decidable ('?' ∉ s.toList ∧ '#' ∉ s.toList))

theorem Unmarked.append {s s' : String} (h : Unmarked s) (h' : Unmarked s') : Unmarked (s ++ s') := by
  simpa [Unmarked, String.toList_append, and_and_and_comm] using And.intro h h'

theorem Unmarked.dropEnd {s : String} (h : Unmarked s) (c : Char) : Unmarked (Text.dropEnd c s) :=
  ⟨fun hmem => h.1 (Text.mem_of_mem_dropEnd hmem), fun hmem => h.2 (Text.mem_of_mem_dropEnd hmem)⟩

theorem unmarked_encode (s : String) : Unmarked (Text.Percent.encode s) :=
  ⟨Text.Percent.not_mem_encode (by decide) (by decide) s, Text.Percent.not_mem_encode (by decide) (by decide) s⟩

/-- The query of a URI, if it has one: what follows its first question mark, up to the fragment. -/
def ofUri? (uri : String) : Option String :=
  match (uri.toList.takeWhile (· ≠ '#')).dropWhile (· ≠ '?') with
  | [] => none
  | _ :: query => some (.ofList query)

theorem ofUri?_of_unmarked {uri : String} (h : Unmarked uri) : ofUri? uri = none := by
  have hfragment : uri.toList.takeWhile (· ≠ '#') = uri.toList :=
    List.takeWhile_eq_self_iff.mpr (Text.forall_ne_of_not_mem h.2)
  have hmark : uri.toList.dropWhile (· ≠ '?') = [] := List.dropWhile_eq_nil_iff.mpr (Text.forall_ne_of_not_mem h.1)
  rw [ofUri?, hfragment, hmark]

theorem ofUri?_append {front query : String} (hfront : Unmarked front) (hquery : '#' ∉ query.toList) :
    ofUri? (front ++ "?" ++ query) = some query := by
  have hchars : (front ++ "?" ++ query).toList = front.toList ++ '?' :: query.toList := by
    simp [String.toList_append]
  have hnone : '#' ∉ front.toList ++ '?' :: query.toList := by simp [hfront.2, hquery]
  rw [ofUri?, hchars, List.takeWhile_eq_self_iff.mpr (Text.forall_ne_of_not_mem hnone),
    List.dropWhile_append_of_pos (Text.forall_ne_of_not_mem hfront.1)]
  simp

/-- The pairs that a client finds in a URI; none if it has no query. -/
def pairsOfUri? (uri : String) : Option (List (String × String)) := (ofUri? uri).elim (some []) pairs?

/-- **The pairs that a URI carries are found in it.** -/
theorem pairsOfUri?_append {front : String} (hfront : Unmarked front) {p : String × String}
    {ps : List (String × String)} (hnames : ∀ q ∈ p :: ps, PlainName q.1) :
    pairsOfUri? (front ++ "?" ++ RouteTable.queryText (p :: ps)) = some (p :: ps) := by
  rw [pairsOfUri?, ofUri?_append hfront (numberSign_not_mem_queryText hnames)]
  exact pairs?_queryText hnames

/-! ### The field list of an item -/

/-- The field list that a client finds in the query of a URI, decoded: absent if there is no query or it has no
field list. -/
def fieldList? (uri : String) : Option (Option String) := (pairsOfUri? uri).map (·.lookup "fields")

/-- **A field list that is carried in a link is found in it**, and none is found if none is carried. -/
theorem fieldList?_append {front : String} (hfront : Unmarked front) (fields : Option String) :
    fieldList? (front ++ RouteTable.querySuffix (Parameters.optionalPair "fields" fields)) = some fields := by
  cases fields with
  | none =>
    have hsuffix : RouteTable.querySuffix (Parameters.optionalPair "fields" none) = "" := rfl
    rw [fieldList?, pairsOfUri?, hsuffix, String.append_empty, ofUri?_of_unmarked hfront]
    rfl
  | some text =>
    have hnames : ∀ q ∈ [("fields", text)], PlainName q.1 := by
      intro q hq
      rw [List.mem_singleton.mp hq]
      show PlainName "fields"
      decide
    have hsuffix : RouteTable.querySuffix (Parameters.optionalPair "fields" (some text)) =
        "?" ++ RouteTable.queryText [("fields", text)] := rfl
    rw [fieldList?, hsuffix, ← String.append_assoc, pairsOfUri?_append hfront hnames]
    rfl

end Query

/-! ### The request of a page -/

/-- A client that reads on from a start of the base URL finds the queries of links: the rest of the base URL holds
neither mark. -/
def RouteTable.ReadableFrom (t : RouteTable) (start : String) : Prop :=
  ∃ rest, t.baseUrl = start ++ rest ∧ Query.Unmarked rest

/-- The whole base URL can be left out. -/
theorem RouteTable.readableFrom_baseUrl (t : RouteTable) : t.ReadableFrom t.baseUrl :=
  ⟨"", String.append_empty.symm, by decide⟩

/-- None of it has to be left out if it holds neither mark. -/
theorem RouteTable.readableFrom_empty {t : RouteTable} (h : Query.Unmarked t.baseUrl) : t.ReadableFrom "" :=
  ⟨t.baseUrl, String.empty_append.symm, h⟩

variable {φ : Type} [Filter φ]

/-- The request that a client sends when it follows a link, of which it reads what comes after the given start. -/
def Link.request? (start : String) (l : Link) : Option (Parameters φ) := do
  let reference ← l.href.toList.dropPrefix? start.toList
  let pairs ← Query.pairsOfUri? (.ofList reference)
  Parameters.ofQueryPairs? pairs

variable [LawfulFilter φ]

/-- **A link to a page leads to the request for that page.** -/
theorem request?_of_pageUri {t : RouteTable} {start path : String} (hstart : t.ReadableFrom start)
    (hpath : Query.Unmarked path) (p : Parameters φ) (index : Int64) (rel method : String) :
    (⟨LinkBuilder.pageUri t path p index, rel, method⟩ : Link).request? start = some (p.atPage index) := by
  obtain ⟨rest, hbase, hrest⟩ := hstart
  have hnames : ∀ q ∈ p.queryPairs index, Query.PlainName q.1 := fun q hq =>
    Parameters.plainName_of_mem_queryPairs hq
  have hreference : (LinkBuilder.pageUri t path p index).toList.dropPrefix? start.toList =
      some (rest ++ Text.dropEnd '/' path ++ "?" ++ RouteTable.queryText (p.queryPairs index)).toList := by
    refine List.dropPrefix?_eq_some_iff.mpr ⟨start.toList, ?_, BEq.rfl⟩
    simp [LinkBuilder.pageUri, hbase, String.toList_append]
  have hpairs : Query.pairsOfUri? (rest ++ Text.dropEnd '/' path ++ "?" ++
      RouteTable.queryText (p.queryPairs index)) = some (p.queryPairs index) :=
    Query.pairsOfUri?_append (hrest.append (hpath.dropEnd '/')) hnames
  simp only [Link.request?, hreference, Option.bind_eq_bind, Option.bind_some, String.ofList_toList, hpairs]
  exact Parameters.ofQueryPairs?_queryPairs p index

end HypermediaApi
