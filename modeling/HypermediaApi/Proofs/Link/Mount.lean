import HypermediaApi.Link.Basic
import HypermediaApi.Proofs.Link.Template
import HypermediaApi.Proofs.Parameters.Query
import HypermediaApi.Proofs.Traversal

/-!
# HypermediaApi.Proofs.Link.Mount — the links of a mounted resource

Mounting a resource under its usual route names puts five routes into the table: the collection at the path
itself and the others at the path and a placeholder for the identity. The names are pairwise different, so
every route is still there after the last one has been added (`get?_mount_collection`, `get?_mount_item`,
`get?_mount_delete`).

With the routes known, every link of the resource has a URI: `forItem_ofMount` and `forCollection_ofMount`
write them out for any base URL and any path without an opening brace.
-/

namespace HypermediaApi

/-! ### Route names -/

/-- The routes of a resource are not confused with each other. -/
theorem ResourceRoutes.names_ne (resource : String) :
    let r := ResourceRoutes.ofResource resource
    r.item ≠ r.collection ∧ r.collection ≠ r.delete ∧ r.collection ≠ r.update ∧
      r.collection ≠ r.partialUpdate := by
  refine ⟨?_, ?_, ?_, ?_⟩ <;> intro h <;>
    have hchars := congrArg String.toList h <;>
    simp [ofResource, String.toList_append] at hchars

namespace RouteTable

variable (t : RouteTable) (resource path : String)

/-- The collection of a mounted resource is at the path itself, unless another route takes its name. -/
theorem get?_mount_collection_of_ne {routes : ResourceRoutes} (hdelete : routes.collection ≠ routes.delete)
    (hupdate : routes.collection ≠ routes.update) (hpartial : routes.collection ≠ routes.partialUpdate) :
    (t.mount routes path).routes.get? routes.collection = some (Text.dropEnd '/' path) := by
  simp [mount, add, OrderedMap.get?_insert, hdelete, hupdate, hpartial]

theorem get?_mount_collection :
    (t.mount (.ofResource resource) path).routes.get? (ResourceRoutes.ofResource resource).collection =
      some (Text.dropEnd '/' path) := by
  obtain ⟨-, hdelete, hupdate, hpartial⟩ := ResourceRoutes.names_ne resource
  exact t.get?_mount_collection_of_ne path hdelete hupdate hpartial

theorem get?_mount_item :
    (t.mount (.ofResource resource) path).routes.get? (ResourceRoutes.ofResource resource).item =
      some (Text.dropEnd '/' path ++ "/\x7bid\x7d") := by
  obtain ⟨hitem, -, -, -⟩ := ResourceRoutes.names_ne resource
  simp [mount, add, OrderedMap.get?_insert, hitem]

theorem get?_mount_delete :
    (t.mount (.ofResource resource) path).routes.get? (ResourceRoutes.ofResource resource).delete =
      some (Text.dropEnd '/' path ++ "/\x7bid\x7d") := by
  simp [mount, add, OrderedMap.get?_insert]

@[simp] theorem baseUrl_mount (routes : ResourceRoutes) : (t.mount routes path).baseUrl = t.baseUrl := rfl

end RouteTable

theorem Text.mem_of_mem_dropEnd {c d : Char} {s : String} (h : c ∈ (Text.dropEnd d s).toList) :
    c ∈ s.toList := by
  unfold Text.dropEnd at h
  rw [String.toList_ofList, List.mem_reverse] at h
  exact List.mem_reverse.mp ((List.dropWhile_sublist _).mem h)

/-! ### Links -/

namespace LinkBuilder

/-- The links of a resource mounted under its usual route names. -/
def ofMount (t : RouteTable) (resource path : String) : LinkBuilder where
  table := t.mount (.ofResource resource) path
  routes := .ofResource resource

variable {t : RouteTable} {resource path : String}

/-- The path of an item of the resource, encoded. -/
def itemPath (path id : String) : String := Text.dropEnd '/' path ++ "/" ++ Text.Percent.encode id

/-- A route to the items at a path renders to the path of the item, and a query of the other parameters. -/
theorem render_of_item {route id : String} {params : List (String × String)} (hpath : '\x7b' ∉ path.toList)
    (hroute : t.routes.get? route = some (Text.dropEnd '/' path ++ "/\x7bid\x7d"))
    (hid : params.lookup "id" = some id) :
    t.render route params =
      .ok (t.baseUrl ++ itemPath path id ++ RouteTable.querySuffix (RouteTable.leftover ["id"] params)) := by
  have hbrace : '\x7b' ∉ (Text.dropEnd '/' path ++ "/").toList := by
    rw [String.toList_append, List.mem_append, not_or]
    exact ⟨fun h => hpath (Text.mem_of_mem_dropEnd h), by decide⟩
  -- The template as the path, a brace, the name and a brace, the form in which it is scanned.
  have htemplate : Text.dropEnd '/' path ++ "/\x7bid\x7d" =
      Text.dropEnd '/' path ++ "/" ++ "\x7b" ++ "id" ++ "\x7d" := by
    simp [String.append_assoc]
  rw [htemplate] at hroute
  unfold itemPath
  rw [RouteTable.render_of_placeholder hroute hbrace (by decide) hid]
  simp [String.append_assoc]

theorem uri_ofMount_of_item {route : String} (hpath : '\x7b' ∉ path.toList)
    (hroute : (t.mount (.ofResource resource) path).routes.get? route =
      some (Text.dropEnd '/' path ++ "/\x7bid\x7d"))
    (id : String) (params : List (String × String)) :
    (ofMount t resource path).uri route (("id", id) :: params) =
      .ok (t.baseUrl ++ itemPath path id ++
        RouteTable.querySuffix (RouteTable.leftover ["id"] (("id", id) :: params))) := by
  unfold uri ofMount
  rw [render_of_item hpath hroute rfl]
  rfl

/-- The location of an item of a mounted resource. -/
theorem itemUri_ofMount (hpath : '\x7b' ∉ path.toList) (id : String) :
    (ofMount t resource path).itemUri id = .ok (t.baseUrl ++ itemPath path id) := by
  have huri := uri_ofMount_of_item hpath (t.get?_mount_item resource path) id []
  simpa [itemUri, ofMount, RouteTable.leftover, RouteTable.querySuffix] using huri

/-- The parameter for a field list that is not blank is never left out of a query. -/
theorem leftover_selection (id : String) (fields : Option String) :
    RouteTable.leftover ["id"] (("id", id) ::
        Parameters.optionalPair "fields" (fields.filter (! Text.isBlankText ·))) =
      Parameters.optionalPair "fields" (fields.filter (! Text.isBlankText ·)) := by
  have hkept : ∀ q ∈ Parameters.optionalPair "fields" (fields.filter (! Text.isBlankText ·)),
      (!(List.contains ["id"] q.1) && !q.2.isEmpty) = true := by
    intro q hq
    have hvalue := Parameters.ne_empty_of_mem_optionalPair hq
    have hname := Parameters.eq_name_of_mem_optionalPair hq
    simp [hname, hvalue]
  unfold RouteTable.leftover
  rw [List.filter_cons_of_neg (by simp)]
  exact List.filter_eq_self.mpr hkept

/-- **The links of an item of a mounted resource**: to itself with the field list, and to its deletion. -/
theorem forItem_ofMount (hpath : '\x7b' ∉ path.toList) (id : String) (fields : Option String) :
    (ofMount t resource path).forItem id fields =
      .ok [⟨t.baseUrl ++ itemPath path id ++ RouteTable.querySuffix
            (Parameters.optionalPair "fields" (fields.filter (! Text.isBlankText ·))), "self", "GET"⟩,
        ⟨t.baseUrl ++ itemPath path id, "delete_" ++ resource, "DELETE"⟩] := by
  have hself := uri_ofMount_of_item hpath (t.get?_mount_item resource path) id
    (Parameters.optionalPair "fields" (fields.filter (! Text.isBlankText ·)))
  have hdelete := uri_ofMount_of_item hpath (t.get?_mount_delete resource path) id []
  rw [leftover_selection] at hself
  unfold forItem
  simp only [show (ofMount t resource path).routes = .ofResource resource from rfl, hself, hdelete, bind,
    Except.bind]
  simp [RouteTable.leftover, RouteTable.querySuffix, ResourceRoutes.ofResource]

/-! ### Links of a page -/

variable {φ : Type} [Filter φ]

/-- The URI of the page at an index of a request: the path, and a query that carries all parameters. -/
def pageUri (t : RouteTable) (path : String) (p : Parameters φ) (index : Int64) : String :=
  t.baseUrl ++ Text.dropEnd '/' path ++ "?" ++ RouteTable.queryText (p.queryPairs index)

/-- The links of a page of a mounted resource. -/
def pageLinks (t : RouteTable) (path : String) (p : Parameters φ) (hasPrevious hasNext : Bool) : LinkSet :=
  ⟨pageUri t path p p.pageIndex, "self", "GET"⟩ ::
    (neighbourLink "previous_page" (if hasPrevious then some (pageUri t path p (p.pageIndex - 1)) else none) ++
      neighbourLink "next_page" (if hasNext then some (pageUri t path p (p.pageIndex + 1)) else none))

/-- A page links to a next page exactly if there is one. -/
theorem withRel?_pageLinks_next (t : RouteTable) (path : String) (p : Parameters φ)
    (hasPrevious hasNext : Bool) :
    (pageLinks t path p hasPrevious hasNext).withRel? "next_page" =
      if hasNext then some ⟨pageUri t path p (p.pageIndex + 1), "next_page", "GET"⟩ else none := by
  cases hasPrevious <;> cases hasNext <;> rfl

/-- A page links to a page before it exactly if there is one. -/
theorem withRel?_pageLinks_previous (t : RouteTable) (path : String) (p : Parameters φ)
    (hasPrevious hasNext : Bool) :
    (pageLinks t path p hasPrevious hasNext).withRel? "previous_page" =
      if hasPrevious then some ⟨pageUri t path p (p.pageIndex - 1), "previous_page", "GET"⟩ else none := by
  cases hasPrevious <;> cases hasNext <;> rfl

variable [LawfulFilter φ]

theorem leftover_queryPairs (p : Parameters φ) (index : Int64) :
    RouteTable.leftover [] (p.queryPairs index) = p.queryPairs index := by
  unfold RouteTable.leftover
  rw [List.filter_eq_self]
  intro q hq
  have hvalue := Parameters.ne_empty_of_mem_queryPairs hq
  simp [hvalue]

section Collection

variable {b : LinkBuilder} (hroute : b.table.routes.get? b.routes.collection = some (Text.dropEnd '/' path))
  (hpath : '\x7b' ∉ path.toList)

include hroute hpath

/-- **Every page of a collection has a URI**, if the collection is at a path without an opening brace. -/
theorem collectionUri_of_route (p : Parameters φ) (index : Int64) :
    b.collectionUri p index = .ok (pageUri b.table path p index) := by
  have hbrace : '\x7b' ∉ (Text.dropEnd '/' path).toList := fun h => hpath (Text.mem_of_mem_dropEnd h)
  have hsuffix : RouteTable.querySuffix (p.queryPairs index) =
      "?" ++ RouteTable.queryText (p.queryPairs index) := rfl
  unfold collectionUri uri pageUri
  rw [RouteTable.render_of_literal hroute hbrace, leftover_queryPairs, hsuffix]
  simp [String.append_assoc]

theorem neighbourUri_of_route (p : Parameters φ) (present : Bool) (index : Int64) :
    b.neighbourUri p present index = .ok (if present then some (pageUri b.table path p index) else none) := by
  unfold neighbourUri
  rw [collectionUri_of_route hroute hpath]
  cases present <;> rfl

/-- **Every page of a collection has its links.** -/
theorem forCollection_of_route (p : Parameters φ) (hasPrevious hasNext : Bool) :
    b.forCollection p hasPrevious hasNext = .ok (pageLinks b.table path p hasPrevious hasNext) := by
  unfold forCollection
  rw [collectionUri_of_route hroute hpath, neighbourUri_of_route hroute hpath, neighbourUri_of_route hroute hpath]
  rfl

end Collection

theorem neighbourUri_ofMount (hpath : '\x7b' ∉ path.toList) (p : Parameters φ) (present : Bool)
    (index : Int64) :
    (ofMount t resource path).neighbourUri p present index =
      .ok (if present then some (pageUri t path p index) else none) :=
  neighbourUri_of_route (t.get?_mount_collection resource path) hpath p present index

theorem forCollection_ofMount (hpath : '\x7b' ∉ path.toList) (p : Parameters φ)
    (hasPrevious hasNext : Bool) :
    (ofMount t resource path).forCollection p hasPrevious hasNext =
      .ok (pageLinks t path p hasPrevious hasNext) :=
  forCollection_of_route (t.get?_mount_collection resource path) hpath p hasPrevious hasNext

end LinkBuilder

end HypermediaApi
