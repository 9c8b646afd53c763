import HypermediaApi.Proofs.Link.Cutting
import HypermediaApi.Proofs.Link.Mount
import Mathlib.Data.List.Nodup

/-!
# HypermediaApi.Proofs.Link.Neighbours — several resources in one table

Resources that are mounted in one table share its route names, and a route replaces an earlier one of its name. What
a mount leaves alone is every name that is not among its own five (`get?_mount_of_not_mem`), hence the last mount with
a name among its own decides where the route leads (`get?_mountAll_of_last`).

Names of different resources differ, with one exception: the items of a resource are called as the collection of
another one is whose name lacks the final `s`. So whichever of the two is mounted last takes that route from the
other, and nothing else is lost (`mounted_routes_render`).
-/

namespace HypermediaApi

/-! ### Route names of resources -/

namespace ResourceRoutes

/-- The names of all routes of the resource. -/
def names (r : ResourceRoutes) : List String := [r.item, r.collection, r.delete, r.update, r.partialUpdate]

/-- The names of the routes that change an item. -/
def changes (r : ResourceRoutes) : List String := [r.delete, r.update, r.partialUpdate]

variable {a b : String}

/-- Routes that change an item are those of one resource only. -/
theorem mem_names_of_mem_changes {route : String} (hroute : route ∈ (ofResource a).changes) :
    route ∈ (ofResource b).names ↔ a = b := by
  simp only [changes, List.mem_cons, List.not_mem_nil, or_false] at hroute
  rcases hroute with rfl | rfl | rfl <;> simp [names, ofResource, ← String.toList_inj]

/-- The items of a resource are called as the collection of the one whose name lacks the final `s`. -/
theorem item_mem_names_iff : (ofResource a).item ∈ (ofResource b).names ↔ a = b ∨ a = b ++ "s" := by
  simp [names, ofResource, ← String.toList_inj]

/-- The collection of a resource is called as the items of the one whose name has an `s` more. -/
theorem collection_mem_names_iff : (ofResource a).collection ∈ (ofResource b).names ↔ a ++ "s" = b ∨ a = b := by
  simp [names, ofResource, ← String.toList_inj]

end ResourceRoutes

namespace RouteTable

variable {t : RouteTable} {resource route path : String}

/-! ### What a route renders -/

/-- The route renders the items at the path: the path, a slash and the encoded identity, and a query of the other
parameters. -/
def RendersItem (t : RouteTable) (route path : String) : Prop :=
  ∀ id params, params.lookup "id" = some id →
    t.render route params = .ok (t.baseUrl ++ (Text.dropEnd '/' path ++ "/" ++ Text.Percent.encode id) ++
      querySuffix (leftover ["id"] params))

/-- The route renders the collection at the path: the path itself, and a query of the parameters. -/
def RendersCollection (t : RouteTable) (route path : String) : Prop :=
  ∀ params, t.render route params =
    .ok (t.baseUrl ++ Text.dropEnd '/' path ++ querySuffix (leftover [] params))

/-- The route leads to the items at a path without an opening brace. -/
def LeadsToItems (t : RouteTable) (route path : String) : Prop :=
  t.routes.get? route = some (Text.dropEnd '/' path ++ "/\x7bid\x7d") ∧ '\x7b' ∉ path.toList

/-- The route leads to the collection at a path without an opening brace. -/
def LeadsToCollection (t : RouteTable) (route path : String) : Prop :=
  t.routes.get? route = some (Text.dropEnd '/' path) ∧ '\x7b' ∉ path.toList

theorem LeadsToItems.rendersItem (h : t.LeadsToItems route path) : t.RendersItem route path :=
  fun _ _ hid => LinkBuilder.render_of_item h.2 h.1 hid

theorem LeadsToCollection.rendersCollection (h : t.LeadsToCollection route path) : t.RendersCollection route path :=
  fun params => render_of_literal h.1 (fun hmem => h.2 (Text.mem_of_mem_dropEnd hmem)) params

/-- A route to a collection puts the identity into the query. -/
theorem LeadsToCollection.not_rendersItem (h : t.LeadsToCollection route path) (path' : String) :
    ¬ t.RendersItem route path' := by
  intro hitem
  have heq := (hitem "1" [("id", "1")] rfl).symm.trans (h.rendersCollection [("id", "1")])
  have hquery : querySuffix (leftover [] [("id", "1")]) = "?id=1" := by decide +kernel
  have hpath : querySuffix (leftover ["id"] [("id", "1")]) = "" := by decide +kernel
  have hid : Text.Percent.encode "1" = "1" := by decide +kernel
  rw [hquery, hpath, hid] at heq
  -- Read from the end, one goes on with `1=` and the other with `1/`.
  have hchars := congrArg (fun uri => uri.toList.reverse) (Except.ok.inj heq)
  simp at hchars

/-- A route to items is refused without an identity. -/
theorem LeadsToItems.not_rendersCollection (h : t.LeadsToItems route path) (path' : String) :
    ¬ t.RendersCollection route path' := by
  intro hcollection
  have hbrace : '\x7b' ∉ (Text.dropEnd '/' path ++ "/").toList := by
    rw [String.toList_append, List.mem_append, not_or]
    exact ⟨fun hmem => h.2 (Text.mem_of_mem_dropEnd hmem), by decide⟩
  have hcut : CutsInto (Text.dropEnd '/' path ++ "/\x7bid\x7d") [(Text.dropEnd '/' path ++ "/", "id")] "" := by
    have htemplate : Text.dropEnd '/' path ++ "/\x7bid\x7d" =
        Text.dropEnd '/' path ++ "/" ++ "\x7b" ++ ("id" ++ "\x7d" ++ "") := by
      simp [String.append_assoc]
    rw [htemplate]
    exact .placeholder hbrace (by decide) (.closed (by decide))
  have hfirst : [(Text.dropEnd '/' path ++ "/", "id")] = [] ++ (Text.dropEnd '/' path ++ "/", "id") :: [] := rfl
  have hrefused : t.render route [] = .error (.missingValue "id" route) :=
    render_of_missing h.1 hcut hfirst .nil rfl
  rw [hcollection []] at hrefused
  cases hrefused

/-! ### Mounting one resource -/

/-- **A mount leaves alone all routes that it has no name for.** -/
theorem get?_mount_of_not_mem {routes : ResourceRoutes} (h : route ∉ routes.names) (t : RouteTable) (path : String) :
    (t.mount routes path).routes.get? route = t.routes.get? route := by
  simp only [ResourceRoutes.names, List.mem_cons, List.not_mem_nil, or_false, not_or] at h
  obtain ⟨hitem, hcollection, hdelete, hupdate, hpartial⟩ := h
  simp only [mount, add, OrderedMap.get?_insert, hitem, hcollection, hdelete, hupdate, hpartial, if_false]

theorem get?_mount_change (h : route ∈ (ResourceRoutes.ofResource resource).changes) (t : RouteTable)
    (path : String) :
    (t.mount (.ofResource resource) path).routes.get? route = some (Text.dropEnd '/' path ++ "/\x7bid\x7d") := by
  simp only [ResourceRoutes.changes, List.mem_cons, List.not_mem_nil, or_false] at h
  rcases h with rfl | rfl | rfl <;> simp [mount, add, OrderedMap.get?_insert]

/-! ### Mounting several resources -/

/-- The table with resources mounted at paths, one after the other, under their usual route names. -/
def mountAll (t : RouteTable) (mounts : List (String × String)) : RouteTable :=
  mounts.foldl (fun t m => t.mount (.ofResource m.1) m.2) t

theorem mountAll_append (t : RouteTable) (before after : List (String × String)) :
    t.mountAll (before ++ after) = (t.mountAll before).mountAll after :=
  List.foldl_append

theorem mountAll_cons (t : RouteTable) (m : String × String) (after : List (String × String)) :
    t.mountAll (m :: after) = (t.mount (.ofResource m.1) m.2).mountAll after := rfl

@[simp] theorem baseUrl_mountAll (t : RouteTable) (mounts : List (String × String)) :
    (t.mountAll mounts).baseUrl = t.baseUrl := by
  induction mounts generalizing t with
  | nil => rfl
  | cons m rest ih => rw [mountAll_cons, ih, baseUrl_mount]

theorem get?_mountAll_of_not_mem {mounts : List (String × String)}
    (h : ∀ m ∈ mounts, route ∉ (ResourceRoutes.ofResource m.1).names) (t : RouteTable) :
    (t.mountAll mounts).routes.get? route = t.routes.get? route := by
  induction mounts generalizing t with
  | nil => rfl
  | cons m rest ih =>
    obtain ⟨hm, hrest⟩ := List.forall_mem_cons.mp h
    rw [mountAll_cons, ih hrest, get?_mount_of_not_mem hm]

/-- **The last mount that has a name for a route decides where it leads.** -/
theorem get?_mountAll_of_last {m : String × String} {after : List (String × String)}
    (hafter : ∀ m' ∈ after, route ∉ (ResourceRoutes.ofResource m'.1).names) (t : RouteTable)
    (before : List (String × String)) :
    (t.mountAll (before ++ m :: after)).routes.get? route =
      ((t.mountAll before).mount (.ofResource m.1) m.2).routes.get? route := by
  rw [mountAll_append, mountAll_cons, get?_mountAll_of_not_mem hafter]

section Mounted

variable {before after : List (String × String)} {name : String}
  (hnames : ((before ++ (name, path) :: after).map Prod.fst).Nodup)
  (hpaths : ∀ m ∈ before ++ (name, path) :: after, '\x7b' ∉ m.2.toList)

include hnames

/-- No resource is mounted a second time. -/
theorem ne_of_mem_after {m : String × String} (hm : m ∈ after) : name ≠ m.1 := by
  rw [List.map_append, List.map_cons] at hnames
  have hnot : name ∉ after.map Prod.fst := (List.nodup_cons.mp hnames.of_append_right).1
  exact fun heq => hnot (heq ▸ List.mem_map_of_mem hm)

include hpaths

theorem leadsToItems_change (hroute : route ∈ (ResourceRoutes.ofResource name).changes) :
    (t.mountAll (before ++ (name, path) :: after)).LeadsToItems route path := by
  refine ⟨?_, hpaths (name, path) (by simp)⟩
  rw [get?_mountAll_of_last, get?_mount_change hroute]
  intro m hm hmem
  exact ne_of_mem_after hnames hm ((ResourceRoutes.mem_names_of_mem_changes hroute).mp hmem)

theorem leadsToItems_item (hafter : ∀ m ∈ after, name ≠ m.1 ++ "s") :
    (t.mountAll (before ++ (name, path) :: after)).LeadsToItems (ResourceRoutes.ofResource name).item path := by
  refine ⟨?_, hpaths (name, path) (by simp)⟩
  rw [get?_mountAll_of_last, get?_mount_item]
  intro m hm hmem
  exact (ResourceRoutes.item_mem_names_iff.mp hmem).elim (ne_of_mem_after hnames hm) (hafter m hm)

theorem leadsToCollection_collection (hafter : ∀ m ∈ after, name ++ "s" ≠ m.1) :
    (t.mountAll (before ++ (name, path) :: after)).LeadsToCollection
      (ResourceRoutes.ofResource name).collection path := by
  refine ⟨?_, hpaths (name, path) (by simp)⟩
  rw [get?_mountAll_of_last, get?_mount_collection]
  intro m hm hmem
  exact (ResourceRoutes.collection_mem_names_iff.mp hmem).elim (hafter m hm) (ne_of_mem_after hnames hm)

/-- A resource that is mounted later takes the name of the items from the one whose name has an `s` more. -/
theorem exists_leadsToCollection_item {m : String × String} (hm : m ∈ after) (hname : name = m.1 ++ "s") :
    ∃ path', (t.mountAll (before ++ (name, path) :: after)).LeadsToCollection
      (ResourceRoutes.ofResource name).item path' := by
  obtain ⟨between, rest, rfl⟩ := List.append_of_mem hm
  have hmounts : before ++ (name, path) :: (between ++ m :: rest) =
      (before ++ (name, path) :: between) ++ (m.1, m.2) :: rest := by simp
  have hroute : (ResourceRoutes.ofResource name).item = (ResourceRoutes.ofResource m.1).collection := by
    rw [hname]
    exact (String.append_assoc ..).symm
  have hrest : ∀ m' ∈ rest, m.1 ++ "s" ≠ m'.1 := fun m' hm' =>
    hname ▸ ne_of_mem_after hnames (List.mem_append_right _ (List.mem_cons_of_mem _ hm'))
  rw [hmounts] at hnames hpaths ⊢
  rw [hroute]
  exact ⟨m.2, leadsToCollection_collection hnames hpaths hrest⟩

/-- A resource that is mounted later takes the name of the collection from the one whose name lacks the final `s`. -/
theorem exists_leadsToItems_collection {m : String × String} (hm : m ∈ after) (hname : m.1 = name ++ "s") :
    ∃ path', (t.mountAll (before ++ (name, path) :: after)).LeadsToItems
      (ResourceRoutes.ofResource name).collection path' := by
  obtain ⟨between, rest, rfl⟩ := List.append_of_mem hm
  have hmounts : before ++ (name, path) :: (between ++ m :: rest) =
      (before ++ (name, path) :: between) ++ (m.1, m.2) :: rest := by simp
  have hroute : (ResourceRoutes.ofResource name).collection = (ResourceRoutes.ofResource m.1).item := by
    rw [hname]
    exact String.append_assoc ..
  have hrest : ∀ m' ∈ rest, m.1 ≠ m'.1 ++ "s" := by
    intro m' hm' heq
    have hne := ne_of_mem_after hnames (List.mem_append_right between (List.mem_cons_of_mem m hm'))
    exact hne ((String.append_left_inj "s").mp (hname.symm.trans heq))
  rw [hmounts] at hnames hpaths ⊢
  rw [hroute]
  exact ⟨m.2, leadsToItems_item hnames hpaths hrest⟩

/-- **Which routes of a resource outlast its neighbours.** Of resources with different names that are mounted in one
table at paths without an opening brace, each keeps the routes that change its items, in whatever order they are
mounted. It keeps the route to its items exactly if no resource is mounted after it whose name lacks the final `s` of
its own, and the route to its collection exactly if none is mounted after it whose name is its own and an `s`. -/
theorem mounted_routes_render (t : RouteTable) :
    let routes := ResourceRoutes.ofResource name
    let table := t.mountAll (before ++ (name, path) :: after)
    table.baseUrl = t.baseUrl ∧
    (∀ route ∈ [routes.delete, routes.update, routes.partialUpdate], table.RendersItem route path) ∧
    (table.RendersItem routes.item path ↔ ∀ m ∈ after, name ≠ m.1 ++ "s") ∧
    (table.RendersCollection routes.collection path ↔ ∀ m ∈ after, m.1 ≠ name ++ "s") := by
  intro routes table
  refine ⟨baseUrl_mountAll t _, fun route hroute => ?_, ⟨fun hitem m hm hname => ?_, fun hafter => ?_⟩,
    ⟨fun hcollection m hm hname => ?_, fun hafter => ?_⟩⟩
  · exact (leadsToItems_change hnames hpaths hroute).rendersItem
  · obtain ⟨path', hleads⟩ := exists_leadsToCollection_item (t := t) hnames hpaths hm hname
    exact hleads.not_rendersItem path hitem
  · exact (leadsToItems_item hnames hpaths hafter).rendersItem
  · obtain ⟨path', hleads⟩ := exists_leadsToItems_collection (t := t) hnames hpaths hm hname
    exact hleads.not_rendersCollection path hcollection
  · exact (leadsToCollection_collection hnames hpaths fun m hm => (hafter m hm).symm).rendersCollection

end Mounted

/-- Posts between two neighbours: the one mounted after them takes the route to their collection, and the one mounted
before them nothing. -/
theorem mounted_routes_render_of_post :
    let mounts := [("pos", "/pos"), ("post", "/api/posts/"), ("posts", "/b"), ("comment", "/c")]
    let table := (RouteTable.ofBaseUrl "http://h").mountAll mounts
    (mounts.map Prod.fst).Nodup ∧ (∀ m ∈ mounts, '\x7b' ∉ m.2.toList) ∧
    table.RendersItem "get_post" "/api/posts/" ∧ table.RendersItem "delete_post" "/api/posts/" ∧
    ¬ table.RendersCollection "get_posts" "/api/posts/" := by
  intro mounts table
  let after := [("posts", "/b"), ("comment", "/c")]
  have hnames : (([("pos", "/pos")] ++ ("post", "/api/posts/") :: after).map Prod.fst).Nodup := by decide
  have hpaths : ∀ m ∈ [("pos", "/pos")] ++ ("post", "/api/posts/") :: after, '\x7b' ∉ m.2.toList := by decide
  obtain ⟨-, hchange, hitem, hcollection⟩ := mounted_routes_render hnames hpaths (.ofBaseUrl "http://h")
  exact ⟨hnames, hpaths, hitem.mpr (by decide), hchange _ List.mem_cons_self, mt hcollection.mp (by decide)⟩

/-- A resource named like another one and an `s` takes the route to the collection of that one. -/
theorem later_mount_takes_collection :
    let mounts := [("post", "/api/posts"), ("posts", "/b")]
    let table := (RouteTable.ofBaseUrl "http://h").mountAll mounts
    (mounts.map Prod.fst).Nodup ∧ (∀ m ∈ mounts, '\x7b' ∉ m.2.toList) ∧ ("post", "/api/posts") ∈ mounts ∧
    ¬ table.RendersCollection (ResourceRoutes.ofResource "post").collection "/api/posts" ∧
    table.render "get_posts" [] = .error (.missingValue "id" "get_posts") := by
  intro mounts table
  have hrefused : table.render "get_posts" [] = .error (.missingValue "id" "get_posts") := by decide +kernel
  refine ⟨by decide, by decide, List.mem_cons_self, fun hcollection => ?_, hrefused⟩
  have hrendered := hcollection []
  rw [show (ResourceRoutes.ofResource "post").collection = "get_posts" from rfl, hrefused] at hrendered
  cases hrendered

end RouteTable

end HypermediaApi
