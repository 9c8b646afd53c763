import HypermediaApi.Proofs.Blog.Reading
import HypermediaApi.Proofs.Collection.Items
import HypermediaApi.Proofs.Collection.Representations
import HypermediaApi.Proofs.Collection.Walk

/-!
# HypermediaApi.Proofs.Blog.Answers — what answers about posts have in common

The same posts are shown in three ways: as a page with links, as a page of plain records, and one by one. The two
kinds of page agree (`list_alike_listPlain`), and an item of a page is what the request for its post answers with,
which is also where its own link leads (`self_links_lead_back`). The general theory is that of wired collections;
what posts add to it is that identities are told apart by their texts, which need no encoding in a path.
-/

namespace HypermediaApi.Blog

namespace PostResource

theorem idText_inj {a b : Int32} : idText a = idText b ↔ a = b := by
  unfold idText
  rw [Text.toString_int_inj, Int32.toInt_inj]

/-- The text of an identity stands for itself in a URI. -/
theorem encode_idText (id : Int32) : Text.Percent.encode (idText id) = idText id := by
  refine Text.Percent.encode_of_unreserved fun c hc => ?_
  rcases Text.isDigit_or_minus_of_mem_toString hc with hdigit | rfl
  · simp [Text.Percent.isUnreserved, Char.isAlphanum, hdigit]
  · decide

/-- The path of a post. -/
theorem itemPath_idText (id : Int32) : LinkBuilder.itemPath postsPath (idText id) = "/api/posts/" ++ idText id := by
  unfold LinkBuilder.itemPath
  rw [encode_idText]
  rfl

end PostResource

namespace PostService

variable {settings : Settings} {store : PostStore} {p : Parameters PostFilter}

/-- **The two representations of a list of posts agree.** Whatever is stored, configured and asked for, a request is
answered with the same page in both or refused with the same error in both. -/
theorem list_alike_listPlain (settings : Settings) (store : PostStore) (p : Parameters PostFilter) :
    Alike SamePage ((wired settings store).list p) ((wired settings store).listPlain p) :=
  ((wired_posts settings store).alike_list store.source p).mapError (·.withOperation .list)

/-! ### Items and their posts -/

/-- **The items of an answer are those of posts that are stored**, each shaped as it would be by itself. -/
theorem exists_posts_of_list (hstore : store.Reachable) {answer : PageAnswer ShapedPage}
    (h : (wired settings store).list p = .ok answer) :
    PostResource.schema.Covers p.givenFields ∧ ∃ posts : List Post,
      (∀ post ∈ posts, store.find? post.id = some post) ∧ (posts.map Post.id).Nodup ∧
      List.Forall₂ (fun post item =>
        (wired settings store).collection.shapeItem (.ofPost post) p.fields = .ok item)
        posts answer.body.items := by
  cases hfault : listFault? settings p with
  | some reason =>
    rw [list_of_listFault? hfault] at h
    cases h
  | none =>
  obtain ⟨horder, hfields, hi, hs⟩ := listFault?_eq_none_iff.mp hfault
  obtain ⟨steps, -, hp⟩ := @exists_answerable settings store p horder hfields hs
  obtain ⟨items, hitems, hlist⟩ := (wired_posts settings store).list_eq_ok hp hi PostFilter.passes store.posts
  obtain rfl := Except.ok.inj ((list_of_collection_ok hlist).symm.trans h)
  -- The posts of the page are a part of the matching posts, which are a part of those that are stored.
  let matching := store.posts.filter (PostFilter.passes p.filter)
  let page := Page.cut p.pageIndex ((wired settings store).collection.size p) hi hp.size_pos
    (arrange steps postMapping.identity matching)
  have hpage : page.items.Sublist (arrange steps postMapping.identity matching) := Page.cut_items_sublist
  have hperm := arrange_perm steps postMapping.identity matching
  refine ⟨hfields, page.items, ?_, ?_, ?_⟩
  · intro post hpost
    have hmatching : post ∈ matching := hperm.subset (hpage.subset hpost)
    exact PostStore.find?_of_mem_posts hstore.keyed (List.mem_filter.mp hmatching).1
  · have hmatching : (matching.map Post.id).Nodup :=
      (PostStore.nodup_ids hstore.keyed).sublist (List.filter_sublist.map Post.id)
    exact ((hperm.map Post.id).nodup_iff.mpr hmatching).sublist (hpage.map Post.id)
  · rw [← List.forall₂_map_right_iff (f := Except.ok), ← List.forall₂_map_left_iff, List.forall₂_eq_eq_eq]
    exact hitems.symm

/-- An item that is shaped with the field list of a request is what the request for its post answers with, whether
that hands on the list as it was given or a list that is not blank. -/
theorem get_of_shapeItem (hfields : PostResource.schema.Covers p.givenFields) {post : Post}
    (hpost : store.find? post.id = some post) {item : ShapedItem}
    (hitem : (wired settings store).collection.shapeItem (.ofPost post) p.fields = .ok item) :
    (wired settings store).get post.id p.givenFields = .ok item ∧
      (wired settings store).get post.id p.fields = .ok item := by
  have hgiven : (wired settings store).collection.shapeItem (.ofPost post) p.givenFields = .ok item := by
    rw [← Collection.shapeItem_filter_not_blank]
    exact hitem
  have hfields' : PostResource.schema.Covers p.fields := fieldsExist_schema.mp (fieldsExist_fields.mpr hfields)
  obtain ⟨i, hshape, hget⟩ := @exists_get_eq_ok settings store _ hfields _ _ hpost
  obtain ⟨j, hshape', hget'⟩ := @exists_get_eq_ok settings store _ hfields' _ _ hpost
  obtain rfl := Except.ok.inj (hshape.symm.trans hgiven)
  obtain rfl := Except.ok.inj (hshape'.symm.trans hitem)
  exact ⟨hget, hget'⟩

/-- The item stands for the post, and its link leads back to it. The item is the answer to the request for the post
with the field list that was given. Its link names the post by its identity, below the base URL, and carries a field
list that makes for the same answer; that list is read off what follows the base URL, and off the whole link where
the base URL itself does not look like one with a query or a fragment. -/
structure LeadsBack (settings : Settings) (store : PostStore) (p : Parameters PostFilter) (post : Post)
    (item : ShapedItem) : Prop where
  stored : store.find? post.id = some post
  get_given : (wired settings store).get post.id p.givenFields = .ok item
  self_link : ∃ self reference query, item.links.withRel? "self" = some self ∧
    self.href = Text.dropEnd '/' settings.service.baseUrl ++ reference ∧
    reference = "/api/posts/" ++ toString post.id.toInt ++ query ∧
    Query.fieldList? reference = some p.fields ∧
    (Query.Unmarked settings.service.baseUrl → Query.fieldList? self.href = some p.fields)
  get_carried : (wired settings store).get post.id p.fields = .ok item

/-- The reference of a post, with the parts that it is made of. -/
theorem itemReference_idText (id : Int32) (fields : Option String) :
    LinkBuilder.itemReference postsPath (PostResource.idText id) fields =
      "/api/posts/" ++ toString id.toInt ++
        RouteTable.querySuffix (Parameters.optionalPair "fields" (fields.filter (! Text.isBlankText ·))) := by
  unfold LinkBuilder.itemReference
  rw [PostResource.itemPath_idText]
  rfl

theorem leadsBack_of_shapeItem (hfields : PostResource.schema.Covers p.givenFields) {post : Post}
    (hpost : store.find? post.id = some post) {item : ShapedItem}
    (hitem : (wired settings store).collection.shapeItem (.ofPost post) p.fields = .ok item) :
    LeadsBack settings store p post item := by
  obtain ⟨hgiven, hcarried⟩ := get_of_shapeItem hfields hpost hitem
  have hself := (wired_posts settings store).self_of_shapeItem hitem
  have hpath : Query.Unmarked postsPath := by decide
  have hlist (front : String) (hfront : Query.Unmarked front) :
      Query.fieldList? (front ++ LinkBuilder.itemReference postsPath (PostResource.idText post.id) p.fields) =
        some p.fields := by
    rw [LinkBuilder.fieldList?_itemReference hpath hfront]
    simp only [Parameters.fields, Option.filter_filter, Bool.and_self]
  refine ⟨hpost, hgiven, ⟨_, _, _, hself, rfl, itemReference_idText post.id p.fields, ?_, ?_⟩, hcarried⟩
  · have hreference := hlist "" (by decide)
    rwa [String.empty_append] at hreference
  · intro hbase
    exact hlist _ (hbase.dropEnd '/')

/-- **Items of different posts have different links to themselves.** -/
theorem nodup_selfHrefs {posts : List Post} {items : List ShapedItem} (hids : (posts.map Post.id).Nodup)
    (hshaped : List.Forall₂ (fun post item =>
      (wired settings store).collection.shapeItem (.ofPost post) p.fields = .ok item) posts items) :
    (items.map fun item => (item.links.withRel? "self").map Link.href).Nodup := by
  -- The links as they follow from the identities.
  let hrefOf (id : Int32) : Option String :=
    some (Text.dropEnd '/' settings.service.baseUrl ++
      LinkBuilder.itemReference postsPath (PostResource.idText id) p.fields)
  have hinjective : Function.Injective hrefOf := by
    intro a b hab
    have hreference := (String.append_right_inj _).mp (Option.some.inj hab)
    exact PostResource.idText_inj.mp (LinkBuilder.itemReference_inj.mp hreference)
  have hhrefs : List.Forall₂ (· = ·) ((posts.map Post.id).map hrefOf)
      (items.map fun item => (item.links.withRel? "self").map Link.href) := by
    rw [List.map_map, List.forall₂_map_left_iff, List.forall₂_map_right_iff]
    refine hshaped.imp fun post item hitem => ?_
    rw [(wired_posts settings store).self_of_shapeItem hitem]
    rfl
  rw [List.forall₂_eq_eq_eq] at hhrefs
  rw [← hhrefs]
  exact hids.map hinjective

/-- **Following an item's own link gives the item back.** For every request for a list of stored posts that is
answered, the items of the answer stand one by one for stored posts, each with a link that leads back to it; and no
two items have the same link to themselves. -/
theorem self_links_lead_back (settings : Settings) {store : PostStore} (hstore : store.Reachable)
    {p : Parameters PostFilter} {answer : PageAnswer ShapedPage}
    (h : (wired settings store).list p = .ok answer) :
    (∃ posts : List Post, List.Forall₂ (LeadsBack settings store p) posts answer.body.items) ∧
    (answer.body.items.map fun item => (item.links.withRel? "self").map Link.href).Nodup := by
  obtain ⟨hfields, posts, hstored, hids, hshaped⟩ := exists_posts_of_list hstore h
  have hpairs := (List.forall₂_and_left _ _).mpr ⟨hstored, hshaped⟩
  have hback : List.Forall₂ (LeadsBack settings store p) posts answer.body.items := by
    refine hpairs.imp ?_
    intro post item ⟨hpost, hitem⟩
    exact leadsBack_of_shapeItem hfields hpost hitem
  exact ⟨⟨posts, hback⟩, nodup_selfHrefs hids hshaped⟩

/-- Three of the posts of start-up, shown without their identities. -/
theorem self_links_lead_back_after_bootstrap :
    let store := (({} : PostStore).seed [] {} { seconds := 0, nanos := 0 }).2.1
    let p : Parameters PostFilter := { givenPageSize := some 3, givenFields := some "title, Body", filter := {} }
    store.Reachable ∧ ∃ answer, (wired .default store).list p = .ok answer ∧ answer.body.items.length = 3 ∧
      (∃ posts : List Post, List.Forall₂ (LeadsBack .default store p) posts answer.body.items) ∧
      (answer.body.items.map fun item => (item.links.withRel? "self").map Link.href).Nodup := by
  intro store p
  have hstore : store.Reachable := PostStore.Reachable.empty.seed [] {} { seconds := 0, nanos := 0 }
  obtain ⟨steps, -, hp⟩ := @exists_answerable .default store p (by decide) (by decide) (by decide)
  obtain ⟨answer, hanswer, -, -, hitems, -⟩ := (wired_posts .default store).exists_answer
    (countable_posts hstore.keyed) hp (.of_pageIndex _ PostFilter.passes p p.pageIndex) (by decide)
  have hanswer : (wired .default store).list p = .ok answer := list_of_collection_ok hanswer
  have hlength : answer.body.items.length = 3 := by
    have height : (store.posts.filter (PostFilter.passes p.filter)).length = 8 := by decide
    have hcut := congrArg List.length hitems
    rw [List.length_map, List.length_map, List.length_take, List.length_drop, (Collection.listed_perm ..).length_eq,
      height] at hcut
    exact hcut
  exact ⟨hstore, answer, hanswer, hlength, self_links_lead_back .default hstore hanswer⟩

end PostService

end HypermediaApi.Blog
