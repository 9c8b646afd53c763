import HypermediaApi.Blog.Service
import HypermediaApi.Proofs.Blog.Posts
import HypermediaApi.Proofs.Blog.Reachable
import HypermediaApi.Proofs.Collection.Outcome

/-!
# HypermediaApi.Proofs.Blog.Reading — how reading posts ends

The service that start-up leaves behind is wired (`exists_wired_of_bootstrap`, `wired_posts`): the one mapping
is registered, and the routes are mounted at the path of the posts. So the outcomes of requests for a collection
are those of requests for posts, for whatever posts are stored and whatever the settings are.

Reading therefore has no way of failing that is not the client's doing: a list request is answered exactly if
its four parts are in order, and otherwise the first part that is not is reported; a request for one post is
answered exactly if its fields exist and the post is there.
-/

namespace HypermediaApi.Blog

/-- The registry that start-up leaves behind. -/
def postRegistry : Registry := { table := OrderedMap.empty.insert postTypes postMapping }

namespace PostService

variable (settings : Settings) (store : PostStore)

/-- The service over a store, wired as start-up does it. -/
def wired : PostService where
  store := store
  collection := postCollection postRegistry settings

/-- The posts of a wired service are a wired collection. -/
theorem wired_posts : (wired settings store).collection.Wired postMapping
    (.ofBaseUrl settings.service.baseUrl) "post" postsPath where
  registered := rfl
  sorts := sorts_postMapping
  mounted := rfl
  plain_path := by decide

@[simp] theorem wired_store : (wired settings store).store = store := rfl

@[simp] theorem wired_schema : (wired settings store).collection.schema = PostResource.schema := rfl

/-- A list request is one to the collection of the committed posts, its failures reported as those of a list
request. -/
theorem list_eq (p : Parameters PostFilter) :
    (wired settings store).list p =
      ((wired settings store).collection.list (.ofList "id" PostFilter.passes store.posts) p).mapError
        (·.withOperation .list) := rfl

variable {settings store}

/-- **What start-up leaves behind is a wired service over a reachable store.** -/
theorem exists_wired_of_bootstrap {now : Timestamp} {s : PostService} (h : bootstrap settings now = .ok s) :
    ∃ store : PostStore, store.Reachable ∧ s = wired settings store := by
  have hseed := PostStore.Reachable.empty.seed [] settings.seed now
  unfold bootstrap at h
  rw [show registerPosts {} = .ok postRegistry from rfl] at h
  simp only [bind, Except.bind] at h
  split at h
  · cases h
  · obtain rfl := Except.ok.inj h
    exact ⟨_, hseed, rfl⟩

/-! ### The four checks of a list request -/

/-- The page size in effect: the one that was asked for, or the default, and at most the maximum. -/
def pageSizeIn (settings : Settings) (p : Parameters PostFilter) : Int64 :=
  min (p.givenPageSize.getD settings.paging.defaultPageSize) settings.paging.maxPageSize

/-- A sort expression that is blank is covered, whether it is dropped or not. -/
theorem covers_orderBy {p : Parameters PostFilter} :
    postMapping.Covers p.orderBy ↔ postMapping.Covers p.givenOrderBy :=
  PropertyMapping.covers_filter_not_blank

/-- The check of a field list decides whether its entries are public fields. -/
theorem fieldsExist_schema {fields : Option String} :
    PostResource.schema.fieldsExist fields = true ↔ PostResource.schema.Covers fields :=
  Schema.fieldsExist_iff_covers flat_schema

theorem fieldsExist_fields {p : Parameters PostFilter} :
    PostResource.schema.fieldsExist p.fields = true ↔ PostResource.schema.Covers p.givenFields := by
  rw [fieldsExist_schema]
  unfold Schema.Covers Parameters.fields
  rw [Schema.requestedFields_filter_not_blank]

/-! ### List requests -/

/-- The refusal of a request that is not in order. -/
def refusal (operation : ApiOperation) (reason : String) : ApiError where
  operation := operation
  kind := .badRequest
  reason := reason

theorem list_of_collection {p : Parameters PostFilter} {reason : String}
    (h : (wired settings store).collection.list (.ofList "id" PostFilter.passes store.posts) p =
      .error (.badRequest reason)) :
    (wired settings store).list p = .error (refusal .list reason) := by
  rw [list_eq, h]
  rfl

theorem list_of_collection_ok {p : Parameters PostFilter} {answer : PageAnswer ShapedPage}
    (h : (wired settings store).collection.list (.ofList "id" PostFilter.passes store.posts) p = .ok answer) :
    (wired settings store).list p = .ok answer := by
  rw [list_eq, h]
  rfl

theorem exists_answerable {p : Parameters PostFilter} (horder : postMapping.Covers p.givenOrderBy)
    (hfields : PostResource.schema.Covers p.givenFields) (hs : 0 < pageSizeIn settings p) :
    ∃ steps, postMapping.compile p.givenOrderBy = .ok steps ∧
      (wired settings store).collection.Answerable postMapping p steps := by
  obtain ⟨steps, hsteps⟩ := PropertyMapping.exists_compile_of_covers horder
  refine ⟨steps, hsteps, ?_, fieldsExist_fields.mpr hfields, hs⟩
  rw [← hsteps]
  exact PropertyMapping.compile_filter_not_blank postMapping p.givenOrderBy

/-- The posts of a store are few enough for the figures of every page to be exact. -/
theorem countable_posts (h : Keyed store.committed) : Countable store.posts := by
  have hle := PostStore.length_posts_le h
  unfold Countable
  omega

/-- No two posts of a store are equal by their identity. -/
theorem pairwise_orderBy_id_of_keyed (h : Keyed store.committed) (passes : Post → Bool) :
    (store.posts.filter passes).Pairwise fun a b => orderBy "id" a b ≠ .eq := by
  refine ((PostStore.pairwise_posts h).filter passes).imp ?_
  intro a b hab
  rw [orderBy_id, hab]
  decide

/-- **A list request whose four parts are in order is answered.** -/
theorem exists_list_eq_ok {p : Parameters PostFilter} (horder : postMapping.Covers p.givenOrderBy)
    (hfields : PostResource.schema.Covers p.givenFields) (hi : 0 ≤ p.pageIndex)
    (hs : 0 < pageSizeIn settings p) : ∃ answer, (wired settings store).list p = .ok answer := by
  obtain ⟨steps, -, hp⟩ := @exists_answerable settings store p horder hfields hs
  obtain ⟨items, -, hlist⟩ := (wired_posts settings store).list_eq_ok hp hi PostFilter.passes store.posts
  exact ⟨_, list_of_collection_ok hlist⟩

/-! ### Requests for one post -/

/-- A field list with an unknown entry is refused before the post is looked for. -/
theorem get_of_unknown_field {fields : Option String} (h : ¬ PostResource.schema.Covers fields) (id : Int32) :
    (wired settings store).get id fields = .error (refusal .get ApiError.unknownFields) := by
  have hcheck : PostResource.schema.fieldsExist fields = false := by
    rw [← Bool.not_eq_true, fieldsExist_schema]
    exact h
  unfold get Collection.checkFields
  rw [wired_schema, hcheck]
  rfl

theorem get_of_absent {fields : Option String} (hfields : PostResource.schema.Covers fields) {id : Int32}
    (h : store.find? id = none) :
    (wired settings store).get id fields = .error {
      operation := .get
      kind := .notFound
      reason := "Entity not found"
      entityType := some entityName
      entityId := some (PostResource.idText id) } := by
  unfold get Collection.checkFields find
  rw [wired_schema, fieldsExist_schema.mpr hfields, wired_store, h]
  rfl

theorem exists_get_eq_ok {fields : Option String} (hfields : PostResource.schema.Covers fields) {id : Int32}
    {post : Post} (h : store.find? id = some post) :
    ∃ item, (wired settings store).collection.shapeItem (.ofPost post) fields = .ok item ∧
      (wired settings store).get id fields = .ok item := by
  obtain ⟨item, hitem⟩ := (wired_posts settings store).exists_shapeItem (fieldsExist_schema.mpr hfields)
    (.ofPost post)
  refine ⟨item, hitem, ?_⟩
  unfold get Collection.checkFields find
  rw [wired_schema, fieldsExist_schema.mpr hfields, wired_store, h]
  simp only [if_true, mapError_ok, bind, Except.bind, hitem]

/-! ### Outcomes -/

/-- Why a list request is refused: the first of its four parts, in the order of the checks, that is not in
order. -/
def listFault? (settings : Settings) (p : Parameters PostFilter) : Option String :=
  if ¬ postMapping.Covers p.givenOrderBy then some ApiError.unknownSortFields
  else if ¬ PostResource.schema.Covers p.givenFields then some ApiError.unknownFields
  else if p.pageIndex < 0 then some (PageFault.negativeIndex p.pageIndex).message
  else if pageSizeIn settings p ≤ 0 then some (PageFault.sizeNotPositive (pageSizeIn settings p)).message
  else none

theorem listFault?_eq_none_iff {p : Parameters PostFilter} :
    listFault? settings p = none ↔
      postMapping.Covers p.givenOrderBy ∧ PostResource.schema.Covers p.givenFields ∧
        0 ≤ p.pageIndex ∧ 0 < pageSizeIn settings p := by
  rw [← Int64.not_lt, ← @Int64.not_le (pageSizeIn settings p)]
  unfold listFault?
  split
  · next h => simp [h]
  · split
    · next h => simp [h]
    · split
      · next h => simp [h]
      · split
        · next h => simp [h]
        · next horder hfields hi hs =>
          exact ⟨fun _ => ⟨not_not.mp horder, not_not.mp hfields, hi, hs⟩, fun _ => rfl⟩

/-- A list request that is not in order is refused for its first fault. -/
theorem list_of_listFault? {p : Parameters PostFilter} {reason : String}
    (h : listFault? settings p = some reason) :
    (wired settings store).list p = .error (refusal .list reason) := by
  have hw := wired_posts settings store
  apply list_of_collection
  -- The faults are tried in the order of the checks, each one on what the checks before it let pass.
  unfold listFault? at h
  split at h
  · next horder =>
    obtain rfl := Option.some.inj h
    exact hw.list_of_not_covers (mt covers_orderBy.mp horder)
  next horder =>
  have horder' := covers_orderBy.mpr (not_not.mp horder)
  split at h
  · next hfields =>
    obtain rfl := Option.some.inj h
    refine hw.list_of_unknown_field horder' ?_
    rw [← Bool.not_eq_true]
    exact mt fieldsExist_fields.mp hfields
  next hfields =>
  have hfields' := fieldsExist_fields.mpr (not_not.mp hfields)
  split at h
  · next hi =>
    obtain rfl := Option.some.inj h
    exact hw.list_of_negative_index horder' hfields' hi
  next hi =>
  split at h
  · next hs =>
    obtain rfl := Option.some.inj h
    exact hw.list_of_size horder' hfields' (Int64.not_lt.mp hi) hs
  · cases h

/-- **Nothing that a client sends makes reading fail internally.** A list request is answered exactly if its
sort expression is covered by the mapping, its field list by the public fields, its page index is not negative
and the page size in effect is positive; otherwise it is refused as a list request for the first of these that
does not hold. A request for one post is refused if a field is unknown, reports a post that is not there, and is
answered in all other cases. -/
theorem reading_outcomes (settings : Settings) (store : PostStore) (p : Parameters PostFilter) (id : Int32)
    (fields : Option String) :
    (listFault? settings p = none ↔
      postMapping.Covers p.givenOrderBy ∧ PostResource.schema.Covers p.givenFields ∧
        0 ≤ p.pageIndex ∧ 0 < pageSizeIn settings p) ∧
    (match listFault? settings p with
      | none => ∃ answer, (wired settings store).list p = .ok answer
      | some reason => (wired settings store).list p = .error (refusal .list reason)) ∧
    (¬ PostResource.schema.Covers fields →
      (wired settings store).get id fields = .error (refusal .get ApiError.unknownFields)) ∧
    (PostResource.schema.Covers fields →
      match store.find? id with
      | none => (wired settings store).get id fields = .error {
          operation := .get
          kind := .notFound
          reason := "Entity not found"
          entityType := some entityName
          entityId := some (PostResource.idText id) }
      | some post => ∃ item, (wired settings store).collection.shapeItem (.ofPost post) fields = .ok item ∧
          (wired settings store).get id fields = .ok item) := by
  refine ⟨listFault?_eq_none_iff, ?_, fun h => get_of_unknown_field h id, ?_⟩
  · cases hfault : listFault? settings p with
    | some reason => exact list_of_listFault? hfault
    | none =>
      obtain ⟨horder, hfields, hi, hs⟩ := listFault?_eq_none_iff.mp hfault
      exact exists_list_eq_ok horder hfields hi hs
  · intro hfields
    cases hfind : store.find? id with
    | none => exact get_of_absent hfields hfind
    | some post => exact exists_get_eq_ok hfields hfind

end PostService

end HypermediaApi.Blog
