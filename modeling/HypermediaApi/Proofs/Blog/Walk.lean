import HypermediaApi.Proofs.Blog.Reading
import HypermediaApi.Proofs.Collection.Walk

/-!
# HypermediaApi.Proofs.Blog.Walk — a client that follows the links sees every post once

The walk over a collection, for posts. What posts add to the general theory is the store: in a reachable store
the identities of the committed posts ascend, so they tell posts apart, ties in the sort are broken for good,
and the order of the list is strict.
-/

namespace HypermediaApi.Blog

namespace PostService

variable {settings : Settings} {store : PostStore}

/-- In a reachable store no two committed posts are equal by their identity. -/
theorem pairwise_orderBy_id (h : store.Reachable) (passes : Post → Bool) :
    (store.posts.filter passes).Pairwise fun a b => orderBy "id" a b ≠ .eq :=
  pairwise_orderBy_id_of_keyed h.keyed passes

/-- **Walking the posts by the links visits every matching post exactly once, in order.** From the first page on
there is exactly one walk. It has one answer for each page that the matching posts fill, and one if there are
none; all answers give the same size and total; and their items, one after the other, are those of the matching
posts in the order of the compiled steps, ties broken by the identity.

The client of this walk reads the query of a link in what follows the base URL. One that reads it in the link as a
whole has the same walk and no other, unless the base URL itself looks like one with a query or a fragment. -/
theorem linkWalk_visits_all (settings : Settings) {store : PostStore} (hstore : store.Reachable)
    {p : Parameters PostFilter} (horder : postMapping.Covers p.givenOrderBy)
    (hfields : PostResource.schema.Covers p.givenFields) (hsize : 0 < pageSizeIn settings p) :
    ∃ (steps : List SortStep) (ordered : List Post) (answers : List (PageAnswer ShapedPage)),
      postMapping.compile p.givenOrderBy = .ok steps ∧
      ordered.Perm (store.posts.filter p.filter.passes) ∧
      ordered.Pairwise (fun a b => (compareSteps steps a b).then (compare a.id b.id) = .lt) ∧
      LinkWalk (Text.dropEnd '/' settings.service.baseUrl) (wired settings store).list { p with pageIndex := 0 }
        answers ∧
      (∀ others, LinkWalk (Text.dropEnd '/' settings.service.baseUrl) (wired settings store).list
        { p with pageIndex := 0 } others → others = answers) ∧
      (Query.Unmarked settings.service.baseUrl →
        LinkWalk "" (wired settings store).list { p with pageIndex := 0 } answers ∧
        ∀ others, LinkWalk "" (wired settings store).list { p with pageIndex := 0 } others → others = answers) ∧
      answers.length = max 1 ((ordered.length + ((pageSizeIn settings p).toInt.toNat - 1)) /
        (pageSizeIn settings p).toInt.toNat) ∧
      (∀ answer ∈ answers, answer.header.size = pageSizeIn settings p ∧
        answer.header.total.toNat = ordered.length) ∧
      (answers.flatMap (·.body.items)).map Except.ok =
        ordered.map (fun post => (wired settings store).collection.shapeItem (.ofPost post) p.fields) := by
  have hcount : Countable store.posts := countable_posts hstore.keyed
  obtain ⟨steps, hsteps, hp⟩ := @exists_answerable settings store p horder hfields hsize
  have hlisted : Countable (Collection.listed postMapping steps PostFilter.passes p store.posts) :=
    Collection.countable_listed hcount
  obtain ⟨answers, hwalk, hlength, hheaders, hbodies⟩ :=
    (wired_posts settings store).exists_linkWalk_from_first (by decide) passes_ofPairs hcount hp
  -- The service reports failures in its own way, but answers as its collection does.
  let table := RouteTable.ofBaseUrl settings.service.baseUrl
  have hservice (start : String) (hstart : table.ReadableFrom start) :
      LinkWalk start (wired settings store).list { p with pageIndex := 0 } answers :=
    (hwalk start hstart).mono fun q answer => list_of_collection_ok
  have hbelow := hservice _ table.readableFrom_baseUrl
  refine ⟨steps, Collection.listed postMapping steps PostFilter.passes p store.posts, answers, hsteps,
    Collection.listed_perm .., ?_, hbelow, ?_, ?_, hlength, ?_, hbodies⟩
  · exact pairwise_arrange (pairwise_orderBy_id hstore p.filter.passes)
  · intro others hothers
    exact hothers.unique hbelow
  · intro hbase
    have hwhole := hservice "" (RouteTable.readableFrom_empty (hbase.dropEnd '/'))
    exact ⟨hwhole, fun others hothers => hothers.unique hwhole⟩
  · intro answer hanswer
    obtain ⟨hanswerSize, htotal⟩ := hheaders answer hanswer
    refine ⟨hanswerSize, ?_⟩
    rw [htotal]
    exact hlisted.toNat_ofNat

/-- With the posts of start-up and three of them to a page, a walk has three answers. -/
theorem linkWalk_after_bootstrap :
    let store := (({} : PostStore).seed [] {} { seconds := 0, nanos := 0 }).2.1
    ∃ answers, LinkWalk "" (wired .default store).list
        { givenPageSize := some 3, givenOrderBy := some "Title desc", filter := {} } answers ∧
      answers.length = 3 := by
  intro store
  obtain ⟨steps, ordered, answers, -, hperm, -, -, -, hwhole, hlength, -, -⟩ :=
    linkWalk_visits_all .default (PostStore.Reachable.empty.seed [] {} { seconds := 0, nanos := 0 })
      (p := { givenPageSize := some 3, givenOrderBy := some "Title desc", filter := {} })
      (by decide) (by decide) (by decide)
  have height : ordered.length = 8 := by
    rw [hperm.length_eq]
    decide
  rw [height] at hlength
  exact ⟨answers, (hwhole (by decide)).1, hlength⟩

end PostService

end HypermediaApi.Blog
