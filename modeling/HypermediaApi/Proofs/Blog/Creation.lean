import HypermediaApi.Proofs.Blog.Answers
import HypermediaApi.Proofs.Blog.Writing
import HypermediaApi.Proofs.Collection.Walk

/-!
# HypermediaApi.Proofs.Blog.Creation — what is created is there afterwards

The answer to a creation is made from the post at hand, and never read back from the store. That a client
nevertheless gets the same from the location that it is sent to (`created_reads_back`) rests on three facts: the post
that is committed is the one of the answer (`create_eq_ok`), its identity has not been used before
(`nextId_not_used_before`), and so it is one more post to be counted (`length_posts_insert`, `exists_total`).
-/

namespace HypermediaApi.Blog

open Change (addedIds)

/-- The store after the creation of a draft. -/
def PostStore.withCreated (store : PostStore) (draft : PostDraft) (now : Timestamp) : PostStore :=
  { store with
    committed := store.committed.insert store.nextId (store.createdPost draft now)
    nextId := store.nextId + 1 }

namespace PostService

variable {settings : Settings} {store : PostStore} {draft : PostDraft}

/-- **A valid draft is created**: its post is stored, and the answer is made from the same post. -/
theorem create_eq_ok (harmed : store.armedFailures = 0) (hvalid : draft.Valid) (hfits : draft.RemarkFits)
    (now : Timestamp) :
    ∃ item, (wired settings store).collection.shapeItem (.ofPost (store.createdPost draft now)) none = .ok item ∧
      (wired settings store).create draft now =
        (.ok {
          location := Text.dropEnd '/' settings.service.baseUrl ++
            LinkBuilder.itemPath postsPath (PostResource.idText store.nextId)
          item },
        wired settings (store.withCreated draft now)) := by
  let post := store.createdPost draft now
  let numbered := wired settings { store with nextId := store.nextId + 1 }
  have hsave : numbered.save .create [.add post] "Adding post failed on save." =
      (.ok (), wired settings (store.withCreated draft now)) :=
    save_of_allowed (s := numbered) harmed (.add hfits)
  obtain ⟨item, hitem, hcreated⟩ := exists_created settings (store.withCreated draft now) post
  refine ⟨item, hitem, ?_⟩
  rw [create_of_valid settings draft now store hvalid]
  show answered post (numbered.save .create [.add post] "Adding post failed on save.") = _
  rw [hsave]
  exact congrArg (·, wired settings (store.withCreated draft now)) hcreated

/-- **A request for all posts is answered with their number**, if it is in order. -/
theorem exists_total (hkeyed : Keyed store.committed) {p : Parameters PostFilter} (hall : p.filter.wanted = none)
    (horderly : listFault? settings p = none) :
    ∃ answer, (wired settings store).list p = .ok answer ∧ answer.header.total.toNat = store.posts.length := by
  obtain ⟨horder, hfields, hi, hs⟩ := listFault?_eq_none_iff.mp horderly
  obtain ⟨steps, -, hp⟩ := @exists_answerable settings store p horder hfields hs
  have hcount : Countable store.posts := countable_posts hkeyed
  obtain ⟨answer, hanswer, -, htotal, -, -⟩ := (wired_posts settings store).exists_answer hcount hp
    (.of_pageIndex _ PostFilter.passes p p.pageIndex) hi
  have hpasses : store.posts.filter (PostFilter.passes p.filter) = store.posts := by
    rw [List.filter_eq_self]
    intro post hpost
    unfold PostFilter.passes
    rw [hall]
  refine ⟨answer, list_of_collection_ok hanswer, ?_⟩
  rw [htotal, (Collection.countable_listed hcount).toNat_ofNat, (Collection.listed_perm ..).length_eq, hpasses]

/-- **A client reads back what it created.** After any operations that add fewer than `2 ^ 31 - 1` posts, and with
no commit set to fail, every draft in order is created, whatever the settings are. The location is the link of the
item to itself; it is the base URL and the path of the new identity, which neither a post nor a staged addition has
had before. The item is the post with the parts of the draft, a request for the post is answered with it, and
whatever request for all posts is in order reports one post more than before. -/
theorem created_reads_back (settings : Settings) {steps : List StoreStep}
    (hadds : steps.countP (·.isAdd) < 2 ^ 31 - 1)
    (harmed : (({} : StoreSession).after steps).store.armedFailures = 0) {draft : PostDraft} (hvalid : draft.Valid)
    (hfits : draft.RemarkFits) (now : Timestamp) :
    let store := (({} : StoreSession).after steps).store
    let before := wired settings store
    let after := (before.create draft now).2
    (∃ answer self, (before.create draft now).1 = .ok answer ∧
      answer.item.links.withRel? "self" = some self ∧ answer.location = self.href ∧
      answer.location =
        Text.dropEnd '/' settings.service.baseUrl ++ "/api/posts/" ++ toString store.nextId.toInt ∧
      before.collection.shapeItem (.ofPost (store.createdPost draft now)) none = .ok answer.item ∧
      after.get store.nextId none = .ok answer.item) ∧
    (∀ n, store.nextId ∉ (StoreSession.sessionAt steps n).store.committed ∧
      ∀ u, store.nextId ∉ addedIds ((StoreSession.sessionAt steps n).unit u)) ∧
    ∀ p : Parameters PostFilter, p.filter.wanted = none → listFault? settings p = none →
      ∃ page page', before.list p = .ok page ∧ after.list p = .ok page' ∧
        page'.header.total.toNat = page.header.total.toNat + 1 := by
  intro store before after
  have hkeyed : Keyed store.committed := (StoreSession.reachable_run .empty steps).keyed
  have hunused : ∀ n, _ := StoreSession.nextId_not_used_before hadds
  have hnew : store.nextId ∉ store.committed := by
    have hlast := (hunused steps.length).1
    rwa [StoreSession.sessionAt_length] at hlast
  obtain ⟨item, hitem, hcreate⟩ := @create_eq_ok settings store draft harmed hvalid hfits now
  have hafter : after = wired settings (store.withCreated draft now) := congrArg Prod.snd hcreate
  refine ⟨?_, hunused, fun p hall horderly => ?_⟩
  · have hself := (wired_posts settings store).self_of_shapeItem hitem
    have hfind : (store.withCreated draft now).find? store.nextId = some (store.createdPost draft now) :=
      Std.TreeMap.getElem?_insert_self
    obtain ⟨item', hitem', hget⟩ := @exists_get_eq_ok settings (store.withCreated draft now) none (by decide) _ _ hfind
    obtain rfl : item' = item := Except.ok.inj (hitem'.symm.trans hitem)
    refine ⟨_, _, congrArg Prod.fst hcreate, hself, ?_, ?_, hitem, hafter ▸ hget⟩
    · rw [← LinkBuilder.itemReference_none]
      rfl
    · rw [PostResource.itemPath_idText, ← String.append_assoc]
      rfl
  · obtain ⟨page, hpage, htotal⟩ := @exists_total settings store hkeyed p hall horderly
    have hkeyed' : Keyed (store.withCreated draft now).committed := hkeyed.insert (store.createdPost draft now)
    obtain ⟨page', hpage', htotal'⟩ := @exists_total settings (store.withCreated draft now) hkeyed' p hall horderly
    refine ⟨page, page', hpage, hafter ▸ hpage', ?_⟩
    rw [htotal', htotal]
    exact PostStore.length_posts_insert hnew _ _

/-- A second post, whose remark says that it is one, is read back, and with it there are two. -/
theorem created_reads_back_second :
    let steps : List StoreStep := [.add "a" { (default : Post) with title := "A", body := "B" }, .commit "a"]
    let store := (({} : StoreSession).after steps).store
    let before := wired .default store
    let draft : PostDraft := { title := "C", body := "D", remark := some "the second" }
    let now : Timestamp := { seconds := 5, nanos := 0 }
    let after := (before.create draft now).2
    steps.countP (·.isAdd) < 2 ^ 31 - 1 ∧ store.armedFailures = 0 ∧ draft.Valid ∧ draft.RemarkFits ∧
    (∃ answer, (before.create draft now).1 = .ok answer ∧
      answer.location = "http://localhost:5000/api/posts/2" ∧ after.get 2 none = .ok answer.item) ∧
    ∃ page page', before.list { filter := {} } = .ok page ∧ after.list { filter := {} } = .ok page' ∧
      page'.header.total.toNat = page.header.total.toNat + 1 := by
  intro steps store before draft now after
  have hadds : steps.countP (·.isAdd) < 2 ^ 31 - 1 := by decide
  have harmed : store.armedFailures = 0 := by decide
  have hvalid : draft.Valid := by decide
  have hfits : draft.RemarkFits := by decide
  obtain ⟨⟨answer, self, hanswer, -, -, hlocation, -, hget⟩, -, htotals⟩ :=
    created_reads_back .default hadds harmed hvalid hfits now
  have hsecond : store.nextId = 2 := by decide
  have hurl : Text.dropEnd '/' Settings.default.service.baseUrl ++ "/api/posts/" ++ toString store.nextId.toInt =
      "http://localhost:5000/api/posts/2" := by decide
  exact ⟨hadds, harmed, hvalid, hfits, ⟨answer, hanswer, hlocation.trans hurl, hsecond ▸ hget⟩,
    htotals { filter := {} } rfl (by decide)⟩

end PostService

end HypermediaApi.Blog
