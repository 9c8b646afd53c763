import HypermediaApi.Proofs.Blog.Identities
import HypermediaApi.Proofs.Blog.Reading

/-!
# HypermediaApi.Proofs.Blog.Writing — a write has its effect, or none

Creating, replacing, patching and deleting a post each check something, stage one change and commit it. Why a write
is refused is written down apart from the operations, in the order in which the reasons are looked for
(`createFault?`, `updateFault?`, `patchFault?`, `deleteFault?`); the conditions are those on the request and the
store, not the checks of the code.

`WriteEnds` says what a write may end with: if there is a fault, with its error and the posts as they were, and
otherwise with an answer and exactly one identity concerned. There is one lemma for each operation
(`create_ends`, `update_ends`, `patch_ends`, `delete_ends`), built on what saving a single change does. That the
identity of a created post is a new one is a matter of the runs before, and comes from `FreshIds`.
-/

namespace HypermediaApi.Blog

/-! ### Drafts -/

namespace PostDraft

/-- The title is there and keeps to the limit, and the body is there. -/
structure Valid (d : PostDraft) : Prop where
  title_not_blank : Text.trim d.title ≠ ""
  title_le : Text.codePoints d.title ≤ 100
  body_not_blank : Text.trim d.body ≠ ""

theorem valid_iff {d : PostDraft} :
    d.Valid ↔ Text.trim d.title ≠ "" ∧ Text.codePoints d.title ≤ 100 ∧ Text.trim d.body ≠ "" :=
  ⟨fun h => ⟨h.title_not_blank, h.title_le, h.body_not_blank⟩, fun h => ⟨h.1, h.2.1, h.2.2⟩⟩

instance : DecidablePred Valid := fun _ => decidable_of_iff' _ valid_iff

/-- The remark, if there is one, keeps to the limit. -/
def RemarkFits (d : PostDraft) : Prop := ∀ remark ∈ d.remark, Text.codePoints remark ≤ 200

instance : DecidablePred RemarkFits := fun d =>
  inferInstanceAs (Decidable (∀ remark ∈ d.remark, Text.codePoints remark ≤ 200))

theorem titleErrors_eq_nil_iff {title : String} :
    titleErrors title = [] ↔ Text.trim title ≠ "" ∧ Text.codePoints title ≤ 100 := by
  rw [Ne, Text.trim_eq_empty_iff]
  unfold titleErrors
  split
  · next hblank => simp [hblank]
  · next hblank =>
    split
    · next hlong =>
      have hlong' : ¬ Text.codePoints title ≤ 100 := Nat.not_le.mpr hlong
      simp [hlong']
    · next hfits => exact ⟨fun _ => ⟨hblank, Nat.not_lt.mp hfits⟩, fun _ => rfl⟩

theorem bodyErrors_eq_nil_iff {body : String} : bodyErrors body = [] ↔ Text.trim body ≠ "" := by
  rw [Ne, Text.trim_eq_empty_iff]
  unfold bodyErrors
  split
  · next hblank => simp [hblank]
  · next hblank => exact ⟨fun _ => hblank, fun _ => rfl⟩

/-- **A draft breaks no rule exactly if it is valid.** -/
theorem errors_eq_nil_iff {d : PostDraft} : d.errors = [] ↔ d.Valid := by
  unfold errors
  rw [List.append_eq_nil_iff, titleErrors_eq_nil_iff, bodyErrors_eq_nil_iff, valid_iff, and_assoc]

end PostDraft

/-! ### Why writes are refused -/

/-- Why a write is refused. -/
inductive WriteFault where
  /-- The body of the request breaks rules. -/
  | invalid (details : List FieldError)
  /-- There is no post of that identity. -/
  | absent (id : Int32)
  /-- The commit failed as a whole. -/
  | unsaved
  /-- The remark of the post of that identity is too long. -/
  | remarkTooLong (id : Int32)
  deriving DecidableEq, Repr

/-- The refusal as clients see it. -/
def WriteFault.toError (operation : ApiOperation) : WriteFault → ApiError
  | invalid details => { operation, kind := .validationFailed, reason := "Validation failed", details }
  | absent id => {
      operation
      kind := .notFound
      reason := "Entity not found"
      entityType := some "Post"
      entityId := some (toString id.toInt) }
  | unsaved => { operation, kind := .internalError, reason := "An internal error occurred" }
  | remarkTooLong id => {
      operation
      kind := .conflict
      reason := "remark exceeds 200 characters"
      entityType := some "Post"
      entityId := some (toString id.toInt) }

namespace PostStore

variable (store : PostStore)

/-- Why a post with the parts of a draft is not saved under an identity. -/
def saveFault? (id : Int32) (draft : PostDraft) : Option WriteFault :=
  if store.armedFailures ≠ 0 then some .unsaved
  else if ¬ draft.RemarkFits then some (.remarkTooLong id)
  else none

/-- Why a post is not created: the draft is invalid, or the new post is not saved. -/
def createFault? (draft : PostDraft) : Option WriteFault :=
  if ¬ draft.Valid then some (.invalid draft.errors)
  else store.saveFault? store.nextId draft

/-- Why a post is not replaced: the draft is invalid, there is no such post, or it is not saved. -/
def updateFault? (id : Int32) (draft : PostDraft) : Option WriteFault :=
  if ¬ draft.Valid then some (.invalid draft.errors)
  else if id ∉ store.committed then some (.absent id)
  else store.saveFault? id draft

/-- Why a post is not patched: there is no such post, what the patch makes of it is invalid, or it is not
saved. -/
def patchFault? (id : Int32) (patch : PostPatch) : Option WriteFault :=
  match store.find? id with
  | none => some (.absent id)
  | some post =>
    if ¬ (patch.apply (.ofPost post)).Valid then some (.invalid (patch.apply (.ofPost post)).errors)
    else store.saveFault? id (patch.apply (.ofPost post))

/-- Why a post is not deleted: there is no such post, or the commit fails. -/
def deleteFault? (id : Int32) : Option WriteFault :=
  if id ∉ store.committed then some (.absent id)
  else if store.armedFailures ≠ 0 then some .unsaved
  else none

end PostStore

/-- The post that the creation of a draft adds. -/
def PostStore.createdPost (store : PostStore) (draft : PostDraft) (now : Timestamp) : Post where
  id := store.nextId
  title := draft.title
  body := draft.body
  author := "admin"
  lastModified := now
  remark := draft.remark

/-- How a write ends. With a fault it is refused, and the posts are as they were; otherwise it is answered, and
what stands under one identity is the given post, or nothing, while all other posts are as they were. -/
def WriteEnds {β : Type} (operation : ApiOperation) (before : Posts) (fault? : Option WriteFault) (id : Int32)
    (post? : Option Post) (result : Except ApiError β × PostService) : Prop :=
  match fault? with
  | some fault => result.1 = .error (fault.toError operation) ∧ result.2.store.committed = before
  | none => (∃ answer, result.1 = .ok answer) ∧
      ∀ k : Int32, result.2.store.committed[k]? = if k = id then post? else before[k]?

/-! ### One change -/

/-- Setting a post concerns its identity only. -/
theorem Change.Sets.getElem?_apply {c : Change} {p : Post} (hc : c.Sets p) (posts : Posts) (k : Int32) :
    (c.apply posts)[k]? = if k = p.id then some p else posts[k]? := by
  rcases hc with rfl | rfl
  · exact getElem?_insert_id posts p k
  · exact getElem?_insert_id posts p k

namespace PostService

variable {s : PostService} {operation : ApiOperation} {complaint : String} {c : Change}

theorem save_of_armed (h : s.store.armedFailures ≠ 0) (unit : UnitOfWork) :
    s.save operation unit complaint = (.error (WriteFault.unsaved.toError operation),
      { s with store := { s.store with armedFailures := s.store.armedFailures - 1 } }) := by
  unfold save
  rw [PostStore.commit_of_armed h]
  rfl

theorem save_of_allowed (h : s.store.armedFailures = 0) (hc : c.Allowed s.store.committed) :
    s.save operation [c] complaint =
      (.ok (), { s with store := { s.store with committed := c.apply s.store.committed } }) := by
  have hall : ∀ c' ∈ [c], c'.Allowed s.store.committed := by
    intro c' hc'
    rw [List.mem_singleton.mp hc']
    exact hc
  unfold save
  rw [PostStore.commit_of_allowed h hall]
  rfl

theorem save_of_refused (h : s.store.armedFailures = 0) {e : StorageError} (hc : c.Refused s.store.committed e) :
    s.save operation [c] complaint = (.error (during operation (.storage e)), s) := by
  have hfault : List.findSome? (·.fault? s.store.committed) [c] = some e := by
    rw [List.findSome?_cons, hc.fault?]
  unfold save
  rw [PostStore.commit_of_not_armed h, hfault]

/-- **Saving a post ends as its draft and the store say.** -/
theorem save_ends {p : Post} {draft : PostDraft} (hc : c.Sets p) (hthere : c = .update p → p.id ∈ s.store.committed)
    (hremark : p.remark = draft.remark) :
    WriteEnds operation s.store.committed (s.store.saveFault? p.id draft) p.id (some p)
      (s.save operation [c] complaint) := by
  unfold PostStore.saveFault?
  split
  · next harmed =>
    rw [save_of_armed harmed]
    exact ⟨rfl, rfl⟩
  next harmed =>
  have harmed := not_not.mp harmed
  have hfits_iff : p.RemarkFits ↔ draft.RemarkFits := by
    unfold Post.RemarkFits PostDraft.RemarkFits
    rw [hremark]
    exact Iff.rfl
  split
  · next hlong =>
    have hrefused : c.Refused s.store.committed (Change.remarkTooLong p.id) := by
      rcases hc with rfl | rfl
      · exact .add (mt hfits_iff.mp hlong)
      · exact .update (mt hfits_iff.mp hlong)
    rw [save_of_refused harmed hrefused]
    exact ⟨rfl, rfl⟩
  · next hfits =>
    have hfits := hfits_iff.mpr (not_not.mp hfits)
    have hallowed : c.Allowed s.store.committed := by
      rcases hc with rfl | rfl
      · exact .add hfits
      · exact .update hfits (hthere rfl)
    rw [save_of_allowed harmed hallowed]
    exact ⟨⟨(), rfl⟩, hc.getElem?_apply s.store.committed⟩

/-! ### The checks before -/

theorem checkDraft_of_valid {draft : PostDraft} (h : draft.Valid) : checkDraft operation draft = .ok () := by
  unfold checkDraft
  rw [PostDraft.errors_eq_nil_iff.mpr h]
  rfl

theorem checkDraft_of_not_valid {draft : PostDraft} (h : ¬ draft.Valid) :
    checkDraft operation draft = .error ((WriteFault.invalid draft.errors).toError operation) := by
  have hne : draft.errors.isEmpty = false := by
    rw [List.isEmpty_eq_false_iff]
    exact mt PostDraft.errors_eq_nil_iff.mp h
  unfold checkDraft
  rw [hne]
  rfl

theorem find_of_some {id : Int32} {post : Post} (h : s.store.find? id = some post) :
    s.find operation id = .ok post := by
  unfold find
  rw [h]

theorem find_of_none {id : Int32} (h : s.store.find? id = none) :
    s.find operation id = .error ((WriteFault.absent id).toError operation) := by
  unfold find
  rw [h]
  rfl

/-! ### The operations -/

/-- Saving leaves what is known of the collection as it is. -/
theorem collection_save (s : PostService) (operation : ApiOperation) (unit : UnitOfWork) (complaint : String) :
    (s.save operation unit complaint).2.collection = s.collection := by
  unfold save
  obtain ⟨answer, store⟩ := s.store.commit unit
  cases answer with
  | error e => rfl
  | ok saved => cases saved <;> rfl

/-- A service with the collection of posts is wired. -/
theorem eq_wired {settings : Settings} {s : PostService} (h : s.collection = postCollection postRegistry settings) :
    s = wired settings s.store := by
  cases s
  cases h
  rfl

/-- **A stored post always has an answer**: its path below the base URL, and the post with its links. -/
theorem exists_created (settings : Settings) (store : PostStore) (post : Post) :
    ∃ item, (wired settings store).collection.shapeItem (.ofPost post) none = .ok item ∧
      (wired settings store).created post = .ok {
        location := Text.dropEnd '/' settings.service.baseUrl ++
          LinkBuilder.itemPath postsPath (PostResource.idText post.id)
        item } := by
  have hw := wired_posts settings store
  have hfields : (wired settings store).collection.schema.fieldsExist none = true :=
    fieldsExist_schema.mpr (by decide)
  obtain ⟨item, hitem⟩ := hw.exists_shapeItem hfields (.ofPost post)
  have hlocation (id : String) := hw.mounted ▸ LinkBuilder.itemUri_ofMount hw.plain_path id
  refine ⟨item, hitem, ?_⟩
  unfold created
  simp only [hlocation, hitem, mapError_ok, bind, Except.bind]
  rfl

variable (settings : Settings) {store : PostStore} (draft : PostDraft) (now : Timestamp)

/-- The answer to a creation whose commit has ended. -/
def answered (post : Post) : Except ApiError Unit × PostService → Except ApiError CreatedAnswer × PostService
  | (.error e, s) => (.error e, s)
  | (.ok (), s) => (s.created post, s)

/-- **Creating a valid draft is saving its post**, of the identity that is next. That is taken before the commit,
whatever becomes of it. -/
theorem create_of_valid (store : PostStore) (hvalid : draft.Valid) :
    (wired settings store).create draft now = answered (store.createdPost draft now)
      ((wired settings { store with nextId := store.nextId + 1 }).save .create
        [.add (store.createdPost draft now)] "Adding post failed on save.") := by
  unfold create
  rw [checkDraft_of_valid hvalid]
  rfl

theorem create_ends (store : PostStore) :
    WriteEnds .create store.committed (store.createFault? draft) store.nextId (some (store.createdPost draft now))
      ((wired settings store).create draft now) := by
  unfold PostStore.createFault?
  split
  · next hinvalid =>
    unfold create
    rw [checkDraft_of_not_valid hinvalid]
    exact ⟨rfl, rfl⟩
  next hvalid =>
  rw [create_of_valid settings draft now store (not_not.mp hvalid)]
  let post := store.createdPost draft now
  let numbered := wired settings { store with nextId := store.nextId + 1 }
  have hcollection := collection_save numbered .create [.add post] "Adding post failed on save."
  have hsave : WriteEnds .create store.committed (store.saveFault? store.nextId draft) store.nextId
      (some post) (numbered.save .create [.add post] "Adding post failed on save.") :=
    save_ends (s := numbered) (p := post) (.inl rfl) nofun rfl
  generalize numbered.save .create [.add post] "Adding post failed on save." = saved at hcollection hsave ⊢
  obtain ⟨outcome, service⟩ := saved
  cases hfault : store.saveFault? store.nextId draft with
  | some fault =>
    rw [hfault] at hsave
    obtain ⟨hrefused, hposts⟩ := hsave
    obtain rfl : outcome = _ := hrefused
    exact ⟨rfl, hposts⟩
  | none =>
    rw [hfault] at hsave
    obtain ⟨⟨answer, hanswer⟩, hposts⟩ := hsave
    obtain rfl : outcome = .ok answer := hanswer
    obtain ⟨item, -, hcreated⟩ := exists_created settings service.store post
    rw [← eq_wired hcollection] at hcreated
    exact ⟨⟨_, hcreated⟩, hposts⟩

/-- Storing a changed post that is there. -/
theorem storeChanged_ends (hkeyed : Keyed store.committed) {id : Int32} {post p : Post}
    (hpost : store.find? id = some post) (hid : p.id = post.id) (hremark : p.remark = draft.remark)
    (operation : ApiOperation) (complaint : String) :
    WriteEnds operation store.committed (store.saveFault? id draft) id (some { p with lastModified := now })
      ((wired settings store).storeChanged operation p now complaint) := by
  have hkey : p.id = id := hid.trans (hkeyed id post hpost)
  have hthere : p.id ∈ store.committed := by
    rw [hkey, Std.TreeMap.mem_iff_isSome_getElem?]
    exact Option.isSome_of_eq_some hpost
  subst hkey
  exact save_ends (s := wired settings store) (p := { p with lastModified := now }) (.inr rfl) (fun _ => hthere)
    hremark

theorem find?_eq_none_of_not_mem {id : Int32} (h : id ∉ store.committed) : store.find? id = none :=
  Std.TreeMap.getElem?_eq_none h

theorem exists_find?_of_mem {id : Int32} (h : id ∈ store.committed) : ∃ post, store.find? id = some post :=
  ⟨_, Std.TreeMap.getElem?_eq_some_getElem h⟩

theorem update_ends (hkeyed : Keyed store.committed) (id : Int32) :
    WriteEnds .update store.committed (store.updateFault? id draft) id
      ((store.find? id).map fun post =>
        { post with title := draft.title, body := draft.body, remark := draft.remark, lastModified := now })
      ((wired settings store).update id draft now) := by
  unfold PostStore.updateFault? update
  split
  · next hinvalid =>
    rw [checkDraft_of_not_valid hinvalid]
    exact ⟨rfl, rfl⟩
  next hvalid =>
  rw [checkDraft_of_valid (not_not.mp hvalid)]
  split
  · next habsent =>
    rw [find_of_none (find?_eq_none_of_not_mem habsent)]
    exact ⟨rfl, rfl⟩
  next hthere =>
  obtain ⟨post, hpost⟩ := exists_find?_of_mem (not_not.mp hthere)
  rw [find_of_some hpost, hpost]
  exact storeChanged_ends settings draft now hkeyed hpost (p := draft.applyTo post) rfl rfl ..

theorem patch_ends (hkeyed : Keyed store.committed) (id : Int32) (patch : PostPatch) :
    WriteEnds .partialUpdate store.committed (store.patchFault? id patch) id
      ((store.find? id).map fun post =>
        { post with
          title := patch.title.getD post.title
          body := patch.body.getD post.body
          remark := patch.remark.getD post.remark
          lastModified := now })
      ((wired settings store).patch id patch now) := by
  unfold PostStore.patchFault? PostService.patch
  cases hpost : store.find? id with
  | none =>
    rw [find_of_none hpost]
    exact ⟨rfl, rfl⟩
  | some post =>
    rw [find_of_some hpost]
    dsimp only
    split
    · next hinvalid =>
      rw [checkDraft_of_not_valid hinvalid]
      exact ⟨rfl, rfl⟩
    next hvalid =>
    rw [checkDraft_of_valid (not_not.mp hvalid)]
    exact storeChanged_ends settings _ now hkeyed hpost (p := (patch.apply (.ofPost post)).applyTo post) rfl rfl ..

theorem delete_ends (hkeyed : Keyed store.committed) (id : Int32) :
    WriteEnds .delete store.committed (store.deleteFault? id) id none ((wired settings store).delete id) := by
  unfold PostStore.deleteFault? delete
  split
  · next habsent =>
    rw [find_of_none (find?_eq_none_of_not_mem habsent)]
    exact ⟨rfl, rfl⟩
  next hthere =>
  have hthere := not_not.mp hthere
  obtain ⟨post, hpost⟩ := exists_find?_of_mem hthere
  rw [find_of_some hpost]
  dsimp only
  rw [hkeyed id post hpost]
  split
  · next harmed =>
    rw [save_of_armed harmed]
    exact ⟨rfl, rfl⟩
  · next harmed =>
    rw [save_of_allowed (not_not.mp harmed) (.remove hthere)]
    exact ⟨⟨(), rfl⟩, Change.getElem?_erase_id store.committed id⟩

/-- **A write has exactly its effect, or none**, in every store that a session with fewer than `2 ^ 31 - 1`
additions leads to, whatever number of failures is then armed. A write with a fault is refused for the first one,
in the order of the checks, and the posts stay as they were; without an armed failure the faults are a draft that
is not valid, a post that is not there and a remark that is too long. A write without a fault is answered. Then a
created post stands under the next identity, where there was none; a replaced or patched post has kept its identity
and author, has the parts that were sent and the time of the write; a deleted post is not there any more; and
nothing else has changed. -/
theorem writes_exact_or_none {steps : List StoreStep} (hadds : steps.countP (·.isAdd) < 2 ^ 31 - 1)
    (armed : UInt32) (id : Int32) (patch : PostPatch) :
    let store := (({} : StoreSession).after steps).store.failNextCommits armed
    let service := wired settings store
    (store.nextId ∉ store.committed ∧
      WriteEnds .create store.committed (store.createFault? draft) store.nextId
        (some {
          id := store.nextId
          title := draft.title
          body := draft.body
          author := "admin"
          lastModified := now
          remark := draft.remark })
        (service.create draft now)) ∧
    (∀ post, store.find? id = some post → post.id = id) ∧
    WriteEnds .update store.committed (store.updateFault? id draft) id
      ((store.find? id).map fun post =>
        { post with title := draft.title, body := draft.body, remark := draft.remark, lastModified := now })
      (service.update id draft now) ∧
    WriteEnds .partialUpdate store.committed (store.patchFault? id patch) id
      ((store.find? id).map fun post =>
        { post with
          title := patch.title.getD post.title
          body := patch.body.getD post.body
          remark := patch.remark.getD post.remark
          lastModified := now })
      (service.patch id patch now) ∧
    WriteEnds .delete store.committed (store.deleteFault? id) id none (service.delete id) := by
  intro store service
  have hkeyed : Keyed store.committed := (StoreSession.reachable_run .empty steps).keyed
  have hfresh : (({} : StoreSession).after steps).FreshIds := by
    rw [← StoreSession.sessionAt_length steps]
    exact StoreSession.freshIds_sessionAt hadds steps.length
  have hnew : store.nextId ∉ store.committed := fun hmem =>
    Int32.lt_irrefl (hfresh.committed_lt _ hmem).2
  exact ⟨⟨hnew, create_ends settings draft now store⟩, hkeyed id, update_ends settings draft now hkeyed id,
    patch_ends settings now hkeyed id patch, delete_ends settings hkeyed id⟩

/-- Of a stored post the title alone is patched, and a second post without a body is not created. -/
theorem writes_exact_or_none_one_post :
    let steps : List StoreStep := [.add "a" { (default : Post) with title := "A", body := "B" }, .commit "a"]
    let store := (({} : StoreSession).after steps).store.failNextCommits 0
    let service := wired .default store
    let now : Timestamp := { seconds := 5, nanos := 0 }
    let bare : PostDraft := { title := "C" }
    steps.countP (·.isAdd) < 2 ^ 31 - 1 ∧
    (service.patch 1 { title := some "E" } now).2.store.find? 1 =
      some { id := 1, title := "E", body := "B", author := "", lastModified := now, remark := none } ∧
    (service.create bare now).1 =
      .error ((WriteFault.invalid [⟨"body", "Body is required"⟩]).toError .create) ∧
    (service.create bare now).2.store.committed = store.committed := by
  intro steps store service now bare
  have hadds : steps.countP (·.isAdd) < 2 ^ 31 - 1 := by decide
  have hwrites := writes_exact_or_none .default bare now hadds 0 1 { title := some "E" }
  have hpatch := hwrites.2.2.2.1
  have hcreate := hwrites.1.2
  have hfits : store.patchFault? 1 { title := some "E" } = none := by decide
  have hbare : store.createFault? bare = some (.invalid [⟨"body", "Body is required"⟩]) := by decide
  rw [hfits] at hpatch
  rw [hbare] at hcreate
  exact ⟨hadds, hpatch.2 1, hcreate⟩

end PostService

end HypermediaApi.Blog
