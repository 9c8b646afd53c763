import HypermediaApi.Proofs.Blog.Startup
import HypermediaApi.Proofs.Blog.Writing

/-!
# HypermediaApi.Proofs.Blog.Validity — stored posts stay valid

The rules of posts are looked after in several places: drafts are checked before anything is staged, what a patch
makes of a post is checked once more, and the length of a remark is left to the commit. `Post.Valid` puts them
together, and no sequence of calls on a service that has been started up leads to a stored post that breaks them.

The step is `origin_of_stored`: whatever stands under an identity after a call stood there before, is a new post
under the next identity, or was written over a post of the same author. Everything else about a call is its frame
(`afterCall_frame`): the collection stays what it is, and an identity is taken for a valid draft only.

An identity is never given to a second post, so its author stays the same. Signed identities run over after
`2 ^ 31 - 1`, and the sample posts come on top of what clients create; the order in which identities are given out
is therefore the one of their unsigned reading, `idNumber`, which has room for all of them. The rules of posts
themselves need no such room (`Sound.after`): an identity that comes round again is taken by a valid post.
-/

namespace HypermediaApi.Blog

/-- The post keeps the rules of posts. -/
structure Post.Valid (p : Post) : Prop where
  draft_valid : (PostDraft.ofPost p).Valid
  remark_fits : p.RemarkFits
  author_known : p.author = "Dave" ∨ p.author = "admin"

/-- A call of the service. -/
inductive ApiCall where
  | create (draft : PostDraft) (now : Timestamp)
  | update (id : Int32) (draft : PostDraft) (now : Timestamp)
  | patch (id : Int32) (patch : PostPatch) (now : Timestamp)
  | delete (id : Int32)
  | list (p : Parameters PostFilter)
  | listPlain (p : Parameters PostFilter)
  | get (id : Int32) (fields : Option String)
  | failNextCommits (count : UInt32)

namespace ApiCall

/-- The call creates a post, or tries to. -/
def isCreate : ApiCall → Bool
  | create _ _ => true
  | _ => false

/-- The call takes an identity, which is lost if the commit then fails. -/
def takesId : ApiCall → Bool
  | create draft _ => draft.Valid
  | _ => false

theorem isCreate_of_takesId {call : ApiCall} (h : call.takesId = true) : call.isCreate = true := by
  cases call with
  | create draft now => rfl
  | _ => cases h

end ApiCall

/-! ### The order of identities -/

/-- The place of an identity in the order in which identities are given out. -/
def idNumber (id : Int32) : Nat := id.toUInt32.toNat

theorem idNumber_add_one (id : Int32) : idNumber (id + 1) = (idNumber id + 1) % 2 ^ 32 := by
  unfold idNumber
  rw [Int32.toUInt32_add, UInt32.toNat_add]
  rfl

theorem idNumber_add_one_le (id : Int32) : idNumber (id + 1) ≤ idNumber id + 1 := by
  rw [idNumber_add_one]
  exact Nat.mod_le _ _

theorem idNumber_add_one_of_lt {id : Int32} (h : idNumber id + 1 < 2 ^ 32) :
    idNumber (id + 1) = idNumber id + 1 := by
  rw [idNumber_add_one]
  exact Nat.mod_eq_of_lt h

/-- There is an identity left for the call, if it may take one. -/
def PostStore.HasRoom (store : PostStore) (call : ApiCall) : Prop :=
  call.isCreate = true → idNumber store.nextId + 1 < 2 ^ 32

/-! ### What a write without a fault has been checked for -/

namespace PostStore

variable {store : PostStore} {id : Int32} {draft : PostDraft}

theorem remarkFits_of_saveFault? (h : store.saveFault? id draft = none) : draft.RemarkFits := by
  simp only [saveFault?] at h
  split at h
  · cases h
  split at h
  · cases h
  · next hfits => exact not_not.mp hfits

theorem checked_of_createFault? (h : store.createFault? draft = none) : draft.Valid ∧ draft.RemarkFits := by
  simp only [createFault?] at h
  split at h
  · cases h
  · next hvalid => exact ⟨not_not.mp hvalid, remarkFits_of_saveFault? h⟩

theorem checked_of_updateFault? (h : store.updateFault? id draft = none) : draft.Valid ∧ draft.RemarkFits := by
  simp only [updateFault?] at h
  split at h
  · cases h
  split at h
  · cases h
  · next hvalid _ => exact ⟨not_not.mp hvalid, remarkFits_of_saveFault? h⟩

theorem checked_of_patchFault? {patch : PostPatch} {post : Post} (hpost : store.find? id = some post)
    (h : store.patchFault? id patch = none) :
    (patch.apply (.ofPost post)).Valid ∧ (patch.apply (.ofPost post)).RemarkFits := by
  simp only [patchFault?, hpost] at h
  split at h
  · cases h
  · next hvalid => exact ⟨not_not.mp hvalid, remarkFits_of_saveFault? h⟩

end PostStore

/-- What is stored after a write was stored before, or is what the write stores. -/
theorem WriteEnds.stored {β : Type} {operation : ApiOperation} {before : Posts} {fault? : Option WriteFault}
    {id : Int32} {post? : Option Post} {result : Except ApiError β × PostService}
    (h : WriteEnds operation before fault? id post? result) {k : Int32} {post : Post}
    (hget : result.2.store.find? k = some post) :
    before[k]? = some post ∨ fault? = none ∧ k = id ∧ post? = some post := by
  unfold PostStore.find? at hget
  cases fault? with
  | some fault =>
    rw [h.2] at hget
    exact .inl hget
  | none =>
    rw [h.2 k] at hget
    by_cases hk : k = id
    · rw [if_pos hk] at hget
      exact .inr ⟨rfl, hk, hget⟩
    · rw [if_neg hk] at hget
      exact .inl hget

namespace PostService

/-- The service after a call; a call that only reads leaves it as it is. -/
def afterCall (s : PostService) : ApiCall → PostService
  | .create draft now => (s.create draft now).2
  | .update id draft now => (s.update id draft now).2
  | .patch id patch now => (s.patch id patch now).2
  | .delete id => (s.delete id).2
  | .list _ | .listPlain _ | .get _ _ => s
  | .failNextCommits count => s.failNextCommits count

/-- The service after calls one after the other. -/
def after (s : PostService) (calls : List ApiCall) : PostService := calls.foldl afterCall s

@[simp] theorem after_nil (s : PostService) : s.after [] = s := rfl

@[simp] theorem after_cons (s : PostService) (call : ApiCall) (rest : List ApiCall) :
    s.after (call :: rest) = (s.afterCall call).after rest := rfl

theorem after_append (s : PostService) (calls more : List ApiCall) :
    s.after (calls ++ more) = (s.after calls).after more :=
  List.foldl_append

/-! ### One call -/

theorem save_frame (s : PostService) (operation : ApiOperation) (unit : UnitOfWork) (complaint : String) :
    (s.save operation unit complaint).2.collection = s.collection ∧
      (s.save operation unit complaint).2.store.nextId = s.store.nextId := by
  refine ⟨collection_save s operation unit complaint, ?_⟩
  rw [← PostStore.nextId_commit s.store unit]
  simp only [save]
  cases (s.store.commit unit).1 with
  | error e => rfl
  | ok saved => cases saved <;> rfl

/-- The identity of a new post is taken once its draft has been checked. -/
theorem create_frame (s : PostService) (draft : PostDraft) (now : Timestamp) :
    (s.create draft now).2.collection = s.collection ∧
      (s.create draft now).2.store.nextId = if draft.Valid then s.store.nextId + 1 else s.store.nextId := by
  simp only [create]
  by_cases hvalid : draft.Valid
  · have hsave := save_frame { s with store := { s.store with nextId := s.store.nextId + 1 } } .create
    rw [checkDraft_of_valid hvalid, if_pos hvalid]
    dsimp only
    split
    · next heq =>
      rw [← congrArg Prod.snd heq]
      exact hsave ..
    · next heq =>
      rw [← congrArg Prod.snd heq]
      exact hsave ..
  · rw [checkDraft_of_not_valid hvalid, if_neg hvalid]
    exact ⟨rfl, rfl⟩

/-- **What a call leaves alone**: the collection, and the next identity unless it takes it. -/
theorem afterCall_frame (s : PostService) (call : ApiCall) :
    (s.afterCall call).collection = s.collection ∧
      (s.afterCall call).store.nextId = if call.takesId then s.store.nextId + 1 else s.store.nextId := by
  cases call with
  | create draft now => simpa only [afterCall, ApiCall.takesId, decide_eq_true_eq] using create_frame s draft now
  | update id draft now =>
    simp only [afterCall, update]
    split
    · exact ⟨rfl, rfl⟩
    · exact ⟨rfl, rfl⟩
    · exact save_frame s ..
  | patch id patch now =>
    simp only [afterCall, PostService.patch]
    split
    · exact ⟨rfl, rfl⟩
    · split
      · exact ⟨rfl, rfl⟩
      · exact save_frame s ..
  | delete id =>
    simp only [afterCall, delete]
    split
    · exact ⟨rfl, rfl⟩
    · exact save_frame s ..
  | _ => exact ⟨rfl, rfl⟩

variable {settings : Settings} {store : PostStore} {call : ApiCall}

/-- A wired service stays wired. -/
theorem afterCall_wired (settings : Settings) (store : PostStore) (call : ApiCall) :
    (wired settings store).afterCall call = wired settings ((wired settings store).afterCall call).store :=
  eq_wired (afterCall_frame (wired settings store) call).1

theorem idNumber_nextId_afterCall_le (s : PostService) (call : ApiCall) :
    idNumber (s.afterCall call).store.nextId ≤ idNumber s.store.nextId + if call.isCreate then 1 else 0 := by
  rw [(afterCall_frame s call).2]
  split
  · next htakes =>
    rw [if_pos (ApiCall.isCreate_of_takesId htakes)]
    exact idNumber_add_one_le _
  · exact Nat.le_add_right _ _

/-- As long as identities do not run over, the next identity moves on. -/
theorem idNumber_nextId_le_afterCall {s : PostService} (hroom : s.store.HasRoom call) :
    idNumber s.store.nextId ≤ idNumber (s.afterCall call).store.nextId := by
  rw [(afterCall_frame s call).2]
  split
  · next htakes =>
    rw [idNumber_add_one_of_lt (hroom (ApiCall.isCreate_of_takesId htakes))]
    exact Nat.le_add_right _ _
  · exact Nat.le_refl _

/-! ### The invariant -/

/-- Every stored post is valid and stands under its own identity. -/
def Sound (store : PostStore) : Prop := ∀ id post, store.find? id = some post → post.id = id ∧ post.Valid

/-- Every stored post is valid and stands under an identity of its own that has been given out. -/
def Orderly (store : PostStore) : Prop :=
  ∀ id post, store.find? id = some post →
    post.id = id ∧ post.Valid ∧ idNumber id < idNumber store.nextId

theorem Orderly.sound (h : Orderly store) : Sound store := fun id post hpost =>
  ⟨(h id post hpost).1, (h id post hpost).2.1⟩

/-- Where a post comes from that stands under an identity after a call. -/
inductive Origin (store : PostStore) (call : ApiCall) (id : Int32) (post : Post) : Prop
  /-- It stood there before. -/
  | kept : store.find? id = some post → Origin store call id post
  /-- It is new. -/
  | created : call.takesId = true → id = store.nextId → post.id = id → post.Valid → Origin store call id post
  /-- It was written over another one. -/
  | rewritten {old : Post} : store.find? id = some old → post.author = old.author → post.id = id →
      post.Valid → Origin store call id post

/-- **What stands under an identity after a call** stood there before, is new, or was written over a post of the
same author; and whatever a call writes is valid. -/
theorem origin_of_stored (h : Sound store) {id : Int32} {post : Post}
    (hget : ((wired settings store).afterCall call).store.find? id = some post) :
    Origin store call id post := by
  have hkeyed : Keyed store.committed := fun k p hp => (h k p hp).1
  cases call with
  | create draft now =>
    rcases (create_ends settings draft now store).stored hget with hkept | ⟨hfault, rfl, hpost⟩
    · exact .kept hkept
    · obtain ⟨hvalid, hfits⟩ := PostStore.checked_of_createFault? hfault
      obtain rfl := Option.some.inj hpost
      exact .created (decide_eq_true hvalid) rfl rfl ⟨hvalid, hfits, .inr rfl⟩
  | update k draft now =>
    rcases (update_ends settings draft now hkeyed k).stored hget with hkept | ⟨hfault, rfl, hpost⟩
    · exact .kept hkept
    · obtain ⟨hvalid, hfits⟩ := PostStore.checked_of_updateFault? hfault
      obtain ⟨old, hold, rfl⟩ := Option.map_eq_some_iff.mp hpost
      obtain ⟨hid, hold_valid⟩ := h id old hold
      exact .rewritten hold rfl hid ⟨hvalid, hfits, hold_valid.author_known⟩
  | patch k patch now =>
    rcases (patch_ends settings now hkeyed k patch).stored hget with hkept | ⟨hfault, rfl, hpost⟩
    · exact .kept hkept
    · obtain ⟨old, hold, rfl⟩ := Option.map_eq_some_iff.mp hpost
      obtain ⟨hvalid, hfits⟩ := PostStore.checked_of_patchFault? hold hfault
      obtain ⟨hid, hold_valid⟩ := h id old hold
      exact .rewritten hold rfl hid ⟨hvalid, hfits, hold_valid.author_known⟩
  | delete k =>
    rcases (delete_ends settings hkeyed k).stored hget with hkept | ⟨-, -, hpost⟩
    · exact .kept hkept
    · cases hpost
  | _ => exact .kept hget

/-- **A call keeps the stored posts sound**, even if identities run over. -/
theorem Sound.afterCall (h : Sound store) : Sound ((wired settings store).afterCall call).store := by
  intro id post hget
  cases origin_of_stored h hget with
  | kept hold => exact h id post hold
  | created _ _ hid hvalid => exact ⟨hid, hvalid⟩
  | rewritten _ _ hid hvalid => exact ⟨hid, hvalid⟩

/-- **A call keeps the stored posts orderly**, as long as identities do not run over. -/
theorem Orderly.afterCall (h : Orderly store) (hroom : store.HasRoom call) :
    Orderly ((wired settings store).afterCall call).store := by
  intro id post hget
  have hgrows := idNumber_nextId_le_afterCall (s := wired settings store) hroom
  cases origin_of_stored h.sound hget with
  | kept hold =>
    obtain ⟨hid, hvalid, hlt⟩ := h id post hold
    exact ⟨hid, hvalid, hlt.trans_le hgrows⟩
  | created htakes hnew hid hvalid =>
    refine ⟨hid, hvalid, ?_⟩
    rw [(afterCall_frame _ call).2, if_pos htakes, hnew, wired_store,
      idNumber_add_one_of_lt (hroom (ApiCall.isCreate_of_takesId htakes))]
    exact Nat.lt_succ_self _
  | rewritten hold hauthor hid hvalid => exact ⟨hid, hvalid, (h id _ hold).2.2.trans_le hgrows⟩

/-- The stored posts are orderly, the identity has been given out, and the post that it was given to has the
author, if it is still there. -/
structure Attributed (id : Int32) (author : String) (store : PostStore) : Prop where
  orderly : Orderly store
  given_out : idNumber id < idNumber store.nextId
  author_eq : ∀ post, store.find? id = some post → post.author = author

/-- **A call does not change who the author of an identity is.** -/
theorem Attributed.afterCall {id : Int32} {author : String} (h : Attributed id author store)
    (hroom : store.HasRoom call) :
    Attributed id author ((wired settings store).afterCall call).store where
  orderly := h.orderly.afterCall hroom
  given_out := h.given_out.trans_le (idNumber_nextId_le_afterCall (s := wired settings store) hroom)
  author_eq post hget := by
    cases origin_of_stored h.orderly.sound hget with
    | kept hold => exact h.author_eq post hold
    | created _ hnew =>
      have hlt := h.given_out
      rw [hnew] at hlt
      exact absurd hlt (Nat.lt_irrefl _)
    | rewritten hold hauthor => exact hauthor.trans (h.author_eq _ hold)

/-! ### Runs -/

/-- **What every call keeps holds after calls**, as long as there are identities for all of them. -/
theorem after_induction {motive : PostStore → Prop}
    (step : ∀ {store : PostStore} {call : ApiCall}, store.HasRoom call → motive store →
      motive ((wired settings store).afterCall call).store)
    {calls : List ApiCall} (hroom : idNumber store.nextId + calls.countP ApiCall.isCreate < 2 ^ 32)
    (h : motive store) : motive ((wired settings store).after calls).store := by
  induction calls generalizing store with
  | nil => exact h
  | cons call rest ih =>
    rw [List.countP_cons] at hroom
    have hgrows := idNumber_nextId_afterCall_le (wired settings store) call
    rw [wired_store] at hgrows
    rw [after_cons, afterCall_wired]
    refine ih (by omega) (step ?_ h)
    intro hcreate
    rw [if_pos hcreate] at hroom
    omega

/-- Every creation takes at most one identity. -/
theorem idNumber_nextId_after_le (s : PostService) (calls : List ApiCall) :
    idNumber (s.after calls).store.nextId ≤ idNumber s.store.nextId + calls.countP ApiCall.isCreate := by
  induction calls generalizing s with
  | nil => exact Nat.le_refl _
  | cons call rest ih =>
    have hrest := ih (s.afterCall call)
    have hcall := idNumber_nextId_afterCall_le s call
    rw [List.countP_cons, after_cons]
    omega

theorem after_wired (settings : Settings) (store : PostStore) (calls : List ApiCall) :
    (wired settings store).after calls = wired settings ((wired settings store).after calls).store := by
  induction calls generalizing store with
  | nil => rfl
  | cons call rest ih =>
    rw [after_cons, afterCall_wired]
    exact ih _

/-- Calls keep the stored posts sound. -/
theorem Sound.after (h : Sound store) (calls : List ApiCall) : Sound ((wired settings store).after calls).store := by
  induction calls generalizing store with
  | nil => exact h
  | cons call rest ih =>
    rw [after_cons, afterCall_wired]
    exact ih h.afterCall

/-- The sample posts are orderly. -/
theorem orderly_withSamples (now : Timestamp) : Orderly (({} : PostStore).withSamples now) := by
  have hnumber : ∀ k < 8, idNumber (1 + .ofNat k) < 9 := by decide
  have hdraft : ∀ i < 8, PostDraft.Valid {
      title := "Post Title " ++ toString (i + 1)
      body := "Post Body " ++ toString (i + 1) } := by
    decide
  intro id post hget
  rcases Change.getElem?_foldl_apply hget with hbefore | ⟨c, hc, hsets, rfl⟩
  · cases Std.TreeMap.getElem?_emptyc.symm.trans hbefore
  obtain ⟨p, hp, rfl⟩ := List.mem_map.mp hc
  obtain rfl : p = post := by
    rcases hsets with hadd | hupdate
    · exact Change.add.inj hadd
    · cases hupdate
  obtain ⟨k, q, hk, hq, rfl⟩ := exists_of_mem_numbered hp
  obtain ⟨i, hi, rfl⟩ := of_mem_samplePosts hq
  exact ⟨rfl, ⟨⟨(hdraft i hi).1, (hdraft i hi).2, (hdraft i hi).3⟩, nofun, .inl rfl⟩, hnumber k hk⟩

/-- **Stored posts stay valid, and authors stay the same.** Start-up succeeds, and after any calls that follow it,
with fewer than `2 ^ 31 - 1` creations among them, every stored post stands under its own identity, has a title of
at most 100 characters and a body that are not blank, a remark of at most 200 characters if any, and an author that
is known; and if a post stands under the same identity after further calls, then it has the same author. -/
theorem posts_stay_valid (settings : Settings) (now : Timestamp) :
    ∃ s, bootstrap settings now = .ok s ∧ ∀ calls more : List ApiCall,
      (calls ++ more).countP ApiCall.isCreate < 2 ^ 31 - 1 →
      (∀ id post, (s.after calls).store.find? id = some post → post.id = id ∧ post.Valid) ∧
      ∀ id post later, (s.after calls).store.find? id = some post →
        (s.after (calls ++ more)).store.find? id = some later → later.author = post.author := by
  refine ⟨_, bootstrap_eq settings now, ?_⟩
  intro calls more hcreates
  rw [List.countP_append] at hcreates
  let start : PostStore := ({} : PostStore).withSamples now
  have hstart : idNumber start.nextId = 9 := rfl
  have horderly : Orderly ((wired settings start).after calls).store := by
    refine after_induction (fun hroom h => h.afterCall hroom) ?_ (orderly_withSamples now)
    rw [hstart]
    omega
  refine ⟨fun id post hget => ⟨(horderly id post hget).1, (horderly id post hget).2.1⟩, ?_⟩
  intro id post later hget hlater
  have hattributed : Attributed id post.author ((wired settings start).after calls).store := {
    orderly := horderly
    given_out := (horderly id post hget).2.2
    author_eq := by
      intro p hp
      rw [Option.some.inj (hp.symm.trans hget)] }
  have hroom := idNumber_nextId_after_le (wired settings start) calls
  rw [wired_store, hstart] at hroom
  rw [after_append, after_wired] at hlater
  exact (after_induction (fun hroom h => h.afterCall hroom) (by omega) hattributed).author_eq later hlater

/-- One creation is lost to an armed failure, which costs an identity; a patch to a blank title is refused, and one
to another title goes through. -/
theorem posts_stay_valid_after_patches :
    let now : Timestamp := { seconds := 5, nanos := 0 }
    let draft : PostDraft := { title := "A", body := "B" }
    let calls : List ApiCall := [.failNextCommits 1, .create draft now, .create draft now,
      .patch 10 { title := some " " } now]
    let more : List ApiCall := [.patch 10 { title := some "C" } now]
    (calls ++ more).countP ApiCall.isCreate < 2 ^ 31 - 1 ∧
    ∃ s post later, bootstrap .default now = .ok s ∧ (s.after calls).store.find? 10 = some post ∧ post.Valid ∧
      (s.after (calls ++ more)).store.find? 10 = some later ∧ later.title = "C" ∧ later.author = post.author := by
  intro now draft calls more
  have hcreates : (calls ++ more).countP ApiCall.isCreate < 2 ^ 31 - 1 := by decide
  obtain ⟨s, hstart, hrun⟩ := posts_stay_valid .default now
  obtain rfl := Except.ok.inj (hstart.symm.trans (bootstrap_eq .default now))
  let post : Post := { id := 10, title := "A", body := "B", author := "admin", lastModified := now, remark := none }
  let start := wired .default (({} : PostStore).withSamples now)
  have hpost : (start.after calls).store.find? 10 = some post := by decide
  have hlater : (start.after (calls ++ more)).store.find? 10 = some { post with title := "C" } := by decide
  obtain ⟨hvalid, hauthor⟩ := hrun calls more hcreates
  exact ⟨hcreates, start, post, _, hstart, hpost, (hvalid 10 post hpost).2, hlater, rfl,
    hauthor 10 post _ hpost hlater⟩

end PostService

end HypermediaApi.Blog
