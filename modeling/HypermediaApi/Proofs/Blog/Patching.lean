import HypermediaApi.Proofs.Blog.Validity

/-!
# HypermediaApi.Proofs.Blog.Patching — a patch is the replacement by what it makes of the post

A patch looks for the post first and checks the draft that it makes of it; a replacement is checked before the post is
looked for. Once there is a post, both have the same draft to check and the same change to save. How saving ends
depends on neither the operation nor the wording of the complaint, which is not for clients: only the operation that
an error names tells the two apart (`save_alike`).

The empty patch makes of a post its own draft. That one is valid as long as the stored post is, and stored posts are
sound after all calls, even after so many that identities have run over.
-/

namespace HypermediaApi.Blog.PostService

/-- Two operations end alike. Both go through and leave the same service behind; or both are refused with errors that
differ in the operation only, the same service is left behind, and the posts are as they were. -/
def EndAlike (before : Posts) (operation operation' : ApiOperation) (r r' : Except ApiError Unit × PostService) :
    Prop :=
  (∃ service, r = (.ok (), service) ∧ r' = (.ok (), service)) ∨
  ∃ (e : ApiError) (service : PostService), service.store.committed = before ∧
    r = (.error { e with operation }, service) ∧ r' = (.error { e with operation := operation' }, service)

variable {s : PostService} {id : Int32} {post : Post}

/-- **How saving ends depends on neither the operation nor the complaint**, apart from the operation that an error
names. -/
theorem save_alike (s : PostService) (operation operation' : ApiOperation) (unit : UnitOfWork)
    (complaint complaint' : String) :
    EndAlike s.store.committed operation operation' (s.save operation unit complaint)
      (s.save operation' unit complaint') := by
  by_cases harmed : s.store.armedFailures = 0
  · unfold save
    rw [PostStore.commit_of_not_armed harmed]
    cases unit.findSome? (·.fault? s.store.committed) with
    | some fault => exact .inr ⟨.ofFailure (.storage fault), s, rfl, rfl, rfl⟩
    | none => exact .inl ⟨_, rfl, rfl⟩
  · -- Clients get the same words for every commit that failed as a whole, so the complaint does not show.
    rw [save_of_armed harmed, save_of_armed harmed]
    refine .inr ⟨WriteFault.unsaved.toError operation, _, ?_, rfl, rfl⟩
    rfl

theorem patch_alike_update (hpost : s.store.find? id = some post) (patch : PostPatch) (now : Timestamp) :
    EndAlike s.store.committed .partialUpdate .update (s.patch id patch now)
      (s.update id (patch.apply (.ofPost post)) now) := by
  let merged := patch.apply (.ofPost post)
  unfold PostService.patch update
  rw [find_of_some hpost, find_of_some hpost]
  dsimp only
  by_cases hvalid : merged.Valid
  · rw [checkDraft_of_valid hvalid, checkDraft_of_valid hvalid]
    exact save_alike s .partialUpdate .update [.update { merged.applyTo post with lastModified := now }] _ _
  · rw [checkDraft_of_not_valid hvalid, checkDraft_of_not_valid hvalid]
    exact .inr ⟨(WriteFault.invalid merged.errors).toError .update, s, rfl, rfl, rfl⟩

/-- The empty patch of a sound post sets its time, and nothing else. -/
theorem patch_empty (hsound : Sound s.store) (harmed : s.store.armedFailures = 0)
    (hpost : s.store.find? id = some post) (now : Timestamp) :
    s.patch id {} now = (.ok (), { s with store := { s.store with
      committed := s.store.committed.insert id { post with lastModified := now } } }) := by
  obtain ⟨rfl, hvalid⟩ := hsound id post hpost
  have hthere : post.id ∈ s.store.committed := by
    rw [Std.TreeMap.mem_iff_isSome_getElem?]
    exact Option.isSome_of_eq_some hpost
  have hchecked : checkDraft .partialUpdate (({} : PostPatch).apply (.ofPost post)) = .ok () :=
    checkDraft_of_valid hvalid.draft_valid
  unfold PostService.patch
  rw [find_of_some hpost]
  dsimp only
  rw [hchecked]
  exact save_of_allowed (c := .update { post with lastModified := now }) harmed (.update hvalid.remark_fits hthere)

/-- **A patch of a post is the replacement by what the patch makes of it.** Whatever is stored and however many
failures are armed, the two end alike. After start-up and any calls, with no failure armed, the empty patch of a
stored post goes through, and nothing changes but the time of its last modification. -/
theorem patch_is_update_of_merged :
    (∀ (s : PostService) (id : Int32) (post : Post) (patch : PostPatch) (now : Timestamp),
      s.store.find? id = some post →
      EndAlike s.store.committed .partialUpdate .update (s.patch id patch now)
        (s.update id (patch.apply (.ofPost post)) now)) ∧
    ∀ (settings : Settings) (start : Timestamp), ∃ s, bootstrap settings start = .ok s ∧
      ∀ (calls : List ApiCall) (id : Int32) (post : Post) (now : Timestamp),
        let reached := s.after calls
        reached.store.armedFailures = 0 → reached.store.find? id = some post →
        reached.patch id {} now = (.ok (), { reached with store := { reached.store with
          committed := reached.store.committed.insert id { post with lastModified := now } } }) := by
  refine ⟨fun s id post patch now hpost => patch_alike_update hpost patch now, fun settings start =>
    ⟨_, bootstrap_eq settings start, ?_⟩⟩
  intro calls id post now reached harmed hpost
  exact patch_empty ((orderly_withSamples start).sound.after calls) harmed hpost now

/-- Of a new post that a remark has been added to, a patch to a blank title ends like the replacement by it, and a
patch of nothing keeps the remark. -/
theorem patch_is_update_of_merged_remark :
    let now : Timestamp := { seconds := 5, nanos := 0 }
    let later : Timestamp := { seconds := 6, nanos := 0 }
    let calls : List ApiCall := [.create { title := "A", body := "B" } now, .patch 9 { remark := some (some "C") } now]
    let blank : PostPatch := { title := some " " }
    ∃ s post, bootstrap .default now = .ok s ∧ (s.after calls).store.armedFailures = 0 ∧
      (s.after calls).store.find? 9 = some post ∧ post.remark = some "C" ∧
      EndAlike (s.after calls).store.committed .partialUpdate .update ((s.after calls).patch 9 blank later)
        ((s.after calls).update 9 { title := " ", body := "B", remark := some "C" } later) ∧
      ((s.after calls).patch 9 {} later).1 = .ok () ∧
      ((s.after calls).patch 9 {} later).2.store.find? 9 = some { post with lastModified := later } := by
  intro now later calls blank
  obtain ⟨halike, hruns⟩ := patch_is_update_of_merged
  obtain ⟨s, hstart, hempty⟩ := hruns .default now
  let post : Post := { id := 9, title := "A", body := "B", author := "admin", lastModified := now, remark := some "C" }
  have hreached : (s.after calls).store.armedFailures = 0 ∧ (s.after calls).store.find? 9 = some post := by
    obtain rfl := Except.ok.inj (hstart.symm.trans (bootstrap_eq .default now))
    decide
  obtain ⟨harmed, hpost⟩ := hreached
  have hpatched := hempty calls 9 post later harmed hpost
  refine ⟨s, post, hstart, harmed, hpost, rfl, halike (s.after calls) 9 post blank later hpost, ?_, ?_⟩
  · rw [hpatched]
  · rw [hpatched]
    exact Std.TreeMap.getElem?_insert_self

end HypermediaApi.Blog.PostService
