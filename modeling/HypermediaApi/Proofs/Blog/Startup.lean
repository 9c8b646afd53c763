import HypermediaApi.Proofs.Blog.Reading

/-!
# HypermediaApi.Proofs.Blog.Startup — what start-up leaves behind

An attempt to seed an empty store stages the sample posts one after the other, so that they take the next identities
in turn (`stageAll_eq`), and commits them. No rule of the store speaks against it, hence only an armed failure does
(`seedOnce_of_empty`). A new store has none armed: start-up succeeds at the first attempt, whatever the settings
are, and leaves a wired service over the sample posts behind (`bootstrap_eq`).
-/

namespace HypermediaApi.Blog

/-- The posts under identities that count up from the given one. -/
def numbered (id : Int32) : List Post → List Post
  | [] => []
  | p :: rest => { p with id } :: numbered (id + 1) rest

/-- A numbered post is one of the posts, under the identity of its place. -/
theorem exists_of_mem_numbered {id : Int32} {ps : List Post} {p : Post} (h : p ∈ numbered id ps) :
    ∃ k q, k < ps.length ∧ q ∈ ps ∧ p = { q with id := id + .ofNat k } := by
  induction ps generalizing id with
  | nil => cases h
  | cons q rest ih =>
    rcases List.mem_cons.mp h with rfl | hrest
    · refine ⟨0, q, Nat.succ_pos _, List.mem_cons_self, ?_⟩
      rw [show Int32.ofNat 0 = 0 from rfl, Int32.add_zero]
    · obtain ⟨k, q', hk, hq', rfl⟩ := ih hrest
      refine ⟨k + 1, q', Nat.succ_lt_succ hk, List.mem_cons_of_mem q hq', ?_⟩
      rw [Int32.ofNat_add, Int32.add_assoc, Int32.add_comm 1]
      rfl

/-- A sample post has a title and a body, and no remark. -/
theorem of_mem_samplePosts {now : Timestamp} {p : Post} (h : p ∈ samplePosts now) :
    ∃ i < 8, p = {
      id := 0
      title := "Post Title " ++ toString (i + 1)
      body := "Post Body " ++ toString (i + 1)
      author := "Dave"
      lastModified := now
      remark := none } := by
  obtain ⟨i, hi, rfl⟩ := List.mem_map.mp h
  exact ⟨i, List.mem_range.mp hi, rfl⟩

namespace PostStore

variable {s : PostStore} {now : Timestamp}

/-- **Posts that are staged one after the other take the next identities in turn.** -/
theorem stageAll_eq (s : PostStore) (unit : UnitOfWork) (ps : List Post) :
    s.stageAll unit ps =
      ({ s with nextId := s.nextId + .ofNat ps.length }, unit ++ (numbered s.nextId ps).map .add) := by
  induction ps generalizing s unit with
  | nil => simp [stageAll, numbered]
  | cons p rest ih =>
    have hnext : s.nextId + 1 + Int32.ofNat rest.length = s.nextId + Int32.ofNat (rest.length + 1) := by
      rw [Int32.ofNat_add, Int32.add_assoc, Int32.add_comm 1]
      rfl
    simp only [stageAll, stageAdd, ih, numbered, hnext, List.length_cons, List.map_cons, List.append_assoc,
      List.singleton_append]

/-- The store with the sample posts under the next identities. -/
def withSamples (s : PostStore) (now : Timestamp) : PostStore :=
  { s with
    committed := ((numbered s.nextId (samplePosts now)).map Change.add).foldl Change.apply s.committed
    nextId := s.nextId + 8 }

/-- **An attempt to seed an empty store with no failure armed succeeds.** -/
theorem seedOnce_of_empty (hempty : s.size = 0) (harmed : s.armedFailures = 0) (now : Timestamp) :
    s.seedOnce [] now = (.ok (), s.withSamples now, []) := by
  have hallowed : ∀ c ∈ (numbered s.nextId (samplePosts now)).map Change.add, c.Allowed s.committed := by
    intro c hc
    obtain ⟨p, hp, rfl⟩ := List.mem_map.mp hc
    obtain ⟨k, q, -, hq, rfl⟩ := exists_of_mem_numbered hp
    obtain ⟨i, -, rfl⟩ := of_mem_samplePosts hq
    exact .add nofun
  have hcommit := commit_of_allowed (s := { s with nextId := s.nextId + .ofNat (samplePosts now).length }) harmed
    hallowed
  unfold seedOnce
  rw [if_neg (not_not.mpr hempty), stageAll_eq]
  simp only [List.nil_append, hcommit]
  rfl

/-- There is at least one attempt to seed. -/
theorem exists_toNat_attempts (settings : SeedSettings) : ∃ left, (attempts settings).toNat = left + 1 := by
  have hattempts : attempts settings ≠ 0 := by
    unfold attempts
    split
    · decide
    · next h => exact h
  exact Nat.exists_eq_succ_of_ne_zero fun hzero => hattempts (UInt32.toNat_inj.mp hzero)

/-- Seeding a new store takes one attempt. -/
theorem seed_new (settings : SeedSettings) (now : Timestamp) :
    ({} : PostStore).seed [] settings now = (.ok (), ({} : PostStore).withSamples now, []) := by
  obtain ⟨left, hleft⟩ := exists_toNat_attempts settings
  have honce : ({} : PostStore).seedOnce [] now = (.ok (), ({} : PostStore).withSamples now, []) :=
    seedOnce_of_empty rfl rfl now
  simp only [seed, hleft, seedAttempts, honce]

end PostStore

namespace PostService

/-- **Start-up succeeds**, and leaves a wired service over the sample posts behind. -/
theorem bootstrap_eq (settings : Settings) (now : Timestamp) :
    bootstrap settings now = .ok (wired settings (({} : PostStore).withSamples now)) := by
  unfold bootstrap
  rw [show registerPosts {} = .ok postRegistry from rfl]
  simp only [PostStore.seed_new, bind, Except.bind]
  rfl

end PostService

end HypermediaApi.Blog
