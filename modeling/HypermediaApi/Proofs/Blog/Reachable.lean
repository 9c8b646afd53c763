import HypermediaApi.Blog.Service
import HypermediaApi.Proofs.Blog.Commit
import Mathlib.Algebra.Group.Nat.Defs
import Mathlib.Data.Fintype.Card

/-!
# HypermediaApi.Proofs.Blog.Reachable — the stores that can come about

A store changes in three ways: a post is staged, which takes an identity, a unit of work is committed, and
failures are armed. `PostStore.Reachable` collects what these lead to from an empty store, in any order and
with any units; the sessions of the store stay within it (`StoreSession.reachable_run`).

The invariant is that every post is stored under its own identity (`Keyed`). One change keeps it, hence a
commit does, hence a whole run. What it is good for: the committed posts have pairwise different identities,
and there are at most `2 ^ 32` of them.
-/

namespace HypermediaApi.Blog

/-- Every post is stored under its own identity. -/
def Keyed (posts : Posts) : Prop := ∀ (id : Int32) (post : Post), posts[id]? = some post → post.id = id

theorem keyed_empty : Keyed {} := by
  intro id post h
  simp at h

theorem Keyed.insert {posts : Posts} (h : Keyed posts) (p : Post) : Keyed (posts.insert p.id p) := by
  intro id post hget
  rw [Std.TreeMap.getElem?_insert] at hget
  split at hget
  · next heq =>
    obtain rfl := Option.some.inj hget
    exact Std.LawfulEqCmp.eq_of_compare heq
  · exact h id post hget

theorem Keyed.erase {posts : Posts} (h : Keyed posts) (id : Int32) : Keyed (posts.erase id) := by
  intro id' post hget
  rw [Std.TreeMap.getElem?_erase] at hget
  split at hget
  · cases hget
  · exact h id' post hget

/-- **One change keeps the posts keyed.** -/
theorem Keyed.apply {posts : Posts} (h : Keyed posts) (c : Change) : Keyed (c.apply posts) := by
  cases c with
  | add p => exact h.insert p
  | update p => exact h.insert p
  | remove id => exact h.erase id

theorem Keyed.foldl_apply {posts : Posts} (h : Keyed posts) (unit : UnitOfWork) :
    Keyed (unit.foldl Change.apply posts) := by
  induction unit generalizing posts with
  | nil => exact h
  | cons c rest ih => exact ih (h.apply c)

namespace PostStore

/-- The stores that come about from an empty one. -/
inductive Reachable : PostStore → Prop where
  | empty : Reachable {}
  | stageAdd {s : PostStore} (unit : UnitOfWork) (p : Post) : Reachable s → Reachable (s.stageAdd unit p).2.1
  | commit {s : PostStore} (unit : UnitOfWork) : Reachable s → Reachable (s.commit unit).2
  | failNextCommits {s : PostStore} (count : UInt32) : Reachable s → Reachable (s.failNextCommits count)

/-- **In a reachable store every post is stored under its own identity.** -/
theorem Reachable.keyed {s : PostStore} (h : s.Reachable) : Keyed s.committed := by
  induction h with
  | empty => exact keyed_empty
  | stageAdd unit p _ ih => exact ih
  | failNextCommits count _ ih => exact ih
  | @commit s unit _ ih =>
    -- Only a commit that goes through touches the posts.
    unfold PostStore.commit
    split
    · exact ih
    · split
      · exact ih
      · exact ih.foldl_apply unit

/-- **In a reachable store no remark is longer than the limit**, since no change that would set one is allowed. -/
theorem Reachable.remarksFit {s : PostStore} (h : s.Reachable) (id : Int32) (post : Post)
    (hget : s.committed[id]? = some post) : post.RemarkFits := by
  induction h generalizing id post with
  | empty => simp at hget
  | stageAdd unit p _ ih => exact ih id post hget
  | failNextCommits count _ ih => exact ih id post hget
  | @commit s unit _ ih =>
    rcases s.commit_cases unit with ⟨hallowed, heq⟩ | ⟨-, hposts⟩
    · rw [heq] at hget
      rcases Change.getElem?_foldl_apply hget with hold | ⟨c, hc, rfl | rfl, -⟩
      · exact ih id post hold
      · cases hallowed _ hc with
        | add hfits => exact hfits
      · cases hallowed _ hc with
        | update hfits _ => exact hfits
    · rw [hposts] at hget
      exact ih id post hget

/-! ### Seeding -/

theorem Reachable.stageAll {s : PostStore} (h : s.Reachable) (unit : UnitOfWork) (ps : List Post) :
    (s.stageAll unit ps).1.Reachable := by
  induction ps generalizing s unit with
  | nil => exact h
  | cons p rest ih => exact ih (h.stageAdd unit p) _

theorem Reachable.seedOnce {s : PostStore} (h : s.Reachable) (unit : UnitOfWork) (now : Timestamp) :
    (s.seedOnce unit now).2.1.Reachable := by
  have hcommit := (h.stageAll unit (samplePosts now)).commit (s.stageAll unit (samplePosts now)).2
  unfold PostStore.seedOnce
  split
  · exact h
  · dsimp only
    split
    · next heq =>
      rw [heq] at hcommit
      exact hcommit
    · next heq =>
      rw [heq] at hcommit
      exact hcommit
    · next heq =>
      rw [heq] at hcommit
      exact hcommit

/-- Seeding leads to a reachable store, however many attempts it takes and whether it succeeds. -/
theorem Reachable.seedAttempts (total : UInt32) (now : Timestamp) (left : Nat) (lastError : String)
    {s : PostStore} (h : s.Reachable) (unit : UnitOfWork) :
    (PostStore.seedAttempts total now left lastError s unit).2.1.Reachable := by
  induction left generalizing lastError s unit with
  | zero => exact h
  | succ left ih =>
    have honce := h.seedOnce unit now
    unfold PostStore.seedAttempts
    split
    · next heq =>
      rw [heq] at honce
      exact honce
    · next heq =>
      rw [heq] at honce
      exact ih _ honce _

theorem Reachable.seed {s : PostStore} (h : s.Reachable) (unit : UnitOfWork) (settings : SeedSettings)
    (now : Timestamp) : (s.seed unit settings now).2.1.Reachable :=
  h.seedAttempts ..

/-! ### The committed posts -/

theorem values_eq (posts : Posts) : posts.values = posts.toList.map Prod.snd := by
  show posts.foldr (fun _ post l => post :: l) [] = _
  rw [Std.TreeMap.foldr_eq_foldr_toList]
  induction posts.toList with
  | nil => rfl
  | cons e rest ih => rw [List.foldr_cons, ih, List.map_cons]

/-- **The identities of the committed posts ascend.** -/
theorem pairwise_posts {s : PostStore} (h : Keyed s.committed) :
    s.posts.Pairwise fun a b => compare a.id b.id = .lt := by
  have hkey : ∀ e ∈ s.committed.toList, e.2.id = e.1 := by
    intro e he
    exact h e.1 e.2 (Std.TreeMap.mem_toList_iff_getElem?_eq_some.mp he)
  unfold posts
  rw [values_eq, List.pairwise_map]
  refine Std.TreeMap.ordered_keys_toList.imp_of_mem ?_
  intro a b ha hb hab
  rw [hkey a ha, hkey b hb]
  exact hab

theorem nodup_ids {s : PostStore} (h : Keyed s.committed) : (s.posts.map Post.id).Nodup := by
  refine List.pairwise_map.mpr ((pairwise_posts h).imp ?_)
  intro a b hab heq
  rw [heq] at hab
  exact absurd (hab.symm.trans Std.ReflOrd.compare_self) (by decide)

/-- A committed post is found under its identity. -/
theorem find?_of_mem_posts {s : PostStore} (h : Keyed s.committed) {post : Post} (hpost : post ∈ s.posts) :
    s.find? post.id = some post := by
  unfold posts at hpost
  rw [values_eq, List.mem_map] at hpost
  obtain ⟨⟨id, p⟩, hentry, rfl⟩ := hpost
  have hget : s.committed[id]? = some p := Std.TreeMap.mem_toList_iff_getElem?_eq_some.mp hentry
  obtain rfl := h id p hget
  exact hget

/-- There are not more posts than identities. -/
theorem length_posts_le {s : PostStore} (h : Keyed s.committed) : s.posts.length ≤ 2 ^ 32 := by
  have hinjective : Function.Injective fun id : Int32 => id.toBitVec.toFin := by
    intro a b hab
    exact Int32.toBitVec_inj.mp (BitVec.toFin_inj.mp hab)
  have hcard := ((nodup_ids h).map hinjective).length_le_card
  simpa using hcard

/-- A post of a new identity is one more. -/
theorem length_posts_insert {s : PostStore} {id : Int32} (h : id ∉ s.committed) (post : Post) (nextId : Int32) :
    ({ s with committed := s.committed.insert id post, nextId } : PostStore).posts.length =
      s.posts.length + 1 := by
  unfold posts
  simp only [values_eq, List.length_map, Std.TreeMap.length_toList]
  rw [Std.TreeMap.size_insert, if_neg (mt Std.TreeMap.mem_iff_contains.mpr h)]

end PostStore

namespace StoreSession

/-- A step of a session leads to a reachable store. -/
theorem reachable_step {s : StoreSession} (h : s.store.Reachable) (step : StoreStep) :
    (s.step step).2.store.Reachable := by
  cases step with
  | add unit post => exact h.stageAdd (s.unit unit) post
  | markUpdated unit post => exact h
  | remove unit id => exact h
  | commit unit =>
    have hcommit := h.commit (s.unit unit)
    simp only [StoreSession.step]
    split
    · exact hcommit
    · exact hcommit
  | count unit filter => exact h
  | fetchPage unit filter steps window =>
    simp only [StoreSession.step]
    split
    · exact h
    · exact h
  | fetchById unit id => exact h
  | failNextCommits count => exact h.failNextCommits count

/-- **A session leads from an empty store to reachable stores only.** -/
theorem reachable_run {s : StoreSession} (h : s.store.Reachable) (steps : List StoreStep) :
    (s.run steps).2.store.Reachable := by
  induction steps generalizing s with
  | nil => exact h
  | cons step rest ih => exact ih (reachable_step h step)

end StoreSession

end HypermediaApi.Blog
