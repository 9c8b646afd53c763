import HypermediaApi.Blog.Store
import Mathlib.Logic.Basic

/-!
# HypermediaApi.Proofs.Blog.Commit — how the commit of a unit of work ends

Which changes the store takes is said here apart from the code that checks them: `Change.Allowed` is what a
change has to satisfy among the committed posts, and `Change.Refused` is what is reported of one that does not.
The check agrees with both (`fault?_eq_none_iff`, `fault?_eq_some_iff`), so a change is either allowed or refused
for exactly one reason.

A commit then ends in one of three ways: an armed failure uses itself up, the first change that is not allowed
is reported, or all changes are applied in order. `commit_cases` says what each way leaves behind. Everything
that later modules know of a commit they know from it, and from what applying changes can bring into the store
(`getElem?_foldl_apply`).
-/

namespace HypermediaApi.Blog

/-- The remark of the post, if it has one, keeps to the limit. -/
def Post.RemarkFits (p : Post) : Prop := ∀ remark, p.remark = some remark → Text.codePoints remark ≤ 200

namespace Change

variable {posts : Posts} {staged : UnitOfWork}

/-! ### Which changes are allowed -/

/-- The change may be made to the given posts. -/
inductive Allowed (posts : Posts) : Change → Prop
  | add {p : Post} : p.RemarkFits → Allowed posts (.add p)
  | update {p : Post} : p.RemarkFits → p.id ∈ posts → Allowed posts (.update p)
  | remove {id : Int32} : id ∈ posts → Allowed posts (.remove id)

/-- The remark of the post of that identity is too long. -/
def remarkTooLong (id : Int32) : StorageError where
  operation := .commit
  kind := .constraintViolation
  reason := "remark exceeds 200 characters"
  entityType := some "Post"
  entityId := some (toString id.toInt)

/-- The change may not be made to the given posts, for the given reason. Of an update the remark is judged
first. -/
inductive Refused (posts : Posts) : Change → StorageError → Prop
  | add {p : Post} : ¬ p.RemarkFits → Refused posts (.add p) (remarkTooLong p.id)
  | update {p : Post} : ¬ p.RemarkFits → Refused posts (.update p) (remarkTooLong p.id)
  | updateAbsent {p : Post} : p.RemarkFits → p.id ∉ posts →
      Refused posts (.update p) (.notFound "Post" (toString p.id.toInt))
  | removeAbsent {id : Int32} : id ∉ posts → Refused posts (.remove id) (.notFound "Post" (toString id.toInt))

theorem remarkFault?_of_fits {p : Post} (h : p.RemarkFits) : remarkFault? p = none := by
  unfold remarkFault?
  cases hremark : p.remark with
  | none => rfl
  | some remark => exact if_neg (Nat.not_lt.mpr (h remark hremark))

theorem remarkFault?_of_not_fits {p : Post} (h : ¬ p.RemarkFits) :
    remarkFault? p = some (remarkTooLong p.id) := by
  simp only [Post.RemarkFits, not_forall, Nat.not_le] at h
  obtain ⟨remark, hremark, hlong⟩ := h
  unfold remarkFault?
  rw [hremark]
  exact if_pos hlong

theorem absenceFault?_of_mem {id : Int32} (h : id ∈ posts) : absenceFault? posts id = none :=
  if_pos (Std.TreeMap.mem_iff_contains.mp h)

theorem absenceFault?_of_not_mem {id : Int32} (h : id ∉ posts) :
    absenceFault? posts id = some (.notFound "Post" (toString id.toInt)) :=
  if_neg (mt Std.TreeMap.mem_iff_contains.mpr h)

theorem Allowed.fault? {c : Change} (h : c.Allowed posts) : c.fault? posts = none := by
  cases h with
  | add hfits => exact remarkFault?_of_fits hfits
  | update hfits hmem =>
    simp only [Change.fault?, remarkFault?_of_fits hfits, absenceFault?_of_mem hmem, Option.or_none]
  | remove hmem => exact absenceFault?_of_mem hmem

theorem Refused.fault? {c : Change} {e : StorageError} (h : c.Refused posts e) : c.fault? posts = some e := by
  cases h with
  | add hlong => exact remarkFault?_of_not_fits hlong
  | update hlong => simp only [Change.fault?, remarkFault?_of_not_fits hlong, Option.some_or]
  | updateAbsent hfits habsent =>
    simp only [Change.fault?, remarkFault?_of_fits hfits, absenceFault?_of_not_mem habsent, Option.none_or]
  | removeAbsent habsent => exact absenceFault?_of_not_mem habsent

/-- A change is allowed, or it is refused for some reason. -/
theorem allowed_or_refused (posts : Posts) (c : Change) : c.Allowed posts ∨ ∃ e, c.Refused posts e := by
  cases c with
  | add p =>
    by_cases hfits : p.RemarkFits
    · exact .inl (.add hfits)
    · exact .inr ⟨_, .add hfits⟩
  | update p =>
    by_cases hfits : p.RemarkFits
    · by_cases hmem : p.id ∈ posts
      · exact .inl (.update hfits hmem)
      · exact .inr ⟨_, .updateAbsent hfits hmem⟩
    · exact .inr ⟨_, .update hfits⟩
  | remove id =>
    by_cases hmem : id ∈ posts
    · exact .inl (.remove hmem)
    · exact .inr ⟨_, .removeAbsent hmem⟩

/-- **The check finds no fault exactly with the changes that are allowed.** -/
theorem fault?_eq_none_iff {c : Change} : c.fault? posts = none ↔ c.Allowed posts := by
  refine ⟨fun hnone => ?_, Allowed.fault?⟩
  rcases allowed_or_refused posts c with h | ⟨e, h⟩
  · exact h
  · rw [h.fault?] at hnone
    cases hnone

/-- **The fault that the check finds is the reason to refuse the change.** -/
theorem fault?_eq_some_iff {c : Change} {e : StorageError} : c.fault? posts = some e ↔ c.Refused posts e := by
  refine ⟨fun hsome => ?_, Refused.fault?⟩
  rcases allowed_or_refused posts c with h | ⟨e', h⟩
  · rw [h.fault?] at hsome
    cases hsome
  · rw [h.fault?] at hsome
    obtain rfl := Option.some.inj hsome
    exact h

/-! ### What applying changes brings into the store -/

/-- The identities of the posts that the changes add, in order. -/
def addedIds (staged : UnitOfWork) : List Int32 :=
  staged.filterMap fun
    | .add p => some p.id
    | _ => none

theorem mem_addedIds {id : Int32} : id ∈ addedIds staged ↔ ∃ p, .add p ∈ staged ∧ p.id = id := by
  unfold addedIds
  rw [List.mem_filterMap]
  constructor
  · rintro ⟨c, hc, hid⟩
    cases c with
    | add p => exact ⟨p, hc, Option.some.inj hid⟩
    | update p => cases hid
    | remove id => cases hid
  · rintro ⟨p, hp, rfl⟩
    exact ⟨.add p, hp, rfl⟩

theorem getElem?_insert_id (posts : Posts) (p : Post) (k : Int32) :
    (posts.insert p.id p)[k]? = if k = p.id then some p else posts[k]? := by
  simp only [Std.TreeMap.getElem?_insert, Std.compare_eq_iff_eq, @eq_comm _ k]

theorem getElem?_erase_id (posts : Posts) (id k : Int32) :
    (posts.erase id)[k]? = if k = id then none else posts[k]? := by
  simp only [Std.TreeMap.getElem?_erase, Std.compare_eq_iff_eq, @eq_comm _ k]

/-- The change sets the post: it adds it or it replaces another one by it. -/
def Sets (c : Change) (p : Post) : Prop := c = .add p ∨ c = .update p

theorem getElem?_apply {c : Change} {id : Int32} {p : Post} (h : (c.apply posts)[id]? = some p) :
    posts[id]? = some p ∨ c.Sets p ∧ p.id = id := by
  have insert_cases {q : Post} (h : (posts.insert q.id q)[id]? = some p) :
      posts[id]? = some p ∨ q = p ∧ p.id = id := by
    rw [getElem?_insert_id] at h
    split at h
    · next heq =>
      obtain rfl := Option.some.inj h
      exact .inr ⟨rfl, heq.symm⟩
    · exact .inl h
  cases c with
  | add q => exact (insert_cases h).imp_right fun ⟨hq, hid⟩ => ⟨.inl (hq ▸ rfl), hid⟩
  | update q => exact (insert_cases h).imp_right fun ⟨hq, hid⟩ => ⟨.inr (hq ▸ rfl), hid⟩
  | remove q =>
    rw [show (Change.remove q).apply posts = posts.erase q from rfl, getElem?_erase_id] at h
    split at h
    · cases h
    · exact .inl h

/-- **A post that is there after changes was there before or is set by one of them.** -/
theorem getElem?_foldl_apply {id : Int32} {p : Post} (h : (staged.foldl apply posts)[id]? = some p) :
    posts[id]? = some p ∨ ∃ c ∈ staged, c.Sets p ∧ p.id = id := by
  induction staged generalizing posts with
  | nil => exact .inl h
  | cons c rest ih =>
    rcases ih h with happlied | ⟨c', hc', hsets⟩
    · exact (getElem?_apply happlied).imp_right fun hsets => ⟨c, List.mem_cons_self, hsets⟩
    · exact .inr ⟨c', List.mem_cons_of_mem c hc', hsets⟩

/-- Updates are only allowed of posts that are there, so allowed changes bring in no identity but those of the
posts they add. -/
theorem mem_of_mem_foldl_apply {id : Int32} (hallowed : ∀ c ∈ staged, c.Allowed posts)
    (h : id ∈ staged.foldl apply posts) : id ∈ posts ∨ id ∈ addedIds staged := by
  have hget := Std.TreeMap.getElem?_eq_some_getElem h
  rcases getElem?_foldl_apply hget with hbefore | ⟨c, hc, rfl | rfl, hid⟩
  · exact .inl (Std.TreeMap.mem_iff_isSome_getElem?.mpr (by rw [hbefore]; rfl))
  · exact .inr (mem_addedIds.mpr ⟨_, hc, hid⟩)
  · cases hallowed _ hc with
    | update _ hmem => exact .inl (hid ▸ hmem)

end Change

/-! ### Commits -/

namespace PostStore

variable {s : PostStore} {staged : UnitOfWork}

/-- An armed failure makes a commit fail and is used up by it. -/
theorem commit_of_armed (h : s.armedFailures ≠ 0) (staged : UnitOfWork) :
    s.commit staged = (.ok false, { s with armedFailures := s.armedFailures - 1 }) :=
  if_pos h

theorem commit_of_not_armed (h : s.armedFailures = 0) :
    s.commit staged =
      match staged.findSome? (·.fault? s.committed) with
      | some fault => (.error fault, s)
      | none => (.ok true, { s with committed := staged.foldl Change.apply s.committed }) :=
  if_neg (not_not.mpr h)

/-- With changes that are all allowed a commit goes through. -/
theorem commit_of_allowed (h : s.armedFailures = 0) (hallowed : ∀ c ∈ staged, c.Allowed s.committed) :
    s.commit staged = (.ok true, { s with committed := staged.foldl Change.apply s.committed }) := by
  have hnone : staged.findSome? (·.fault? s.committed) = none :=
    List.findSome?_eq_none_iff.mpr fun c hc => (hallowed c hc).fault?
  rw [commit_of_not_armed h, hnone]

/-- A change that is not allowed keeps all of them out, and the first such change is reported. -/
theorem commit_of_not_allowed (h : s.armedFailures = 0) (hrefused : ¬ ∀ c ∈ staged, c.Allowed s.committed) :
    ∃ before c after e, staged = before ++ c :: after ∧ (∀ b ∈ before, b.Allowed s.committed) ∧
      c.Refused s.committed e ∧ s.commit staged = (.error e, s) := by
  cases hfault : staged.findSome? (·.fault? s.committed) with
  | none =>
    refine absurd (fun c hc => ?_) hrefused
    exact Change.fault?_eq_none_iff.mp (List.findSome?_eq_none_iff.mp hfault c hc)
  | some e =>
    obtain ⟨before, c, after, rfl, hc, hbefore⟩ := List.findSome?_eq_some_iff.mp hfault
    refine ⟨before, c, after, e, rfl, fun b hb => Change.fault?_eq_none_iff.mp (hbefore b hb),
      Change.fault?_eq_some_iff.mp hc, ?_⟩
    rw [commit_of_not_armed h, hfault]

/-- **A commit goes through, applying changes that are all allowed, or it leaves the posts as they were.** -/
theorem commit_cases (s : PostStore) (staged : UnitOfWork) :
    ((∀ c ∈ staged, c.Allowed s.committed) ∧
      s.commit staged = (.ok true, { s with committed := staged.foldl Change.apply s.committed })) ∨
    ((s.commit staged).1 ≠ .ok true ∧ (s.commit staged).2.committed = s.committed) := by
  by_cases harmed : s.armedFailures = 0
  · by_cases hallowed : ∀ c ∈ staged, c.Allowed s.committed
    · exact .inl ⟨hallowed, commit_of_allowed harmed hallowed⟩
    · obtain ⟨-, -, -, e, -, -, -, heq⟩ := commit_of_not_allowed harmed hallowed
      exact .inr (by rw [heq]; exact ⟨nofun, rfl⟩)
  · exact .inr (by rw [commit_of_armed harmed]; exact ⟨nofun, rfl⟩)

/-- A commit gives out no identity. -/
@[simp] theorem nextId_commit (s : PostStore) (staged : UnitOfWork) : (s.commit staged).2.nextId = s.nextId := by
  unfold commit
  split
  · rfl
  · split <;> rfl

/-- A commit does not look at the next identity. -/
theorem commit_congr {s t : PostStore} (hcommitted : s.committed = t.committed)
    (harmed : s.armedFailures = t.armedFailures) (staged : UnitOfWork) :
    (s.commit staged).1 = (t.commit staged).1 ∧
      (s.commit staged).2.committed = (t.commit staged).2.committed ∧
      (s.commit staged).2.armedFailures = (t.commit staged).2.armedFailures := by
  unfold commit
  rw [hcommitted, harmed]
  split
  · exact ⟨rfl, rfl, rfl⟩
  · split
    · exact ⟨rfl, hcommitted, harmed⟩
    · exact ⟨rfl, rfl, rfl⟩

end PostStore

end HypermediaApi.Blog
