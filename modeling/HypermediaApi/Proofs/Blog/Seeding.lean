import HypermediaApi.Proofs.Blog.Identities
import HypermediaApi.Proofs.Blog.Startup
import Mathlib.Data.List.Forall2

/-!
# HypermediaApi.Proofs.Blog.Seeding — seeding happens once, within its attempts

An attempt to seed an empty store ends in one of two ways: an armed failure uses itself up and costs the eight
identities that were staged, or the sample posts are stored. So a number of attempts that are no more than the armed
failures can be taken off the loop at once (`seedAttempts_of_armed`), by induction on that number, and what is left
of the loop decides: with no attempt left seeding is given up, and otherwise the next one succeeds.

The sample posts stand in the order of their identities as long as these do not run over, since an identity above all
others comes last (`toList_insert_of_lt`). A store that holds posts is left alone, hence a second seeding changes
nothing (`seeding_happens_once`).
-/

namespace HypermediaApi.Blog

/-! ### Posts in the order of their identities -/

/-- A post of an identity above all others comes last. -/
theorem toList_insert_of_lt {posts : Posts} {id : Int32} (habove : ∀ e ∈ posts.toList, e.1 < id) (post : Post) :
    (posts.insert id post).toList = posts.toList ++ [(id, post)] := by
  have hothers : posts.toList.filter (fun e => ¬ id == e.1) = posts.toList := by
    rw [List.filter_eq_self]
    intro e he
    have hne : id ≠ e.1 := fun heq => Int32.lt_irrefl (heq ▸ habove e he)
    simpa using hne
  have hperm : (posts.insert id post).toList.Perm (posts.toList ++ [(id, post)]) := by
    have hinsert := Std.TreeMap.toList_insert_perm (t := posts) (k := id) (v := post)
    rw [hothers] at hinsert
    exact hinsert.trans (List.perm_append_singleton _ _).symm
  -- Both lists ascend and hold the same entries.
  have hbefore : (posts.insert id post).toList.Pairwise fun a b => compare a.1 b.1 = .lt :=
    Std.TreeMap.ordered_keys_toList
  have hafter : (posts.toList ++ [(id, post)]).Pairwise fun a b => compare a.1 b.1 = .lt := by
    refine List.pairwise_append.mpr ⟨Std.TreeMap.ordered_keys_toList, List.pairwise_singleton _ _, ?_⟩
    intro e he last hlast
    rw [List.mem_singleton.mp hlast]
    exact Std.compare_eq_lt.mpr (habove e he)
  refine hperm.eq_of_pairwise ?_ hbefore hafter
  intro a b _ _ hab hba
  exact absurd hba (Std.OrientedCmp.not_lt_of_lt hab)

/-- **Added posts come last, in the order of their numbers**, if these are above all identities and do not run
over. -/
theorem toList_foldl_add {posts : Posts} {id : Int32} {ps : List Post} (habove : ∀ e ∈ posts.toList, e.1 < id)
    (hroom : id.toInt + ps.length < 2 ^ 31) :
    (((numbered id ps).map Change.add).foldl Change.apply posts).toList =
      posts.toList ++ (numbered id ps).map fun p => (p.id, p) := by
  induction ps generalizing posts id with
  | nil => simp [numbered]
  | cons p rest ih =>
    rw [List.length_cons] at hroom
    have hnext : (id + 1).toInt = id.toInt + 1 := toInt_add_one (by omega)
    have hinsert := toList_insert_of_lt habove { p with id }
    have habove' : ∀ e ∈ (posts.insert id { p with id }).toList, e.1 < id + 1 := by
      intro e he
      rw [hinsert, List.mem_append, List.mem_singleton] at he
      have hlast : id < id + 1 := by
        rw [Int32.lt_iff_toInt_lt, hnext]
        exact Int.lt_succ _
      rcases he with hbefore | rfl
      · exact Int32.lt_trans (habove e hbefore) hlast
      · exact hlast
    have hrest := ih habove' (by omega)
    rw [hinsert, List.append_assoc] at hrest
    exact hrest

/-- Adding posts to a store leaves it with some, unless there are none to add. -/
theorem size_foldl_add_ne_zero {posts : Posts} {ps : List Post} (h : posts.size ≠ 0 ∨ ps ≠ []) :
    ((ps.map Change.add).foldl Change.apply posts).size ≠ 0 := by
  induction ps generalizing posts with
  | nil => exact h.resolve_right (· rfl)
  | cons p rest ih =>
    refine ih (.inl ?_)
    have hinsert : (posts.insert p.id p).isEmpty = false := Std.TreeMap.isEmpty_insert
    rw [Std.TreeMap.isEmpty_eq_size_eq_zero] at hinsert
    show (posts.insert p.id p).size ≠ 0
    simpa using hinsert

/-- An identity that so many come before. -/
theorem toInt_add_ofNat {n : Int32} {k : Nat} (h : n.toInt + k < 2 ^ 31) : (n + .ofNat k).toInt = n.toInt + k := by
  induction k with
  | zero => simp
  | succ k ih =>
    have hk := ih (by omega)
    rw [Int32.ofNat_add, ← Int32.add_assoc, show Int32.ofNat 1 = 1 from rfl, toInt_add_one (by omega), hk]
    omega

/-- The sample post at a place, counted from 0, under its identity, the first one having the given number. -/
def IsSample (now : Timestamp) (first : Int) (place : Nat) (entry : Int32 × Post) : Prop :=
  entry.1.toInt = first + place ∧ entry.2 = {
    id := entry.1
    title := "Post Title " ++ toString (place + 1)
    body := "Post Body " ++ toString (place + 1)
    author := "Dave"
    lastModified := now
    remark := none }

/-- Posts that are numbered one after the other have the numbers of their places. -/
theorem forall₂_numbered {id : Int32} {first : Int} {start count : Nat} (f : Nat → Post)
    (hid : id.toInt = first + start) (hroom : id.toInt + count < 2 ^ 31) :
    List.Forall₂ (fun (place : Nat) (p : Post) => p.id.toInt = first + place ∧ p = { f place with id := p.id })
      (List.range' start count) (numbered id ((List.range' start count).map f)) := by
  induction count generalizing id start with
  | zero => exact .nil
  | succ count ih =>
    have hnext : (id + 1).toInt = id.toInt + 1 := toInt_add_one (by omega)
    exact .cons ⟨hid, rfl⟩ (ih (by omega) (by omega))

theorem forall₂_isSample {id : Int32} (hroom : id.toInt + 8 < 2 ^ 31) (now : Timestamp) :
    List.Forall₂ (IsSample now id.toInt) (List.range 8)
      ((numbered id (samplePosts now)).map fun p => (p.id, p)) := by
  rw [List.forall₂_map_right_iff, samplePosts, samplePostCount, List.range_eq_range']
  refine .imp ?_ (forall₂_numbered _ (Int.add_zero _).symm hroom)
  intro place p hp
  exact hp

namespace PostStore

variable {s : PostStore} {now : Timestamp} {settings : SeedSettings}

/-! ### One attempt -/

/-- The store after so many attempts that failed. -/
def afterFailures (s : PostStore) (k : Nat) : PostStore :=
  { s with nextId := s.nextId + .ofNat (8 * k), armedFailures := s.armedFailures - .ofNat k }

theorem afterFailures_zero (s : PostStore) : s.afterFailures 0 = s := by simp [afterFailures]

theorem afterFailures_succ (s : PostStore) (k : Nat) :
    (s.afterFailures 1).afterFailures k = s.afterFailures (k + 1) := by
  have hnext : s.nextId + .ofNat (8 * 1) + .ofNat (8 * k) = s.nextId + .ofNat (8 * (k + 1)) := by
    rw [Int32.add_assoc, ← Int32.ofNat_add]
    congr 2
    omega
  have harmed : s.armedFailures - .ofNat 1 - .ofNat k = s.armedFailures - .ofNat (k + 1) := by
    rw [UInt32.ofNat_add]
    grind
  simp only [afterFailures, hnext, harmed]

/-- An attempt leaves a store with posts alone. -/
theorem seedOnce_of_not_empty (h : s.size ≠ 0) (unit : UnitOfWork) (now : Timestamp) :
    s.seedOnce unit now = (.ok (), s, unit) :=
  if_pos h

/-- An attempt with a failure armed fails. -/
theorem seedOnce_of_armed (hempty : s.size = 0) (harmed : s.armedFailures ≠ 0) (now : Timestamp) :
    s.seedOnce [] now = (.error (.saveFailed "seed posts"), s.afterFailures 1, []) := by
  have hcommit := commit_of_armed (s := { s with nextId := s.nextId + .ofNat (samplePosts now).length }) harmed
    ((numbered s.nextId (samplePosts now)).map .add)
  unfold seedOnce
  rw [if_neg (not_not.mpr hempty), stageAll_eq]
  simp only [List.nil_append, hcommit]
  rfl

theorem size_withSamples_ne_zero (s : PostStore) (now : Timestamp) : (s.withSamples now).size ≠ 0 :=
  size_foldl_add_ne_zero (.inr (List.cons_ne_nil _ _))

/-- The entries of a store that was empty and then given the sample posts. -/
theorem forall₂_withSamples (hempty : s.size = 0) (hroom : s.nextId.toInt + 8 < 2 ^ 31) (now : Timestamp) :
    List.Forall₂ (IsSample now s.nextId.toInt) (List.range 8) (s.withSamples now).committed.toList := by
  have hnone : s.committed.toList = [] := by
    rw [← List.length_eq_zero_iff, Std.TreeMap.length_toList]
    exact hempty
  have habove : ∀ e ∈ s.committed.toList, e.1 < s.nextId := by simp [hnone]
  have hcount : s.nextId.toInt + (samplePosts now).length < 2 ^ 31 := hroom
  have hadded := toList_foldl_add habove hcount
  rw [hnone, List.nil_append] at hadded
  unfold withSamples
  rw [hadded]
  exact forall₂_isSample hroom now

/-! ### All attempts -/

/-- **Attempts that are no more than the armed failures all fail**, and what is left of the attempts goes on from the
store after them. -/
theorem seedAttempts_of_armed (hempty : s.size = 0) {k : Nat} (hk : k ≤ s.armedFailures.toNat) (total : UInt32)
    (now : Timestamp) (left : Nat) (lastError : String) :
    seedAttempts total now (left + k) lastError s [] =
      seedAttempts total now left (if k = 0 then lastError else "Save failed: seed posts") (s.afterFailures k) [] := by
  induction k generalizing s lastError with
  | zero => rw [afterFailures_zero, if_pos rfl, Nat.add_zero]
  | succ k ih =>
    -- The first attempt uses up a failure, so the others meet a store with one less.
    have harmed : s.armedFailures ≠ 0 := by
      intro hzero
      rw [hzero] at hk
      cases hk
    have hle : k ≤ (s.afterFailures 1).armedFailures.toNat := by
      show k ≤ (s.armedFailures - 1).toNat
      rw [UInt32.toNat_sub_of_le _ _ (UInt32.le_iff_toNat_le.mpr (Nat.le_trans (Nat.succ_pos k) hk))]
      exact Nat.le_sub_one_of_lt hk
    have hrest := ih (s := s.afterFailures 1) hempty hle "Save failed: seed posts"
    rw [ite_self, afterFailures_succ] at hrest
    rw [if_neg (Nat.succ_ne_zero k), ← hrest, ← Nat.add_assoc]
    simp only [seedAttempts, seedOnce_of_armed hempty harmed]
    rfl

theorem attempts_eq_max (settings : SeedSettings) : attempts settings = max settings.maxRetries 1 := by
  show _ = if settings.maxRetries ≤ 1 then 1 else settings.maxRetries
  unfold attempts
  split
  · next hzero =>
    rw [hzero]
    rfl
  · next hpos =>
    split
    · next hle =>
      refine UInt32.toNat_inj.mp ?_
      have hpos' : settings.maxRetries.toNat ≠ 0 := fun hzero => hpos (UInt32.toNat_inj.mp hzero)
      have hle' : settings.maxRetries.toNat ≤ 1 := UInt32.le_iff_toNat_le.mp hle
      exact Nat.le_antisymm hle' (Nat.pos_of_ne_zero hpos')
    · rfl

/-- Seeding leaves a store with posts alone. -/
theorem seed_of_not_empty (h : s.size ≠ 0) (unit : UnitOfWork) (settings : SeedSettings) (now : Timestamp) :
    s.seed unit settings now = (.ok (), s, unit) := by
  obtain ⟨left, hleft⟩ := exists_toNat_attempts settings
  simp only [seed, hleft, seedAttempts, seedOnce_of_not_empty h]

/-- Seeding an empty store succeeds if there are more attempts than armed failures. -/
theorem seed_of_armed_lt (hempty : s.size = 0) (h : s.armedFailures < attempts settings) (now : Timestamp) :
    s.seed [] settings now = (.ok (), (s.afterFailures s.armedFailures.toNat).withSamples now, []) := by
  obtain ⟨left, hleft⟩ := Nat.exists_eq_add_of_lt (UInt32.lt_iff_toNat_lt.mp h)
  have hcount : (attempts settings).toNat = left + 1 + s.armedFailures.toNat := by omega
  have hnone : (s.afterFailures s.armedFailures.toNat).armedFailures = 0 := by simp [afterFailures]
  have honce := seedOnce_of_empty (s := s.afterFailures s.armedFailures.toNat) hempty hnone now
  show seedAttempts (attempts settings) now (attempts settings).toNat "" s [] = _
  rw [hcount, seedAttempts_of_armed hempty (Nat.le_refl _)]
  simp only [seedAttempts, honce]

/-- Seeding an empty store is given up if there are no more attempts than armed failures. -/
theorem seed_of_le_armed (hempty : s.size = 0) (h : attempts settings ≤ s.armedFailures) (now : Timestamp) :
    s.seed [] settings now = (.error (.seedExhausted (attempts settings) "Save failed: seed posts"),
      s.afterFailures (attempts settings).toNat, []) := by
  obtain ⟨left, hleft⟩ := exists_toNat_attempts settings
  have hrest := seedAttempts_of_armed hempty (UInt32.le_iff_toNat_le.mp h) (attempts settings) now 0 ""
  rw [if_neg (by omega), Nat.zero_add] at hrest
  exact hrest

/-- **Seeding happens once, within its attempts.** There are as many attempts as the settings say, and at least one. A
store that holds posts is left alone. An empty one with fewer failures armed than there are attempts is given exactly
the eight sample posts, each failure having used itself up and eight identities, as long as these do not run over. An
empty one with at least as many failures armed stays empty, and that many attempts have failed. Nothing is left
staged, and whoever seeds again after a success changes nothing. -/
theorem seeding_happens_once (s : PostStore) (settings : SeedSettings) (now : Timestamp) :
    let attempts := max settings.maxRetries 1
    let armed := s.armedFailures
    (s.size ≠ 0 → s.seed [] settings now = (.ok (), s, [])) ∧
    (s.size = 0 → armed < attempts → s.nextId.toInt + 8 * armed.toNat + 8 < 2 ^ 31 →
      ∃ committed, s.seed [] settings now =
          (.ok (), { committed, nextId := s.nextId + .ofNat (8 * armed.toNat) + 8, armedFailures := 0 }, []) ∧
        List.Forall₂ (IsSample now (s.nextId.toInt + 8 * armed.toNat)) (List.range 8) committed.toList) ∧
    (s.size = 0 → attempts ≤ armed →
      s.seed [] settings now = (.error (.seedExhausted attempts "Save failed: seed posts"),
        { s with
          nextId := s.nextId + .ofNat (8 * attempts.toNat)
          armedFailures := armed - attempts }, [])) ∧
    ∀ seeded unit, s.seed [] settings now = (.ok (), seeded, unit) →
      unit = [] ∧ ∀ again later, seeded.seed [] again later = (.ok (), seeded, []) := by
  intro attempts armed
  have hattempts : PostStore.attempts settings = attempts := attempts_eq_max settings
  refine ⟨fun hposts => seed_of_not_empty hposts [] settings now, fun hempty hlt hroom => ?_, fun hempty hle => ?_,
    fun seeded unit hseed => ?_⟩
  · let failed := s.afterFailures armed.toNat
    have hfirst : failed.nextId.toInt = s.nextId.toInt + 8 * armed.toNat := by
      have hcount := toInt_add_ofNat (n := s.nextId) (k := 8 * armed.toNat) (by omega)
      rw [Nat.cast_mul] at hcount
      exact hcount
    have hsamples := forall₂_withSamples (s := failed) hempty (by omega) now
    rw [hfirst] at hsamples
    refine ⟨_, ?_, hsamples⟩
    have hnone : s.armedFailures - .ofNat armed.toNat = 0 := by simp [armed]
    rw [seed_of_armed_lt hempty (hattempts ▸ hlt), ← hnone]
    rfl
  · rw [← hattempts] at hle
    have hexhausted := seed_of_le_armed hempty hle now
    rw [hattempts, afterFailures, UInt32.ofNat_toNat] at hexhausted
    exact hexhausted
  · by_cases hposts : s.size = 0
    · by_cases hlt : armed < attempts
      · rw [seed_of_armed_lt hposts (hattempts ▸ hlt)] at hseed
        obtain ⟨-, rfl, rfl⟩ := hseed
        exact ⟨rfl, fun again later => seed_of_not_empty (size_withSamples_ne_zero _ now) [] again later⟩
      · rw [seed_of_le_armed hposts (hattempts ▸ UInt32.not_lt.mp hlt)] at hseed
        cases hseed
    · rw [seed_of_not_empty hposts] at hseed
      obtain ⟨-, rfl, rfl⟩ := hseed
      exact ⟨rfl, fun again later => seed_of_not_empty hposts [] again later⟩

/-- With two failures armed, three attempts give a new store the posts 17 to 24, and two attempts give up. -/
theorem seeding_happens_once_after_failures (now : Timestamp) :
    let s : PostStore := { armedFailures := 2 }
    (∃ committed, s.seed [] { maxRetries := 3 } now = (.ok (), { committed, nextId := 25 }, []) ∧
      List.Forall₂ (IsSample now 17) (List.range 8) committed.toList) ∧
    s.seed [] { maxRetries := 2 } now =
      (.error (.seedExhausted 2 "Save failed: seed posts"), { nextId := 17 }, []) :=
  ⟨(seeding_happens_once _ _ now).2.1 rfl (by decide) (by decide),
    (seeding_happens_once _ _ now).2.2.1 rfl (by decide)⟩

end PostStore

end HypermediaApi.Blog
