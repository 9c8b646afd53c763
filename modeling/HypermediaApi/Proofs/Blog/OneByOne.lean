import HypermediaApi.Proofs.Blog.Session
import Mathlib.Data.List.Pairwise

/-!
# HypermediaApi.Proofs.Blog.OneByOne — a unit of work and its changes one by one

A unit of work is checked as a whole: each of its changes is judged by the posts as they were before the unit, and
only then are the changes applied. `PostStore.commitEach?` is the other way to go about it, a unit of its own for
every change, so that a change is judged by what the changes before it have left (`AllowedInTurn`).

Both apply the changes in the same order, so they lead to the same store if both go through. They differ in what
they let through, and only where an update or a removal asks for a post that an earlier change of the unit adds or
removes. What an earlier change adds is there one by one and not as a unit; what it removes is there as a unit and
not one by one. Three lemmas carry this, which say where an identity can be after changes: `mem_or_added`,
`mem_of_not_removed` and `not_mem_of_removed`.
-/

namespace HypermediaApi.Blog

namespace Change

variable {posts : Posts} {staged : UnitOfWork} {c : Change} {id : Int32}

/-! ### What a change asks for -/

/-- The identity that has to be there: that of an update or a removal. -/
def target? : Change → Option Int32
  | add _ => none
  | update p => some p.id
  | remove id => some id

/-- The identity of the post that the change adds. -/
def added? : Change → Option Int32
  | add p => some p.id
  | _ => none

/-- The later change does not ask for a post that the earlier one adds. -/
def NotAddedBy (earlier later : Change) : Prop := ∀ id ∈ later.target?, earlier.added? ≠ some id

/-- The later change does not ask for a post that the earlier one removes. -/
def NotRemovedBy (earlier later : Change) : Prop := ∀ id ∈ later.target?, earlier ≠ .remove id

instance : DecidableRel NotAddedBy := fun earlier later =>
  inferInstanceAs (Decidable (∀ id ∈ later.target?, earlier.added? ≠ some id))

instance : DecidableRel NotRemovedBy := fun earlier later =>
  inferInstanceAs (Decidable (∀ id ∈ later.target?, earlier ≠ .remove id))

/-- An allowed change finds the post that it asks for. -/
theorem Allowed.mem_of_target (h : c.Allowed posts) (hid : id ∈ c.target?) : id ∈ posts := by
  cases h with
  | add hfits => cases hid
  | update hfits hmem => exact Option.some.inj hid ▸ hmem
  | remove hmem => exact Option.some.inj hid ▸ hmem

/-- An allowed change stays allowed among other posts, as long as it finds the post that it asks for. -/
theorem Allowed.of_target {others : Posts} (h : c.Allowed posts) (hmem : ∀ id ∈ c.target?, id ∈ others) :
    c.Allowed others := by
  cases h with
  | add hfits => exact .add hfits
  | update hfits _ => exact .update hfits (hmem _ rfl)
  | remove _ => exact .remove (hmem _ rfl)

/-! ### Where an identity is after changes -/

theorem mem_insert_id {p : Post} : id ∈ posts.insert p.id p ↔ p.id = id ∨ id ∈ posts := by
  rw [Std.TreeMap.mem_insert, Std.compare_eq_iff_eq]

theorem mem_erase_iff {k : Int32} : id ∈ posts.erase k ↔ k ≠ id ∧ id ∈ posts := by
  rw [Std.TreeMap.mem_erase, Ne, Ne, Std.compare_eq_iff_eq]

/-- Only a removal takes an identity away. -/
theorem mem_apply (h : id ∈ posts) (hc : c ≠ .remove id) : id ∈ c.apply posts := by
  cases c with
  | add p => exact mem_insert_id.mpr (.inr h)
  | update p => exact mem_insert_id.mpr (.inr h)
  | remove k => exact mem_erase_iff.mpr ⟨fun heq => hc (congrArg remove heq), h⟩

/-- A change that is allowed brings in the identity that it adds, and no other. -/
theorem Allowed.mem_or_added (h : c.Allowed posts) (hid : id ∈ c.apply posts) :
    id ∈ posts ∨ c.added? = some id := by
  cases h with
  | add hfits => exact (mem_insert_id.mp hid).symm.imp_right (congrArg some)
  | update hfits hmem =>
    rcases mem_insert_id.mp hid with rfl | hold
    · exact .inl hmem
    · exact .inl hold
  | remove hmem => exact .inl (mem_erase_iff.mp hid).2

/-- Each change is allowed among the posts that the changes before it lead to. -/
def AllowedInTurn : Posts → UnitOfWork → Prop
  | _, [] => True
  | posts, c :: rest => c.Allowed posts ∧ AllowedInTurn (c.apply posts) rest

theorem allowedInTurn_append {before after : UnitOfWork} :
    AllowedInTurn posts (before ++ after) ↔
      AllowedInTurn posts before ∧ AllowedInTurn (before.foldl apply posts) after := by
  induction before generalizing posts with
  | nil => simp [AllowedInTurn]
  | cons c rest ih => simp only [List.cons_append, AllowedInTurn, ih, List.foldl_cons, and_assoc]

/-- **What is there after changes in turn** was there before or has been added by one of them. -/
theorem AllowedInTurn.mem_or_added (h : AllowedInTurn posts staged) (hid : id ∈ staged.foldl apply posts) :
    id ∈ posts ∨ ∃ c ∈ staged, c.added? = some id := by
  induction staged generalizing posts with
  | nil => exact .inl hid
  | cons c rest ih =>
    rcases ih h.2 hid with happlied | ⟨b, hb, hadded⟩
    · exact (h.1.mem_or_added happlied).imp_right fun hadded => ⟨c, List.mem_cons_self, hadded⟩
    · exact .inr ⟨b, List.mem_cons_of_mem c hb, hadded⟩

/-- **What was there before changes** is there after them unless one of them removes it. -/
theorem mem_of_not_removed (h : id ∈ posts) (hstaged : .remove id ∉ staged) : id ∈ staged.foldl apply posts := by
  induction staged generalizing posts with
  | nil => exact h
  | cons c rest ih =>
    obtain ⟨hc, hrest⟩ := not_or.mp (mt List.mem_cons.mpr hstaged)
    exact ih (mem_apply h (Ne.symm hc)) hrest

/-- **What one of the changes in turn removes** is not there after them unless one of them adds it. -/
theorem AllowedInTurn.not_mem_of_removed (h : AllowedInTurn posts staged) (hremoved : .remove id ∈ staged)
    (hadded : ∀ c ∈ staged, c.added? ≠ some id) : id ∉ staged.foldl apply posts := by
  induction staged generalizing posts with
  | nil => cases hremoved
  | cons c rest ih =>
    have hrest : ∀ b ∈ rest, b.added? ≠ some id := fun b hb => hadded b (List.mem_cons_of_mem c hb)
    by_cases hlater : .remove id ∈ rest
    · exact ih h.2 hlater hrest
    · -- This is the last removal, and nothing after it brings the post in again.
      obtain rfl : .remove id = c := (List.mem_cons.mp hremoved).resolve_right hlater
      intro hmem
      rcases h.2.mem_or_added hmem with hthere | ⟨b, hb, hb_adds⟩
      · exact (mem_erase_iff.mp hthere).1 rfl
      · exact hrest b hb hb_adds

/-! ### Allowed as a unit and allowed in turn -/

/-- If no change asks for a post that an earlier one adds, then what is allowed in turn is allowed as a unit. -/
theorem AllowedInTurn.allowed (h : AllowedInTurn posts staged) (hadded : staged.Pairwise NotAddedBy) :
    ∀ c ∈ staged, c.Allowed posts := by
  intro c hc
  obtain ⟨before, after, rfl⟩ := List.append_of_mem hc
  obtain ⟨hbefore, hturn, -⟩ := allowedInTurn_append.mp h
  refine hturn.of_target fun id hid => ?_
  rcases hbefore.mem_or_added (hturn.mem_of_target hid) with hmem | ⟨b, hb, hb_adds⟩
  · exact hmem
  · exact absurd hb_adds ((List.pairwise_append.mp hadded).2.2 b hb c List.mem_cons_self id hid)

/-- If no change asks for a post that an earlier one removes, then what is allowed as a unit is allowed in turn. -/
theorem allowedInTurn_of_allowed (h : ∀ c ∈ staged, c.Allowed posts) (hremoved : staged.Pairwise NotRemovedBy) :
    AllowedInTurn posts staged := by
  induction staged using List.reverseRecOn with
  | nil => trivial
  | append_singleton before c ih =>
    obtain ⟨hbefore, -, hlast⟩ := List.pairwise_append.mp hremoved
    have hc : c.Allowed posts := h c (List.mem_append_right before List.mem_cons_self)
    refine allowedInTurn_append.mpr
      ⟨ih (fun b hb => h b (List.mem_append_left [c] hb)) hbefore, ?_, trivial⟩
    refine hc.of_target fun id hid => mem_of_not_removed (hc.mem_of_target hid) ?_
    exact fun hmem => hlast _ hmem c List.mem_cons_self id hid rfl

/-- A unit that is allowed asks for no post that it adds, if its additions are new. -/
theorem pairwise_notAddedBy (h : ∀ c ∈ staged, c.Allowed posts)
    (hnew : ∀ c ∈ staged, ∀ id ∈ c.added?, id ∉ posts) : staged.Pairwise NotAddedBy :=
  List.pairwise_of_forall_mem_list fun b hb c hc id hid hb_adds =>
    hnew b hb id hb_adds ((h c hc).mem_of_target hid)

/-- A unit that is allowed also in turn asks for no post that it has removed, if its additions are new. -/
theorem AllowedInTurn.pairwise_notRemovedBy (hturn : AllowedInTurn posts staged)
    (h : ∀ c ∈ staged, c.Allowed posts) (hnew : ∀ c ∈ staged, ∀ id ∈ c.added?, id ∉ posts) :
    staged.Pairwise NotRemovedBy := by
  induction staged using List.reverseRecOn with
  | nil => exact .nil
  | append_singleton before c ih =>
    obtain ⟨hbefore, hc, -⟩ := allowedInTurn_append.mp hturn
    have hmem {b : Change} (hb : b ∈ before) : b ∈ before ++ [c] := List.mem_append_left [c] hb
    have hpairs := ih hbefore (fun b hb => h b (hmem hb)) fun b hb => hnew b (hmem hb)
    refine List.pairwise_append.mpr ⟨hpairs, List.pairwise_singleton _ c, fun b hb c' hc' id hid hb_removes => ?_⟩
    obtain rfl := List.mem_singleton.mp hc'
    subst hb_removes
    -- The post was there before the unit, so no addition of the unit brings it back.
    have hposts : id ∈ posts := (h c' (List.mem_append_right before hc')).mem_of_target hid
    refine hbefore.not_mem_of_removed hb (fun a ha ha_adds => ?_) (hc.mem_of_target hid)
    exact hnew a (hmem ha) id ha_adds hposts

/-- The identity that the change concerns. -/
def concerns : Change → Int32
  | add p => p.id
  | update p => p.id
  | remove id => id

/-- A change leaves the other identities as they are. -/
theorem getElem?_apply_of_ne (h : c.concerns ≠ id) : (c.apply posts)[id]? = posts[id]? := by
  cases c with
  | add p => exact (getElem?_insert_id posts p id).trans (if_neg (Ne.symm h))
  | update p => exact (getElem?_insert_id posts p id).trans (if_neg (Ne.symm h))
  | remove k => exact (getElem?_erase_id posts k id).trans (if_neg (Ne.symm h))

/-- **The last change of an identity decides what stands under it.** -/
theorem getElem?_foldl_apply_last {before after : UnitOfWork} (h : ∀ d ∈ after, d.concerns ≠ id) :
    ((before ++ c :: after).foldl apply posts)[id]? = (c.apply (before.foldl apply posts))[id]? := by
  rw [List.foldl_append, List.foldl_cons]
  generalize c.apply (before.foldl apply posts) = changed
  induction after generalizing changed with
  | nil => rfl
  | cons d rest ih =>
    rw [List.foldl_cons, ih fun e he => h e (List.mem_cons_of_mem d he)]
    exact getElem?_apply_of_ne (h d List.mem_cons_self)

end Change

/-! ### Commits -/

namespace PostStore

open Change (AllowedInTurn NotAddedBy NotRemovedBy)

variable {s s' : PostStore} {staged : UnitOfWork}

/-- The changes committed one after the other, each as a unit of work of its own: the store after the last commit, if
all of them go through. -/
def commitEach? (s : PostStore) : UnitOfWork → Option PostStore
  | [] => some s
  | c :: rest =>
    match s.commit [c] with
    | (.ok true, s') => s'.commitEach? rest
    | _ => none

/-- **Without an armed failure a commit goes through exactly with changes that are all allowed.** -/
theorem commit_eq_true_iff (h : s.armedFailures = 0) :
    (s.commit staged).1 = .ok true ↔ ∀ c ∈ staged, c.Allowed s.committed := by
  refine ⟨fun htrue => ?_, fun hallowed => by rw [commit_of_allowed h hallowed]⟩
  rcases s.commit_cases staged with ⟨hallowed, -⟩ | ⟨hnot, -⟩
  · exact hallowed
  · exact absurd htrue hnot

theorem commit_singleton_eq_true_iff (h : s.armedFailures = 0) {c : Change} :
    (s.commit [c]).1 = .ok true ↔ c.Allowed s.committed := by
  rw [commit_eq_true_iff h, List.forall_mem_singleton]

/-- **One by one changes go through exactly if they are allowed in turn**, and then they are applied in order. -/
theorem commitEach?_eq_some_iff (h : s.armedFailures = 0) :
    s.commitEach? staged = some s' ↔
      AllowedInTurn s.committed staged ∧ s' = { s with committed := staged.foldl Change.apply s.committed } := by
  induction staged generalizing s with
  | nil => simp [commitEach?, AllowedInTurn, eq_comm]
  | cons c rest ih =>
    unfold commitEach?
    by_cases hc : c.Allowed s.committed
    · have hall : ∀ d ∈ [c], d.Allowed s.committed := List.forall_mem_singleton.mpr hc
      rw [commit_of_allowed h hall]
      exact (ih (s := { s with committed := c.apply s.committed }) h).trans (by simp [AllowedInTurn, hc])
    · have hne : (s.commit [c]).1 ≠ .ok true := mt (commit_singleton_eq_true_iff h).mp hc
      split
      · next heq => exact absurd (congrArg Prod.fst heq) hne
      · simp [AllowedInTurn, hc]

theorem exists_commitEach?_iff (h : s.armedFailures = 0) :
    (∃ s', s.commitEach? staged = some s') ↔ AllowedInTurn s.committed staged := by
  simp only [commitEach?_eq_some_iff h, exists_and_left, exists_eq, and_true]

/-- **A unit of work against its changes one by one**, with no failure armed. The unit goes through exactly if each of
its changes would go through alone on the posts as they were before it. If no update or removal of the unit asks for a
post that an earlier change of it adds or removes, this is the case exactly if all changes go through one by one; and
whenever both ways go through, they lead to the same store.

If the added posts are new, as they are when they get their identities from the store, the rest is this. A unit that
goes through asks for no post that it adds, and its changes go through one by one exactly if none asks for a post that
an earlier one removes. Changes that go through one by one do so as a unit if none asks for a post that an earlier one
adds. An update that is the last change of its post stands after the unit, also if the unit removes the post before. -/
theorem commit_against_each (harmed : s.armedFailures = 0) (staged : UnitOfWork) :
    ((s.commit staged).1 = .ok true ↔ ∀ c ∈ staged, (s.commit [c]).1 = .ok true) ∧
    (staged.Pairwise NotAddedBy → staged.Pairwise NotRemovedBy →
      ((s.commit staged).1 = .ok true ↔ ∃ s', s.commitEach? staged = some s')) ∧
    (∀ s', (s.commit staged).1 = .ok true → s.commitEach? staged = some s' → (s.commit staged).2 = s') ∧
    ((∀ p, .add p ∈ staged → p.id ∉ s.committed) →
      ((s.commit staged).1 = .ok true →
        staged.Pairwise NotAddedBy ∧ ((∃ s', s.commitEach? staged = some s') ↔ staged.Pairwise NotRemovedBy)) ∧
      ((∃ s', s.commitEach? staged = some s') → staged.Pairwise NotAddedBy → (s.commit staged).1 = .ok true)) ∧
    (∀ before p after, staged = before ++ .update p :: after → (∀ c ∈ after, c.concerns ≠ p.id) →
      (s.commit staged).1 = .ok true → (s.commit staged).2.find? p.id = some p) := by
  have hunit : (s.commit staged).1 = .ok true ↔ ∀ c ∈ staged, c.Allowed s.committed := commit_eq_true_iff harmed
  have heach : (∃ s', s.commitEach? staged = some s') ↔ AllowedInTurn s.committed staged :=
    exists_commitEach?_iff harmed
  rw [hunit, heach]
  refine ⟨?_, fun hadded hremoved => ⟨?_, fun hturn => hturn.allowed hadded⟩, fun s' h hs' => ?_, fun hfresh => ?_,
    fun before p after hsplit hlast h => ?_⟩
  · exact forall₂_congr fun c _ => (commit_singleton_eq_true_iff harmed).symm
  · exact fun h => Change.allowedInTurn_of_allowed h hremoved
  · rw [((commitEach?_eq_some_iff harmed).mp hs').2, commit_of_allowed harmed h]
  · have hnew : ∀ c ∈ staged, ∀ id ∈ c.added?, id ∉ s.committed := by
      intro c hc id hid
      cases c with
      | add p => exact Option.some.inj hid ▸ hfresh p hc
      | _ => cases hid
    refine ⟨fun h => ⟨Change.pairwise_notAddedBy h hnew, fun hturn => ?_, ?_⟩, fun hturn => hturn.allowed⟩
    · exact hturn.pairwise_notRemovedBy h hnew
    · exact Change.allowedInTurn_of_allowed h
  · rw [commit_of_allowed harmed h, hsplit]
    exact (Change.getElem?_foldl_apply_last hlast).trans Std.TreeMap.getElem?_insert_self

/-- A post that a unit adds cannot be updated in it, although one by one it can; and a post that a unit removes can be
updated in it, although one by one it cannot. -/
theorem commit_differs_from_each :
    let updated : Post := { (default : Post) with id := 1 }
    let added := ({} : StoreSession).after [.add "a" default, .markUpdated "a" updated]
    let removed := ({} : StoreSession).after
      [.add "a" default, .commit "a", .remove "b" 1, .markUpdated "b" updated]
    added.store.armedFailures = 0 ∧
      ¬ ((added.store.commit (added.unit "a")).1 = .ok true ↔
        ∃ s', added.store.commitEach? (added.unit "a") = some s') ∧
    removed.store.armedFailures = 0 ∧
      ¬ ((removed.store.commit (removed.unit "b")).1 = .ok true ↔
        ∃ s', removed.store.commitEach? (removed.unit "b") = some s') := by
  intro updated added removed
  have hadded : (added.store.commit (added.unit "a")).1 ≠ .ok true := by decide
  have hadded_each : (added.store.commitEach? (added.unit "a")).isSome = true := by decide
  have hremoved : (removed.store.commit (removed.unit "b")).1 = .ok true := by decide
  have hremoved_each : (removed.store.commitEach? (removed.unit "b")).isSome = false := by decide
  refine ⟨rfl, fun h => hadded (h.mpr (Option.isSome_iff_exists.mp hadded_each)), rfl, fun h => ?_⟩
  rw [Option.isSome_iff_exists.mpr (h.mp hremoved)] at hremoved_each
  cases hremoved_each

/-- A unit that removes a post and then updates it goes through, and the post stands; one by one it does not. -/
theorem commit_against_each_removed_and_updated :
    let updated : Post := { (default : Post) with id := 1 }
    let s := ({} : StoreSession).after [.add "a" default, .commit "a", .remove "b" 1, .markUpdated "b" updated]
    s.store.armedFailures = 0 ∧ s.unit "b" = [.remove 1, .update updated] ∧
      (s.store.commit (s.unit "b")).1 = .ok true ∧ (s.store.commit (s.unit "b")).2.find? 1 = some updated ∧
      ¬ ∃ s', s.store.commitEach? (s.unit "b") = some s' := by
  intro updated s
  have hstaged : s.unit "b" = [.remove 1, .update updated] := by decide
  have hcommit : (s.store.commit (s.unit "b")).1 = .ok true := by decide
  obtain ⟨-, -, -, hnew, hlast⟩ := commit_against_each (s := s.store) rfl (s.unit "b")
  have heach := ((hnew (by simp [hstaged])).1 hcommit).2
  refine ⟨rfl, hstaged, hcommit, hlast [.remove 1] updated [] hstaged nofun hcommit, ?_⟩
  rw [heach, hstaged]
  intro hturn
  have hkept : NotRemovedBy (.remove 1) (.update updated) :=
    (List.pairwise_cons.mp hturn).1 _ (List.mem_singleton_self _)
  exact hkept 1 rfl rfl

end PostStore

end HypermediaApi.Blog
