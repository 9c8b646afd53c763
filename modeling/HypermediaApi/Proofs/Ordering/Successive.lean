import HypermediaApi.Proofs.Ordering.Stability

/-!
# HypermediaApi.Proofs.Ordering.Successive — one sort by many keys is many sorts by one key

Entities may be sorted by the last key, the result by the key before it, and so on up to the first
(`SortedInTurn`). Each of these sorts is stable, so it keeps the order of all sorts before it among the entities
that it finds equal. This is one induction over the steps, with `StablySorted.cons` for the step at the head: what
is sorted stably by the other steps and then by this one is sorted stably by all of them. A stably sorted list
being the only one, `sortInPlace` and the sorts in turn arrive at the same list.
-/

namespace HypermediaApi

variable {ε : Type} [Sortable ε]

/-- The list `ys` is what stable sorts of `xs` by single steps arrive at, from the last step to the first. -/
inductive SortedInTurn : List SortStep → List ε → List ε → Prop
  | start (xs : List ε) : SortedInTurn [] xs xs
  | sort {s : SortStep} {rest : List SortStep} {xs ys zs : List ε} :
    SortedInTurn rest xs ys → StablySorted [s] ys zs → SortedInTurn (s :: rest) xs zs

/-- Every list is sorted stably by no steps. -/
theorem StablySorted.nil (xs : List ε) : StablySorted [] xs xs where
  perm := List.Perm.refl xs
  ordered := List.pairwise_of_forall fun a b => not_precedes_nil b a
  stable _ _ := rfl

/-- The entities tied by a list of steps are those tied by the first among those tied by the others. -/
theorem filter_tied_cons (s : SortStep) (rest : List SortStep) (a : ε) (xs : List ε) :
    xs.filter (Tied (s :: rest) a ·) = (xs.filter (Tied rest a ·)).filter (Tied [s] a ·) := by
  rw [List.filter_filter]
  congr 1
  funext b
  rw [Bool.eq_iff_iff, Bool.and_eq_true, decide_eq_true_iff, decide_eq_true_iff, decide_eq_true_iff, tied_cons,
    tied_singleton]

section Preordered

variable {s : SortStep} {rest : List SortStep} {xs ys zs : List ε}

/-- What is sorted stably by a step keeps an earlier order among the entities that the step finds equal. -/
theorem StablySorted.not_precedes_of_tied (hs : PreordersBy s.property ys) (hz : StablySorted [s] ys zs)
    (hy : ys.Pairwise fun a b => ¬ Precedes rest b a) {a b : ε} (hab : [a, b].Sublist zs)
    (htied : Tied [s] a b) : ¬ Precedes rest b a := by
  have ha : a ∈ ys := hz.perm.mem_iff.mp (hab.subset (by simp))
  have hrefl : Tied [s] a a := tied_singleton.mpr (hs.refl ha)
  -- Both stand in the class of `a`, and there the new list and the old one are the same.
  have hclass : [a, b].Sublist (ys.filter (Tied [s] a ·)) := by
    have hfilter := hab.filter (Tied [s] a ·)
    rw [hz.stable a ha] at hfilter
    simpa [hrefl, htied] using hfilter
  exact List.pairwise_iff_forall_sublist.mp hy (hclass.trans List.filter_sublist)

/-- **A stable sort by the other steps and then by the head step is a stable sort by all of them.** -/
theorem StablySorted.cons (h : ∀ t ∈ s :: rest, PreordersBy t.property xs) (hy : StablySorted rest xs ys)
    (hz : StablySorted [s] ys zs) : StablySorted (s :: rest) xs zs where
  perm := hz.perm.trans hy.perm
  ordered := by
    have hs : PreordersBy s.property ys := (h s List.mem_cons_self).mono hy.perm.subset
    refine List.pairwise_iff_forall_sublist.mpr ?_
    intro a b hab hprecedes
    rcases precedes_cons.mp hprecedes with hputs | ⟨htied, hrest⟩
    · exact List.pairwise_iff_forall_sublist.mp hz.ordered hab (precedes_singleton.mpr hputs)
    · have ha : a ∈ ys := hz.perm.mem_iff.mp (hab.subset (by simp))
      have hb : b ∈ ys := hz.perm.mem_iff.mp (hab.subset (by simp))
      have hab_tied : Tied [s] a b := by
        rw [tied_singleton, hs.eq_swap a ha b hb, htied]
        rfl
      exact hz.not_precedes_of_tied hs hy.ordered hab hab_tied hrest
  stable a ha := by
    have hmem : a ∈ ys := hy.perm.mem_iff.mpr ha
    calc zs.filter (Tied (s :: rest) a ·)
        = (zs.filter (Tied rest a ·)).filter (Tied [s] a ·) := filter_tied_cons s rest a zs
      _ = (zs.filter (Tied [s] a ·)).filter (Tied rest a ·) := List.filter_comm _ _ _
      _ = (ys.filter (Tied [s] a ·)).filter (Tied rest a ·) := by rw [hz.stable a hmem]
      _ = (ys.filter (Tied rest a ·)).filter (Tied [s] a ·) := List.filter_comm _ _ _
      _ = (xs.filter (Tied rest a ·)).filter (Tied [s] a ·) := by rw [hy.stable a ha]
      _ = xs.filter (Tied (s :: rest) a ·) := (filter_tied_cons s rest a xs).symm

end Preordered

/-- Sorts in turn arrive at the list that is sorted stably by all steps. -/
theorem SortedInTurn.stablySorted {steps : List SortStep} {xs ys : List ε} (hturn : SortedInTurn steps xs ys)
    (h : ∀ s ∈ steps, PreordersBy s.property xs) : StablySorted steps xs ys := by
  induction hturn with
  | start xs => exact StablySorted.nil xs
  | sort _ hz ih => exact (ih fun t ht => h t (List.mem_cons_of_mem _ ht)).cons h hz

/-- Sorts in turn arrive somewhere. -/
theorem exists_sortedInTurn {steps : List SortStep} {xs : List ε} (h : ∀ s ∈ steps, PreordersBy s.property xs) :
    ∃ ys, SortedInTurn steps xs ys := by
  induction steps with
  | nil => exact ⟨xs, .start xs⟩
  | cons s rest ih =>
    obtain ⟨hs, hrest⟩ := List.forall_mem_cons.mp h
    obtain ⟨ys, hturn⟩ := ih hrest
    have hsub : ys ⊆ xs := (hturn.stablySorted hrest).perm.subset
    have hsort : ∀ t ∈ [s], PreordersBy t.property ys := by
      intro t ht
      rw [List.mem_singleton.mp ht]
      exact hs.mono hsub
    exact ⟨_, .sort hturn (stablySorted_mergeSort hsort)⟩

/-- **One sort by many keys and many sorts by one key give the same list.** Where the properties of the steps and
the identity order the entities, sorting in place succeeds, and it leaves a list exactly if stable sorts by single
keys arrive at it: first by the identity in ascending order, unless a step sorts by it, then by the steps from the
last to the first, each in its own direction and keeping the order of what it finds equal. -/
theorem sortInPlace_eq_sortedInTurn {steps : List SortStep} {identity : String} {xs : List ε}
    (hsteps : ∀ s ∈ steps, PreordersBy s.property xs) (hidentity : PreordersBy identity xs) :
    ∃ ys, (sortInPlace steps identity).run xs = .ok () ys ∧
      ∀ zs, SortedInTurn (withTieBreak steps identity) xs zs ↔ zs = ys := by
  have h : ∀ property ∈ sortProperties steps identity, PreordersBy property xs :=
    forall_mem_sortProperties.mpr ⟨hsteps, hidentity⟩
  have hkeys : ∀ s ∈ withTieBreak steps identity, PreordersBy s.property xs :=
    fun s hs => h s.property (mem_sortProperties_of_mem_withTieBreak hs)
  refine ⟨arrange steps identity xs, run_sortInPlace_of_preorders h, ?_⟩
  have hunique : ∀ zs, SortedInTurn (withTieBreak steps identity) xs zs → zs = arrange steps identity xs :=
    fun zs hturn => (stablySorted_iff_eq_arrange h).mp (hturn.stablySorted hkeys)
  intro zs
  constructor
  · exact hunique zs
  · rintro rfl
    obtain ⟨ys, hturn⟩ := exists_sortedInTurn hkeys
    rwa [hunique ys hturn] at hturn

/-- The rows by identity, then by score, then by group downwards. -/
theorem sortInPlace_eq_sortedInTurn_of_scored_rows :
    let rows := [scoredRow 4 2 1, scoredRow 2 1 5, scoredRow 3 2 1, scoredRow 1 1 7]
    let steps : List SortStep := [⟨"group", .descending, true⟩, ⟨"score", .ascending, false⟩]
    (∀ s ∈ steps, PreordersBy s.property rows) ∧ PreordersBy "id" rows ∧
    (sortInPlace steps "id").run rows =
      .ok () [scoredRow 3 2 1, scoredRow 4 2 1, scoredRow 2 1 5, scoredRow 1 1 7] := by
  intro rows steps
  have hsteps : ∀ s ∈ steps, PreordersBy s.property rows := by decide +kernel
  have hidentity : PreordersBy "id" rows := by decide +kernel
  have hkeys : withTieBreak steps "id" = steps ++ [⟨"id", .ascending, false⟩] := by decide +kernel
  obtain ⟨ys, hrun, hturn⟩ := sortInPlace_eq_sortedInTurn hsteps hidentity
  have hbyId : SortedInTurn [⟨"id", .ascending, false⟩] rows
      [scoredRow 1 1 7, scoredRow 2 1 5, scoredRow 3 2 1, scoredRow 4 2 1] :=
    .sort (.start rows) (by decide +kernel)
  have hbyScore : SortedInTurn [⟨"score", .ascending, false⟩, ⟨"id", .ascending, false⟩] rows
      [scoredRow 3 2 1, scoredRow 4 2 1, scoredRow 2 1 5, scoredRow 1 1 7] :=
    .sort hbyId (by decide +kernel)
  have hbyGroup : SortedInTurn (withTieBreak steps "id") rows
      [scoredRow 3 2 1, scoredRow 4 2 1, scoredRow 2 1 5, scoredRow 1 1 7] := by
    rw [hkeys]
    exact .sort hbyScore (by decide +kernel)
  rw [(hturn _).mp hbyGroup]
  exact ⟨hsteps, hidentity, hrun⟩

end HypermediaApi
