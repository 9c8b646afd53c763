import HypermediaApi.Proofs.Ordering.Sorting
import HypermediaApi.Sample.Row
import Mathlib.Data.List.Find

/-!
# HypermediaApi.Proofs.Ordering.Stability — a sort in place is stable, or leaves everything alone

A list is another one sorted stably (`StablySorted`) if it is a permutation of it, no entity stands after one that
it precedes, and the entities tied with a given one stand in the order in which they stood. There is such a list
(`stablySorted_mergeSort`) and only one (`StablySorted.unique`): of two of them the heads are tied, and so each is
the first of the entities tied with it.

So it can be said exactly what a sort in place does, as an equivalence for each of its two outcomes: which failures
occur, with the entities untouched, and what stands in the list otherwise.
-/

namespace HypermediaApi

variable {ε : Type} [Sortable ε]

/-! ### Stably sorted lists -/

/-- The list `ys` is `xs` sorted stably by the steps. -/
structure StablySorted (steps : List SortStep) (xs ys : List ε) : Prop where
  perm : ys.Perm xs
  /-- No entity stands after one that it precedes. -/
  ordered : ys.Pairwise fun a b => ¬ Precedes steps b a
  /-- The entities tied with a given one stand in the order in which they stood. -/
  stable : ∀ a ∈ xs, ys.filter (Tied steps a ·) = xs.filter (Tied steps a ·)

instance [DecidableEq ε] (steps : List SortStep) (xs ys : List ε) : Decidable (StablySorted steps xs ys) :=
  decidable_of_iff
    (ys.Perm xs ∧ (ys.Pairwise fun a b => ¬ Precedes steps b a) ∧
      ∀ a ∈ xs, ys.filter (Tied steps a ·) = xs.filter (Tied steps a ·))
    ⟨fun ⟨h₁, h₂, h₃⟩ => ⟨h₁, h₂, h₃⟩, fun ⟨h₁, h₂, h₃⟩ => ⟨h₁, h₂, h₃⟩⟩

/-! ### Existence -/

/-- Sorting a list is sorting its members as things of a type of their own. -/
theorem mergeSort_eq_map_members (steps : List SortStep) (xs : List ε) :
    (xs.mergeSort fun a b => (compareSteps steps a b).isLE) =
      (xs.attach.mergeSort fun a b => (compareMembers steps xs a b).isLE).map Subtype.val := by
  have hmap := List.map_mergeSort (r := fun a b => (compareMembers steps xs a b).isLE)
    (s := fun a b => (compareSteps steps a b).isLE) (f := Subtype.val) (l := xs.attach) fun _ _ _ _ => rfl
  rw [hmap, List.attach_map_subtype_val]

section Preordered

variable {steps : List SortStep} {xs : List ε} (h : ∀ s ∈ steps, PreordersBy s.property xs)

include h

/-- A part of the list that is in order stays as it is. -/
theorem sublist_mergeSort_members {ys : List ε} (hsub : ys.Sublist xs)
    (hys : ys.Pairwise fun a b => (compareSteps steps a b).isLE) :
    ys.Sublist (xs.mergeSort fun a b => (compareSteps steps a b).isLE) := by
  rw [← List.attach_map_subtype_val xs] at hsub
  obtain ⟨members, hmembers, rfl⟩ := List.sublist_map_iff.mp hsub
  rw [mergeSort_eq_map_members]
  exact (List.sublist_mergeSort (isLE_members_trans h) (isLE_members_total h) (List.pairwise_map.mp hys)
    hmembers).map Subtype.val

/-- **The merge sort by the steps sorts stably.** -/
theorem stablySorted_mergeSort :
    StablySorted steps xs (xs.mergeSort fun a b => (compareSteps steps a b).isLE) where
  perm := List.mergeSort_perm xs _
  ordered := by
    rw [mergeSort_eq_map_members, List.pairwise_map]
    refine (List.pairwise_mergeSort (isLE_members_trans h) (isLE_members_total h) xs.attach).imp ?_
    intro a b hab
    exact (isLE_compareSteps_iff h a.2 b.2).mp hab
  stable a ha := by
    have hperm := List.mergeSort_perm xs fun a b => (compareSteps steps a b).isLE
    -- The entities tied with `a` are in order as they stand, so they are a part of the sorted list as well,
    have htied : (xs.filter (Tied steps a ·)).Pairwise fun b c => (compareSteps steps b c).isLE := by
      refine List.Pairwise.imp_of_mem ?_ (List.pairwise_of_forall fun _ _ => trivial)
      intro b c hb hc _
      obtain ⟨hbmem, hab⟩ := List.mem_filter.mp hb
      obtain ⟨hcmem, hac⟩ := List.mem_filter.mp hc
      exact isLE_of_tied h ha hbmem hcmem (of_decide_eq_true hab) (of_decide_eq_true hac)
    have hsub := (sublist_mergeSort_members h List.filter_sublist htied).filter (Tied steps a ·)
    simp only [List.filter_filter, Bool.and_self] at hsub
    -- and that list holds no other entities tied with `a`.
    exact (hsub.eq_of_length (hperm.filter _).length_eq.symm).symm

/-! ### Uniqueness -/

/-- Two lists in order that agree on each class of tied entities are the same. -/
theorem eq_of_ordered {ys zs : List ε} (hys : ys ⊆ xs) (hperm : zs.Perm ys)
    (hy : ys.Pairwise fun a b => ¬ Precedes steps b a) (hz : zs.Pairwise fun a b => ¬ Precedes steps b a)
    (htied : ∀ a ∈ ys, zs.filter (Tied steps a ·) = ys.filter (Tied steps a ·)) : zs = ys := by
  induction ys generalizing zs with
  | nil => exact List.perm_nil.mp hperm
  | cons y ys ih =>
    obtain ⟨z, zs, rfl⟩ :=
      List.exists_cons_of_ne_nil (List.ne_nil_of_mem (hperm.mem_iff.mpr List.mem_cons_self))
    obtain ⟨hymem, hsub⟩ := List.cons_subset.mp hys
    obtain ⟨hyfirst, hyrest⟩ := List.pairwise_cons.mp hy
    obtain ⟨hzfirst, hzrest⟩ := List.pairwise_cons.mp hz
    -- Neither head precedes the other one, so both head the class of the entities tied with `y`.
    have hyz : Tied steps y z := by
      rcases List.mem_cons.mp (hperm.mem_iff.mp List.mem_cons_self) with rfl | hzmem
      · exact tied_refl h hymem
      rcases List.mem_cons.mp (hperm.mem_iff.mpr List.mem_cons_self) with rfl | hyzs
      · exact tied_refl h hymem
      exact tied_of_not_precedes h hymem (hsub hzmem) (hzfirst y hyzs) (hyfirst z hzmem)
    have hhead : z = y := by
      have hclass := htied y List.mem_cons_self
      simp only [List.filter_cons, hyz, tied_refl h hymem, decide_true, if_true] at hclass
      exact (List.cons.inj hclass).1
    subst hhead
    have hrest : zs = ys := by
      refine ih hsub (List.perm_cons z |>.mp hperm) hyrest hzrest ?_
      intro a ha
      have hclass := htied a (List.mem_cons_of_mem z ha)
      rw [List.filter_cons, List.filter_cons] at hclass
      split at hclass
      · exact (List.cons.inj hclass).2
      · exact hclass
    rw [hrest]

/-- **There is one stably sorted list.** -/
theorem StablySorted.unique {ys zs : List ε} (hy : StablySorted steps xs ys) (hz : StablySorted steps xs zs) :
    ys = zs := by
  refine eq_of_ordered h hz.perm.subset (hy.perm.trans hz.perm.symm) hz.ordered hy.ordered ?_
  intro a ha
  have hmem : a ∈ xs := hz.perm.mem_iff.mp ha
  rw [hy.stable a hmem, hz.stable a hmem]

end Preordered

/-! ### Sorting in place -/

/-- The properties by which a sort compares, in the order in which they are tried. -/
def sortProperties (steps : List SortStep) (identity : String) : List String :=
  steps.map (·.property) ++ [identity]

theorem forall_mem_sortProperties {steps : List SortStep} {identity : String} {P : String → Prop} :
    (∀ property ∈ sortProperties steps identity, P property) ↔ (∀ s ∈ steps, P s.property) ∧ P identity := by
  simp [sortProperties, or_imp, forall_and]

/-- The tie-break sorts by no other properties than those that are tried. -/
theorem mem_sortProperties_of_mem_withTieBreak {steps : List SortStep} {identity : String} {s : SortStep}
    (h : s ∈ withTieBreak steps identity) : s.property ∈ sortProperties steps identity := by
  unfold withTieBreak at h
  unfold sortProperties
  split at h
  · exact List.mem_append_left _ (List.mem_map_of_mem h)
  · rcases List.mem_append.mp h with hs | hs
    · exact List.mem_append_left _ (List.mem_map_of_mem hs)
    · rw [List.mem_singleton.mp hs]
      exact List.mem_append_right _ (List.mem_singleton_self identity)

/-- The sorted entities are the only list sorted stably by the steps with the tie-break behind them. -/
theorem stablySorted_iff_eq_arrange {steps : List SortStep} {identity : String} {xs ys : List ε}
    (h : ∀ property ∈ sortProperties steps identity, PreordersBy property xs) :
    StablySorted (withTieBreak steps identity) xs ys ↔ ys = arrange steps identity xs := by
  have hsteps : ∀ s ∈ withTieBreak steps identity, PreordersBy s.property xs :=
    fun s hs => h s.property (mem_sortProperties_of_mem_withTieBreak hs)
  have harrange : StablySorted (withTieBreak steps identity) xs (arrange steps identity xs) := by
    unfold arrange
    simp only [compareFully_eq_compareSteps]
    exact stablySorted_mergeSort hsteps
  constructor
  · intro hy
    exact hy.unique hsteps harrange
  · rintro rfl
    exact harrange

/-- A sort by properties that order the entities puts them in order. -/
theorem run_sortInPlace_of_preorders {steps : List SortStep} {identity : String} {xs : List ε}
    (h : ∀ property ∈ sortProperties steps identity, PreordersBy property xs) :
    (sortInPlace steps identity).run xs = .ok () (arrange steps identity xs) := by
  obtain ⟨hsteps, hidentity⟩ := forall_mem_sortProperties.mp h
  exact run_sortInPlace_eq_ok (fun s hs x hx => (hsteps s hs).isSome x hx x hx)
    fun x hx => hidentity.isSome x hx x hx

/-- Comparing one entity with itself finds the first property by which no two of the entities compare. -/
theorem incomparable?_eq_find? {steps : List SortStep} {identity : String} {xs : List ε} {probe : ε}
    (h : ∀ property ∈ sortProperties steps identity, Incomparable property xs ∨ PreordersBy property xs)
    (hprobe : probe ∈ xs) :
    incomparable? steps identity probe = (sortProperties steps identity).find? (Incomparable · xs) := by
  refine List.find?_congr ?_
  intro property hproperty
  rcases h property hproperty with hnone | horder
  · simp [hnone, hnone probe hprobe probe hprobe]
  · simp [horder.not_incomparable hprobe, horder.isSome probe hprobe probe hprobe]

/-- A sort that needs a property by which no two of the entities compare names the first such property. -/
theorem run_sortInPlace_of_incomparable {steps : List SortStep} {identity : String} {xs : List ε}
    (h : ∀ property ∈ sortProperties steps identity, Incomparable property xs ∨ PreordersBy property xs)
    (hne : xs ≠ []) {property : String}
    (hfind : (sortProperties steps identity).find? (Incomparable · xs) = some property) :
    (sortInPlace steps identity).run xs = .error (.invalidSort property) xs := by
  obtain ⟨x, rest, rfl⟩ := List.exists_cons_of_ne_nil hne
  have hprobe : (x :: rest).head?.bind (incomparable? steps identity) = some property := by
    rw [List.head?_cons, Option.bind_some, incomparable?_eq_find? h List.mem_cons_self, hfind]
  rw [run_sortInPlace, hprobe]

/-- Either every property that is needed orders the entities, or there is a first one that does not compare. -/
theorem preorders_or_exists_find? {steps : List SortStep} {identity : String} {xs : List ε}
    (h : ∀ property ∈ sortProperties steps identity, Incomparable property xs ∨ PreordersBy property xs) :
    (∀ property ∈ sortProperties steps identity, PreordersBy property xs) ∨
      (xs ≠ [] ∧ ∃ property, (sortProperties steps identity).find? (Incomparable · xs) = some property) := by
  by_cases hne : xs = []
  · -- Nothing is asked of an order on no entities.
    subst hne
    exact Or.inl fun property _ => ⟨by simp, by simp, by simp⟩
  · cases hfind : (sortProperties steps identity).find? (Incomparable · xs) with
    | some property => exact Or.inr ⟨hne, property, rfl⟩
    | none =>
      left
      intro property hproperty
      have hnot := List.find?_eq_none.mp hfind property hproperty
      exact (h property hproperty).resolve_left (by simpa using hnot)

theorem comparable_of_preorders {properties : List String} {xs : List ε}
    (h : ∀ property ∈ properties, PreordersBy property xs) :
    xs = [] ∨ ∀ property ∈ properties, ¬ Incomparable property xs := by
  cases xs with
  | nil => exact Or.inl rfl
  | cons x rest =>
    exact Or.inr fun property hproperty => (h property hproperty).not_incomparable List.mem_cons_self

theorem not_comparable_of_find? {properties : List String} {xs : List ε} (hne : xs ≠ []) {property : String}
    (hfind : properties.find? (Incomparable · xs) = some property) :
    ¬ (xs = [] ∨ ∀ property ∈ properties, ¬ Incomparable property xs) := by
  have hfound := List.find?_some hfind
  have hnone : Incomparable property xs := of_decide_eq_true hfound
  rintro (rfl | hcompare)
  · exact hne rfl
  · exact hcompare property (List.mem_of_find?_eq_some hfind) hnone

/-- **A sort in place is stable, or leaves everything as it is.** Let each property that the sort needs either
compare no two of the entities or order them as a total preorder. The sort fails exactly if there are entities and
one of these properties does not compare; then it names the first such one, and the entities stay as they are.
Otherwise it leaves the list sorted stably by the steps and, where no step sorts by the identity, by the identity
last. -/
theorem sortInPlace_stable_or_unchanged (steps : List SortStep) (identity : String) {xs : List ε}
    (h : ∀ property ∈ sortProperties steps identity, Incomparable property xs ∨ PreordersBy property xs) :
    (∀ failure ys, (sortInPlace steps identity).run xs = .error failure ys ↔
      ys = xs ∧ xs ≠ [] ∧ ∃ property,
        (sortProperties steps identity).find? (Incomparable · xs) = some property ∧
        failure = .invalidSort property) ∧
    ∀ ys, (sortInPlace steps identity).run xs = .ok () ys ↔
      (xs = [] ∨ ∀ property ∈ sortProperties steps identity, ¬ Incomparable property xs) ∧
        StablySorted (withTieBreak steps identity) xs ys := by
  rcases preorders_or_exists_find? h with horder | ⟨hne, property, hfind⟩
  · have hcompare := comparable_of_preorders horder
    rw [run_sortInPlace_of_preorders horder]
    constructor
    · intro failure ys
      refine ⟨nofun, ?_⟩
      rintro ⟨-, hne, property, hfind, -⟩
      exact absurd hcompare (not_comparable_of_find? hne hfind)
    · intro ys
      rw [stablySorted_iff_eq_arrange horder]
      constructor
      · intro hrun
        obtain rfl : arrange steps identity xs = ys := by injection hrun
        exact ⟨hcompare, rfl⟩
      · rintro ⟨-, rfl⟩
        rfl
  · rw [run_sortInPlace_of_incomparable h hne hfind]
    constructor
    · intro failure ys
      constructor
      · intro hrun
        injection hrun with hfailure hys
        exact ⟨hys.symm, hne, property, hfind, hfailure.symm⟩
      · rintro ⟨rfl, -, property', hfind', rfl⟩
        obtain rfl : property = property' := Option.some.inj (hfind.symm.trans hfind')
        rfl
    · intro ys
      refine ⟨nofun, ?_⟩
      rintro ⟨hcompare, -⟩
      exact absurd hcompare (not_comparable_of_find? hne hfind)

/-- A row with an identity, a group and a score. -/
def scoredRow (id group score : Int) : Sample.Row where
  number := id.toNat
  properties := [("id", .int id), ("group", .int group), ("score", .int score)]

/-- Rows by group downwards and score upwards, of which two are told apart by the identity alone, and the same rows
with a step by a property that none of them has. -/
theorem sortInPlace_of_scored_rows :
    let rows := [scoredRow 4 2 1, scoredRow 2 1 5, scoredRow 3 2 1, scoredRow 1 1 7]
    let steps : List SortStep := [⟨"group", .descending, true⟩, ⟨"score", .ascending, false⟩]
    let steps' : List SortStep := steps ++ [⟨"colour", .ascending, false⟩]
    (∀ property ∈ sortProperties steps "id", Incomparable property rows ∨ PreordersBy property rows) ∧
    (∀ property ∈ sortProperties steps' "id", Incomparable property rows ∨ PreordersBy property rows) ∧
    (sortInPlace steps "id").run rows =
      .ok () [scoredRow 3 2 1, scoredRow 4 2 1, scoredRow 2 1 5, scoredRow 1 1 7] ∧
    (sortInPlace steps' "id").run rows = .error (.invalidSort "colour") rows := by
  intro rows steps steps'
  have h : ∀ property ∈ sortProperties steps "id", Incomparable property rows ∨ PreordersBy property rows := by
    decide +kernel
  have h' : ∀ property ∈ sortProperties steps' "id", Incomparable property rows ∨ PreordersBy property rows := by
    decide +kernel
  have hsorted := (sortInPlace_stable_or_unchanged steps "id" h).2
  have hfailed := (sortInPlace_stable_or_unchanged steps' "id" h').1
  refine ⟨h, h', (hsorted _).mpr ⟨Or.inr ?_, ?_⟩, (hfailed _ _).mpr ⟨rfl, ?_, "colour", ?_, rfl⟩⟩
  all_goals decide +kernel

end HypermediaApi
