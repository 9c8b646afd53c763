import HypermediaApi.Proofs.Ordering.Stability
import Mathlib.Data.List.Pairwise

/-!
# HypermediaApi.Proofs.Ordering.InputOrder — the order that a sort leaves does not depend on the one it finds

Pages are cut from lists that are sorted anew for every request, so the result of a sort must depend on the entities
and not on how they stood. It does where no two of them share an identity: the keys of a sort always contain the
identity, so no two entities are tied and only one permutation is in order (`arrange_eq_of_perm`).

A step makes no difference if the steps before it leave equal only what it finds equal itself
(`compareFully_of_needless`). That is so for a step by a property that an earlier step has sorted by, and for every
step behind one by the identity.
-/

namespace HypermediaApi

variable {ε : Type} [Sortable ε] {steps : List SortStep} {identity : String} {xs : List ε}

/-! ### Pairwise different identities -/

/-- Entities that are tied by the keys of a sort have the same identity. -/
theorem orderBy_identity_of_tied {a b : ε} (h : Tied (withTieBreak steps identity) a b) :
    orderBy identity a b = .eq := by
  unfold withTieBreak at h
  split at h
  · next hsorts =>
    obtain ⟨s, hs, rfl⟩ := hsorts
    exact h s hs
  · exact h ⟨identity, .ascending, steps.isEmpty⟩ (by simp)

/-- Where identities are pairwise different, entities of the list with the same identity are the same. -/
theorem eq_of_orderBy_identity (hidentity : PreordersBy identity xs)
    (hdistinct : xs.Pairwise fun a b => orderBy identity a b ≠ .eq) {a b : ε} (ha : a ∈ xs) (hb : b ∈ xs)
    (h : orderBy identity a b = .eq) : a = b := by
  have hboth : xs.Pairwise fun a b => orderBy identity a b ≠ .eq ∧ orderBy identity b a ≠ .eq := by
    refine hdistinct.imp_of_mem ?_
    intro a b ha hb hab
    refine ⟨hab, fun hba => hab ?_⟩
    rw [hidentity.eq_swap a ha b hb, hba]
    rfl
  have : Std.Symm fun a b : ε => orderBy identity a b ≠ .eq ∧ orderBy identity b a ≠ .eq :=
    ⟨fun _ _ hab => hab.symm⟩
  by_contra hne
  exact (hboth.forall ha hb hne).1 h

/-- **Sorted permutations of one list are the same** where identities are pairwise different. -/
theorem arrange_eq_of_perm (h : ∀ property ∈ sortProperties steps identity, PreordersBy property xs)
    (hdistinct : xs.Pairwise fun a b => orderBy identity a b ≠ .eq) {zs : List ε} (hperm : zs.Perm xs) :
    arrange steps identity zs = arrange steps identity xs := by
  have hx : StablySorted (withTieBreak steps identity) xs (arrange steps identity xs) :=
    (stablySorted_iff_eq_arrange h).mpr rfl
  have hz : StablySorted (withTieBreak steps identity) zs (arrange steps identity zs) :=
    (stablySorted_iff_eq_arrange fun property hproperty => (h property hproperty).mono hperm.subset).mpr rfl
  have hkeys : ∀ s ∈ withTieBreak steps identity, PreordersBy s.property xs :=
    fun s hs => h s.property (mem_sortProperties_of_mem_withTieBreak hs)
  refine List.Perm.eq_of_pairwise ?_ hz.ordered hx.ordered (hz.perm.trans (hperm.trans hx.perm.symm))
  intro a b ha hb hba hab
  have ha' : a ∈ xs := (hz.perm.trans hperm).mem_iff.mp ha
  have hb' : b ∈ xs := hx.perm.mem_iff.mp hb
  have htied := tied_of_not_precedes hkeys ha' hb' hab hba
  exact eq_of_orderBy_identity (forall_mem_sortProperties.mp h).2 hdistinct ha' hb' (orderBy_identity_of_tied htied)

/-! ### Needless steps -/

/-- A step makes no difference if the steps before it leave equal only what it finds equal itself. -/
theorem compareFully_of_needless {before after : List SortStep} {s : SortStep} {a b : ε}
    (h : compareSteps before a b = .eq → orderBy s.property a b = .eq) :
    compareFully (before ++ s :: after) identity a b = compareFully (before ++ after) identity a b := by
  rw [compareFully_eq_then, compareFully_eq_then, compareSteps_append, compareSteps_append, compareSteps]
  cases hbefore : compareSteps before a b with
  | lt => rfl
  | gt => rfl
  | eq => rw [SortStep.compare_eq_eq_iff.mpr (h hbefore), Ordering.eq_then]

/-- Comparisons that agree on the entities of the list arrange it alike. -/
theorem arrange_congr {steps' : List SortStep}
    (h : ∀ a ∈ xs, ∀ b ∈ xs, compareFully steps identity a b = compareFully steps' identity a b) :
    arrange steps identity xs = arrange steps' identity xs := by
  have hmap := List.map_mergeSort (r := fun a b => (compareFully steps identity a b).isLE)
    (s := fun a b => (compareFully steps' identity a b).isLE) (f := id) (l := xs)
    fun a ha b hb => by rw [h a ha b hb]; rfl
  rwa [List.map_id, List.map_id] at hmap

/-- A step by a property that was sorted by before, or behind one by the identity, makes no difference. -/
theorem arrange_of_needless {before after : List SortStep} {s t : SortStep}
    (h : ∀ property ∈ sortProperties (before ++ s :: after) identity, PreordersBy property xs)
    (hdistinct : xs.Pairwise fun a b => orderBy identity a b ≠ .eq) (ht : t ∈ before)
    (hproperty : t.property = s.property ∨ t.property = identity) :
    arrange (before ++ after) identity xs = arrange (before ++ s :: after) identity xs := by
  obtain ⟨hsteps, hidentity⟩ := forall_mem_sortProperties.mp h
  refine arrange_congr fun a ha b hb => (compareFully_of_needless fun hbefore => ?_).symm
  have htie : orderBy t.property a b = .eq := compareSteps_eq_eq_iff.mp hbefore t ht
  rcases hproperty with hsame | hid
  · rw [← hsame]
    exact htie
  · rw [hid] at htie
    obtain rfl : a = b := eq_of_orderBy_identity hidentity hdistinct ha hb htie
    exact (hsteps s (by simp)).refl ha

/-- **What a sort leaves depends on the entities and not on their order.** Let the properties of the steps order the
entities and the identity tell any two of them apart. Then sorting in place succeeds, leaves the same list for every
permutation of the entities, changes nothing the second time, and leaves the same list without a step whose property
an earlier step sorts by, or one behind a step by the identity. -/
theorem sortInPlace_independent_of_input_order (hsteps : ∀ s ∈ steps, PreordersBy s.property xs)
    (hidentity : PreordersBy identity xs) (hdistinct : xs.Pairwise fun a b => orderBy identity a b ≠ .eq) :
    ∃ ys, (sortInPlace steps identity).run xs = .ok () ys ∧
      (∀ zs, zs.Perm xs → (sortInPlace steps identity).run zs = .ok () ys) ∧
      (do sortInPlace steps identity; sortInPlace steps identity).run xs = .ok () ys ∧
      ∀ before s after, steps = before ++ s :: after →
        (∃ t ∈ before, t.property = s.property ∨ t.property = identity) →
        (sortInPlace (before ++ after) identity).run xs = .ok () ys := by
  have h : ∀ property ∈ sortProperties steps identity, PreordersBy property xs :=
    forall_mem_sortProperties.mpr ⟨hsteps, hidentity⟩
  have hperms : ∀ zs, zs.Perm xs → (sortInPlace steps identity).run zs = .ok () (arrange steps identity xs) := by
    intro zs hperm
    rw [run_sortInPlace_of_preorders fun property hproperty => (h property hproperty).mono hperm.subset,
      arrange_eq_of_perm h hdistinct hperm]
  have honce : (sortInPlace steps identity).run xs = .ok () (arrange steps identity xs) :=
    hperms xs (List.Perm.refl xs)
  refine ⟨arrange steps identity xs, honce, hperms, ?_, ?_⟩
  · -- The second sort finds a permutation of the entities.
    have htwice := hperms (arrange steps identity xs) (arrange_perm steps identity xs)
    rw [EStateM.run_bind, honce]
    exact htwice
  · rintro before s after rfl ⟨t, ht, hproperty⟩
    have hfewer : ∀ property ∈ sortProperties (before ++ after) identity, PreordersBy property xs := by
      refine forall_mem_sortProperties.mpr ⟨fun u hu => hsteps u ?_, hidentity⟩
      rcases List.mem_append.mp hu with hu | hu
      · exact List.mem_append_left _ hu
      · exact List.mem_append_right _ (List.mem_cons_of_mem s hu)
    rw [run_sortInPlace_of_preorders hfewer, arrange_of_needless h hdistinct ht hproperty]

/-- The rows the other way round, without the second step by the score, and without the step behind the identity. -/
theorem sortInPlace_independent_of_input_order_scored_rows :
    let rows := [scoredRow 4 2 1, scoredRow 2 1 5, scoredRow 3 2 1, scoredRow 1 1 7]
    let before : List SortStep := [⟨"score", .descending, true⟩, ⟨"id", .ascending, false⟩]
    let steps := before ++ [⟨"score", .ascending, false⟩, ⟨"group", .ascending, false⟩]
    (∀ s ∈ steps, PreordersBy s.property rows) ∧ PreordersBy "id" rows ∧
    (rows.Pairwise fun a b => orderBy "id" a b ≠ .eq) ∧
    (sortInPlace steps "id").run rows.reverse = (sortInPlace steps "id").run rows ∧
    (sortInPlace (before ++ [⟨"group", .ascending, false⟩]) "id").run rows = (sortInPlace steps "id").run rows ∧
    (sortInPlace (before ++ [⟨"score", .ascending, false⟩]) "id").run rows = (sortInPlace steps "id").run rows := by
  intro rows before steps
  have hsteps : ∀ s ∈ steps, PreordersBy s.property rows := by decide +kernel
  have hidentity : PreordersBy "id" rows := by decide +kernel
  have hdistinct : rows.Pairwise fun a b => orderBy "id" a b ≠ .eq := by decide +kernel
  obtain ⟨ys, hrun, hperms, -, hfewer⟩ := sortInPlace_independent_of_input_order hsteps hidentity hdistinct
  rw [hrun]
  refine ⟨hsteps, hidentity, hdistinct, hperms _ rows.reverse_perm, ?_, ?_⟩
  · exact hfewer before ⟨"score", .ascending, false⟩ [⟨"group", .ascending, false⟩] rfl (by decide +kernel)
  · exact hfewer (before ++ [⟨"score", .ascending, false⟩]) ⟨"group", .ascending, false⟩ [] rfl (by decide +kernel)

end HypermediaApi
