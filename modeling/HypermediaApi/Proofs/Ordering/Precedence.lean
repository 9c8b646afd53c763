import HypermediaApi.Ordering.Step

/-!
# HypermediaApi.Proofs.Ordering.Precedence — which entity of a list comes first

What a sort by several steps should give is said without a word on how it compares. An entity precedes another
one if the first step that tells them apart puts it first (`Precedes`); two entities are tied if no step tells them
apart (`Tied`). The comparison by steps decides both (`compareSteps_eq_lt_iff`, `compareSteps_eq_eq_iff`).

A sort adds the identity behind its steps unless a step sorts by it already. Which of the two was done is of no
consequence (`compareFully_eq_then`): a step by the identity that does not tell two entities apart leaves nothing for
a tie-break to do.

The order by steps is built from the orders by single properties, and each way of building keeps a comparison
transitive (`transCmp_steps`). It need only make sense on the list that is sorted: there a property either compares no
two entities (`Incomparable`) or orders them as a total preorder (`PreordersBy`). Lemmas that ask for an order on a
whole type are applied to the type of the members of the list (`compareMembers`).
-/

namespace HypermediaApi

variable {ε : Type} [Sortable ε]

/-! ### Properties on a list of entities -/

/-- No two of the entities can be compared by the property. -/
def Incomparable (property : String) (xs : List ε) : Prop :=
  ∀ a ∈ xs, ∀ b ∈ xs, Sortable.compareBy property a b = none

/-- Any two of the entities can be compared by the property, and their order is a total preorder. -/
structure PreordersBy (property : String) (xs : List ε) : Prop where
  isSome : ∀ a ∈ xs, ∀ b ∈ xs, (Sortable.compareBy property a b).isSome
  eq_swap : ∀ a ∈ xs, ∀ b ∈ xs, orderBy property a b = (orderBy property b a).swap
  isLE_trans : ∀ a ∈ xs, ∀ b ∈ xs, ∀ c ∈ xs,
    (orderBy property a b).isLE → (orderBy property b c).isLE → (orderBy property a c).isLE

instance (property : String) (xs : List ε) : Decidable (Incomparable property xs) :=
  inferInstanceAs (Decidable (∀ a ∈ xs, ∀ b ∈ xs, Sortable.compareBy property a b = none))

instance (property : String) (xs : List ε) : Decidable (PreordersBy property xs) :=
  decidable_of_iff
    ((∀ a ∈ xs, ∀ b ∈ xs, (Sortable.compareBy property a b).isSome) ∧
      (∀ a ∈ xs, ∀ b ∈ xs, orderBy property a b = (orderBy property b a).swap) ∧
      ∀ a ∈ xs, ∀ b ∈ xs, ∀ c ∈ xs,
        (orderBy property a b).isLE → (orderBy property b c).isLE → (orderBy property a c).isLE)
    ⟨fun ⟨h₁, h₂, h₃⟩ => ⟨h₁, h₂, h₃⟩, fun ⟨h₁, h₂, h₃⟩ => ⟨h₁, h₂, h₃⟩⟩

/-- A property that orders the entities compares them, if there are any. -/
theorem PreordersBy.not_incomparable {property : String} {xs : List ε} (h : PreordersBy property xs) {x : ε}
    (hx : x ∈ xs) : ¬ Incomparable property xs := by
  intro hnone
  have hsome := h.isSome x hx x hx
  rw [hnone x hx x hx] at hsome
  cases hsome

theorem PreordersBy.mono {property : String} {xs ys : List ε} (h : PreordersBy property xs) (hsub : ys ⊆ xs) :
    PreordersBy property ys where
  isSome a ha b hb := h.isSome a (hsub ha) b (hsub hb)
  eq_swap a ha b hb := h.eq_swap a (hsub ha) b (hsub hb)
  isLE_trans a ha b hb c hc := h.isLE_trans a (hsub ha) b (hsub hb) c (hsub hc)

/-- On the members of the list the order by the property is transitive. -/
theorem PreordersBy.transCmp {property : String} {xs : List ε} (h : PreordersBy property xs) :
    Std.TransCmp fun a b : {x // x ∈ xs} => orderBy property a.1 b.1 where
  eq_swap {a b} := h.eq_swap a.1 a.2 b.1 b.2
  isLE_trans {a b c} := h.isLE_trans a.1 a.2 b.1 b.2 c.1 c.2

/-- An entity is equal to itself by a property that orders the list. -/
theorem PreordersBy.refl {property : String} {xs : List ε} (h : PreordersBy property xs) {x : ε} (hx : x ∈ xs) :
    orderBy property x x = .eq := by
  have hswap := h.eq_swap x hx x hx
  cases horder : orderBy property x x with
  | eq => rfl
  | lt => rw [horder] at hswap; cases hswap
  | gt => rw [horder] at hswap; cases hswap

/-! ### The order by several steps -/

/-- The step puts `a` before `b`. -/
def SortStep.Puts (s : SortStep) (a b : ε) : Prop :=
  match s.direction with
  | .ascending => orderBy s.property a b = .lt
  | .descending => orderBy s.property a b = .gt

/-- The first step that tells the two apart puts `a` before `b`. -/
def Precedes (steps : List SortStep) (a b : ε) : Prop :=
  ∃ before s after, steps = before ++ s :: after ∧ (∀ t ∈ before, orderBy t.property a b = .eq) ∧ s.Puts a b

/-- No step tells the two apart. -/
def Tied (steps : List SortStep) (a b : ε) : Prop := ∀ s ∈ steps, orderBy s.property a b = .eq

instance (steps : List SortStep) (a b : ε) : Decidable (Tied steps a b) :=
  inferInstanceAs (Decidable (∀ s ∈ steps, orderBy s.property a b = .eq))

theorem SortStep.compare_eq_lt_iff {s : SortStep} {a b : ε} : s.compare a b = .lt ↔ s.Puts a b := by
  obtain ⟨property, direction, first⟩ := s
  cases direction with
  | ascending => simp [SortStep.compare, SortStep.Puts, Direction.isDescending]
  | descending => simp [SortStep.compare, SortStep.Puts, Direction.isDescending, Ordering.swap_eq_lt]

theorem SortStep.compare_eq_eq_iff {s : SortStep} {a b : ε} :
    s.compare a b = .eq ↔ orderBy s.property a b = .eq := by
  obtain ⟨property, direction, first⟩ := s
  cases direction <;> simp [SortStep.compare, Direction.isDescending]

theorem tied_cons {s : SortStep} {rest : List SortStep} {a b : ε} :
    Tied (s :: rest) a b ↔ orderBy s.property a b = .eq ∧ Tied rest a b :=
  List.forall_mem_cons

theorem tied_singleton {s : SortStep} {a b : ε} : Tied [s] a b ↔ orderBy s.property a b = .eq := by
  simp [Tied]

/-- Nothing precedes anything where there are no steps. -/
theorem not_precedes_nil (a b : ε) : ¬ Precedes [] a b := by
  rintro ⟨before, s, after, hsplit, -⟩
  simp at hsplit

/-- The head step decides, or it does not tell the two apart and the other steps decide. -/
theorem precedes_cons {s : SortStep} {rest : List SortStep} {a b : ε} :
    Precedes (s :: rest) a b ↔ s.Puts a b ∨ (orderBy s.property a b = .eq ∧ Precedes rest a b) := by
  constructor
  · rintro ⟨before, t, after, hsplit, hbefore, hputs⟩
    cases before with
    | nil =>
      obtain ⟨rfl, -⟩ := List.cons.inj hsplit
      exact Or.inl hputs
    | cons u before =>
      obtain ⟨rfl, rfl⟩ := List.cons.inj hsplit
      obtain ⟨hhead, hrest⟩ := List.forall_mem_cons.mp hbefore
      exact Or.inr ⟨hhead, before, t, after, rfl, hrest, hputs⟩
  · rintro (hputs | ⟨hhead, before, t, after, rfl, hbefore, hputs⟩)
    · exact ⟨[], s, rest, rfl, by simp, hputs⟩
    · exact ⟨s :: before, t, after, rfl, List.forall_mem_cons.mpr ⟨hhead, hbefore⟩, hputs⟩

theorem precedes_singleton {s : SortStep} {a b : ε} : Precedes [s] a b ↔ s.Puts a b := by
  simp [precedes_cons, not_precedes_nil]

/-- **The comparison by steps says which entity precedes the other one.** -/
theorem compareSteps_eq_lt_iff {steps : List SortStep} {a b : ε} :
    compareSteps steps a b = .lt ↔ Precedes steps a b := by
  induction steps with
  | nil => simp [compareSteps, not_precedes_nil]
  | cons s rest ih =>
    simp only [compareSteps, Ordering.then_eq_lt, SortStep.compare_eq_lt_iff, SortStep.compare_eq_eq_iff,
      precedes_cons, ih]

theorem compareSteps_eq_eq_iff {steps : List SortStep} {a b : ε} :
    compareSteps steps a b = .eq ↔ Tied steps a b := by
  induction steps with
  | nil => simp [compareSteps, Tied]
  | cons s rest ih => simp only [compareSteps, Ordering.then_eq_eq, SortStep.compare_eq_eq_iff, tied_cons, ih]

instance (steps : List SortStep) (a b : ε) : Decidable (Precedes steps a b) :=
  decidable_of_iff _ compareSteps_eq_lt_iff

theorem compareSteps_append (before after : List SortStep) (a b : ε) :
    compareSteps (before ++ after) a b = (compareSteps before a b).then (compareSteps after a b) := by
  induction before with
  | nil => rfl
  | cons s before ih => rw [List.cons_append, compareSteps, compareSteps, ih, Ordering.then_assoc]

/-! ### Ties broken by the identity -/

/-- The steps with the tie-break behind them: the identity in ascending order, unless a step sorts by it. -/
def withTieBreak (steps : List SortStep) (identity : String) : List SortStep :=
  if ∃ s ∈ steps, s.property = identity then steps else steps ++ [⟨identity, .ascending, steps.isEmpty⟩]

/-- The order of a sort is that of its steps with the tie-break behind them. -/
theorem compareFully_eq_compareSteps (steps : List SortStep) (identity : String) (a b : ε) :
    compareFully steps identity a b = compareSteps (withTieBreak steps identity) a b := by
  have hsorts : sortsBy steps identity ↔ ∃ s ∈ steps, s.property = identity := by
    simp [sortsBy]
  unfold compareFully withTieBreak
  by_cases h : ∃ s ∈ steps, s.property = identity
  · rw [if_pos (hsorts.mpr h), if_pos h, Ordering.then_eq]
  · rw [if_neg (mt hsorts.mp h), if_neg h, compareSteps_append]
    simp [compareSteps, SortStep.compare, Direction.isDescending]

/-- **The full order is the order by the steps with ties broken by the identity**, also where a step by the
identity has made the tie-break needless. -/
theorem compareFully_eq_then (steps : List SortStep) (identity : String) (a b : ε) :
    compareFully steps identity a b = (compareSteps steps a b).then (orderBy identity a b) := by
  unfold compareFully
  by_cases hsorts : sortsBy steps identity
  · rw [if_pos hsorts]
    obtain ⟨s, hs, hproperty⟩ := List.any_eq_true.mp hsorts
    cases hsteps : compareSteps steps a b with
    | lt => rfl
    | gt => rfl
    | eq =>
      -- The steps leave the two equal, and one of them is by the identity.
      have htie : orderBy identity a b = .eq := by
        rw [← eq_of_beq hproperty]
        exact compareSteps_eq_eq_iff.mp hsteps s hs
      rw [htie]
  · rw [if_neg hsorts]

/-! ### Transitivity -/

/-- Of two things one does not come after the other. -/
theorem isLE_or_isLE {δ : Type} {cmp : δ → δ → Ordering} [Std.OrientedCmp cmp] (a b : δ) :
    (cmp a b).isLE || (cmp b a).isLE := by
  have hswap : cmp a b = (cmp b a).swap := Std.OrientedCmp.eq_swap
  rw [hswap]
  cases cmp b a <;> rfl

section Carrier

/-! The entities of one list, or things that stand for entities, are compared through a function `f`. -/

variable {δ : Type} {f : δ → ε}

/-- The order by one step is transitive, in whichever direction it runs. -/
theorem transCmp_step {s : SortStep} (h : Std.TransCmp fun a b => orderBy s.property (f a) (f b)) :
    Std.TransCmp fun a b => s.compare (f a) (f b) := by
  unfold SortStep.compare
  cases s.direction.isDescending with
  | false => exact h
  | true =>
    -- Swapping the outcome is comparing the other way round.
    have hswap : (fun a b => (orderBy s.property (f a) (f b)).swap) =
        fun a b => orderBy s.property (f b) (f a) := by
      funext a b
      exact h.eq_swap.symm
    simp only [if_true]
    rw [hswap]
    infer_instance

/-- The order by a list of steps is transitive: each step decides among what the ones before leave equal. -/
theorem transCmp_steps {steps : List SortStep}
    (h : ∀ s ∈ steps, Std.TransCmp fun a b => orderBy s.property (f a) (f b)) :
    Std.TransCmp fun a b => compareSteps steps (f a) (f b) := by
  induction steps with
  | nil => exact { eq_swap := rfl, isLE_trans := fun _ _ => rfl }
  | cons s rest ih =>
    obtain ⟨hhead, hrest⟩ := List.forall_mem_cons.mp h
    have := transCmp_step hhead
    have := ih hrest
    show Std.TransCmp fun a b => (s.compare (f a) (f b)).then (compareSteps rest (f a) (f b))
    exact inferInstanceAs (Std.TransCmp (compareLex (fun a b => s.compare (f a) (f b))
      fun a b => compareSteps rest (f a) (f b)))

end Carrier

/-! ### The members of a list -/

/-- The order by the steps on the type of the members of a list. -/
def compareMembers (steps : List SortStep) (xs : List ε) (a b : {x // x ∈ xs}) : Ordering :=
  compareSteps steps a.1 b.1

section Preordered

variable {steps : List SortStep} {xs : List ε} (h : ∀ s ∈ steps, PreordersBy s.property xs)

include h

theorem transCmp_compareMembers : Std.TransCmp (compareMembers steps xs) :=
  transCmp_steps fun s hs => (h s hs).transCmp

/-- An entity does not come after another one exactly if that one does not precede it. -/
theorem isLE_compareSteps_iff {a b : ε} (ha : a ∈ xs) (hb : b ∈ xs) :
    (compareSteps steps a b).isLE ↔ ¬ Precedes steps b a := by
  have := transCmp_compareMembers h
  have hgt : compareMembers steps xs ⟨a, ha⟩ ⟨b, hb⟩ = .gt ↔ compareMembers steps xs ⟨b, hb⟩ ⟨a, ha⟩ = .lt :=
    Std.OrientedCmp.gt_iff_lt
  unfold compareMembers at hgt
  rw [← compareSteps_eq_lt_iff, ← hgt]
  cases compareSteps steps a b <;> simp

theorem tied_refl {a : ε} (ha : a ∈ xs) : Tied steps a a := fun s hs => (h s hs).refl ha

/-- Entities neither of which precedes the other one are tied. -/
theorem tied_of_not_precedes {a b : ε} (ha : a ∈ xs) (hb : b ∈ xs) (hab : ¬ Precedes steps a b)
    (hba : ¬ Precedes steps b a) : Tied steps a b := by
  have := transCmp_compareMembers h
  have hle : (compareMembers steps xs ⟨a, ha⟩ ⟨b, hb⟩).isLE := (isLE_compareSteps_iff h ha hb).mpr hba
  have hge : (compareMembers steps xs ⟨b, hb⟩ ⟨a, ha⟩).isLE := (isLE_compareSteps_iff h hb ha).mpr hab
  have heq : compareMembers steps xs ⟨a, ha⟩ ⟨b, hb⟩ = .eq := Std.OrientedCmp.isLE_antisymm hle hge
  exact compareSteps_eq_eq_iff.mp heq

/-- Entities tied with the same one are not in each other's way. -/
theorem isLE_of_tied {a b c : ε} (ha : a ∈ xs) (hb : b ∈ xs) (hc : c ∈ xs) (hab : Tied steps a b)
    (hac : Tied steps a c) : (compareSteps steps b c).isLE := by
  have := transCmp_compareMembers h
  have hba : (compareMembers steps xs ⟨b, hb⟩ ⟨a, ha⟩).isLE := by
    have heq : compareMembers steps xs ⟨a, ha⟩ ⟨b, hb⟩ = .eq := compareSteps_eq_eq_iff.mpr hab
    rw [Std.OrientedCmp.eq_symm heq]
    rfl
  have hac' : (compareMembers steps xs ⟨a, ha⟩ ⟨c, hc⟩).isLE := by
    have heq : compareMembers steps xs ⟨a, ha⟩ ⟨c, hc⟩ = .eq := compareSteps_eq_eq_iff.mpr hac
    rw [heq]
    rfl
  have hbc : (compareMembers steps xs ⟨b, hb⟩ ⟨c, hc⟩).isLE := Std.TransCmp.isLE_trans hba hac'
  exact hbc

theorem isLE_members_total (a b : {x // x ∈ xs}) :
    (compareMembers steps xs a b).isLE || (compareMembers steps xs b a).isLE := by
  have := transCmp_compareMembers h
  exact isLE_or_isLE a b

theorem isLE_members_trans (a b c : {x // x ∈ xs}) (hab : (compareMembers steps xs a b).isLE)
    (hbc : (compareMembers steps xs b c).isLE) : (compareMembers steps xs a c).isLE := by
  have := transCmp_compareMembers h
  exact Std.TransCmp.isLE_trans hab hbc

end Preordered

end HypermediaApi
