import HypermediaApi.Proofs.Ordering.Agreement
import HypermediaApi.Proofs.Ordering.Precedence

/-!
# HypermediaApi.Proofs.Ordering.Sorting — compiled steps sort, and one way only

Compiled steps name properties that stand in the mapping (`PropertyMapping.exists_of_mem_steps`), so a mapping
whose properties all compare never makes a sort fail (`sortEntities_eq_ok`).

Sorting in place is read off once, in `run_sortInPlace`: either a property that does not compare is found, or the
entities are arranged. Where the order by each property is transitive (`LawfulSortable`), the arranged entities are
in order; and where no two of them share an identity, ties are gone and the order is strict (`pairwise_arrange`).
-/

namespace HypermediaApi

variable {ε : Type} [Sortable ε]

/-! ### Properties behind steps -/

/-- Any two entities can be compared by the property. -/
def Compares (ε : Type) [Sortable ε] (property : String) : Prop :=
  ∀ a b : ε, (Sortable.compareBy property a b).isSome

theorem map_property_stepsOf (properties : List (String × Direction)) :
    (stepsOf properties).map (·.property) = properties.map Prod.fst := by
  cases properties with
  | nil => rfl
  | cons p rest => simp [stepsOf, Function.comp_def]

namespace PropertyMapping

variable {m : PropertyMapping}

theorem exists_of_mem_expand {key : SortKey} {expanded : List (String × Direction)}
    (h : m.expand key = .ok expanded) {p : String × Direction} (hp : p ∈ expanded) :
    ∃ field properties, m.get? field = some properties ∧ ∃ q ∈ properties, p.1 = q.name := by
  unfold expand at h
  cases hget : m.get? key.field with
  | none =>
    rw [hget] at h
    cases h
  | some properties =>
    rw [hget] at h
    obtain rfl := Except.ok.inj h
    obtain ⟨q, hq, rfl⟩ := List.mem_map.mp hp
    exact ⟨key.field, properties, hget, q, hq, rfl⟩

theorem exists_of_mem_compileKeys {keys : List SortKey} {steps : List SortStep}
    (h : m.compileKeys keys = .ok steps) {s : SortStep} (hs : s ∈ steps) :
    ∃ field properties, m.get? field = some properties ∧ ∃ q ∈ properties, s.property = q.name := by
  unfold compileKeys at h
  cases hkeys : keys.mapM m.expand with
  | error failure =>
    rw [hkeys] at h
    cases h
  | ok expanded =>
    rw [hkeys] at h
    obtain rfl : stepsOf expanded.flatten = steps := Except.ok.inj h
    have hproperty : s.property ∈ (stepsOf expanded.flatten).map (·.property) := List.mem_map_of_mem hs
    rw [map_property_stepsOf] at hproperty
    obtain ⟨p, hp, hname⟩ := List.mem_map.mp hproperty
    obtain ⟨es, hes, hpes⟩ := List.mem_flatten.mp hp
    obtain ⟨key, -, hkey⟩ := (mem_iff_of_mapM_eq_ok hkeys).mp hes
    rw [← hname]
    exact exists_of_mem_expand hkey hpes

/-- **Compiled steps sort by properties of the mapping.** -/
theorem exists_of_mem_steps {orderBy : Option String} {steps : List SortStep}
    (h : m.compile orderBy = .ok steps) {s : SortStep} (hs : s ∈ steps) :
    ∃ field properties, m.get? field = some properties ∧ ∃ q ∈ properties, s.property = q.name := by
  unfold compile at h
  cases hread : readOrderBy (orderBy.getD "") with
  | error failure =>
    rw [hread] at h
    cases h
  | ok keys =>
    rw [hread] at h
    cases keys with
    | nil => exact exists_of_mem_compileKeys h hs
    | cons key rest => exact exists_of_mem_compileKeys h hs

theorem mem_entries_of_get? {field : String} {properties : List MappedProperty}
    (h : m.get? field = some properties) : properties ∈ m.table.entries.map Prod.snd := by
  obtain ⟨e, he, rfl⟩ := Option.map_eq_some_iff.mp h
  obtain ⟨hmem, -⟩ := sameName_of_entry? he
  exact List.mem_map_of_mem hmem

end PropertyMapping

/-- Any two entities can be compared by every property that stands in the mapping. -/
def PropertyMapping.Sorts (m : PropertyMapping) (ε : Type) [Sortable ε] : Prop :=
  ∀ properties ∈ m.table.entries.map Prod.snd, ∀ q ∈ properties, Compares ε q.name

theorem PropertyMapping.Sorts.compares_of_mem_steps {m : PropertyMapping} (hm : m.Sorts ε)
    {orderBy : Option String} {steps : List SortStep} (h : m.compile orderBy = .ok steps) {s : SortStep}
    (hs : s ∈ steps) : Compares ε s.property := by
  obtain ⟨field, properties, hget, q, hq, hname⟩ := exists_of_mem_steps h hs
  rw [hname]
  exact hm properties (mem_entries_of_get? hget) q hq

/-! ### Sorting -/

/-- The entities in the order of the steps, ties broken by the identity property. -/
def arrange (steps : List SortStep) (identity : String) (xs : List ε) : List ε :=
  xs.mergeSort fun a b => (compareFully steps identity a b).isLE

/-- A sort either finds a property that does not compare, and leaves the entities alone, or arranges them. -/
theorem run_sortInPlace (steps : List SortStep) (identity : String) (xs : List ε) :
    (sortInPlace steps identity).run xs =
      match xs.head?.bind (incomparable? steps identity) with
      | some property => .error (.invalidSort property) xs
      | none => .ok () (arrange steps identity xs) := by
  unfold sortInPlace
  simp only [EStateM.run_bind, EStateM.run_get]
  cases xs.head?.bind (incomparable? steps identity) with
  | some property => rfl
  | none => rfl

/-- Nothing stands in the way of a sort by properties by which the first entity compares. -/
theorem incomparable?_eq_none_iff {steps : List SortStep} {identity : String} {probe : ε} :
    incomparable? steps identity probe = none ↔
      (∀ s ∈ steps, (Sortable.compareBy s.property probe probe).isSome) ∧
        (Sortable.compareBy identity probe probe).isSome := by
  unfold incomparable?
  simp [List.find?_eq_none, Option.isSome_iff_ne_none]

theorem run_sortInPlace_eq_ok {steps : List SortStep} {identity : String} {xs : List ε}
    (hsteps : ∀ s ∈ steps, ∀ x ∈ xs, (Sortable.compareBy s.property x x).isSome)
    (hidentity : ∀ x ∈ xs, (Sortable.compareBy identity x x).isSome) :
    (sortInPlace steps identity).run xs = .ok () (arrange steps identity xs) := by
  have hprobe : xs.head?.bind (incomparable? steps identity) = none := by
    rw [Option.bind_eq_none_iff]
    intro probe hhead
    have hmem : probe ∈ xs := List.mem_of_mem_head? hhead
    exact incomparable?_eq_none_iff.mpr ⟨fun s hs => hsteps s hs probe hmem, hidentity probe hmem⟩
  rw [run_sortInPlace, hprobe]

/-- **A sort by properties that compare never fails.** -/
theorem sortEntities_eq_ok {steps : List SortStep} {identity : String}
    (hsteps : ∀ s ∈ steps, Compares ε s.property) (hidentity : Compares ε identity) (xs : List ε) :
    sortEntities steps identity xs = .ok (arrange steps identity xs) := by
  unfold sortEntities
  rw [run_sortInPlace_eq_ok (fun s hs x _ => hsteps s hs x x) fun x _ => hidentity x x]

/-- Sorting neither drops nor repeats an entity. -/
theorem arrange_perm (steps : List SortStep) (identity : String) (xs : List ε) :
    (arrange steps identity xs).Perm xs :=
  List.mergeSort_perm xs _

/-! ### Lawful entities -/

/-- Entities whose order by each property is transitive. -/
class LawfulSortable (ε : Type) [Sortable ε] : Prop where
  transCmp : ∀ property, Std.TransCmp fun a b : ε => orderBy property a b

section Lawful

variable [LawfulSortable ε]

instance (property : String) : Std.TransCmp fun a b : ε => orderBy property a b :=
  LawfulSortable.transCmp property

instance (steps : List SortStep) : Std.TransCmp fun a b : ε => compareSteps steps a b :=
  transCmp_steps (f := id) fun s _ => LawfulSortable.transCmp s.property

instance (steps : List SortStep) (identity : String) :
    Std.TransCmp fun a b : ε => compareFully steps identity a b := by
  simp only [compareFully_eq_then]
  exact inferInstanceAs (Std.TransCmp (compareLex (fun a b : ε => compareSteps steps a b)
    fun a b => orderBy identity a b))

/-- **A sort of entities with pairwise different identities is strict**: each one comes after all before it. -/
theorem pairwise_arrange {steps : List SortStep} {identity : String} {xs : List ε}
    (hdistinct : xs.Pairwise fun a b => orderBy identity a b ≠ .eq) :
    (arrange steps identity xs).Pairwise fun a b =>
      (compareSteps steps a b).then (orderBy identity a b) = .lt := by
  have hle : (arrange steps identity xs).Pairwise fun a b => (compareFully steps identity a b).isLE := by
    refine List.pairwise_mergeSort ?_ ?_ xs
    · intro a b c hab hbc
      exact Std.TransCmp.isLE_trans hab hbc
    · intro a b
      exact isLE_or_isLE a b
  have hne : (arrange steps identity xs).Pairwise fun a b => orderBy identity a b ≠ .eq := by
    refine (arrange_perm steps identity xs).symm.pairwise hdistinct ?_
    intro a b hab hba
    exact hab (Std.OrientedCmp.eq_symm hba)
  refine hle.imp₂ ?_ hne
  -- Not after, because the list is sorted, and not equal, because the identities differ.
  intro a b hab hid
  rw [compareFully_eq_then] at hab
  have hthen : (compareSteps steps a b).then (orderBy identity a b) ≠ .eq :=
    fun h => hid (Ordering.then_eq_eq.mp h).2
  cases hcmp : (compareSteps steps a b).then (orderBy identity a b) with
  | lt => rfl
  | eq => exact absurd hcmp hthen
  | gt =>
    rw [hcmp] at hab
    cases hab

end Lawful

end HypermediaApi
