import HypermediaApi.Page
import Mathlib.Algebra.Group.Nat.Defs
import Mathlib.Algebra.Order.Floor.Div

/-!
# HypermediaApi.Proofs.Page.Figures — the figures of pages, and the pages of one list

The figures of a page are integers of 64 bits that stop at `countLimit`. Rounding the number of pages up adds to the
total first, and the sum is cut where it passes the greatest count. That is of no consequence unless items lie behind
the last whole page within the counts (`Page.Overruns`); then the page that they are on is not counted, and the page
before it is taken for the last one. `Page.figures_exact_iff` says so: the figures are exact otherwise, and only then.

`Page.cut` is the page at an index of a list that is at hand as a whole. It is what a source in memory answers,
and everything said about paging is said about it: the items are the ones from `index * width` on, at most
`width` of them (`cut_items`), and a page is followed by another one exactly if items are left behind it
(`cut_hasNext_iff`). The list is assumed to have fewer than `2 ^ 63` items, so that no total overruns. As many pages as
the list needs, one after the other, make up the list (`flatMap_all_pages`).
-/

namespace HypermediaApi

variable {α : Type}

/-- A list is short enough for all figures of its pages to be exact. -/
def Countable (xs : List α) : Prop := xs.length < 2 ^ 63

/-- The length of such a list is kept exactly. -/
theorem Countable.toNat_ofNat {xs : List α} (h : Countable xs) :
    (UInt64.ofNat xs.length).toNat = xs.length := by
  have hlen : xs.length < 2 ^ 63 := h
  exact UInt64.toNat_ofNat_of_lt' (by show _ < 2 ^ 64; omega)

/-- A start that is cut to a position not before the end of the list drops the same. -/
theorem drop_min_of_length_le {xs : List α} {capacity : Nat} (h : xs.length ≤ capacity) (start : Nat) :
    xs.drop (min start capacity) = xs.drop start := by
  rcases Nat.le_total start capacity with hle | hle
  · rw [Nat.min_eq_left hle]
  · rw [Nat.min_eq_right hle, List.drop_eq_nil_of_le h, List.drop_eq_nil_of_le (h.trans hle)]

/-- **A window selects the same where its figures are cut to a capacity that the list fits in.** -/
theorem Window.slice_of_capacity (w : Window) {xs : List α} {capacity : Nat} (h : xs.length ≤ capacity) :
    (xs.drop (min w.offset.toNat capacity)).take (min w.limit.toNat capacity) = w.slice xs := by
  have hrest : (xs.drop w.offset.toNat).length ≤ capacity := by
    rw [List.length_drop]
    omega
  unfold slice
  rw [drop_min_of_length_le h, ← List.take_take, List.take_of_length_le hrest]

theorem Window.length_slice_le (w : Window) (xs : List α) : (w.slice xs).length ≤ w.limit.toNat :=
  List.length_take_le ..

theorem Window.slice_sublist (w : Window) (xs : List α) : (w.slice xs).Sublist xs :=
  (List.take_sublist ..).trans (List.drop_sublist ..)

/-- A count that is not negative is the same with and without a sign. -/
theorem toNat_ofNat_toInt (i : Int64) : (UInt64.ofNat i.toInt.toNat).toNat = i.toInt.toNat := by
  have hhigh : i.toInt < 2 ^ 63 := i.toInt_lt
  have hsize : i.toInt.toNat < UInt64.size := by
    show i.toInt.toNat < 2 ^ 64
    omega
  exact UInt64.toNat_ofNat_of_lt' hsize

/-- An integer of 64 bits has a predecessor unless it is the least. -/
theorem toInt_sub_one {i : Int64} (h : Int64.minValue.toInt ≤ i.toInt - 1) : (i - 1).toInt = i.toInt - 1 := by
  have hhigh := i.toInt_lt
  have hlow : -2 ^ 63 ≤ i.toInt - 1 := h
  rw [Int64.toInt_sub, show (1 : Int64).toInt = 1 from rfl]
  exact Int.bmod_eq_of_le (by omega) (by omega)

/-- An integer of 64 bits has a successor unless it is the greatest. -/
theorem toInt_add_one_of_le {i : Int64} (h : i.toInt + 1 ≤ Int64.maxValue.toInt) : (i + 1).toInt = i.toInt + 1 := by
  have hlow := i.le_toInt
  have hhigh : i.toInt + 1 ≤ 2 ^ 63 - 1 := h
  rw [Int64.toInt_add, show (1 : Int64).toInt = 1 from rfl]
  exact Int.bmod_eq_of_le (by omega) (by omega)

/-- The window of a page starts after the pages before it. Where that start is cut to the greatest count, it lies
behind the end of the list either way. -/
theorem Window.slice_ofPage (index size : UInt64) {xs : List α} (h : Countable xs) :
    (Window.ofPage index size).slice xs = (xs.drop (index.toNat * size.toNat)).take size.toNat := by
  have hlimit : (UInt64.ofNat (min (index.toNat * size.toNat) countLimit)).toNat =
      min (index.toNat * size.toNat) countLimit :=
    UInt64.toNat_ofNat_of_lt' (by show _ < 2 ^ 64; unfold countLimit UInt64.size; omega)
  have hlen : xs.length < 2 ^ 63 := h
  unfold Window.slice Window.ofPage
  simp only
  rw [hlimit, drop_min_of_length_le (by unfold countLimit UInt64.size; omega)]

namespace Page

/-! ### Figures -/

theorem width_pos {size : Int64} (hs : 0 < size) : 0 < size.toInt.toNat := by
  have hpos : 0 < size.toInt := by simpa using Int64.lt_iff_toInt_lt.mp hs
  omega

/-- So many items need more than `n` pages exactly if `n` pages do not hold them. -/
theorem lt_ceilDiv_iff {width : Nat} (hwidth : 0 < width) (n items : Nat) :
    n < items ⌈/⌉ width ↔ n * width < items := by
  rw [← not_le, ceilDiv_le_iff_le_mul hwidth, not_le, Nat.mul_comm]

/-- Items lie behind the last whole page within the counts. -/
def Overruns (p : Page α) : Prop := countLimit / p.width * p.width < p.total.toNat

section Figures

variable (p : Page α)

theorem zero_lt_width : 0 < p.width := width_pos p.size_pos

/-- The number of pages is computed within the counts. -/
theorem toNat_pageCount :
    p.pageCount.toNat = min (p.total.toNat + (p.width - 1)) countLimit / p.width := by
  have hquotient : min (p.total.toNat + (p.width - 1)) countLimit / p.width ≤ countLimit :=
    (Nat.div_le_self ..).trans (Nat.min_le_right ..)
  exact UInt64.toNat_ofNat_of_lt' (Nat.lt_of_le_of_lt hquotient (by decide))

theorem index_lt : p.index.toInt.toNat < countLimit := by
  have hhigh := p.index.toInt_lt
  unfold countLimit UInt64.size
  omega

/-- A page has a successor exactly if the number of pages leaves room for one. -/
theorem hasNext_iff : p.hasNext = true ↔ p.index.toInt.toNat + 1 < p.pageCount.toNat := by
  have hnonneg : 0 ≤ p.index.toInt := by simpa using Int64.le_iff_toInt_le.mp p.index_nonneg
  unfold hasNext
  rw [decide_eq_true_iff]
  omega

variable {p}

/-- **The number of pages is the total divided by the width, rounded up**, unless the total overruns. -/
theorem toNat_pageCount_of_not_overruns (h : ¬ p.Overruns) : p.pageCount.toNat = p.total.toNat ⌈/⌉ p.width := by
  have hwidth : 0 < p.width := p.zero_lt_width
  have hceil : p.total.toNat ⌈/⌉ p.width = (p.total.toNat + (p.width - 1)) / p.width := by
    rw [Nat.ceilDiv_eq_add_pred_div, Nat.add_sub_assoc hwidth]
  rw [toNat_pageCount]
  rcases Nat.le_total (p.total.toNat + (p.width - 1)) countLimit with hle | hle
  · rw [Nat.min_eq_left hle, hceil]
  · -- The sum is cut, but as many whole pages as there are within the counts hold all items.
    rw [Nat.min_eq_right hle]
    apply le_antisymm
    · rw [hceil]
      exact Nat.div_le_div_right hle
    · rw [ceilDiv_le_iff_le_mul hwidth, Nat.mul_comm]
      exact not_lt.mp h

/-- **If the total overruns, there is one page more than the number of pages says.** -/
theorem toNat_pageCount_of_overruns (h : p.Overruns) : p.pageCount.toNat + 1 = p.total.toNat ⌈/⌉ p.width := by
  have hwidth : 0 < p.width := p.zero_lt_width
  have htotal : p.total.toNat ≤ countLimit := Nat.le_of_lt_succ p.total.toNat_lt
  have hbehind : countLimit / p.width * p.width < p.total.toNat := h
  have hwhole := Nat.div_add_mod' countLimit p.width
  have hpart := Nat.mod_lt countLimit hwidth
  have hcut : p.pageCount.toNat = countLimit / p.width := by
    rw [toNat_pageCount, Nat.min_eq_right (by omega)]
  rw [hcut]
  apply le_antisymm
  · exact (lt_ceilDiv_iff hwidth _ _).mpr hbehind
  · rw [ceilDiv_le_iff_le_mul hwidth, Nat.mul_comm, Nat.succ_mul]
    omega

/-- No total below `2 ^ 63` overruns. -/
theorem not_overruns_of_lt (h : p.total.toNat < 2 ^ 63) : ¬ p.Overruns := by
  have hwidth : 0 < p.width := p.zero_lt_width
  have hsize : p.width < 2 ^ 63 := by
    have hhigh := p.size.toInt_lt
    unfold width
    omega
  have hwhole := Nat.div_add_mod' countLimit p.width
  have hpart := Nat.mod_lt countLimit hwidth
  have hlimit : countLimit = 2 ^ 64 - 1 := rfl
  unfold Overruns
  omega

/-- A page has a successor exactly if items lie behind it, unless the total overruns. -/
theorem hasNext_iff_of_not_overruns (h : ¬ p.Overruns) :
    p.hasNext = true ↔ (p.index.toInt.toNat + 1) * p.width < p.total.toNat := by
  rw [hasNext_iff, toNat_pageCount_of_not_overruns h, lt_ceilDiv_iff p.zero_lt_width]

/-- **The figures of a page are exact as long as the total does not overrun.** Nothing on the way to them is divided
by zero or leaves the counts. The number of pages is the total divided by the width and rounded up, and a page has a
successor exactly if items lie behind it. If the total overruns, the number of pages is one too small, and the page
at which it ends has no successor although items lie behind it; whether any other page has one is told right. -/
theorem figures_exact_iff (p : Page α) :
    (0 < p.width ∧ p.index.toInt.toNat + 1 ≤ countLimit ∧
      p.pageCount.toNat = min (p.total.toNat + (p.width - 1)) countLimit / p.width) ∧
    (p.pageCount.toNat = p.total.toNat ⌈/⌉ p.width ↔ ¬ p.Overruns) ∧
    (p.Overruns → p.pageCount.toNat + 1 = p.total.toNat ⌈/⌉ p.width) ∧
    ((p.hasNext = true ↔ (p.index.toInt.toNat + 1) * p.width < p.total.toNat) ↔
      ¬ (p.Overruns ∧ p.index.toInt.toNat + 1 = p.pageCount.toNat)) := by
  have hwidth : 0 < p.width := p.zero_lt_width
  refine ⟨⟨hwidth, p.index_lt, p.toNat_pageCount⟩, ?_, toNat_pageCount_of_overruns, ?_⟩
  · constructor
    · intro hexact hover
      have hshort := toNat_pageCount_of_overruns hover
      omega
    · exact toNat_pageCount_of_not_overruns
  · rw [hasNext_iff, ← lt_ceilDiv_iff hwidth]
    by_cases hover : p.Overruns
    · -- Only the index that one page more makes room for is told apart wrongly.
      rw [← toNat_pageCount_of_overruns hover]
      simp only [hover, true_and]
      omega
    · simp [hover, toNat_pageCount_of_not_overruns hover]

/-- **At the greatest total and ten items to a page the last page is not counted**, and the page before it has no
successor. -/
theorem figures_inexact_at_greatest_total :
    ∃ p : Page Nat, make 1844674407370955160 10 18446744073709551615 [] = .ok p ∧
      p.pageCount.toNat = 1844674407370955161 ∧ p.total.toNat ⌈/⌉ p.width = 1844674407370955162 ∧
      p.hasNext = false ∧ (p.index.toInt.toNat + 1) * p.width < p.total.toNat :=
  ⟨⟨1844674407370955160, 10, 18446744073709551615, [], by decide, by decide, by decide⟩, rfl, by decide,
    by decide, by decide, by decide⟩

end Figures

/-! ### Pages of a list -/

/-- The page at an index of a list. -/
def cut (index size : Int64) (hi : 0 ≤ index) (hs : 0 < size) (xs : List α) : Page α where
  index := index
  size := size
  total := .ofNat xs.length
  items := (Window.ofPage (.ofNat index.toInt.toNat) (.ofNat size.toInt.toNat)).slice xs
  index_nonneg := hi
  size_pos := hs
  length_items_le := by
    have hle := (Window.ofPage (.ofNat index.toInt.toNat) (.ofNat size.toInt.toNat)).length_slice_le xs
    rwa [show (Window.ofPage (.ofNat index.toInt.toNat) (.ofNat size.toInt.toNat)).limit =
      .ofNat size.toInt.toNat from rfl, toNat_ofNat_toInt] at hle

section Cut

variable {index size : Int64} {hi : 0 ≤ index} {hs : 0 < size} {xs : List α}

@[simp] theorem cut_index : (cut index size hi hs xs).index = index := rfl

@[simp] theorem cut_width : (cut index size hi hs xs).width = size.toInt.toNat := rfl

/-- **A window of a list makes a page**: there is never an item too many. -/
theorem make_cut (hi : 0 ≤ index) (hs : 0 < size) (xs : List α) :
    make index size (.ofNat xs.length)
      ((Window.ofPage (.ofNat index.toInt.toNat) (.ofNat size.toInt.toNat)).slice xs) =
      .ok (cut index size hi hs xs) := by
  unfold make
  rw [dif_pos hi, dif_pos hs]
  exact dif_pos (cut index size hi hs xs).length_items_le

/-- **The items of a page** are those after the pages before it. -/
theorem cut_items (h : Countable xs) :
    (cut index size hi hs xs).items = (xs.drop (index.toInt.toNat * size.toInt.toNat)).take size.toInt.toNat := by
  have hslice := Window.slice_ofPage (.ofNat index.toInt.toNat) (.ofNat size.toInt.toNat) h
  rwa [toNat_ofNat_toInt, toNat_ofNat_toInt] at hslice

theorem cut_items_sublist : (cut index size hi hs xs).items.Sublist xs := Window.slice_sublist ..

theorem cut_toNat_total (h : Countable xs) : (cut index size hi hs xs).total.toNat = xs.length :=
  h.toNat_ofNat

theorem not_overruns_cut (h : Countable xs) : ¬ (cut index size hi hs xs).Overruns := by
  refine not_overruns_of_lt ?_
  rw [cut_toNat_total h]
  exact h

/-- **Another page follows exactly if items are left behind this one.** -/
theorem cut_hasNext_iff (h : Countable xs) :
    (cut index size hi hs xs).hasNext = true ↔ (index.toInt.toNat + 1) * size.toInt.toNat < xs.length := by
  rw [hasNext_iff_of_not_overruns (not_overruns_cut h), cut_toNat_total h, cut_index, cut_width]

end Cut

/-- The index of the page after this one is the next number, as long as that page starts within the list. -/
theorem toNat_succ_index {index : Int64} {width length : Nat} (hi : 0 ≤ index) (hwidth : 0 < width)
    (hnext : (index.toInt.toNat + 1) * width < length) (hlength : length < 2 ^ 63) :
    0 ≤ index + 1 ∧ (index + 1).toInt.toNat = index.toInt.toNat + 1 := by
  have hnonneg : 0 ≤ index.toInt := by simpa using Int64.le_iff_toInt_le.mp hi
  have hle : index.toInt.toNat + 1 ≤ (index.toInt.toNat + 1) * width := Nat.le_mul_of_pos_right _ hwidth
  have hsum : (index + 1).toInt = index.toInt + 1 := by
    -- An index within the list is far from where the addition wraps.
    have hmax : Int64.maxValue.toInt = 2 ^ 63 - 1 := rfl
    exact toInt_add_one_of_le (by omega)
  refine ⟨?_, by omega⟩
  rw [Int64.le_iff_toInt_le, hsum, show (0 : Int64).toInt = 0 from rfl]
  omega

@[simp] theorem items_map {β : Type} (f : α → β) (p : Page α) : (p.map f).items = p.items.map f := rfl

/-- **Figures within 64 bits make a page of any items that are not too many.** -/
theorem exists_make_eq_ok {i n : Nat} (hi : i < 2 ^ 63) (hpos : 0 < n) (hn : n < 2 ^ 63) (total : UInt64)
    {items : List α} (hitems : items.length ≤ n) :
    ∃ p, make (.ofNat i) (.ofNat n) total items = .ok p ∧ p.items = items := by
  have hindex : (Int64.ofNat i).toInt = i := Int64.toInt_ofNat_of_lt hi
  have hsize : (Int64.ofNat n).toInt = n := Int64.toInt_ofNat_of_lt hn
  have hnonneg : 0 ≤ Int64.ofNat i := by
    rw [Int64.le_iff_toInt_le, hindex]
    exact Int.natCast_nonneg i
  have hwidth : 0 < Int64.ofNat n := by
    rw [Int64.lt_iff_toInt_lt, hsize]
    exact Int.natCast_pos.mpr hpos
  have hfits : items.length ≤ (Int64.ofNat n).toInt.toNat := by
    rw [hsize]
    exact hitems
  refine ⟨⟨.ofNat i, .ofNat n, total, items, hnonneg, hwidth, hfits⟩, ?_, rfl⟩
  unfold make
  rw [dif_pos hnonneg, dif_pos hwidth, dif_pos hfits]

/-! ### All pages of a list -/

/-- The pages of a list one after the other are as much of it as they hold. -/
theorem flatMap_pages (xs : List α) (width count : Nat) :
    ((List.range count).flatMap fun i => (xs.drop (i * width)).take width) = xs.take (count * width) := by
  induction count with
  | zero => simp
  | succ count ih =>
    rw [List.range_succ, List.flatMap_append, ih, List.flatMap_singleton, Nat.succ_mul, List.take_add]

/-- **The pages of a list one after the other are the list**, if there are as many as it needs. -/
theorem flatMap_all_pages (xs : List α) {width : Nat} (hwidth : 0 < width) :
    ((List.range (xs.length ⌈/⌉ width)).flatMap fun i => (xs.drop (i * width)).take width) = xs := by
  have hroom : xs.length ≤ xs.length ⌈/⌉ width * width := by
    rw [Nat.mul_comm, ← ceilDiv_le_iff_le_mul hwidth]
  rw [flatMap_pages, List.take_of_length_le hroom]

/-- None of these pages is empty. -/
theorem page_ne_nil {xs : List α} {i width : Nat} (hwidth : 0 < width) (h : i < xs.length ⌈/⌉ width) :
    (xs.drop (i * width)).take width ≠ [] := by
  have hstart : i * width < xs.length := (lt_ceilDiv_iff hwidth _ _).mp h
  rw [← List.length_pos_iff, List.length_take, List.length_drop]
  omega

end Page

end HypermediaApi
