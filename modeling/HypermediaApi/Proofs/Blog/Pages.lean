import HypermediaApi.Proofs.Blog.Reading
import HypermediaApi.Proofs.Blog.Session

/-!
# HypermediaApi.Proofs.Blog.Pages — every page of posts is a slice of one list

What a unit of work reads is the matching posts of the store in the order of the steps, ties broken by the identity
(`StoreSession.matching`). It counts them (`step_count`), and it fetches a window of them (`step_fetchPage`).

The window of a page starts at a product of 64 bits that is cut at the greatest count. There are at most as many posts
as identities, so wherever the product is cut the page lies behind the last post, and is empty either way
(`Window.slice_ofPage`). Hence each page holds the posts at its own positions in unbounded integers, and pages fetched
one after the other, which leave the session as it is, make up the whole list (`Page.flatMap_all_pages`).
-/

namespace HypermediaApi.Blog

namespace StoreSession

/-- The posts that pass a filter, in the order of the steps, ties broken by the identity. -/
def matching (s : StoreSession) (filter : PostFilter) (steps : List SortStep) : List Post :=
  arrange steps "id" (s.store.posts.filter filter.passes)

section Matching

variable {s : StoreSession} {steps : List SortStep}

theorem matching_perm (s : StoreSession) (filter : PostFilter) (steps : List SortStep) :
    (s.matching filter steps).Perm (s.store.posts.filter filter.passes) :=
  arrange_perm ..

/-- **The matching posts are in order.** Each one comes before all behind it by the steps, or by its identity if the
steps do not tell the two apart. -/
theorem pairwise_matching (hkeyed : Keyed s.store.committed) (filter : PostFilter) (steps : List SortStep) :
    (s.matching filter steps).Pairwise fun a b => Precedes steps a b ∨ Tied steps a b ∧ a.id < b.id := by
  refine (pairwise_arrange (PostService.pairwise_orderBy_id_of_keyed hkeyed filter.passes)).imp ?_
  intro a b hab
  rwa [Ordering.then_eq_lt, compareSteps_eq_lt_iff, compareSteps_eq_eq_iff, orderBy_id, Std.compare_eq_lt] at hab

theorem countable_matching (hkeyed : Keyed s.store.committed) (filter : PostFilter) (steps : List SortStep) :
    Countable (s.matching filter steps) := by
  have hposts : s.store.posts.length < 2 ^ 63 := PostService.countable_posts hkeyed
  have hfilter := List.length_filter_le filter.passes s.store.posts
  unfold Countable
  rw [(matching_perm s filter steps).length_eq]
  omega

/-! ### Reading steps -/

/-- Counting counts the matching posts. -/
theorem step_count (s : StoreSession) (u : String) (filter : PostFilter) (steps : List SortStep) :
    s.step (.count u filter) = (.counted (.ofNat (s.matching filter steps).length), s) := by
  have hcount := Source.count_ofList PostFilter.passes s.store.posts steps "id" filter
  simp only [step, PostStore.source, hcount]
  rfl

/-- Fetching by properties that posts compare by gives a window of the matching posts. -/
theorem step_fetchPage (hsteps : ∀ t ∈ steps, Compares Post t.property) (s : StoreSession) (u : String)
    (filter : PostFilter) (w : Window) :
    s.step (.fetchPage u filter steps w) = (.page (w.slice (s.matching filter steps)), s) := by
  have hid : Compares Post "id" := fun _ _ => rfl
  have hfetch := Source.fetch_ofList PostFilter.passes s.store.posts hsteps hid filter w
  simp only [step, PostStore.source, hfetch]
  rfl

/-- Fetching the page at an index gives the posts after those of the pages before it. -/
theorem step_fetchPage_ofPage (hkeyed : Keyed s.store.committed) (hsteps : ∀ t ∈ steps, Compares Post t.property)
    (u : String) (filter : PostFilter) {i n : Nat} (hi : i < 2 ^ 63) (hn : n < 2 ^ 63) :
    s.step (.fetchPage u filter steps (.ofPage (.ofNat i) (.ofNat n))) =
      (.page (((s.matching filter steps).drop (i * n)).take n), s) := by
  rw [step_fetchPage hsteps, Window.slice_ofPage _ _ (countable_matching hkeyed filter steps),
    UInt64.toNat_ofNat_of_lt' (by show _ < 2 ^ 64; omega), UInt64.toNat_ofNat_of_lt' (by show _ < 2 ^ 64; omega)]

/-- **Pages fetched one after the other make up the matching posts**, and leave the session as it is. -/
theorem run_fetchPages (hkeyed : Keyed s.store.committed) (hsteps : ∀ t ∈ steps, Compares Post t.property)
    (u : String) (filter : PostFilter) {n : Nat} (hpos : 0 < n) (hn : n < 2 ^ 63) :
    ∃ pages : List (List Post),
      s.run ((List.range ((s.matching filter steps).length ⌈/⌉ n)).map fun i =>
        .fetchPage u filter steps (.ofPage (.ofNat i) (.ofNat n))) = (pages.map .page, s) ∧
      pages.flatten = s.matching filter steps ∧ [] ∉ pages := by
  -- There are not more pages than posts, so every index is within 64 bits.
  have hindex : ∀ i ∈ List.range ((s.matching filter steps).length ⌈/⌉ n), i < 2 ^ 63 := by
    intro i hi
    have hstart : i * n < (s.matching filter steps).length :=
      (Page.lt_ceilDiv_iff hpos _ _).mp (List.mem_range.mp hi)
    have hle : i ≤ i * n := Nat.le_mul_of_pos_right i hpos
    have hcount : (s.matching filter steps).length < 2 ^ 63 := countable_matching hkeyed filter steps
    omega
  refine ⟨(List.range ((s.matching filter steps).length ⌈/⌉ n)).map fun i =>
    ((s.matching filter steps).drop (i * n)).take n, ?_, ?_, ?_⟩
  · rw [run_of_isRead]
    · rw [List.map_map, List.map_map]
      refine congrArg (·, s) (List.map_congr_left ?_)
      intro i hi
      exact congrArg Prod.fst (step_fetchPage_ofPage hkeyed hsteps u filter (hindex i hi) hn)
    · intro x hx
      obtain ⟨i, -, rfl⟩ := List.mem_map.mp hx
      rfl
  · rw [← List.flatMap_def]
    exact Page.flatMap_all_pages _ hpos
  · intro hnil
    obtain ⟨i, hi, hempty⟩ := List.mem_map.mp hnil
    exact Page.page_ne_nil hpos (List.mem_range.mp hi) hempty

/-- **Each page is the slice of the sorted matching posts that its figures name.** Whatever the filter, and whatever
the steps by properties that posts compare by, there is one list of the matching posts in the order of the steps, ties
broken by ascending identities. Its length is what counting by the filter answers. The page at index `i` of width `n`
holds the posts at the positions from `i * n` up to `(i + 1) * n` in unbounded integers, although the start is computed
in 64 bits; it makes no difference either if the window is cut to a capacity that holds the list. Its posts are never
too many for a page of these figures. The pages one after the other, as many as the list needs, make up the list, and
none of them is empty. Reading leaves the session as it is. -/
theorem fetchPage_is_slice (hkeyed : Keyed s.store.committed) (hsteps : ∀ t ∈ steps, Compares Post t.property)
    (u : String) (filter : PostFilter) :
    ∃ (ordered : List Post) (total : UInt64),
      ordered.Perm (s.store.posts.filter filter.passes) ∧
      ordered.Pairwise (fun a b => Precedes steps a b ∨ Tied steps a b ∧ a.id < b.id) ∧
      s.step (.count u filter) = (.counted total, s) ∧ total.toNat = ordered.length ∧
      ∀ n, 0 < n → n < 2 ^ 63 →
        (∀ i, i < 2 ^ 63 → ∃ page : List Post,
          s.step (.fetchPage u filter steps (.ofPage (.ofNat i) (.ofNat n))) = (.page page, s) ∧
          (∀ j post, page[j]? = some post ↔ j < n ∧ ordered[i * n + j]? = some post) ∧
          (∀ capacity, ordered.length ≤ capacity →
            (ordered.drop (min (Window.ofPage (.ofNat i) (.ofNat n)).offset.toNat capacity)).take
              (min (Window.ofPage (.ofNat i) (.ofNat n)).limit.toNat capacity) = page) ∧
          ∃ p, Page.make (.ofNat i) (.ofNat n) total page = .ok p ∧ p.items = page) ∧
        ∃ pages : List (List Post),
          s.run ((List.range (ordered.length ⌈/⌉ n)).map fun i =>
            .fetchPage u filter steps (.ofPage (.ofNat i) (.ofNat n))) = (pages.map .page, s) ∧
          pages.flatten = ordered ∧ [] ∉ pages := by
  have hcount := countable_matching hkeyed filter steps
  refine ⟨s.matching filter steps, .ofNat (s.matching filter steps).length, matching_perm s filter steps,
    pairwise_matching hkeyed filter steps, step_count s u filter steps, hcount.toNat_ofNat, ?_⟩
  intro n hpos hn
  refine ⟨?_, run_fetchPages hkeyed hsteps u filter hpos hn⟩
  intro i hi
  have hpage := step_fetchPage_ofPage hkeyed hsteps u filter hi hn
  refine ⟨_, hpage, ?_, ?_, ?_⟩
  · intro j post
    rw [List.getElem?_take, List.getElem?_drop]
    by_cases hj : j < n
    · simp [hj]
    · simp [hj]
  · intro capacity hcapacity
    have hwindow := step_fetchPage hsteps s u filter (.ofPage (.ofNat i) (.ofNat n))
    rw [Window.slice_of_capacity _ hcapacity]
    exact StoreAnswer.page.inj (congrArg Prod.fst (hwindow.symm.trans hpage))
  · exact Page.exists_make_eq_ok hi hpos hn _ (List.length_take_le ..)

/-- Three posts, two to a page, in descending order of titles that two of them share: the count is three, and the page
at the greatest index, whose start is cut, is empty. -/
theorem fetchPage_is_slice_behind_the_last_post :
    let post (title : String) : Post := {
      id := 0, title, body := "b", author := "a", lastModified := { seconds := 0, nanos := 0 }, remark := none }
    let s := ({} : StoreSession).after [.add "u" (post "x"), .add "u" (post "y"), .add "u" (post "x"), .commit "u"]
    let steps : List SortStep := [⟨"title", .descending, true⟩]
    Keyed s.store.committed ∧ (∀ t ∈ steps, Compares Post t.property) ∧
      ∃ total : UInt64, s.step (.count "v" {}) = (.counted total, s) ∧ total.toNat = 3 ∧
        s.step (.fetchPage "v" {} steps (.ofPage (.ofNat (2 ^ 63 - 1)) (.ofNat 2))) = (.page [], s) := by
  intro post s steps
  have hkeyed : Keyed s.store.committed := (reachable_run .empty _).keyed
  have hsteps : ∀ t ∈ steps, Compares Post t.property := by
    intro t ht a b
    obtain rfl := List.mem_singleton.mp ht
    rfl
  refine ⟨hkeyed, hsteps, ?_⟩
  obtain ⟨ordered, total, hperm, -, hcount, htotal, hpages⟩ := fetchPage_is_slice hkeyed hsteps "v" {}
  obtain ⟨page, hpage, hslice, -, -⟩ := (hpages 2 (by decide) (by decide)).1 (2 ^ 63 - 1) (by decide)
  have hthree : ordered.length = 3 := by
    rw [hperm.length_eq]
    decide
  have hempty : page = [] := by
    refine List.eq_nil_iff_forall_not_mem.mpr ?_
    intro x hx
    obtain ⟨j, hj⟩ := List.mem_iff_getElem?.mp hx
    obtain ⟨-, hposition⟩ := (hslice j x).mp hj
    obtain ⟨hbound, -⟩ := List.getElem?_eq_some_iff.mp hposition
    omega
  exact ⟨total, hcount, htotal.trans hthree, hempty ▸ hpage⟩

end Matching

end StoreSession

end HypermediaApi.Blog
