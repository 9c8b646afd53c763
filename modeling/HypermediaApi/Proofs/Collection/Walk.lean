import HypermediaApi.Proofs.Collection.Outcome
import HypermediaApi.Proofs.Link.Following

/-!
# HypermediaApi.Proofs.Collection.Walk — walking a collection by its own links

A client that follows the link to the next page, as long as an answer has one, sees every entity that passes
the filter, each once and in order. The page size is resolved again for every request, and the sort expression,
the field list and the filter travel through the query each time, so the claim rests on an invariant of the
requests on the way, `SameList`: whatever page they ask for, they ask for a page of one and the same list.
Following a link keeps it (`SameList.atPage`), because what a query carries is a fixed point already.

Given the invariant a walk is an induction on the number of entities that are left: a page takes as many as
its size from the front (`Wired.exists_answer`), and there is a next link exactly if some are left then.
-/

namespace HypermediaApi

variable {ε α φ : Type}

/-! ### Walks -/

/-- A walk by the links to the next page, over a function that answers requests: it starts with a request,
follows the link of each answer, and ends with the first answer that has none. Of a link the client reads what
comes after the given start. -/
inductive LinkWalk [Filter φ] (start : String)
    (answerOf : Parameters φ → Except ApiError (PageAnswer ShapedPage)) :
    Parameters φ → List (PageAnswer ShapedPage) → Prop where
  | last {p : Parameters φ} {answer : PageAnswer ShapedPage} :
      answerOf p = .ok answer → answer.body.links.withRel? "next_page" = none →
      LinkWalk start answerOf p [answer]
  | next {p p' : Parameters φ} {answer : PageAnswer ShapedPage} {link : Link}
      {answers : List (PageAnswer ShapedPage)} :
      answerOf p = .ok answer → answer.body.links.withRel? "next_page" = some link →
      link.request? start = some p' → LinkWalk start answerOf p' answers →
      LinkWalk start answerOf p (answer :: answers)

/-- **A walk has no choice.** -/
theorem LinkWalk.unique [Filter φ] {start : String}
    {answerOf : Parameters φ → Except ApiError (PageAnswer ShapedPage)} {p : Parameters φ}
    {answers others : List (PageAnswer ShapedPage)} (h : LinkWalk start answerOf p answers)
    (h' : LinkWalk start answerOf p others) : answers = others := by
  induction h generalizing others with
  | last hanswer hnone =>
    cases h' with
    | last hanswer' _ =>
      obtain rfl := Except.ok.inj (hanswer.symm.trans hanswer')
      rfl
    | next hanswer' hsome' _ _ =>
      obtain rfl := Except.ok.inj (hanswer.symm.trans hanswer')
      rw [hnone] at hsome'
      cases hsome'
  | next hanswer hsome hrequest _ ih =>
    cases h' with
    | last hanswer' hnone' =>
      obtain rfl := Except.ok.inj (hanswer.symm.trans hanswer')
      rw [hsome] at hnone'
      cases hnone'
    | next hanswer' hsome' hrequest' hrest' =>
      obtain rfl := Except.ok.inj (hanswer.symm.trans hanswer')
      obtain rfl := Option.some.inj (hsome.symm.trans hsome')
      obtain rfl := Option.some.inj (hrequest.symm.trans hrequest')
      rw [ih hrest']

/-- A walk over one function is a walk over every other one that gives the same answers. -/
theorem LinkWalk.mono [Filter φ] {start : String}
    {f g : Parameters φ → Except ApiError (PageAnswer ShapedPage)}
    (hfg : ∀ p answer, f p = .ok answer → g p = .ok answer) {p : Parameters φ}
    {answers : List (PageAnswer ShapedPage)} (h : LinkWalk start f p answers) : LinkWalk start g p answers := by
  induction h with
  | last hanswer hnone => exact .last (hfg _ _ hanswer) hnone
  | next hanswer hsome hrequest _ ih => exact .next (hfg _ _ hanswer) hsome hrequest ih

/-! ### How many answers -/

/-- The number of pages that a walk over so many items sees: one at least, also when there are no items. -/
def walkLength (items width : Nat) : Nat := max 1 ((items + (width - 1)) / width)

theorem walkLength_of_le {items width : Nat} (hwidth : 0 < width) (h : items ≤ width) :
    walkLength items width = 1 := by
  have hceil : (items + (width - 1)) / width ≤ 1 := by
    rw [← Nat.lt_succ_iff, Nat.div_lt_iff_lt_mul hwidth]
    omega
  unfold walkLength
  omega

theorem walkLength_of_lt {items width : Nat} (hwidth : 0 < width) (h : width < items) :
    walkLength items width = walkLength (items - width) width + 1 := by
  have hsum : items + (width - 1) = (items - width + (width - 1)) + width := by omega
  have hceil : 1 ≤ (items - width + (width - 1)) / width := by
    rw [Nat.one_le_div_iff hwidth]
    omega
  unfold walkLength
  rw [hsum, Nat.add_div_right _ hwidth]
  omega

/-! ### Requests on the way -/

namespace Collection

/-- Resolving a page size that is in effect already changes nothing. -/
theorem min_min_self (size maximum : Int64) : min (min size maximum) maximum = min size maximum := by
  by_cases h : size ≤ maximum
  · have hmin : min size maximum = size := if_pos h
    rw [hmin, hmin]
  · have hmin : min size maximum = maximum := if_neg h
    rw [hmin]
    exact if_pos Int64.le_rfl

/-- Two requests ask for pages of the same list: they have the same entities, order, shape, page size and
links. -/
structure SameList [Filter φ] (c : Collection ε α) (passes : φ → ε → Bool) (p q : Parameters φ) :
    Prop where
  size : c.size q = c.size p
  orderBy : q.orderBy = p.orderBy
  fields : q.fields = p.fields
  filter : passes q.filter = passes p.filter
  query : ∀ index, (c.resolve q).queryPairs index = (c.resolve p).queryPairs index

section SameList

variable [Filter φ] {c : Collection ε α} {passes : φ → ε → Bool} {p q : Parameters φ}

/-- The page that a request asks for is no part of which list it asks for. -/
theorem SameList.of_pageIndex (c : Collection ε α) (passes : φ → ε → Bool) (p : Parameters φ)
    (index : Int64) : c.SameList passes p { p with pageIndex := index } :=
  ⟨rfl, rfl, rfl, rfl, fun _ => rfl⟩

/-- **The request that a link leads to asks for a page of the same list.** -/
theorem SameList.atPage [LawfulFilter φ]
    (hpasses : ∀ f : φ, passes (Filter.ofPairs (Filter.queryPairs f)) = passes f)
    (h : c.SameList passes p q) (index : Int64) : c.SameList passes p ((c.resolve q).atPage index) := by
  -- The size in the link is resolved once more when the link is followed.
  have hsize : c.size ((c.resolve q).atPage index) = c.size q := by
    show min (c.size q) c.maxSize = c.size q
    exact min_min_self (q.givenPageSize.getD c.defaultSize) c.maxSize
  refine ⟨hsize.trans h.size, ?_, ?_, ?_, ?_⟩
  · rw [Parameters.atPage_orderBy, resolve_orderBy, h.orderBy]
  · rw [Parameters.atPage_fields, resolve_fields, h.fields]
  · exact (hpasses q.filter).trans h.filter
  · intro other
    rw [← h.query other]
    refine Parameters.queryPairs_congr ?_ ?_ ?_ ?_ other
    · rw [resolve_pageSize, resolve_pageSize, hsize]
    · rw [resolve_orderBy, Parameters.atPage_orderBy]
    · rw [resolve_fields, Parameters.atPage_fields]
    · exact LawfulFilter.queryPairs_ofPairs q.filter

/-- Requests for pages of the same list are answerable together. -/
theorem Answerable.of_sameList {m : PropertyMapping} {steps : List SortStep} (hp : c.Answerable m p steps)
    (hpq : c.SameList passes p q) : c.Answerable m q steps where
  compiles := by
    rw [hpq.orderBy]
    exact hp.compiles
  fields_exist := by
    rw [hpq.fields]
    exact hp.fields_exist
  size_pos := by
    rw [hpq.size]
    exact hp.size_pos

end SameList

/-! ### One answer of a walk -/

section Walk

variable [Sortable ε] {c : Collection ε α} {m : PropertyMapping} {t : RouteTable} {resource path : String}
  {p q : Parameters φ} {passes : φ → ε → Bool} {xs : List ε} {steps : List SortStep}

/-- The entities that a request lists, in the order of the steps. -/
def listed (m : PropertyMapping) (steps : List SortStep) (passes : φ → ε → Bool) (p : Parameters φ)
    (xs : List ε) : List ε :=
  arrange steps m.identity (xs.filter (passes p.filter))

theorem listed_perm (m : PropertyMapping) (steps : List SortStep) (passes : φ → ε → Bool)
    (p : Parameters φ) (xs : List ε) : (listed m steps passes p xs).Perm (xs.filter (passes p.filter)) :=
  arrange_perm ..

theorem countable_listed (h : Countable xs) : Countable (listed m steps passes p xs) := by
  have hlength := (listed_perm m steps passes p xs).length_eq
  have hfilter := List.length_filter_le (passes p.filter) xs
  have hlen : xs.length < 2 ^ 63 := h
  unfold Countable
  omega

variable [Filter φ] [LawfulFilter φ]

/-- **Every request on the way is answered with the next items of the list**, and with a link to the next page
exactly if some are left. -/
theorem Wired.exists_answer (hw : c.Wired m t resource path) (hcount : Countable xs)
    (hp : c.Answerable m p steps) (hpq : c.SameList passes p q) (hi : 0 ≤ q.pageIndex) :
    ∃ answer, c.list (.ofList m.identity passes xs) q = .ok answer ∧
      answer.header.size = c.size p ∧
      answer.header.total = .ofNat (listed m steps passes p xs).length ∧
      answer.body.items.map Except.ok =
        (((listed m steps passes p xs).drop (q.pageIndex.toInt.toNat * (c.size p).toInt.toNat)).take
          (c.size p).toInt.toNat).map (fun x => c.shapeItem (c.present x) p.fields) ∧
      answer.body.links.withRel? "next_page" =
        if (q.pageIndex.toInt.toNat + 1) * (c.size p).toInt.toNat < (listed m steps passes p xs).length
        then some ⟨LinkBuilder.pageUri t path (c.resolve q) (q.pageIndex + 1), "next_page", "GET"⟩
        else none := by
  obtain ⟨items, hitems, hlist⟩ := hw.list_eq_ok (hp.of_sameList hpq) hi passes xs
  have hlisted : arrange steps m.identity (xs.filter (passes q.filter)) = listed m steps passes p xs := by
    unfold listed
    rw [hpq.filter]
  have hcountable : Countable (listed m steps passes p xs) := countable_listed hcount
  rw [hlisted] at hitems hlist
  refine ⟨_, hlist, hpq.size, rfl, ?_, ?_⟩
  · rw [hitems, Page.cut_items hcountable, hpq.size, hpq.fields]
  · rw [LinkBuilder.withRel?_pageLinks_next, ← hpq.size]
    simp only [Page.cut_hasNext_iff hcountable, resolve_pageIndex]

/-! ### Whole walks -/

/-- **A walk from any page on sees the rest of the list**, and it is the same walk for every client that can read
the links. The induction is on what is left from that page on; each answer takes a page off it. -/
theorem Wired.exists_linkWalk (hw : c.Wired m t resource path) (hpath : Query.Unmarked path)
    (hpasses : ∀ f : φ, passes (Filter.ofPairs (Filter.queryPairs f)) = passes f) (hcount : Countable xs)
    (hp : c.Answerable m p steps) (hpq : c.SameList passes p q) (hi : 0 ≤ q.pageIndex)
    (hstart : q.pageIndex.toInt.toNat * (c.size p).toInt.toNat ≤ (listed m steps passes p xs).length) :
    ∃ answers,
      (∀ start, t.ReadableFrom start → LinkWalk start (c.list (.ofList m.identity passes xs)) q answers) ∧
      answers.length = walkLength ((listed m steps passes p xs).length -
        q.pageIndex.toInt.toNat * (c.size p).toInt.toNat) (c.size p).toInt.toNat ∧
      (∀ answer ∈ answers, answer.header.size = c.size p ∧
        answer.header.total = .ofNat (listed m steps passes p xs).length) ∧
      (answers.flatMap (·.body.items)).map Except.ok =
        ((listed m steps passes p xs).drop (q.pageIndex.toInt.toNat * (c.size p).toInt.toNat)).map
          (fun x => c.shapeItem (c.present x) p.fields) := by
  have hwidth : 0 < (c.size p).toInt.toNat := Page.width_pos hp.size_pos
  have hcountable : Countable (listed m steps passes p xs) := countable_listed hcount
  induction hleft : (listed m steps passes p xs).length - q.pageIndex.toInt.toNat * (c.size p).toInt.toNat
    using Nat.strong_induction_on generalizing q with
  | _ left ih =>
    subst hleft
    obtain ⟨answer, hanswer, hsize, htotal, hitems, hnext⟩ := hw.exists_answer hcount hp hpq hi
    have hsplit := Nat.add_mul q.pageIndex.toInt.toNat 1 (c.size p).toInt.toNat
    by_cases hmore : (q.pageIndex.toInt.toNat + 1) * (c.size p).toInt.toNat <
        (listed m steps passes p xs).length
    · -- Items are left: the link leads to the request for the next page, and the walk from there, which has
      -- a page less to see, sees the rest.
      rw [if_pos hmore] at hnext
      obtain ⟨hi', hindex⟩ := Page.toNat_succ_index hi hwidth hmore hcountable
      have hrest := hpq.atPage hpasses (q.pageIndex + 1)
      have hfewer : (listed m steps passes p xs).length -
          (q.pageIndex + 1).toInt.toNat * (c.size p).toInt.toNat <
            (listed m steps passes p xs).length - q.pageIndex.toInt.toNat * (c.size p).toInt.toNat := by
        rw [hindex]
        omega
      have hwithin : (q.pageIndex + 1).toInt.toNat * (c.size p).toInt.toNat ≤
          (listed m steps passes p xs).length := by
        rw [hindex]
        omega
      obtain ⟨answers, hwalk, hlength, hheaders, hbodies⟩ := ih _ hfewer hrest hi' hwithin rfl
      rw [hindex] at hlength
      rw [Parameters.atPage_pageIndex, hindex] at hbodies
      refine ⟨answer :: answers, ?_, ?_, ?_, ?_⟩
      · intro start hstart
        exact .next hanswer hnext (request?_of_pageUri hstart hpath ..) (hwalk start hstart)
      · rw [walkLength_of_lt hwidth (by omega), List.length_cons, hlength, Nat.sub_sub, hsplit, Nat.one_mul]
      · intro a ha
        rcases List.mem_cons.mp ha with rfl | ha
        · exact ⟨hsize, htotal⟩
        · exact hheaders a ha
      · -- This page and the ones after it: what is taken from the front and what is dropped there.
        rw [List.flatMap_cons, List.map_append, hitems, hbodies, hsplit, Nat.one_mul, ← List.drop_drop,
          ← List.map_append, List.take_append_drop]
    · -- Nothing is left behind this page: it is the last one, and holds all that was left before it.
      rw [if_neg hmore] at hnext
      refine ⟨[answer], fun _ _ => .last hanswer hnext, ?_, ?_, ?_⟩
      · rw [walkLength_of_le hwidth (by omega)]
        rfl
      · intro a ha
        obtain rfl := List.mem_singleton.mp ha
        exact ⟨hsize, htotal⟩
      · rw [List.flatMap_singleton, hitems, List.take_of_length_le]
        rw [List.length_drop]
        omega

/-- **A walk from the first page sees the whole list**: every entity that passes, once and in order. -/
theorem Wired.exists_linkWalk_from_first (hw : c.Wired m t resource path) (hpath : Query.Unmarked path)
    (hpasses : ∀ f : φ, passes (Filter.ofPairs (Filter.queryPairs f)) = passes f) (hcount : Countable xs)
    (hp : c.Answerable m p steps) :
    ∃ answers,
      (∀ start, t.ReadableFrom start →
        LinkWalk start (c.list (.ofList m.identity passes xs)) { p with pageIndex := 0 } answers) ∧
      answers.length = walkLength (listed m steps passes p xs).length (c.size p).toInt.toNat ∧
      (∀ answer ∈ answers, answer.header.size = c.size p ∧
        answer.header.total = .ofNat (listed m steps passes p xs).length) ∧
      (answers.flatMap (·.body.items)).map Except.ok =
        (listed m steps passes p xs).map (fun x => c.shapeItem (c.present x) p.fields) := by
  have hzero : (0 : Int64).toInt.toNat * (c.size p).toInt.toNat = 0 := Nat.zero_mul _
  obtain ⟨answers, hwalk, hlength, hheaders, hbodies⟩ := hw.exists_linkWalk hpath hpasses hcount hp
    (SameList.of_pageIndex c passes p 0) Int64.le_rfl (hzero.trans_le (Nat.zero_le _))
  rw [hzero, Nat.sub_zero] at hlength
  rw [hzero, List.drop_zero] at hbodies
  exact ⟨answers, hwalk, hlength, hheaders, hbodies⟩

end Walk

end Collection

end HypermediaApi
