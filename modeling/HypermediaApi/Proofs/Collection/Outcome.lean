import HypermediaApi.Collection
import HypermediaApi.Proofs.Link.Mount
import HypermediaApi.Proofs.Ordering.Agreement
import HypermediaApi.Proofs.Ordering.Sorting
import HypermediaApi.Proofs.Page.Figures
import HypermediaApi.Proofs.Selection.Agreement

/-!
# HypermediaApi.Proofs.Collection.Outcome — how a request for a collection ends

A collection checks a request before it touches the source, and afterwards compiles the sort, asks the source,
makes a page, cuts the items and builds links, each of which could fail. For a collection that is *wired*, with
its mapping registered, its links mounted and every mapped property one to sort by, none of them does once the
checks have passed.

There is one lemma for each check that can refuse a request, in the order in which they are made, and one for
the request that passes them all (`list_eq_ok`). That one writes the answer out: its page is `Page.cut` of the
matching entities in their order, so what is known of those pages carries over to answers.
-/

namespace HypermediaApi

variable {ε α φ : Type}

/-! ### Windows -/

namespace Parameters

variable {p : Parameters φ}

theorem window_of_negative_index (h : p.pageIndex < 0) : p.window = .error (.negativeIndex p.pageIndex) := by
  unfold window
  rw [if_pos h]

theorem window_of_size (hi : 0 ≤ p.pageIndex) (h : p.pageSize ≤ 0) :
    p.window = .error (.sizeNotPositive p.pageSize) := by
  unfold window
  rw [if_neg (Int64.not_lt.mpr hi), if_pos h]

theorem window_eq_ok (hi : 0 ≤ p.pageIndex) (hs : 0 < p.pageSize) :
    p.window = .ok (.ofPage (.ofNat p.pageIndex.toInt.toNat) (.ofNat p.pageSize.toInt.toNat)) := by
  unfold window
  rw [if_neg (Int64.not_lt.mpr hi), if_neg (Int64.not_le.mpr hs)]

end Parameters

/-! ### Sources in memory -/

namespace Source

variable [Sortable ε] (passes : φ → ε → Bool) (xs : List ε)

/-- Sorting the entities that pass does not change how many there are. -/
theorem count_ofList (steps : List SortStep) (identity : String) (filter : φ) :
    (ofList identity passes xs).count filter =
      .ok (.ofNat (arrange steps identity (xs.filter (passes filter))).length) := by
  rw [(arrange_perm steps identity (xs.filter (passes filter))).length_eq]
  rfl

/-- What is fetched by properties that compare is a window of the entities that pass, in their order. -/
theorem fetch_ofList {steps : List SortStep} {identity : String} (hsteps : ∀ s ∈ steps, Compares ε s.property)
    (hidentity : Compares ε identity) (filter : φ) (w : Window) :
    (ofList identity passes xs).fetch filter steps w =
      .ok (w.slice (arrange steps identity (xs.filter (passes filter)))) := by
  unfold ofList
  simp only
  rw [sortEntities_eq_ok hsteps hidentity]
  rfl

end Source

namespace Collection

/-! ### The request in effect -/

section Resolve

variable (c : Collection ε α) (p : Parameters φ)

/-- The page size in effect: the one that was asked for, or the collection's own, and at most the maximum. -/
def size : Int64 := min (p.givenPageSize.getD c.defaultSize) c.maxSize

@[simp] theorem resolve_pageIndex : (c.resolve p).pageIndex = p.pageIndex := rfl

@[simp] theorem resolve_orderBy : (c.resolve p).orderBy = p.orderBy := rfl

@[simp] theorem resolve_fields : (c.resolve p).fields = p.fields := rfl

@[simp] theorem resolve_pageSize : (c.resolve p).pageSize = c.size p := rfl

variable {c p}

theorem list_of_check [Filter φ] {source : Source ε φ} {e : ApiError}
    (h : c.check (c.resolve p) = .error e) : c.list source p = .error e := by
  unfold list requestedPage
  simp only [h, bind, Except.bind]

end Resolve

/-- A collection with everything in its place: its mapping is registered and leads to properties that entities
can be sorted by, and its links are those of a mounted resource. -/
structure Wired [Sortable ε] (c : Collection ε α) (m : PropertyMapping) (t : RouteTable)
    (resource path : String) : Prop where
  registered : c.registry.table.get? c.types = some m
  sorts : m.Sorts ε
  mounted : c.links = .ofMount t resource path
  plain_path : '\x7b' ∉ path.toList

/-- A request whose parts are in order, whatever page it asks for: its sort expression compiles to the steps,
its fields exist and its page size is positive. -/
structure Answerable (c : Collection ε α) (m : PropertyMapping) (p : Parameters φ) (steps : List SortStep) :
    Prop where
  compiles : m.compile p.orderBy = .ok steps
  fields_exist : c.schema.fieldsExist p.fields = true
  size_pos : 0 < c.size p

namespace Wired

variable [Sortable ε] {c : Collection ε α} {m : PropertyMapping} {t : RouteTable} {resource path : String}

/-! ### Checking -/

/-- A sort expression that the mapping does not cover is refused first. -/
theorem check_of_not_covers (hw : c.Wired m t resource path) {p : Parameters φ} (h : ¬ m.Covers p.orderBy) :
    c.check p = .error (.badRequest ApiError.unknownSortFields) := by
  rcases Registry.accepts_cases hw.registered p.orderBy with ⟨hcovers, -⟩ | ⟨-, haccepts⟩
  · exact absurd hcovers h
  · unfold check
    rw [haccepts]
    rfl

/-- A field list with an unknown entry is refused next. -/
theorem check_of_unknown_field (hw : c.Wired m t resource path) {p : Parameters φ}
    (horder : m.Covers p.orderBy) (h : c.schema.fieldsExist p.fields = false) :
    c.check p = .error (.badRequest ApiError.unknownFields) := by
  rcases Registry.accepts_cases hw.registered p.orderBy with ⟨-, haccepts⟩ | ⟨hcovers, -⟩
  · unfold check checkFields
    rw [haccepts, h]
    rfl
  · exact absurd horder hcovers

/-- **What passes both checks compiles.** -/
theorem check_eq_ok (hw : c.Wired m t resource path) {p : Parameters φ} {steps : List SortStep}
    (hsteps : m.compile p.orderBy = .ok steps) (hfields : c.schema.fieldsExist p.fields = true) :
    c.check p = .ok steps := by
  rcases Registry.accepts_cases hw.registered p.orderBy with ⟨-, haccepts⟩ | ⟨hcovers, -⟩
  · unfold check checkFields
    rw [haccepts, hfields, Registry.compile_of_get? hw.registered, hsteps]
    rfl
  · exact absurd (PropertyMapping.covers_of_compile hsteps) hcovers

/-! ### Fetching -/

theorem compares_identity (hw : c.Wired m t resource path) : Compares ε m.identity := by
  have hentry := PropertyMapping.mem_entries_of_get? m.get?_identity
  exact hw.sorts _ hentry { name := m.identity } (List.mem_singleton_self _)

/-- **A page of a list in memory** is cut out of the matching entities in their order. -/
theorem fetchPage_ofList (hw : c.Wired m t resource path) {p : Parameters φ} {steps : List SortStep}
    {orderBy : Option String} (hsteps : m.compile orderBy = .ok steps) (hi : 0 ≤ p.pageIndex)
    (hs : 0 < p.pageSize) (passes : φ → ε → Bool) (xs : List ε) :
    fetchPage (.ofList m.identity passes xs) p steps =
      .ok (.cut p.pageIndex p.pageSize hi hs (arrange steps m.identity (xs.filter (passes p.filter)))) := by
  have hcount := Source.count_ofList passes xs steps m.identity p.filter
  have hfetch := Source.fetch_ofList passes xs (fun s hs => hw.sorts.compares_of_mem_steps hsteps hs)
    hw.compares_identity p.filter
  unfold fetchPage
  simp only [Parameters.window_eq_ok hi hs, hcount, hfetch, mapError_ok, bind, Except.bind,
    Page.make_cut hi hs]

/-! ### Shaping -/

/-- A field list that has passed the check never makes an item fail. -/
theorem exists_shapeItem (hw : c.Wired m t resource path) {fields : Option String}
    (hfields : c.schema.fieldsExist fields = true) (x : α) : ∃ item, c.shapeItem x fields = .ok item := by
  obtain ⟨record, hrecord⟩ := Schema.exists_select_of_fieldsExist hfields x
  unfold shapeItem
  rw [hrecord, hw.mounted, LinkBuilder.forItem_ofMount hw.plain_path]
  exact ⟨_, rfl⟩

section Lists

variable [Filter φ]

/-! ### Refused requests -/

variable {source : Source ε φ} {p : Parameters φ}

/-- First, the sort expression. -/
theorem list_of_not_covers (hw : c.Wired m t resource path) (h : ¬ m.Covers p.orderBy) :
    c.list source p = .error (.badRequest ApiError.unknownSortFields) :=
  list_of_check (hw.check_of_not_covers h)

/-- Second, the field list. -/
theorem list_of_unknown_field (hw : c.Wired m t resource path) (horder : m.Covers p.orderBy)
    (h : c.schema.fieldsExist p.fields = false) :
    c.list source p = .error (.badRequest ApiError.unknownFields) :=
  list_of_check (hw.check_of_unknown_field horder h)

/-- What passes the check and has no window is refused. -/
theorem list_of_window (hw : c.Wired m t resource path) (horder : m.Covers p.orderBy)
    (hfields : c.schema.fieldsExist p.fields = true) {fault : PageFault}
    (h : (c.resolve p).window = .error fault) :
    c.list source p = .error (.badRequest fault.message) := by
  obtain ⟨steps, hsteps⟩ := PropertyMapping.exists_compile_of_covers horder
  have hcheck := hw.check_eq_ok (p := c.resolve p) hsteps hfields
  unfold list requestedPage fetchPage
  simp only [hcheck, h, bind, Except.bind, mapError_error]
  rfl

/-- Third, the page index. -/
theorem list_of_negative_index (hw : c.Wired m t resource path) (horder : m.Covers p.orderBy)
    (hfields : c.schema.fieldsExist p.fields = true) (h : p.pageIndex < 0) :
    c.list source p = .error (.badRequest (PageFault.negativeIndex p.pageIndex).message) :=
  hw.list_of_window horder hfields (Parameters.window_of_negative_index (p := c.resolve p) h)

/-- Fourth, the page size in effect. -/
theorem list_of_size (hw : c.Wired m t resource path) (horder : m.Covers p.orderBy)
    (hfields : c.schema.fieldsExist p.fields = true) (hi : 0 ≤ p.pageIndex) (h : c.size p ≤ 0) :
    c.list source p = .error (.badRequest (PageFault.sizeNotPositive (c.size p)).message) :=
  hw.list_of_window horder hfields (Parameters.window_of_size (p := c.resolve p) hi h)

/-! ### Answered requests -/

variable [LawfulFilter φ]

/-- **A page whose field list has passed the check can be shaped**: item by item, and with its links. -/
theorem shapePage_eq_ok (hw : c.Wired m t resource path) (page : Page α) {p : Parameters φ}
    (hfields : c.schema.fieldsExist p.fields = true) :
    ∃ items, items.map Except.ok = page.items.map (c.shapeItem · p.fields) ∧
      c.shapePage page p = .ok {
        body := { items, links := LinkBuilder.pageLinks t path p page.hasPrevious page.hasNext }
        header := page.header } := by
  obtain ⟨items, hitems⟩ := exists_mapM_eq_ok_iff.mpr fun x (_ : x ∈ page.items) =>
    hw.exists_shapeItem hfields x
  refine ⟨items, map_ok_of_mapM_eq_ok hitems, ?_⟩
  unfold shapePage
  rw [hitems, hw.mounted, LinkBuilder.forCollection_ofMount hw.plain_path]
  rfl

/-- **What passes all checks is answered.** The answer is made of the page of the matching entities in the
order of the compiled steps: its items one by one, its figures and its links. -/
theorem list_eq_ok (hw : c.Wired m t resource path) {steps : List SortStep} (hp : c.Answerable m p steps)
    (hi : 0 ≤ p.pageIndex) (passes : φ → ε → Bool) (xs : List ε) :
    ∃ items,
      let page := Page.cut p.pageIndex (c.size p) hi hp.size_pos
        (arrange steps m.identity (xs.filter (passes p.filter)))
      items.map Except.ok = page.items.map (fun x => c.shapeItem (c.present x) p.fields) ∧
      c.list (.ofList m.identity passes xs) p = .ok {
        body := { items, links := LinkBuilder.pageLinks t path (c.resolve p) page.hasPrevious page.hasNext }
        header := page.header } := by
  have hcheck := hw.check_eq_ok (p := c.resolve p) hp.compiles hp.fields_exist
  have hfetch := hw.fetchPage_ofList (p := c.resolve p) hp.compiles hi hp.size_pos passes xs
  -- The links are made for the request with the page size in effect, not for the one that came in.
  obtain ⟨items, hitems, hshape⟩ := hw.shapePage_eq_ok (p := c.resolve p)
    ((Page.cut p.pageIndex (c.size p) hi hp.size_pos
      (arrange steps m.identity (xs.filter (passes p.filter)))).map c.present) hp.fields_exist
  refine ⟨items, ?_, ?_⟩
  · rw [hitems, Page.items_map, List.map_map]
    rfl
  · unfold list requestedPage
    simp only [hcheck, hfetch, bind, Except.bind]
    exact hshape

end Lists

end Wired

end Collection

end HypermediaApi
