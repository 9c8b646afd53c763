import HypermediaApi.Proofs.Collection.Outcome
import Mathlib.Data.List.Forall2

/-!
# HypermediaApi.Proofs.Collection.Representations — two representations of one page

A collection shows a page in two ways: with links in the body, or as plain records with the links to the
neighbours in the header. Both begin with the same page; from there on each has code of its own for the records,
for the links and for the order in which failures are noticed.

`Alike` compares how two requests end, and a traversal ends alike if each of its steps does (`Alike.mapM`). That
takes care of the records, failures included: the links of an item never fail for a wired collection, so an item
is shaped exactly if its record can be selected. The links of the page have their URIs in any case
(`alike_shapePage`).
-/

namespace HypermediaApi

variable {ε α β γ φ : Type}

/-- Two requests end alike: with the same failure, or with answers that are related. -/
def Alike (related : β → γ → Prop) : Except ε β → Except ε γ → Prop
  | .ok x, .ok y => related x y
  | .error e, .error e' => e = e'
  | _, _ => False

namespace Alike

variable {related : β → γ → Prop}

/-- How failures are reported makes no difference. -/
theorem mapError {ε' : Type} {a : Except ε β} {b : Except ε γ} (h : Alike related a b) (report : ε → ε') :
    Alike related (a.mapError report) (b.mapError report) := by
  match a, b, h with
  | .ok x, .ok y, h => exact h
  | .error e, .error e', h => exact congrArg report h

/-- **Traversals end alike if their steps do.** -/
theorem mapM {f : α → Except ε β} {g : α → Except ε γ} (h : ∀ x, Alike related (f x) (g x)) (xs : List α) :
    Alike (List.Forall₂ related) (xs.mapM f) (xs.mapM g) := by
  induction xs with
  | nil => exact .nil
  | cons x rest ih =>
    rw [List.mapM_cons, List.mapM_cons]
    match f x, g x, h x with
    | .error e, .error e', hx => exact hx
    | .ok y, .ok z, hx =>
      match rest.mapM f, rest.mapM g, ih with
      | .error e, .error e', hrest => exact hrest
      | .ok ys, .ok zs, hrest => exact .cons hx hrest

end Alike

/-- The two answers show the same page. The records are those of the items, the figures are the same, and the
header of the plain answer links to the neighbours that the body of the other one links to. -/
structure SamePage (shaped : PageAnswer ShapedPage) (plain : PageAnswer (List Record)) : Prop where
  records : plain.body = shaped.body.items.map ShapedItem.record
  size : plain.header.size = shaped.header.size
  index : plain.header.index = shaped.header.index
  total : plain.header.total = shaped.header.total
  pageCount : plain.header.pageCount = shaped.header.pageCount
  no_header_links : shaped.header.previous = none ∧ shaped.header.next = none
  previous : plain.header.previous = (shaped.body.links.withRel? "previous_page").map Link.href
  next : plain.header.next = (shaped.body.links.withRel? "next_page").map Link.href

namespace Collection

variable [Sortable ε] {c : Collection ε α} {m : PropertyMapping} {t : RouteTable} {resource path : String}

/-- An item is shaped exactly if its record can be selected, and has that record. -/
theorem Wired.alike_shapeItem (hw : c.Wired m t resource path) (fields : Option String) (x : α) :
    Alike (fun item record => item.record = record) (c.shapeItem x fields)
      ((c.schema.select x fields).mapError ApiError.ofFailure) := by
  unfold shapeItem
  rw [hw.mounted, LinkBuilder.forItem_ofMount hw.plain_path]
  cases c.schema.select x fields with
  | error failure => exact rfl
  | ok record => exact rfl

variable [Filter φ] [LawfulFilter φ]

/-- **The two representations of a page agree**, and fail alike. -/
theorem Wired.alike_shapePage (hw : c.Wired m t resource path) (page : Page α) (p : Parameters φ) :
    Alike SamePage (c.shapePage page p) (c.shapePlain page p) := by
  have hrecords := Alike.mapM (hw.alike_shapeItem p.fields) page.items
  rw [mapM_mapError] at hrecords
  unfold shapePage shapePlain Schema.selectMany
  rw [hw.mounted, LinkBuilder.forCollection_ofMount hw.plain_path, LinkBuilder.neighbourUri_ofMount hw.plain_path,
    LinkBuilder.neighbourUri_ofMount hw.plain_path]
  simp only [mapError_ok, bind, Except.bind]
  match page.items.mapM (c.shapeItem · p.fields),
    (page.items.mapM (c.schema.select · p.fields)).mapError ApiError.ofFailure, hrecords with
  | .error e, .error e', hrecords => exact hrecords
  | .ok items, .ok records, hrecords =>
    have hbody : List.Forall₂ (· = ·) (items.map ShapedItem.record) records :=
      List.forall₂_map_left_iff.mpr hrecords
    rw [List.forall₂_eq_eq_eq] at hbody
    exact {
      records := hbody.symm
      size := rfl
      index := rfl
      total := rfl
      pageCount := rfl
      no_header_links := ⟨rfl, rfl⟩
      previous := by
        rw [LinkBuilder.withRel?_pageLinks_previous]
        cases page.hasPrevious <;> rfl
      next := by
        rw [LinkBuilder.withRel?_pageLinks_next]
        cases page.hasNext <;> rfl }

/-- **A request is answered with the same page in both representations**, or refused with the same error. -/
theorem Wired.alike_list (hw : c.Wired m t resource path) (source : Source ε φ) (p : Parameters φ) :
    Alike SamePage (c.list source p) (c.listPlain source p) := by
  unfold list listPlain
  cases c.requestedPage source p with
  | error e => exact rfl
  | ok requested => exact hw.alike_shapePage requested.1 requested.2

end Collection

end HypermediaApi
