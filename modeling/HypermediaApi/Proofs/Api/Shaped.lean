import HypermediaApi.Api.Answer
import HypermediaApi.Proofs.Json.Structures
import Mathlib.Data.List.Nodup

/-!
# HypermediaApi.Proofs.Api.Shaped — shaped answers read back

The links of a resource stand after its fields in one object, under the key `links`. Nothing keeps a record from having a
field of that name, and then the key stands twice (`keyCount?_tree`). A reader that takes the fields apart by their keys
refuses that; otherwise it finds the links under their key and the fields of the record, in order, under all others
(`within?_tree`). A page is read item by item, each with the room that the page and its list leave, so it reads back
exactly if each of its items does.
-/

namespace HypermediaApi

open Json (Tree)

namespace Json

/-- A value as plain documents hold it: its objects have their keys in order, each once, and it fits into the room. -/
structure PlainWithin (room : Nat) (v : Json) : Prop where
  fits : v.Fits room
  plain : v.canonical = v

/-- How often a key stands in an object. -/
def Tree.keyCount? (key : String) : Tree → Option Nat
  | .object members => (decodeKeys? members).map fun fields => (fields.map Prod.fst).count key
  | _ => none

end Json

/-! ### Links -/

theorem Link.fits_toJson (l : Link) : Json.Fits 1 l.toJson := .object (by simp [Json.Fits.string])

theorem Link.ofTree?_tree (l : Link) : ofTree? l.toJson.tree = some l := by
  unfold ofTree? toJson
  rw [Json.fields?_tree (by decide) (by simp)]
  simp [Json.Fields.required, Json.writtenFields, List.lookup_cons]

namespace LinkSet

theorem fits_toJson (links : LinkSet) : Json.Fits 2 links.toJson := .array (by simp [Link.fits_toJson])

theorem ofTree?_tree (links : LinkSet) : ofTree? links.toJson.tree = some links :=
  Json.list?_tree fun l _ => l.ofTree?_tree

end LinkSet

/-! ### Items -/

namespace ShapedItem

/-- A field of the record has the key of the links. -/
def Clashes (i : ShapedItem) : Prop := linksKey ∈ i.record.keys

instance (i : ShapedItem) : Decidable i.Clashes := inferInstanceAs (Decidable (linksKey ∈ i.record.keys))

/-- The fields of the written item. -/
def fields (i : ShapedItem) : Json.Fields := Json.writtenFields i.record.entries ++ [(linksKey, i.links.toJson.tree)]

theorem tree_toJson (i : ShapedItem) :
    i.toJson.tree = .object (Json.memberTrees (i.record.entries ++ [(linksKey, i.links.toJson)])) := by
  rw [toJson, Json.tree]

theorem decodeKeys?_fields (i : ShapedItem) :
    Json.decodeKeys? (Json.memberTrees (i.record.entries ++ [(linksKey, i.links.toJson)])) = some i.fields := by
  rw [Json.decodeKeys?_memberTrees, Json.writtenFields, List.map_append]
  rfl

/-- The key of the links stands once, or twice if a field clashes with it. -/
theorem count_linksKey (i : ShapedItem) : (i.fields.map Prod.fst).count linksKey = if i.Clashes then 2 else 1 := by
  have hkeys : i.fields.map Prod.fst = i.record.keys ++ [linksKey] := by
    rw [fields, List.map_append, Json.map_fst_writtenFields]
    rfl
  rw [hkeys, List.count_append, List.count_singleton_self]
  by_cases hclash : i.Clashes
  · rw [if_pos hclash, List.count_eq_one_of_mem i.record.nodup hclash]
  · rw [if_neg hclash, List.count_eq_zero_of_not_mem hclash]

theorem keyCount?_tree (i : ShapedItem) : i.toJson.tree.keyCount? linksKey = some (if i.Clashes then 2 else 1) := by
  rw [tree_toJson, Tree.keyCount?, decodeKeys?_fields, Option.map_some, count_linksKey]

/-- Next to the links stand the fields of the record. -/
theorem filter_fields {i : ShapedItem} (h : ¬ i.Clashes) :
    i.fields.filter (! [linksKey].contains ·.1) = Json.writtenFields i.record.entries := by
  have hother : ∀ field ∈ Json.writtenFields i.record.entries, (! [linksKey].contains field.1) = true := by
    intro field hfield
    have hkey := List.mem_map_of_mem (f := Prod.fst) hfield
    rw [Json.map_fst_writtenFields] at hkey
    have hne : field.1 ≠ linksKey := fun hsame => h (by rwa [hsame] at hkey)
    simpa using hne
  rw [fields, List.filter_append, List.filter_eq_self.mpr hother]
  simp

theorem noneRepeated_fields_iff (i : ShapedItem) : Json.noneRepeated [linksKey] i.fields = true ↔ ¬ i.Clashes := by
  rw [Json.noneRepeated_iff, List.forall_mem_singleton, count_linksKey]
  split <;> simp [*]

/-- The reader parts the fields of the record, in order, from that of the links. -/
theorem mixedFields?_tree {room : Nat} {i : ShapedItem} (hplain : ∀ e ∈ i.record.entries, e.2.PlainWithin room)
    (h : ¬ i.Clashes) : i.toJson.tree.mixedFields? (room + 1) [linksKey] =
      some (i.fields.filter ([linksKey].contains ·.1), i.record.entries) := by
  have hothers : (Json.writtenFields i.record.entries).mapM (fun field =>
      (field.2.toJson? room).map fun v => (field.1, v.canonical)) = some i.record.entries :=
    mapM_map_eq_some fun e he => by
      rw [(hplain e he).fits.toJson?_tree, Option.map_some, (hplain e he).plain]
  rw [tree_toJson, Tree.mixedFields?, decodeKeys?_fields]
  dsimp only [bind, Option.bind]
  rw [if_pos (i.noneRepeated_fields_iff.mpr h), filter_fields h, hothers]

theorem mixedFields?_tree_of_clashes {i : ShapedItem} (h : i.Clashes) (room : Nat) :
    i.toJson.tree.mixedFields? (room + 1) [linksKey] = none := by
  rw [tree_toJson, Tree.mixedFields?, decodeKeys?_fields]
  dsimp only [bind, Option.bind]
  rw [if_neg (mt i.noneRepeated_fields_iff.mp (not_not_intro h))]

/-- The links are found under their key. -/
theorem lookup_linksKey {i : ShapedItem} (h : ¬ i.Clashes) :
    (i.fields.filter ([linksKey].contains ·.1)).lookup linksKey = some i.links.toJson.tree := by
  have honce : (i.fields.map Prod.fst).count linksKey ≤ 1 := by
    rw [i.count_linksKey, if_neg h]
  rw [OrderedMap.lookup_filter (p := [linksKey].contains) (by simp), OrderedMap.lookup_eq_some_iff honce]
  exact List.mem_append_right _ (List.mem_singleton_self _)

/-- **An item is read back from its document unless a field clashes with the links**, and then it is refused. -/
theorem within?_tree {room : Nat} {i : ShapedItem} (hplain : ∀ e ∈ i.record.entries, e.2.PlainWithin room) :
    within? (room + 1) i.toJson.tree = if i.Clashes then none else some i := by
  have hrecord : OrderedMap.ofList i.record.entries = i.record := OrderedMap.ext (OrderedMap.entries_ofList i.record.nodup)
  unfold within?
  by_cases hclash : i.Clashes
  · rw [mixedFields?_tree_of_clashes hclash, if_pos hclash]
    rfl
  · rw [mixedFields?_tree hplain hclash, if_neg hclash]
    dsimp only [bind, Option.bind, Json.Fields.required]
    rw [lookup_linksKey hclash]
    dsimp only
    rw [LinkSet.ofTree?_tree, hrecord]

theorem fits_toJson {room : Nat} {i : ShapedItem} (hplain : ∀ e ∈ i.record.entries, e.2.PlainWithin room)
    (hroom : 2 ≤ room) : Json.Fits (room + 1) i.toJson := by
  refine .object fun m hm => ?_
  rcases List.mem_append.mp hm with he | hlinks
  · exact (hplain m he).fits
  · obtain rfl := List.mem_singleton.mp hlinks
    exact i.links.fits_toJson.mono hroom

end ShapedItem

/-! ### Pages -/

namespace ShapedPage

/-- What is read from each item of a page. -/
def eachItem? {α : Type} (read : Tree → Option α) (t : Tree) : Option (List α) :=
  (t.fields? ["value", "links"] 2).bind (·.required "value" (·.list? read))

theorem fits_toJson {room : Nat} {p : ShapedPage} (hplain : ∀ i ∈ p.items, ∀ e ∈ i.record.entries, e.2.PlainWithin room)
    (hroom : 2 ≤ room) : Json.Fits (room + 3) p.toJson := by
  have hitems : Json.Fits (room + 2) (.array (p.items.map ShapedItem.toJson)) := by
    refine .array fun v hv => ?_
    obtain ⟨i, hi, rfl⟩ := List.mem_map.mp hv
    exact ShapedItem.fits_toJson (hplain i hi) hroom
  have hlinks : Json.Fits (room + 2) p.links.toJson := p.links.fits_toJson.mono (by omega)
  exact .object (by simp [hitems, hlinks])

theorem fields?_tree (p : ShapedPage) : p.toJson.tree.fields? ["value", "links"] 2 =
    some (Json.writtenFields [("value", .array (p.items.map ShapedItem.toJson)), ("links", p.links.toJson)]) :=
  Json.fields?_tree (by decide) (by simp)

/-- The items are read one by one. -/
theorem eachItem?_tree {α : Type} (read : Tree → Option α) (p : ShapedPage) :
    eachItem? read p.toJson.tree = (p.items.map fun i => i.toJson.tree).mapM read := by
  rw [eachItem?, fields?_tree, Option.bind_some]
  exact Json.list?_tree_map

/-- **A page reads back as its items with its links.** -/
theorem ofTree?_tree (p : ShapedPage) : ofTree? p.toJson.tree =
    (eachItem? (ShapedItem.within? (Json.nestingLimit - 2)) p.toJson.tree).map fun items => { items, links := p.links } := by
  have hlinks : Json.Fields.required (Json.writtenFields
      [("value", .array (p.items.map ShapedItem.toJson)), ("links", p.links.toJson)]) "links" LinkSet.ofTree? =
        some p.links := p.links.ofTree?_tree
  rw [ofTree?, eachItem?, fields?_tree, Option.bind_some]
  dsimp only [bind, Option.bind]
  rw [hlinks]
  cases Json.Fields.required _ "value" _ <;> rfl

end ShapedPage

/-! ### Texts -/

/-- **Shaped answers read back exactly if no field of a record clashes with the links.** The values have to be plain and
without binary64 numbers, and the text must not nest too deep, an item being one container around its values and a page
two more around its items. Where a field does clash, the text has the key twice and cannot be read. -/
theorem shaped_answers_read_back_iff (i : ShapedItem) (p : ShapedPage)
    (hitem : ∀ e ∈ i.record.entries, e.2.PlainWithin (Json.nestingLimit - 1))
    (hpage : ∀ j ∈ p.items, ∀ e ∈ j.record.entries, e.2.PlainWithin (Json.nestingLimit - 3)) :
    (Json.decode? ShapedItem.ofTree? i.toJson.render = some i ↔ ¬ i.Clashes) ∧
    Json.decode? (·.keyCount? ShapedItem.linksKey) i.toJson.render = some (if i.Clashes then 2 else 1) ∧
    (i.Clashes → Json.decode? ShapedItem.ofTree? i.toJson.render = none) ∧
    (Json.decode? ShapedPage.ofTree? p.toJson.render = some p ↔ ∀ j ∈ p.items, ¬ j.Clashes) ∧
    Json.decode? (ShapedPage.eachItem? (·.keyCount? ShapedItem.linksKey)) p.toJson.render =
      some (p.items.map fun j => if j.Clashes then 2 else 1) ∧
    ((∃ j ∈ p.items, j.Clashes) → Json.decode? ShapedPage.ofTree? p.toJson.render = none) := by
  have hitemFits : Json.Fits (Json.nestingLimit - 1 + 1) i.toJson := ShapedItem.fits_toJson hitem (by decide)
  have hpageFits : Json.Fits (Json.nestingLimit - 3 + 3) p.toJson := ShapedPage.fits_toJson hpage (by decide)
  have hread : ShapedItem.ofTree? i.toJson.tree = if i.Clashes then none else some i := ShapedItem.within?_tree hitem
  have hreads : ∀ j ∈ p.items, ShapedItem.within? (Json.nestingLimit - 2) j.toJson.tree = if j.Clashes then none else some j :=
    fun j hj => ShapedItem.within?_tree (hpage j hj)
  have hrefused (hclash : ∃ j ∈ p.items, j.Clashes) : ShapedPage.ofTree? p.toJson.tree = none := by
    obtain ⟨j, hj, hclash⟩ := hclash
    rw [p.ofTree?_tree, p.eachItem?_tree, mapM_eq_none_iff.mpr, Option.map_none]
    exact ⟨_, List.mem_map_of_mem hj, (hreads j hj).trans (if_pos hclash)⟩
  have haccepted (hfree : ∀ j ∈ p.items, ¬ j.Clashes) : ShapedPage.ofTree? p.toJson.tree = some p := by
    rw [p.ofTree?_tree, p.eachItem?_tree, mapM_map_eq_some fun j hj => (hreads j hj).trans (if_neg (hfree j hj))]
    rfl
  simp only [hitemFits.decode?_render, hpageFits.decode?_render]
  refine ⟨?_, i.keyCount?_tree, fun hclash => hread.trans (if_pos hclash), ⟨fun hback j hj hclash => ?_, haccepted⟩, ?_,
    hrefused⟩
  · rw [hread]
    split <;> simp [*]
  · rw [hrefused ⟨j, hj, hclash⟩] at hback
    cases hback
  · rw [p.eachItem?_tree]
    exact mapM_map_eq_some_map fun j _ => j.keyCount?_tree

/-- A nested value under a dotted name is read back. One item with a field `links` is refused, and with it its page. -/
theorem shaped_answers_read_back_iff_nested :
    let nested : Json := .object [("a", .array [.int (-1), .null]), ("b", .object [("c", .bool true)])]
    let free : ShapedItem :=
      { record := .ofList [("title", .string "T"), ("author.extra", nested)], links := [⟨"/posts/1", "self", "GET"⟩] }
    let clashing : ShapedItem := { record := .ofList [("links", .null)], links := [] }
    (∀ room, nested.PlainWithin (room + 2)) ∧
    Json.decode? ShapedItem.ofTree? free.toJson.render = some free ∧
    Json.decode? ShapedItem.ofTree? clashing.toJson.render = none ∧
    Json.decode? ShapedPage.ofTree? (ShapedPage.mk [free] []).toJson.render = some (ShapedPage.mk [free] []) ∧
    Json.decode? ShapedPage.ofTree? (ShapedPage.mk [free, clashing] []).toJson.render = none := by
  intro nested free clashing
  have hnested (room : Nat) : nested.PlainWithin (room + 2) := by
    refine ⟨.object ?_, rfl⟩
    rw [List.forall_mem_cons, List.forall_mem_singleton]
    have hminusOne : Json.Fits room (.int (-1)) := .int (by decide)
    exact ⟨.array (by simp [hminusOne, Json.Fits.null]), .object (by simp [Json.Fits.bool])⟩
  have hfree (room : Nat) : ∀ e ∈ free.record.entries, e.2.PlainWithin (room + 2) := by
    have hentries : free.record.entries = [("title", .string "T"), ("author.extra", nested)] :=
      OrderedMap.entries_ofList (by decide)
    rw [hentries, List.forall_mem_cons, List.forall_mem_singleton]
    exact ⟨⟨.string "T", rfl⟩, hnested room⟩
  have hclashing (room : Nat) : ∀ e ∈ clashing.record.entries, e.2.PlainWithin (room + 2) := by
    have hentries : clashing.record.entries = [("links", .null)] := rfl
    rw [hentries, List.forall_mem_singleton]
    exact ⟨.null, rfl⟩
  obtain ⟨hitem, -, -, hpage, -, -⟩ := shaped_answers_read_back_iff free (ShapedPage.mk [free] []) (hfree 124)
    (List.forall_mem_singleton.mpr (hfree 122))
  obtain ⟨-, -, hitem', -, -, hpage'⟩ := shaped_answers_read_back_iff clashing (ShapedPage.mk [free, clashing] [])
    (hclashing 124) (List.forall_mem_cons.mpr ⟨hfree 122, List.forall_mem_singleton.mpr (hclashing 122)⟩)
  have hunclashed : ¬ free.Clashes := by decide
  have hclashed : clashing.Clashes := by decide
  exact ⟨hnested, hitem.mpr hunclashed, hitem' hclashed, hpage.mpr (List.forall_mem_singleton.mpr hunclashed),
    hpage' ⟨clashing, by simp, hclashed⟩⟩

end HypermediaApi
