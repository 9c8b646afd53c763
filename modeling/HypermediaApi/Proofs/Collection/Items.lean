import HypermediaApi.Proofs.Collection.Outcome
import HypermediaApi.Proofs.Link.Following

/-!
# HypermediaApi.Proofs.Collection.Items — items and their links to themselves

The items of a page are shaped by the function that shapes a resource by itself, but the field list reaches it in
another way: a page drops a list that is blank, a request for one resource hands it on, and a client that follows
the link of an item sends what the link carries. For shaping these are the same list (`shapeItem_filter_not_blank`).

The link of an item to itself is the base URL and an `itemReference`. The reference holds the field list
(`fieldList?_itemReference`) and tells items apart by their identities (`itemReference_inj`).
-/

namespace HypermediaApi

variable {ε α : Type}

/-! ### Blank field lists -/

theorem Schema.select_filter_not_blank (s : Schema α) (x : α) (fields : Option String) :
    s.select x (fields.filter (! Text.isBlankText ·)) = s.select x fields := by
  simp only [select, requestedFields_filter_not_blank]

theorem LinkBuilder.forItem_filter_not_blank (b : LinkBuilder) (id : String) (fields : Option String) :
    b.forItem id (fields.filter (! Text.isBlankText ·)) = b.forItem id fields := by
  simp only [forItem, Option.filter_filter, Bool.and_self]

/-- **A blank field list is as good as none** for shaping an item. -/
theorem Collection.shapeItem_filter_not_blank (c : Collection ε α) (x : α) (fields : Option String) :
    c.shapeItem x (fields.filter (! Text.isBlankText ·)) = c.shapeItem x fields := by
  simp only [shapeItem, Schema.select_filter_not_blank, LinkBuilder.forItem_filter_not_blank]

/-! ### Links of items to themselves -/

namespace LinkBuilder

variable {path : String}

/-- What follows the base URL in the link of an item to itself: its path, and the field list unless that is
blank. -/
def itemReference (path id : String) (fields : Option String) : String :=
  itemPath path id ++
    RouteTable.querySuffix (Parameters.optionalPair "fields" (fields.filter (! Text.isBlankText ·)))

/-- Without a field list the reference of an item is its path. -/
theorem itemReference_none (path id : String) : itemReference path id none = itemPath path id :=
  String.append_empty

/-- **The reference of an item holds the field list**, and so does a URI that ends in it. -/
theorem fieldList?_itemReference (hpath : Query.Unmarked path) {front : String} (hfront : Query.Unmarked front)
    (id : String) (fields : Option String) :
    Query.fieldList? (front ++ itemReference path id fields) =
      some (fields.filter (! Text.isBlankText ·)) := by
  have hitem : Query.Unmarked (front ++ itemPath path id) :=
    hfront.append (((hpath.dropEnd '/').append (by decide)).append (Query.unmarked_encode id))
  unfold itemReference
  rw [← String.append_assoc]
  exact Query.fieldList?_append hitem _

/-- **Items with different identities have different references.** -/
theorem itemReference_inj {a b : String} {fields : Option String} :
    itemReference path a fields = itemReference path b fields ↔ a = b := by
  unfold itemReference itemPath
  rw [String.append_left_inj, String.append_right_inj, Text.Percent.encode_inj]

end LinkBuilder

namespace Collection

variable [Sortable ε] {c : Collection ε α} {m : PropertyMapping} {t : RouteTable} {resource path : String}

/-- **An item of a wired collection links to itself.** -/
theorem Wired.self_of_shapeItem (hw : c.Wired m t resource path) {x : α} {fields : Option String}
    {item : ShapedItem} (h : c.shapeItem x fields = .ok item) :
    item.links.withRel? "self" =
      some ⟨t.baseUrl ++ LinkBuilder.itemReference path (c.identify x) fields, "self", "GET"⟩ := by
  unfold shapeItem at h
  rw [hw.mounted, LinkBuilder.forItem_ofMount hw.plain_path] at h
  cases hrecord : c.schema.select x fields with
  | error failure =>
    rw [hrecord] at h
    cases h
  | ok record =>
    rw [hrecord] at h
    obtain rfl := Except.ok.inj h
    unfold LinkBuilder.itemReference
    rw [← String.append_assoc]
    rfl

end Collection

end HypermediaApi
