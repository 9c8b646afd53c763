import HypermediaApi.Json.Fields
import HypermediaApi.Proofs.Json.Documents
import HypermediaApi.Proofs.Traversal

/-!
# HypermediaApi.Proofs.Json.Structures — written structures read back

A structure with fixed fields is written as an object with different keys that its reader knows. Its reader then gets the
documents of its members under their keys (`fields?_tree`), and each field reads back by itself: texts, integers of 64
bits, optional texts and lists.
-/

namespace HypermediaApi.Json

variable {α : Type}

/-- What a text holds is what its document holds. -/
theorem Fits.decode?_render {room : Nat} {v : Json} (h : Fits room v) (read : Tree → Option α) :
    decode? read v.render = read v.tree := by
  rw [decode?, h.read?_render, Option.bind_some]

/-! ### Fields -/

/-- The members of a written object as fields. -/
def writtenFields (members : List (String × Json)) : Fields := members.map fun m => (m.1, m.2.tree)

theorem map_fst_writtenFields (members : List (String × Json)) :
    (writtenFields members).map Prod.fst = members.map Prod.fst := by
  unfold writtenFields
  rw [List.map_map]
  rfl

/-- **The fields of a written object are its members.** -/
theorem decodeKeys?_memberTrees (members : List (String × Json)) :
    decodeKeys? (memberTrees members) = some (writtenFields members) := by
  induction members with
  | nil => rfl
  | cons m r ih =>
    rw [memberTrees, decodeKeys?, unescape?_escape, ih]
    simp [writtenFields]

/-- How often a key stands among fields. -/
theorem length_filter_key (name : String) (fields : Fields) :
    (fields.filter (·.1 == name)).length = (fields.map Prod.fst).count name := by
  rw [← List.countP_eq_length_filter, List.count, List.countP_map]
  rfl

theorem noneRepeated_iff {names : List String} {fields : Fields} :
    noneRepeated names fields = true ↔ ∀ name ∈ names, (fields.map Prod.fst).count name ≤ 1 := by
  unfold noneRepeated
  simp only [List.all_eq_true, decide_eq_true_eq, length_filter_key]

/-- **A written structure is read by its fields**, as long as they are among the known ones and in their order. -/
theorem fields?_tree {members : List (String × Json)} {names : List String} {required : Nat} (hnames : names.Nodup)
    (hknown : (members.map Prod.fst).Sublist names) :
    (object members).tree.fields? names required = some (writtenFields members) := by
  have hnone : noneRepeated names (writtenFields members) = true := by
    rw [noneRepeated_iff, map_fst_writtenFields]
    exact fun name _ => List.nodup_iff_count.mp (hnames.sublist hknown) name
  have hall : (writtenFields members).filter (names.contains ·.1) = writtenFields members := by
    rw [List.filter_eq_self]
    intro field hfield
    have hkey := List.mem_map_of_mem (f := Prod.fst) hfield
    rw [map_fst_writtenFields] at hkey
    simpa using hknown.subset hkey
  rw [tree, Tree.fields?, decodeKeys?_memberTrees]
  dsimp only [bind, Option.bind]
  rw [if_pos hnone, hall]

/-! ### Single fields -/

@[simp] theorem string?_tree (s : String) : (string s).tree.string? = some s := by
  rw [tree_string, Tree.string?, unescape?_escape, Option.map_some, String.ofList_toList]

@[simp] theorem nullable?_tree_string (s : String) : (string s).tree.nullable? (·.string?) = some (some s) :=
  congrArg (Option.map some) (string?_tree s)

@[simp] theorem nullable?_tree_optionalString (s : Option String) :
    (optionalString s).tree.nullable? (·.string?) = some s := by
  cases s with
  | none => rfl
  | some s => exact nullable?_tree_string s

theorem int?_tree {n low high : Int} (h : IsExactInt n) (hlow : low ≤ n) (hhigh : n ≤ high) :
    (int n).tree.int? low high = some n := by
  rw [tree_int, Tree.int?, Numeral.toNumber?_ofInt h]
  exact if_pos ⟨hlow, hhigh⟩

theorem isExactInt_int64 (i : Int64) : IsExactInt i.toInt := by
  have hhigh : i.toInt ≤ 2 ^ 63 - 1 := i.toInt_le
  have hlimit : (greatestUnsigned : Int) = 2 ^ 64 - 1 := rfl
  exact ⟨i.minValue_le_toInt, by omega⟩

theorem isExactInt_uint64 (n : UInt64) : IsExactInt n.toNat := by
  have hhigh : n.toNat < 2 ^ 64 := n.toNat_lt
  have hlimit : (greatestUnsigned : Int) = 2 ^ 64 - 1 := rfl
  have hleast : leastInt = -2 ^ 63 := rfl
  exact ⟨by omega, by omega⟩

@[simp] theorem int64?_tree (i : Int64) : (int i.toInt).tree.int64? = some i := by
  rw [Tree.int64?, int?_tree (isExactInt_int64 i) i.minValue_le_toInt i.toInt_le, Option.map_some, Int64.ofInt_toInt]

@[simp] theorem uint64?_tree (n : UInt64) : (nat n.toNat).tree.uint64? = some n := by
  have hhigh : n.toNat < UInt64.size := n.toNat_lt
  rw [nat, Tree.uint64?, int?_tree (isExactInt_uint64 n) (by omega) (by omega), Option.map_some, Int.toNat_natCast,
    UInt64.ofNat_toNat]

theorem itemTrees_eq_map (items : List Json) : itemTrees items = items.map tree := by
  induction items with
  | nil => rfl
  | cons v r ih => rw [itemTrees, ih, List.map_cons]

/-- The items of a written list are read one by one. -/
theorem list?_tree_map {β : Type} {write : α → Json} {read : Tree → Option β} {xs : List α} :
    (array (xs.map write)).tree.list? read = (xs.map fun x => (write x).tree).mapM read := by
  rw [tree, Tree.list?, itemTrees_eq_map, List.map_map]
  rfl

/-- **A written list reads back if each of its items does.** -/
theorem list?_tree {write : α → Json} {read : Tree → Option α} {xs : List α}
    (h : ∀ x ∈ xs, read (write x).tree = some x) : (array (xs.map write)).tree.list? read = some xs :=
  list?_tree_map.trans (mapM_map_eq_some h)

end HypermediaApi.Json
