/-!
# HypermediaApi.OrderedMap — dictionaries that remember insertion order

A dictionary as the list of its entries, each key once. Inserting under a new key adds an entry at the end;
inserting under a key that is there replaces its value and leaves it in its place. Records, property
mappings, route tables and the registry are such dictionaries: the first two show their order to clients.

The list of entries is the view through which every operation is described: `entries_insert`, `keys_insert`
and `get?_insert` say all there is to know about insertion. Two dictionaries are the same as soon as their keys
and the values under them are (`ext_get?`). Entries whose keys are all different are a dictionary as they stand
(`entries_ofList`). Of several entries under one key the first one gives the place (`keys_ofList`) and the last one
the value (`get?_ofList`).
-/

namespace HypermediaApi

variable {κ β : Type}

/-- The entries with `key` set to `value`: in place if the key is there, at the end otherwise. -/
def setEntry [DecidableEq κ] (key : κ) (value : β) : List (κ × β) → List (κ × β)
  | [] => [(key, value)]
  | (k, v) :: r => if k = key then (key, value) :: r else (k, v) :: setEntry key value r

/-- Setting an entry keeps the keys, or adds a new one at the end. -/
theorem map_fst_setEntry [DecidableEq κ] (key : κ) (value : β) (es : List (κ × β)) :
    (setEntry key value es).map Prod.fst =
      if key ∈ es.map Prod.fst then es.map Prod.fst else es.map Prod.fst ++ [key] := by
  induction es with
  | nil => rfl
  | cons e r ih =>
    obtain ⟨k, v⟩ := e
    by_cases h : k = key
    · simp [setEntry, h]
    · have h' : ¬ key = k := fun e => h e.symm
      rw [setEntry, if_neg h, List.map_cons, ih]
      by_cases hk : key ∈ r.map Prod.fst <;> simp_all

/-- Setting an entry leaves each key once. -/
theorem nodup_setEntry [DecidableEq κ] {key : κ} {value : β} {es : List (κ × β)}
    (h : (es.map Prod.fst).Nodup) : ((setEntry key value es).map Prod.fst).Nodup := by
  rw [map_fst_setEntry]
  split
  · exact h
  · next hk =>
    rw [List.nodup_append]
    refine ⟨h, by simp, ?_⟩
    intro a ha b hb
    rw [List.mem_singleton] at hb
    rintro rfl
    exact hk (hb ▸ ha)

/-- What is added at the end is left out if it is there already. -/
theorem eraseDups_concat {β : Type} [BEq β] [LawfulBEq β] (l : List β) (a : β) :
    (l ++ [a]).eraseDups = if a ∈ l then l.eraseDups else l.eraseDups ++ [a] := by
  rw [List.eraseDups_append, List.cons_removeAll]
  by_cases h : a ∈ l <;> simp [h, List.eraseDups_cons]

theorem eraseDups_of_nodup {β : Type} [BEq β] [LawfulBEq β] {l : List β} (h : l.Nodup) : l.eraseDups = l := by
  induction l with
  | nil => rfl
  | cons a l ih =>
    obtain ⟨ha, hl⟩ := List.nodup_cons.mp h
    have hfilter : l.filter (fun b => ! b == a) = l := by
      rw [List.filter_eq_self]
      intro b hb
      have hne : b ≠ a := fun he => ha (he ▸ hb)
      simpa using hne
    rw [List.eraseDups_cons, hfilter, ih hl]

/-- A dictionary whose entries are kept in the order of their first insertion. -/
structure OrderedMap (κ β : Type) where
  entries : List (κ × β)
  nodup_keys : (entries.map Prod.fst).Nodup := by simp

namespace OrderedMap

/-- The dictionary without entries. -/
def empty : OrderedMap κ β := { entries := [] }

instance : EmptyCollection (OrderedMap κ β) := ⟨empty⟩

instance : Inhabited (OrderedMap κ β) := ⟨empty⟩

/-- Two dictionaries with the same entries in the same order are the same. -/
@[ext] theorem ext {m n : OrderedMap κ β} (h : m.entries = n.entries) : m = n := by
  cases m; cases n; cases h; rfl

/-- The keys in order. -/
def keys (m : OrderedMap κ β) : List κ := m.entries.map Prod.fst

def size (m : OrderedMap κ β) : Nat := m.entries.length

/-- There is no entry. -/
def isEmpty (m : OrderedMap κ β) : Bool := m.entries.isEmpty

theorem nodup (m : OrderedMap κ β) : m.keys.Nodup := m.nodup_keys

variable [DecidableEq κ]

/-- The value under a key. -/
def get? (m : OrderedMap κ β) (key : κ) : Option β := m.entries.lookup key

/-- There is an entry under the key. -/
def contains (m : OrderedMap κ β) (key : κ) : Bool := (m.get? key).isSome

/-- The dictionary with `key` set to `value`. -/
def insert (m : OrderedMap κ β) (key : κ) (value : β) : OrderedMap κ β where
  entries := setEntry key value m.entries
  nodup_keys := nodup_setEntry m.nodup_keys

/-- The dictionary without the entry under a key. -/
def erase (m : OrderedMap κ β) (key : κ) : OrderedMap κ β where
  entries := m.entries.filter (·.1 ≠ key)
  nodup_keys := m.nodup_keys.sublist (List.filter_sublist.map Prod.fst)

/-- The dictionary that inserting the entries one after the other gives. -/
def ofList (es : List (κ × β)) : OrderedMap κ β := es.foldl (fun m e => m.insert e.1 e.2) empty

/-! ### What insertion does to the view -/

@[simp] theorem entries_insert (m : OrderedMap κ β) (key : κ) (value : β) :
    (m.insert key value).entries = setEntry key value m.entries := rfl

theorem keys_insert (m : OrderedMap κ β) (key : κ) (value : β) :
    (m.insert key value).keys = if key ∈ m.keys then m.keys else m.keys ++ [key] :=
  map_fst_setEntry key value m.entries

@[simp] theorem get?_empty (key : κ) : (empty : OrderedMap κ β).get? key = none := rfl

theorem lookup_setEntry (key k : κ) (value : β) (es : List (κ × β)) :
    (setEntry key value es).lookup k = if k = key then some value else es.lookup k := by
  induction es with
  | nil =>
    by_cases h : k = key
    · simp [setEntry, h]
    · simp [setEntry, List.lookup_cons, h, beq_eq_false_iff_ne.2 h]
  | cons e r ih =>
    obtain ⟨k', v'⟩ := e
    by_cases h' : k' = key
    · subst h'
      by_cases h : k = k'
      · simp [setEntry, h]
      · simp [setEntry, List.lookup_cons, h, beq_eq_false_iff_ne.2 h]
    · rw [setEntry, if_neg h']
      by_cases hk : k = k'
      · subst hk
        simp [h']
      · simp [List.lookup_cons, beq_eq_false_iff_ne.2 hk, ih]

/-- After an insertion the key has the new value and every other key the value it had. -/
theorem get?_insert (m : OrderedMap κ β) (key k : κ) (value : β) :
    (m.insert key value).get? k = if k = key then some value else m.get? k :=
  lookup_setEntry key k value m.entries

/-! ### Lookups in lists of entries -/

theorem lookup_eq_none_iff {es : List (κ × β)} {key : κ} : es.lookup key = none ↔ key ∉ es.map Prod.fst := by
  rw [List.lookup_eq_none_iff, List.mem_map]
  simp only [bne_iff_ne, ne_eq, not_exists, not_and]
  exact ⟨fun h e he hkey => h e he hkey.symm, fun h e he hkey => h e he hkey.symm⟩

/-- A key that stands at most once is found with its value. -/
theorem lookup_eq_some_iff {es : List (κ × β)} {key : κ} (h : (es.map Prod.fst).count key ≤ 1) {value : β} :
    es.lookup key = some value ↔ (key, value) ∈ es := by
  induction es with
  | nil => simp
  | cons e rest ih =>
    obtain ⟨k, v⟩ := e
    by_cases hk : k = key
    · subst hk
      have hother : (k, value) ∉ rest := by
        intro hmem
        have hcount : 0 < (rest.map Prod.fst).count k := List.count_pos_iff.mpr (List.mem_map_of_mem hmem)
        rw [List.map_cons, List.count_cons_self] at h
        omega
      simp [hother, eq_comm]
    · have hrest : (rest.map Prod.fst).count key ≤ 1 := by
        rwa [List.map_cons, List.count_cons_of_ne hk] at h
      rw [List.lookup_cons, beq_eq_false_iff_ne.mpr (Ne.symm hk), List.mem_cons, ih hrest]
      simp [Ne.symm hk]

/-- The entries are the keys with their values. -/
theorem lookup_of_mem {es : List (κ × β)} (hnodup : (es.map Prod.fst).Nodup) {e : κ × β} (he : e ∈ es) :
    es.lookup e.1 = some e.2 :=
  (lookup_eq_some_iff (List.nodup_iff_count.mp hnodup e.1)).mpr he

/-- Entries whose keys pass a test are looked up as if they were all. -/
theorem lookup_filter {p : κ → Bool} {key : κ} (h : p key = true) (es : List (κ × β)) :
    List.lookup key (es.filter fun e => p e.1) = es.lookup key := by
  induction es with
  | nil => rfl
  | cons e rest ih =>
    obtain ⟨k, v⟩ := e
    by_cases hk : key = k
    · subst hk
      simp [h]
    · by_cases hpass : p k = true
      · rw [List.filter_cons_of_pos (by exact hpass), List.lookup_cons, List.lookup_cons, ih]
      · rw [List.filter_cons_of_neg (by exact hpass), List.lookup_cons, beq_eq_false_iff_ne.mpr hk, ih]

/-- A key has no value exactly if it is none of the keys. -/
theorem get?_eq_none_iff (m : OrderedMap κ β) (key : κ) : m.get? key = none ↔ key ∉ m.keys :=
  lookup_eq_none_iff

/-- A key has a value exactly if it is one of the keys. -/
theorem contains_iff (m : OrderedMap κ β) (key : κ) : m.contains key ↔ key ∈ m.keys := by
  rw [contains, Option.isSome_iff_ne_none, ne_eq, get?_eq_none_iff, Decidable.not_not]

/-! ### Entries put in one after the other -/

/-- An entry under a new key is added at the end. -/
theorem setEntry_of_not_mem {key : κ} {es : List (κ × β)} (h : key ∉ es.map Prod.fst) (value : β) :
    setEntry key value es = es ++ [(key, value)] := by
  induction es with
  | nil => rfl
  | cons e r ih =>
    obtain ⟨k, v⟩ := e
    rw [List.map_cons, List.mem_cons, not_or] at h
    rw [setEntry, if_neg (Ne.symm h.1), ih h.2, List.cons_append]

/-- **Entries whose keys are all different stay as they are.** -/
theorem entries_ofList {es : List (κ × β)} (h : (es.map Prod.fst).Nodup) : (ofList es).entries = es := by
  have hfold : ∀ (es : List (κ × β)) (m : OrderedMap κ β), ((m.entries ++ es).map Prod.fst).Nodup →
      (es.foldl (fun m e => m.insert e.1 e.2) m).entries = m.entries ++ es := by
    intro es
    induction es with
    | nil => simp
    | cons e r ih =>
      intro m hnodup
      have hnew : e.1 ∉ m.entries.map Prod.fst := by
        rw [List.map_append, List.nodup_append] at hnodup
        intro hold
        exact hnodup.2.2 e.1 hold e.1 (by simp) rfl
      have hentries : (m.insert e.1 e.2).entries = m.entries ++ [e] := setEntry_of_not_mem hnew e.2
      rw [List.foldl_cons, ih, hentries, List.append_assoc, List.singleton_append]
      rwa [hentries, List.append_assoc, List.singleton_append]
  exact hfold es empty (by simpa [empty] using h)

/-- **Entries put in one after the other stand under their keys**, each at the place where its key stood first. -/
theorem keys_ofList (es : List (κ × β)) : (ofList es).keys = (es.map Prod.fst).eraseDups := by
  have hfold : ∀ (es : List (κ × β)) (m : OrderedMap κ β),
      (es.foldl (fun m e => m.insert e.1 e.2) m).keys = (m.keys ++ es.map Prod.fst).eraseDups := by
    intro es
    induction es with
    | nil =>
      intro m
      simp [eraseDups_of_nodup m.nodup]
    | cons e r ih =>
      intro m
      rw [List.foldl_cons, ih, keys_insert, List.map_cons]
      split
      · next hold =>
        rw [List.eraseDups_append, List.eraseDups_append, List.cons_removeAll, if_neg (by simpa using hold)]
      · rw [List.append_assoc, List.singleton_append]
  exact hfold es empty

/-- **The last entry under a key is the one that counts.** -/
theorem get?_ofList (es : List (κ × β)) (key : κ) : (ofList es).get? key = es.reverse.lookup key := by
  have hfold : ∀ (es : List (κ × β)) (m : OrderedMap κ β),
      (es.foldl (fun m e => m.insert e.1 e.2) m).get? key = (es.reverse.lookup key).or (m.get? key) := by
    intro es
    induction es with
    | nil => simp
    | cons e r ih =>
      intro m
      obtain ⟨k, v⟩ := e
      rw [List.foldl_cons, ih, get?_insert, List.reverse_cons, List.lookup_append, Option.or_assoc]
      by_cases hkey : key = k
      · simp [hkey]
      · simp [List.lookup_cons, hkey, beq_eq_false_iff_ne.2 hkey]
  unfold ofList
  rw [hfold, get?_empty, Option.or_none]

/-! ### Equality -/

/-- **Two dictionaries with the same keys in the same order and the same values under them are the same.** -/
theorem ext_get? {m n : OrderedMap κ β} (hkeys : m.keys = n.keys) (hget : ∀ key ∈ m.keys, m.get? key = n.get? key) :
    m = n := by
  have hlen : m.entries.length = n.entries.length := by
    simpa [keys] using congrArg List.length hkeys
  refine OrderedMap.ext (List.ext_getElem hlen fun i hm hn => ?_)
  have hkey : m.entries[i].1 = n.entries[i].1 := by
    have h := List.getElem_of_eq hkeys (i := i) (by simpa [keys] using hm)
    simpa [keys] using h
  have hvalue : some m.entries[i].2 = some n.entries[i].2 := by
    rw [← lookup_of_mem m.nodup_keys (List.getElem_mem hm), ← lookup_of_mem n.nodup_keys (List.getElem_mem hn), ← hkey]
    exact hget _ (List.mem_map_of_mem (List.getElem_mem hm))
  exact Prod.ext hkey (Option.some.inj hvalue)

end OrderedMap

end HypermediaApi
