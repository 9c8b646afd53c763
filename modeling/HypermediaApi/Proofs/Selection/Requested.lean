import HypermediaApi.Proofs.Schema.Canonical
import HypermediaApi.Proofs.Selection.Agreement
import HypermediaApi.Sample.Positional

/-!
# HypermediaApi.Proofs.Selection.Requested — what a record cut to a field list holds

Cutting goes through the entries and looks at the keys that are there already. What the record holds after some of
them is an invariant of that loop, `Schema.Holds`: its keys are those of the entries so far, each at its first place,
and under the key of an entry is the value at the end of its canonical path. One more entry keeps it
(`Holds.selectField`), so that it holds after all of them (`holds_of_select`).

The loop compares keys and not paths. That this makes no difference is where `Schema.Canonical` comes in: paths with
one dotted form are one path (`keyOf_eq_iff`). It also makes the value under a key a matter of the key alone
(`Holds.get?_of_mem`), whence neither the order nor the repetition of entries changes a value, and cutting to the keys
of a record gives the record again (`Holds.eq_of_keys`).
-/

namespace HypermediaApi

open Sample

variable {α : Type}

/-! ### Lists without repetition -/

theorem eraseDups_map_some {β : Type} [BEq β] [LawfulBEq β] {l : List β} (h : l.Nodup) :
    (l.map some).eraseDups = l.map some :=
  eraseDups_of_nodup (List.Pairwise.map some (fun _ _ hne hsame => hne (Option.some.inj hsame)) h)

namespace Schema

/-! ### Keys -/

/-- The key under which an entry is held: the dotted form of its canonical path. -/
def keyOf (s : Schema α) (entry : String) : Option String := (s.canonicalPath entry).map (".".intercalate ·)

theorem keyOf_of_canonicalPath {s : Schema α} {entry : String} {path : List String}
    (h : s.canonicalPath entry = some path) : s.keyOf entry = some (".".intercalate path) := by
  unfold keyOf
  rw [h, Option.map_some]

/-- **Entries share a key exactly if they have the same canonical path**: no two paths are merged by joining. -/
theorem keyOf_eq_iff {s : Schema α} {a b : String} :
    s.keyOf a = s.keyOf b ↔ s.canonicalPath a = s.canonicalPath b := by
  unfold keyOf
  cases ha : s.canonicalPath a with
  | none => cases s.canonicalPath b <;> simp
  | some path =>
    cases hb : s.canonicalPath b with
    | none => simp
    | some path' => simpa using dotted_inj ha hb

/-! ### What is held -/

/-- The record holds what `entries` ask for off `x`, each key at the place of the first entry with that key. -/
structure Holds (s : Schema α) (x : α) (entries : List String) (r : Record) : Prop where
  keys : r.keys.map some = (entries.map s.keyOf).eraseDups
  value : ∀ entry ∈ entries, ∀ path, s.canonicalPath entry = some path →
    r.get? (".".intercalate path) = s.readPath x path

variable {s : Schema α} {x : α} {entries : List String} {r : Record}

theorem holds_empty (s : Schema α) (x : α) : s.Holds x [] .empty where
  keys := rfl
  value := by simp

/-- A key is held exactly if an entry asks for it. -/
theorem Holds.mem_keys_iff (h : s.Holds x entries r) {key : String} :
    key ∈ r.keys ↔ ∃ entry ∈ entries, s.keyOf entry = some key := by
  have hmem : key ∈ r.keys ↔ some key ∈ r.keys.map some := by simp
  rw [hmem, h.keys, List.mem_eraseDups, List.mem_map]

/-- **One more entry**: it is there already, or is added at the end with what its path leads to. -/
theorem Holds.selectField (h : s.Holds x entries r) {entry : String} {path : List String}
    (hpath : s.canonicalPath entry = some path) :
    ∃ r', s.selectField x r entry = .ok r' ∧ s.Holds x (entries ++ [entry]) r' := by
  have hkey : s.keyOf entry = some (".".intercalate path) := keyOf_of_canonicalPath hpath
  obtain ⟨v, hv⟩ := exists_readPath_of_canonicalPath hpath x
  have hmem : s.keyOf entry ∈ entries.map s.keyOf ↔ ".".intercalate path ∈ r.keys := by
    rw [h.mem_keys_iff, List.mem_map, hkey]
  unfold Schema.selectField
  rw [hpath]
  by_cases hheld : ".".intercalate path ∈ r.keys
  · refine ⟨r, by simp [OrderedMap.contains_iff, hheld], ?_, ?_⟩
    · rw [h.keys, List.map_append, List.map_singleton, eraseDups_concat, if_pos (hmem.mpr hheld)]
    · -- The entry that the key is held for has the same path.
      obtain ⟨first, hfirst, hfirstKey⟩ := h.mem_keys_iff.mp hheld
      have hsame : s.canonicalPath first = some path := by
        rw [← hpath, ← keyOf_eq_iff, hfirstKey, hkey]
      refine List.forall_mem_append.mpr ⟨h.value, List.forall_mem_singleton.mpr fun path' hpath' => ?_⟩
      obtain rfl : path = path' := Option.some.inj (hpath.symm.trans hpath')
      exact h.value first hfirst path hsame
  · refine ⟨r.insert (".".intercalate path) v, by simp [OrderedMap.contains_iff, hheld, hv], ?_, ?_⟩
    · have hnot : s.keyOf entry ∉ entries.map s.keyOf := fun hin => hheld (hmem.mp hin)
      rw [OrderedMap.keys_insert, if_neg hheld, List.map_append, h.keys, List.map_append, List.map_singleton,
        List.map_singleton, eraseDups_concat, if_neg hnot, hkey]
    · refine List.forall_mem_append.mpr
        ⟨fun e he path' hpath' => ?_, List.forall_mem_singleton.mpr fun path' hpath' => ?_⟩
      · have hother : ".".intercalate path' ≠ ".".intercalate path := by
          intro hsame
          exact hheld (h.mem_keys_iff.mpr ⟨e, he, by rw [keyOf_of_canonicalPath hpath', hsame]⟩)
        rw [OrderedMap.get?_insert, if_neg hother]
        exact h.value e he path' hpath'
      · obtain rfl : path = path' := Option.some.inj (hpath.symm.trans hpath')
        rw [OrderedMap.get?_insert, if_pos rfl, hv]

/-- All entries, one after the other. -/
theorem Holds.foldlM (h : s.Holds x entries r) {more : List String} (hmore : ∀ entry ∈ more, s.hasPath entry) :
    ∃ r', more.foldlM (s.selectField x) r = .ok r' ∧ s.Holds x (entries ++ more) r' := by
  induction more generalizing entries r with
  | nil => exact ⟨r, rfl, by simpa using h⟩
  | cons entry rest ih =>
    obtain ⟨hentry, hrest⟩ := List.forall_mem_cons.mp hmore
    obtain ⟨path, hpath⟩ := hasPath_iff.mp hentry
    obtain ⟨next, hnext, hholds⟩ := h.selectField hpath
    obtain ⟨r', hr', hholds'⟩ := ih hholds hrest
    refine ⟨r', ?_, by simpa using hholds'⟩
    rw [List.foldlM_cons, hnext]
    exact hr'

/-! ### Cutting -/

variable {fields : Option String}

/-- Where every entry has a path, cutting gives a record that holds what the entries ask for. -/
theorem exists_select_holds (hsome : requestedFields fields ≠ [])
    (hpaths : ∀ entry ∈ requestedFields fields, s.hasPath entry) (x : α) :
    ∃ r, s.select x fields = .ok r ∧ s.Holds x (requestedFields fields) r := by
  have hfold := (s.holds_empty x).foldlM hpaths
  unfold select
  cases hentries : requestedFields fields with
  | nil => exact absurd hentries hsome
  | cons entry rest =>
    rw [hentries] at hfold
    exact hfold

/-- Where cutting succeeds, every entry has a path. -/
theorem hasPath_of_select (h : s.select x fields = .ok r) : ∀ entry ∈ requestedFields fields, s.hasPath entry := by
  have hselect := s.select_of_find? x fields
  cases hfirst : s.firstUnknown? fields with
  | none => simpa [firstUnknown?] using hfirst
  | some entry =>
    rw [hfirst, h] at hselect
    cases hselect

/-- **Cutting gives a record that holds what the entries ask for.** -/
theorem holds_of_select (hsome : requestedFields fields ≠ []) (h : s.select x fields = .ok r) :
    s.Holds x (requestedFields fields) r := by
  obtain ⟨r', hr', hholds⟩ := exists_select_holds hsome (hasPath_of_select h) x
  obtain rfl : r = r' := Except.ok.inj (h.symm.trans hr')
  exact hholds

/-! ### Values -/

/-- A key is its own canonical path, and the value under it is the one at the end of that path: nothing else of the
list plays a part. -/
theorem Holds.get?_of_mem (h : s.Holds x entries r) {key : String} (hkey : key ∈ r.keys) :
    ∃ path, s.canonicalPath key = some path ∧ key = ".".intercalate path ∧ r.get? key = s.readPath x path := by
  obtain ⟨entry, hentry, hkeyOf⟩ := h.mem_keys_iff.mp hkey
  obtain ⟨path, hpath, rfl⟩ := Option.map_eq_some_iff.mp hkeyOf
  exact ⟨path, canonicalPath_dotted hpath, rfl, h.value entry hentry path hpath⟩

/-- Two records cut off the same resource have the same value under a key that both or neither of them have. -/
theorem Holds.get?_congr {entries' : List String} {r' : Record} (h : s.Holds x entries r) (h' : s.Holds x entries' r')
    {key : String} (hmem : key ∈ r.keys ↔ key ∈ r'.keys) : r.get? key = r'.get? key := by
  by_cases hkey : key ∈ r.keys
  · obtain ⟨path, hpath, -, hvalue⟩ := h.get?_of_mem hkey
    obtain ⟨path', hpath', -, hvalue'⟩ := h'.get?_of_mem (hmem.mp hkey)
    obtain rfl : path = path' := Option.some.inj (hpath.symm.trans hpath')
    rw [hvalue, hvalue']
  · rw [(OrderedMap.get?_eq_none_iff r key).mpr hkey,
      (OrderedMap.get?_eq_none_iff r' key).mpr fun hkey' => hkey (hmem.mpr hkey')]

/-- **A record cut to a field list holds what the list asks for and nothing else.** Its keys are the canonical dotted
paths of the entries, in the order of the first entry for each and each once. Entries share a key exactly if they have
the same canonical path, as spellings of one path do. Under the key of an entry is the value of the field that its
segments lead to, at every level through the first field of that name. So the order in which entries stand and how
often they are repeated decides on the order of the keys only. -/
theorem select_holds_requested (s : Schema α) (x : α) {fields : Option String} {r : Record}
    (hsome : requestedFields fields ≠ []) (h : s.select x fields = .ok r) :
    r.keys.map some = ((requestedFields fields).map s.keyOf).eraseDups ∧ r.keys.Nodup ∧
    (∀ a b, s.keyOf a = s.keyOf b ↔ s.canonicalPath a = s.canonicalPath b) ∧
    (∀ a b, SameNames (pathSegments a) (pathSegments b) → s.keyOf a = s.keyOf b) ∧
    (∀ entry ∈ requestedFields fields, ∃ path f, s.canonicalPath entry = some path ∧
      Field.Reaches s.fields (pathSegments entry) path f ∧ Field.Reaches s.fields path path f ∧
      s.readPath x path = some (f.read x) ∧ r.get? (".".intercalate path) = some (f.read x)) ∧
    ∀ fields', (∀ entry, entry ∈ requestedFields fields' ↔ entry ∈ requestedFields fields) →
      ∃ r', s.select x fields' = .ok r' ∧ r'.keys.Perm r.keys ∧ ∀ key, r'.get? key = r.get? key := by
  have hholds : s.Holds x (requestedFields fields) r := holds_of_select hsome h
  refine ⟨hholds.keys, r.nodup, fun a b => keyOf_eq_iff, ?_, ?_, ?_⟩
  · intro a b hsame
    exact keyOf_eq_iff.mpr (canonicalPath_congr hsame)
  · intro entry hentry
    obtain ⟨path, hpath⟩ := hasPath_iff.mp (hasPath_of_select h entry hentry)
    obtain ⟨f, hf⟩ := canonicalPath_eq_some_iff.mp hpath
    have hread : s.readPath x path = some (f.read x) := hf.canonical.readPath x
    exact ⟨path, f, hpath, hf, hf.canonical, hread, (hholds.value entry hentry path hpath).trans hread⟩
  · intro fields' hsame
    have hsome' : requestedFields fields' ≠ [] := by
      intro hnil
      refine hsome (List.eq_nil_iff_forall_not_mem.mpr fun entry hentry => ?_)
      rw [← hsame, hnil] at hentry
      cases hentry
    obtain ⟨r', hr', hholds'⟩ := exists_select_holds hsome'
      (fun entry hentry => hasPath_of_select h entry ((hsame entry).mp hentry)) x
    have hmem : ∀ key, key ∈ r'.keys ↔ key ∈ r.keys := by
      intro key
      simp only [hholds.mem_keys_iff, hholds'.mem_keys_iff, hsame]
    exact ⟨r', hr', (List.perm_ext_iff_of_nodup r'.nodup r.nodup).mpr hmem,
      fun key => hholds'.get?_congr hholds (hmem key)⟩

/-- Spellings of two paths, where a name is declared in two cases at the top and in the nested schema; and the same
entries in another order, one of them twice. -/
theorem select_holds_requested_spellings :
    let s := positionalSchema "Row"
      [.scalar "id", .nested "author" "Author" [.scalar "Name", .scalar "name"], .scalar "ID"]
    let x := Json.array [.int 7, .array [.string "Ada", .string "Bob"], .int 9]
    let fields := some " author . NAME ,ID,Author.name,"
    let r := OrderedMap.ofList [("author.Name", .string "Ada"), ("id", .int 7)]
    requestedFields fields ≠ [] ∧ s.select x fields = .ok r ∧
    r.keys.map some = ((requestedFields fields).map s.keyOf).eraseDups ∧
    ∃ r', s.select x (some "ID,Author.name,author . NAME,ID") = .ok r' ∧ r'.keys.Perm r.keys ∧
      ∀ key, r'.get? key = r.get? key := by
  intro s x fields r
  have hsome : requestedFields fields ≠ [] := by decide +kernel
  have hselect : s.select x fields = .ok r := rfl
  obtain ⟨hkeys, -, -, -, -, horder⟩ := select_holds_requested s x hsome hselect
  have hentries : requestedFields fields = ["author . NAME", "ID", "Author.name"] := by decide +kernel
  have hothers : requestedFields (some "ID,Author.name,author . NAME,ID") =
      ["ID", "Author.name", "author . NAME", "ID"] := by decide +kernel
  refine ⟨hsome, hselect, hkeys, horder _ fun entry => ?_⟩
  rw [hentries, hothers]
  simp only [List.mem_cons, List.not_mem_nil, or_false]
  constructor
  · rintro (rfl | rfl | rfl | rfl) <;> simp
  · rintro (rfl | rfl | rfl) <;> simp

/-! ### Cutting to the keys -/

/-- The keys, joined by commas, are a field list of the keys. -/
theorem requestedFields_keys (h : s.Holds x (requestedFields fields) r) :
    requestedFields (some (",".intercalate r.keys)) = r.keys := by
  refine Text.entries_intercalate fun key hkey => ?_
  obtain ⟨entry, hentry, hkeyOf⟩ := h.mem_keys_iff.mp hkey
  obtain ⟨path, hpath, rfl⟩ := Option.map_eq_some_iff.mp hkeyOf
  rw [requestedFields_eq] at hentry
  exact isEntry_dotted hentry hpath

/-- An entry asks for a key, so there is one. -/
theorem Holds.keys_ne_nil (h : s.Holds x entries r) (hne : entries ≠ [])
    (hpaths : ∀ entry ∈ entries, s.hasPath entry) : r.keys ≠ [] := by
  obtain ⟨entry, hentry⟩ := List.exists_mem_of_ne_nil entries hne
  obtain ⟨path, hpath⟩ := hasPath_iff.mp (hpaths entry hentry)
  exact List.ne_nil_of_mem (h.mem_keys_iff.mpr ⟨entry, hentry, keyOf_of_canonicalPath hpath⟩)

/-- A key asks for itself. -/
theorem Holds.keyOf_of_mem (h : s.Holds x entries r) {key : String} (hkey : key ∈ r.keys) :
    s.keyOf key = some key := by
  obtain ⟨path, hpath, rfl, -⟩ := h.get?_of_mem hkey
  exact keyOf_of_canonicalPath hpath

/-- **What holds the keys of a record as entries is that record.** -/
theorem Holds.eq_of_keys {r' : Record} (h : s.Holds x entries r) (h' : s.Holds x r.keys r') : r' = r := by
  have hkeyOf : r.keys.map s.keyOf = r.keys.map some := List.map_congr_left fun key hkey => h.keyOf_of_mem hkey
  have hkeys : r'.keys = r.keys := by
    have hmap : r'.keys.map some = r.keys.map some := by
      rw [h'.keys, hkeyOf, eraseDups_map_some r.nodup]
    exact (List.map_inj_right fun _ _ => Option.some.inj).mp hmap
  refine OrderedMap.ext_get? hkeys fun key _ => h'.get?_congr h ?_
  rw [hkeys]

/-- **Cutting to the keys of a record cut to a field list gives the record again**, and the dotted form of a canonical
path is a path with that very canonical path. -/
theorem select_keys (s : Schema α) (x : α) {fields : Option String} {r : Record}
    (hsome : requestedFields fields ≠ []) (h : s.select x fields = .ok r) :
    s.select x (some (",".intercalate r.keys)) = .ok r ∧
    ∀ entry path, s.canonicalPath entry = some path → s.canonicalPath (".".intercalate path) = some path := by
  refine ⟨?_, fun entry path => canonicalPath_dotted⟩
  have hholds : s.Holds x (requestedFields fields) r := holds_of_select hsome h
  have hentries : requestedFields (some (",".intercalate r.keys)) = r.keys := requestedFields_keys hholds
  have hsome' : requestedFields (some (",".intercalate r.keys)) ≠ [] := by
    rw [hentries]
    exact hholds.keys_ne_nil hsome (hasPath_of_select h)
  have hpaths : ∀ key ∈ requestedFields (some (",".intercalate r.keys)), s.hasPath key := by
    rw [hentries]
    intro key hkey
    obtain ⟨path, hpath, -⟩ := hholds.get?_of_mem hkey
    exact hasPath_iff.mpr ⟨path, hpath⟩
  obtain ⟨r', hr', hholds'⟩ := exists_select_holds hsome' hpaths x
  rw [hentries] at hholds'
  rw [hr', hholds.eq_of_keys hholds']

/-- The keys `author.Name` and `id` of a nested and a repeated name. -/
theorem select_keys_nested :
    let s := positionalSchema "Row"
      [.scalar "id", .nested "author" "Author" [.scalar "Name", .scalar "name"], .scalar "ID"]
    let x := Json.array [.int 7, .array [.string "Ada", .string "Bob"], .int 9]
    let r := OrderedMap.ofList [("author.Name", .string "Ada"), ("id", .int 7)]
    requestedFields (some "author . NAME,ID") ≠ [] ∧ s.select x (some "author . NAME,ID") = .ok r ∧
    s.select x (some (",".intercalate r.keys)) = .ok r := by
  intro s x r
  have hsome : requestedFields (some "author . NAME,ID") ≠ [] := by decide +kernel
  have hselect : s.select x (some "author . NAME,ID") = .ok r := rfl
  exact ⟨hsome, hselect, (select_keys s x hsome hselect).1⟩

end Schema

end HypermediaApi
