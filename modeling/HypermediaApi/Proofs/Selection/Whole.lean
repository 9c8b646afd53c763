import HypermediaApi.Proofs.Schema.WellNamed
import HypermediaApi.Proofs.Selection.Requested

/-!
# HypermediaApi.Proofs.Selection.Whole — whole reads and dotted reads agree

A value comes into a record in three ways: with all fields of the schema, as a member of the object of a nested field,
or from the end of a path. Each of them reads the fields by a recursion of its own. In a well-named schema they give
the same values.

The record of all fields holds what the names of the fields ask for (`Schema.holds_selectAll`), so it is what cutting
to these names gives, and whatever is known of records cut to a field list is known of it too. A field that a path
leads to has therefore one value in all records (`Schema.projects_of_reaches`). For a nested field that value is the
object of its fields, sorted by their names, and each member of it is the value at the end of the path that is
continued by its name.
-/

namespace HypermediaApi

variable {α : Type}

namespace Field

theorem map_fst_readAll (x : α) (fields : List (Field α)) :
    (readAll x fields).map Prod.fst = fields.map Field.name := by
  induction fields with
  | nil => rfl
  | cons f rest ih => rw [readAll, List.map_cons, ih, List.map_cons]

theorem mem_readAll (x : α) {fields : List (Field α)} {f : Field α} (hf : f ∈ fields) :
    (f.name, f.read x) ∈ readAll x fields := by
  induction fields with
  | nil => cases hf
  | cons g rest ih =>
    rw [readAll]
    rcases List.mem_cons.mp hf with rfl | hrest
    · exact List.mem_cons_self ..
    · exact List.mem_cons_of_mem _ (ih hrest)

section WellNamed

variable {fields : List (Field α)} (hw : WellNamed fields) (x : α)

include hw

theorem nodup_readAll : ((readAll x fields).map Prod.fst).Nodup := by
  rw [map_fst_readAll]
  exact hw.nodup_names

/-- Reading all fields gives each one its own value. -/
theorem lookup_readAll {f : Field α} (hf : f ∈ fields) : (readAll x fields).lookup f.name = some (f.read x) :=
  OrderedMap.lookup_of_mem (nodup_readAll hw x) (mem_readAll x hf)

/-- The object of all fields has their names for keys. -/
theorem keys_sortEntries_readAll : ((sortEntries (readAll x fields)).map Prod.fst).Perm (fields.map Field.name) := by
  refine (List.perm_ext_iff_of_nodup (nodup_sortEntries _) hw.nodup_names).mpr fun name => ?_
  rw [mem_keys_sortEntries, map_fst_readAll]

theorem lookup_sortEntries_readAll {f : Field α} (hf : f ∈ fields) :
    (sortEntries (readAll x fields)).lookup f.name = some (f.read x) := by
  rw [lookup_sortEntries f.name (nodup_readAll hw x)]
  exact lookup_readAll hw x hf

end WellNamed

end Field

namespace Schema

/-- Whatever record holds the key holds this value under it, and it can be cut to alone. -/
structure Projects (s : Schema α) (x : α) (key : String) (v : Json) : Prop where
  alone : s.select x (some key) = .ok (.ofList [(key, v)])
  value : ∀ fields r, s.select x fields = .ok r → key ∈ r.keys → r.get? key = some v

/-! ### The record of all fields -/

/-- A list of blank parts asks for nothing, and gives the record of all fields. -/
theorem select_of_blank_parts (s : Schema α) (x : α) {text : String}
    (h : ∀ part ∈ Text.split ',' text, Text.isBlankText part) :
    s.select x (some text) = .ok (s.selectAll x) := by
  have hnone : requestedFields (some text) = [] := by
    refine List.eq_nil_iff_forall_not_mem.mpr fun entry hentry => ?_
    obtain ⟨hmap, hne⟩ := List.mem_filter.mp hentry
    obtain ⟨part, hpart, rfl⟩ := List.mem_map.mp hmap
    rw [Text.trim_eq_empty_iff.mpr (h part hpart)] at hne
    cases hne
  unfold select
  rw [hnone]

section WellNamed

variable {s : Schema α} (hw : Field.WellNamed s.fields) (x : α)

include hw

theorem entries_selectAll : (s.selectAll x).entries = Field.readAll x s.fields :=
  OrderedMap.entries_ofList (Field.nodup_readAll hw x)

/-- The fields stand in declaration order. -/
theorem keys_selectAll : (s.selectAll x).keys = s.names := by
  unfold OrderedMap.keys
  rw [entries_selectAll hw x, Field.map_fst_readAll]
  rfl

theorem canonicalPath_name {f : Field α} (hf : f ∈ s.fields) : s.canonicalPath f.name = some [f.name] := by
  have hpath := canonicalPath_of_reaches hw (.here (hw.firstNamed hf))
  rwa [String.intercalate_singleton] at hpath

/-- **The record of all fields holds what their names ask for.** -/
theorem holds_selectAll : s.Holds x s.names (s.selectAll x) where
  keys := by
    have hkeyOf : s.names.map s.keyOf = s.names.map some := by
      refine List.map_congr_left fun name hname => ?_
      obtain ⟨f, hf, rfl⟩ := List.mem_map.mp hname
      rw [keyOf_of_canonicalPath (canonicalPath_name hw hf), String.intercalate_singleton]
    rw [keys_selectAll hw x, hkeyOf]
    exact (eraseDups_map_some hw.nodup_names).symm
  value := by
    intro name hname path hpath
    obtain ⟨f, hf, rfl⟩ := List.mem_map.mp hname
    obtain rfl : [f.name] = path := Option.some.inj ((canonicalPath_name hw hf).symm.trans hpath)
    have hreaches := Field.Reaches.here (hw.firstNamed hf)
    unfold OrderedMap.get? readPath
    rw [String.intercalate_singleton, entries_selectAll hw x, Field.lookup_readAll hw x hf, hreaches.readPath x]

/-- **Cutting to the names of all fields gives the record of all fields.** -/
theorem select_names : s.select x (some (",".intercalate s.names)) = .ok (s.selectAll x) := by
  have hentries : requestedFields (some (",".intercalate s.names)) = s.names := by
    refine Text.entries_intercalate fun name hname => ?_
    obtain ⟨f, hf, rfl⟩ := List.mem_map.mp hname
    have hplain := hw.isPathName hf
    exact ⟨hplain.not_mem_comma, hplain.trim_eq, hplain.ne_empty⟩
  by_cases hnone : s.names = []
  · -- Without fields there is nothing to ask for.
    unfold select
    rw [hentries, hnone]
  · have hpaths : ∀ name ∈ s.names, s.hasPath name := by
      intro name hname
      obtain ⟨f, hf, rfl⟩ := List.mem_map.mp hname
      exact hasPath_iff.mpr ⟨_, canonicalPath_name hw hf⟩
    rw [← hentries] at hnone hpaths
    obtain ⟨r, hr, hholds⟩ := exists_select_holds hnone hpaths x
    rw [hentries, ← keys_selectAll hw x] at hholds
    rw [hr, (holds_selectAll hw x).eq_of_keys hholds]

/-! ### The value of a field -/

/-- Every record, cut to a list or not, has under a key what the path of that key leads to. -/
theorem get?_of_select {fields : Option String} {r : Record} (h : s.select x fields = .ok r) {key : String}
    (hkey : key ∈ r.keys) :
    ∃ path, s.canonicalPath key = some path ∧ key = ".".intercalate path ∧ r.get? key = s.readPath x path := by
  by_cases hsome : requestedFields fields = []
  · unfold select at h
    rw [hsome] at h
    obtain rfl := Except.ok.inj h
    exact (holds_selectAll hw x).get?_of_mem hkey
  · exact (holds_of_select hsome h).get?_of_mem hkey

/-- **A field that a path leads to has one value in all records**, its own. -/
theorem projects_of_reaches {segments path : List String} {f : Field α} (h : Field.Reaches s.fields segments path f) :
    s.Projects x (".".intercalate path) (f.read x) where
  alone := by
    have hpath := canonicalPath_of_reaches hw h
    have hentries : requestedFields (some (".".intercalate path)) = [".".intercalate path] := by
      have hsingle := Text.entries_intercalate (List.forall_mem_singleton.mpr (isEntry_of_reaches hw h))
      rwa [String.intercalate_singleton] at hsingle
    have hread : s.readPath x path = some (f.read x) := h.canonical.readPath x
    have hfield : s.selectField x .empty (".".intercalate path) =
        .ok (.ofList [(".".intercalate path, f.read x)]) := by
      unfold selectField
      rw [hpath]
      simp only [hread]
      rfl
    unfold select
    rw [hentries]
    show [".".intercalate path].foldlM (s.selectField x) .empty = _
    rw [List.foldlM_cons, hfield]
    rfl
  value := by
    intro fields r hr hkey
    obtain ⟨path', hpath', -, hvalue⟩ := get?_of_select hw x hr hkey
    obtain rfl : path = path' := Option.some.inj ((canonicalPath_of_reaches hw h).symm.trans hpath')
    exact hvalue.trans (h.canonical.readPath x)

end WellNamed

/-- **Whole reads and dotted reads agree.** In a well-named schema the record of all fields, in declaration order, is
what cutting gives without a field list, with a list of blank parts, and with the list of all names. The value under a
path to a nested schema, in whatever record it stands, is an object whose keys are the names of the nested fields, in
some order. Its member of each name is the value under the path continued by that name, in whatever record that
stands, and so on to any depth. -/
theorem whole_agrees_with_dotted {s : Schema α} (hw : Field.WellNamed s.fields) (x : α) :
    (∃ whole : Record, whole.keys = s.names ∧ s.select x none = .ok whole ∧
      (∀ text, (∀ part ∈ Text.split ',' text, Text.isBlankText part) → s.select x (some text) = .ok whole) ∧
      s.select x (some (",".intercalate s.names)) = .ok whole) ∧
    ∀ segments path name shape sub, Field.Reaches s.fields segments path (.nested name shape sub) →
      ∃ members : List (String × Json), (members.map Prod.fst).Perm (sub.map Field.name) ∧
        s.Projects x (".".intercalate path) (.object members) ∧
        ∀ n ∈ sub.map Field.name, ∃ v, members.lookup n = some v ∧
          s.Projects x (".".intercalate path ++ "." ++ n) v := by
  refine ⟨⟨s.selectAll x, keys_selectAll hw x, rfl, fun text => s.select_of_blank_parts x, select_names hw x⟩, ?_⟩
  intro segments path name shape sub h
  have hsub : Field.WellNamed sub := h.wellNamed hw
  refine ⟨sortEntries (Field.readAll x sub), Field.keys_sortEntries_readAll hsub x, projects_of_reaches hw x h, ?_⟩
  intro n hn
  obtain ⟨f, hf, rfl⟩ := List.mem_map.mp hn
  refine ⟨f.read x, Field.lookup_sortEntries_readAll hsub x hf, ?_⟩
  have hdotted : ".".intercalate path ++ "." ++ f.name = ".".intercalate (path ++ [f.name]) := by
    rw [String.intercalate_append_of_ne_nil h.canonical.ne_nil (List.cons_ne_nil _ _), String.intercalate_singleton]
  rw [hdotted]
  exact projects_of_reaches hw x (h.snoc hw hf)

/-- A nested schema inside a nested schema: the town in the object under `author.home` is the value under
`author.home.town`. -/
theorem whole_agrees_with_dotted_two_levels :
    let place : Schema Json := ⟨"Place", [.scalar "town" fun v => v.nth 0, .scalar "Land" fun v => v.nth 1]⟩
    let author : Schema Json := ⟨"Author", [.scalar "name" fun v => v.nth 0, place.asField "home" fun v => v.nth 1]⟩
    let s : Schema Json := ⟨"Row", [.scalar "id" fun v => v.nth 0, author.asField "author" fun v => v.nth 1]⟩
    let x := Json.array [.int 7, .array [.string "Ada", .array [.string "Ulm", .string "D"]]]
    Field.WellNamed s.fields ∧ s.select x (some "id,author") = s.select x (some " ,, ") ∧
      ∃ members v, s.Projects x "author.home" (.object members) ∧ members.lookup "town" = some v ∧
        s.Projects x "author.home.town" v := by
  intro place author s x
  have hplace : Field.WellNamed place.fields :=
    .intro (by decide +kernel) (by decide +kernel) (by simp [place])
  have hauthor : Field.WellNamed author.fields := by
    refine .intro (by decide +kernel) (by decide +kernel) fun name shape sub hsub => ?_
    obtain ⟨-, -, rfl⟩ : "home" = name ∧ "Place" = shape ∧ _ = sub := by
      simpa [author, place, Schema.asField, eq_comm] using hsub
    exact hplace.comapAll _
  have hw : Field.WellNamed s.fields := by
    refine .intro (by decide +kernel) (by decide +kernel) fun name shape sub hsub => ?_
    obtain ⟨-, -, rfl⟩ : "author" = name ∧ "Author" = shape ∧ _ = sub := by
      simpa [s, author, Schema.asField, eq_comm] using hsub
    exact hauthor.comapAll _
  obtain ⟨⟨whole, -, -, hblank, hnames⟩, hnested⟩ := whole_agrees_with_dotted hw x
  -- The way leads through fields of well-named levels, each the first one of its name.
  have hauthorField := hw.firstNamed (List.mem_cons_of_mem _ (List.mem_singleton_self _))
  have hreaches := (Field.Reaches.here hauthorField).snoc hw (List.mem_cons_of_mem _ (List.mem_singleton_self _))
  obtain ⟨members, -, hmembers, hmember⟩ := hnested _ _ _ _ _ hreaches
  obtain ⟨v, hlookup, hv⟩ := hmember "town" (List.mem_cons_self ..)
  exact ⟨hw, hnames.trans (hblank " ,, " (by decide +kernel)).symm, members, v, hmembers, hlookup, hv⟩

end Schema

end HypermediaApi
