import HypermediaApi.Proofs.Schema.Canonical

/-!
# HypermediaApi.Proofs.Schema.WellNamed — schemas all of whose fields are within reach

A field can be out of reach: its name may hold a full stop or a blank at an end, or an earlier field may have the same
name up to case. In a *well-named* schema none of that happens at any level (`Field.WellNamed`). There every field is
the first one of its own name (`WellNamed.firstNamed`), so that a path that leads to a nested schema can be continued
by the name of any field of it (`Reaches.snoc`); and every path is read off its dotted form again, which stands in a
field list as it is (`canonicalPath_of_reaches`, `isEntry_of_reaches`).
-/

namespace HypermediaApi

variable {α : Type}

/-- A name that stands in paths and field lists as it is. -/
structure IsPathName (name : String) : Prop where
  ne_empty : name ≠ ""
  not_mem_comma : ',' ∉ name.toList
  not_mem_dot : '.' ∉ name.toList
  trim_eq : Text.trim name = name

instance (name : String) : Decidable (IsPathName name) :=
  decidable_of_iff (name ≠ "" ∧ ',' ∉ name.toList ∧ '.' ∉ name.toList ∧ Text.trim name = name)
    ⟨fun ⟨hne, hcomma, hdot, htrim⟩ => ⟨hne, hcomma, hdot, htrim⟩,
      fun ⟨hne, hcomma, hdot, htrim⟩ => ⟨hne, hcomma, hdot, htrim⟩⟩

namespace Field

/-- At every level the names can stand in paths, and no two of one level are the same up to case. -/
inductive WellNamed : List (Field α) → Prop
  | intro {fields : List (Field α)} (names : ∀ f ∈ fields, IsPathName f.name)
      (distinct : fields.Pairwise fun f g => ¬ Text.sameName f.name g.name)
      (nested : ∀ name shape sub, .nested name shape sub ∈ fields → WellNamed sub) : WellNamed fields

section WellNamed

variable {fields sub : List (Field α)} {name shape : String} {f : Field α}

theorem FirstNamed.mem (h : FirstNamed fields name f) : f ∈ fields := by
  obtain ⟨before, after, rfl, -, -⟩ := h
  simp

theorem WellNamed.isPathName (hw : WellNamed fields) (hf : f ∈ fields) : IsPathName f.name := by
  cases hw with
  | intro names distinct nested => exact names f hf

theorem WellNamed.of_nested (hw : WellNamed fields) (h : .nested name shape sub ∈ fields) : WellNamed sub := by
  cases hw with
  | intro names distinct nested => exact nested name shape sub h

/-- **Every field is the first one of its own name.** -/
theorem WellNamed.firstNamed (hw : WellNamed fields) (hf : f ∈ fields) : FirstNamed fields f.name f := by
  cases hw with
  | intro names distinct nested =>
    obtain ⟨before, after, rfl⟩ := List.append_of_mem hf
    refine ⟨before, after, rfl, Text.sameName_refl f.name, fun g hg => ?_⟩
    exact (List.pairwise_append.mp distinct).2.2 g hg f (by simp)

theorem WellNamed.nodup_names (hw : WellNamed fields) : (fields.map Field.name).Nodup := by
  cases hw with
  | intro names distinct nested =>
    refine List.pairwise_map.mpr (distinct.imp fun {f g} hne hsame => hne ?_)
    rw [hsame]
    exact Text.sameName_refl g.name

/-! ### Fields of a part of a resource -/

theorem comapAll_eq_map {β : Type} (get : β → α) (fields : List (Field α)) :
    comapAll get fields = fields.map (comap get) := by
  induction fields with
  | nil => rfl
  | cons f rest ih => rw [comapAll, ih, List.map_cons]

theorem name_comap {β : Type} (get : β → α) (f : Field α) : (f.comap get).name = f.name := by
  cases f <;> rfl

/-- **The fields of a part are well-named in the whole resource** if they are in the part. -/
theorem WellNamed.comapAll {β : Type} (hw : WellNamed fields) (get : β → α) : WellNamed (comapAll get fields) := by
  induction hw with
  | intro names distinct nested ih =>
    rw [comapAll_eq_map]
    refine .intro ?_ ?_ ?_
    · intro f hf
      obtain ⟨g, hg, rfl⟩ := List.mem_map.mp hf
      rw [name_comap]
      exact names g hg
    · rw [List.pairwise_map]
      simpa only [name_comap] using distinct
    · intro name shape sub hsub
      obtain ⟨g, hg, hcomap⟩ := List.mem_map.mp hsub
      cases g with
      | scalar => cases hcomap
      | nested =>
        obtain ⟨rfl, rfl, rfl⟩ := Field.nested.inj hcomap
        exact ih _ _ _ hg

/-! ### Paths in well-named schemas -/

variable {segments path : List String}

/-- A path is continued below the nested field it leads to. -/
theorem Reaches.append {rest below : List String} (h : Reaches fields segments path (.nested name shape sub))
    (hsub : Reaches sub rest below f) : Reaches fields (segments ++ rest) (path ++ below) f := by
  generalize hend : Field.nested name shape sub = e at h
  induction h with
  | here hfirst =>
    subst hend
    exact .inside hfirst hsub
  | inside hfirst hbelow ih => exact .inside hfirst (ih hend)

/-- What a path leads to is well-named if the fields that it starts from are. -/
theorem Reaches.wellNamed (h : Reaches fields segments path (.nested name shape sub)) (hw : WellNamed fields) :
    WellNamed sub := by
  generalize hend : Field.nested name shape sub = e at h
  induction h with
  | here hfirst =>
    subst hend
    exact hw.of_nested hfirst.mem
  | inside hfirst hbelow ih => exact ih (hw.of_nested hfirst.mem) hend

/-- The declared names on a path can stand in paths. -/
theorem Reaches.isPathName (h : Reaches fields segments path f) (hw : WellNamed fields) :
    ∀ name ∈ path, IsPathName name := by
  induction h with
  | here hfirst => exact List.forall_mem_singleton.mpr (hw.isPathName hfirst.mem)
  | inside hfirst hbelow ih =>
    exact List.forall_mem_cons.mpr ⟨hw.isPathName hfirst.mem, ih (hw.of_nested hfirst.mem)⟩

/-- **A path to a nested schema is continued by the name of any of its fields.** -/
theorem Reaches.snoc (h : Reaches fields segments path (.nested name shape sub)) (hw : WellNamed fields)
    (hf : f ∈ sub) : Reaches fields (segments ++ [f.name]) (path ++ [f.name]) f :=
  h.append (.here ((h.wellNamed hw).firstNamed hf))

end WellNamed

end Field

namespace Schema

variable {s : Schema α} {segments path : List String} {f : Field α}

/-- **The dotted form of the path to a field has that path.** -/
theorem canonicalPath_of_reaches (hw : Field.WellNamed s.fields) (h : Field.Reaches s.fields segments path f) :
    s.canonicalPath (".".intercalate path) = some path := by
  have hnames := h.isPathName hw
  have hsegments : pathSegments (".".intercalate path) = path :=
    pathSegments_intercalate h.canonical.ne_nil (fun name hname => (hnames name hname).not_mem_dot)
      fun name hname => (hnames name hname).trim_eq
  rw [canonicalPath_eq_some_iff, hsegments]
  exact ⟨f, h.canonical⟩

/-- The dotted form of the path to a field stands in a field list as it is. -/
theorem isEntry_of_reaches (hw : Field.WellNamed s.fields) (h : Field.Reaches s.fields segments path f) :
    ',' ∉ (".".intercalate path).toList ∧ Text.trim (".".intercalate path) = ".".intercalate path ∧
      ".".intercalate path ≠ "" := by
  have hnames := h.isPathName hw
  refine ⟨not_mem_comma_intercalate fun name hname => (hnames name hname).not_mem_comma,
    trim_dotted fun name hname => (hnames name hname).trim_eq, ?_⟩
  intro hempty
  obtain rfl : [""] = path := by
    rw [← split_dotted (canonicalPath_of_reaches hw h), hempty]
    rfl
  exact (hnames "" (List.mem_singleton_self _)).ne_empty rfl

end Schema

end HypermediaApi
