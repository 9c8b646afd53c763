import HypermediaApi.Proofs.Schema.Paths
import HypermediaApi.Proofs.Text.Joining
import Mathlib.Data.List.Forall2

/-!
# HypermediaApi.Proofs.Schema.Canonical — canonical paths are spellings of themselves

Where a path leads is said by a relation that follows the nesting: `Field.Reaches fields segments names f` holds if the
segments lead to the field `f`, at every level through the first field of that name, and `names` are the declared
names on the way. Resolving computes those names (`Field.resolve_eq_some_iff`) and reading gives the value of that
field (`Field.Reaches.readPath`).

A declared name that was reached is a spelling of the segment that reached it, so it holds no full stop and is
trimmed. This makes the dotted form of a canonical path as good as the path: cutting it gives the path back
(`Schema.split_dotted`), so that different paths have different dotted forms, and it resolves to the path
(`Schema.canonicalPath_dotted`).
-/

namespace HypermediaApi

variable {α : Type}

/-! ### Spellings of paths -/

/-- The texts are spellings of each other, one by one. -/
def SameNames (names names' : List String) : Prop := List.Forall₂ (fun a b => Text.sameName a b) names names'

theorem SameNames.symm {names names' : List String} (h : SameNames names names') : SameNames names' names :=
  List.Forall₂.flip (List.Forall₂.imp (fun _ _ hab => Text.sameName_comm.mp hab) h)

/-- Each of the texts is a spelling of one of the others. -/
theorem SameNames.exists_of_mem {names names' : List String} (h : SameNames names names') {name : String}
    (hname : name ∈ names) : ∃ name' ∈ names', Text.sameName name name' := by
  induction h with
  | nil => simp at hname
  | cons hhead hrest ih =>
    rcases List.mem_cons.mp hname with rfl | hname
    · exact ⟨_, List.mem_cons_self .., hhead⟩
    · obtain ⟨name', hname', hsame⟩ := ih hname
      exact ⟨name', List.mem_cons_of_mem _ hname', hsame⟩

/-- The segments of a path as they are looked up, trimmed. -/
def pathSegments (path : String) : List String := (Text.split '.' path).map Text.trim

/-- Trimmed names without a full stop are the segments of their dotted form. -/
theorem pathSegments_intercalate {names : List String} (hne : names ≠ [])
    (hdot : ∀ name ∈ names, '.' ∉ name.toList) (htrim : ∀ name ∈ names, Text.trim name = name) :
    pathSegments (".".intercalate names) = names := by
  have hsplit : Text.split '.' (".".intercalate names) = names := Text.split_intercalate (d := '.') hne hdot
  unfold pathSegments
  rw [hsplit, List.map_congr_left htrim, List.map_id']

/-- The dotted form of names without a comma has none. -/
theorem not_mem_comma_intercalate {names : List String} (h : ∀ name ∈ names, ',' ∉ name.toList) :
    ',' ∉ (".".intercalate names).toList := by
  intro hcomma
  rcases Text.eq_or_mem_of_mem_intercalate (d := '.') hcomma with hdot | ⟨name, hname, hmem⟩
  · cases hdot
  · exact h name hname hmem

/-- The dotted form of trimmed names is trimmed. -/
theorem trim_dotted {names : List String} (h : ∀ name ∈ names, Text.trim name = name) :
    Text.trim (".".intercalate names) = ".".intercalate names :=
  Text.trim_intercalate (d := '.') (by decide) h

namespace Field

/-! ### Where a path leads -/

/-- `f` is the first of the fields whose name is `name` up to case. -/
def FirstNamed (fields : List (Field α)) (name : String) (f : Field α) : Prop :=
  ∃ before after, fields = before ++ f :: after ∧ Text.sameName f.name name ∧
    ∀ g ∈ before, ¬ Text.sameName g.name name

/-- The segments lead to `f`, at every level through the first field of that name, with the declared names `names` on
the way. -/
inductive Reaches : List (Field α) → List String → List String → Field α → Prop
  | here {fields : List (Field α)} {segment : String} {f : Field α} (h : FirstNamed fields segment f) :
      Reaches fields [segment] [f.name] f
  | inside {fields sub : List (Field α)} {segment name shape : String} {segments names : List String} {f : Field α}
      (h : FirstNamed fields segment (.nested name shape sub)) (hsub : Reaches sub segments names f) :
      Reaches fields (segment :: segments) (name :: names) f

theorem firstNamed_iff_find? {fields : List (Field α)} {name : String} {f : Field α} :
    FirstNamed fields name f ↔ find? fields name = some f := by
  unfold FirstNamed find?
  rw [List.find?_eq_some_iff_append]
  constructor
  · rintro ⟨before, after, hsplit, hname, hbefore⟩
    exact ⟨hname, before, after, hsplit, fun g hg => by simpa using hbefore g hg⟩
  · rintro ⟨hname, before, after, hsplit, hbefore⟩
    exact ⟨before, after, hsplit, hname, fun g hg => by simpa using hbefore g hg⟩

/-- Other spellings of a name are those of the same field. -/
theorem FirstNamed.congr {fields : List (Field α)} {name name' : String} {f : Field α}
    (h : FirstNamed fields name f) (hsame : Text.sameName name name') : FirstNamed fields name' f := by
  rw [firstNamed_iff_find?] at h ⊢
  rw [← find?_congr fields hsame]
  exact h

/-- A path that leads somewhere has at least one segment. -/
theorem Reaches.ne_nil {fields : List (Field α)} {segments names : List String} {f : Field α}
    (h : Reaches fields segments names f) : segments ≠ [] := by
  cases h <;> simp

/-- The one segment of a path leads to the first field of that name. -/
theorem reaches_singleton_iff {fields : List (Field α)} {segment : String} {names : List String} {f : Field α} :
    Reaches fields [segment] names f ↔ FirstNamed fields segment f ∧ names = [f.name] := by
  constructor
  · intro h
    cases h with
    | here hfirst => exact ⟨hfirst, rfl⟩
    | inside hfirst hsub => cases hsub
  · rintro ⟨hfirst, rfl⟩
    exact .here hfirst

/-- A path of several segments goes on below the first field of the first name, which must be nested. -/
theorem reaches_cons_cons_iff {fields : List (Field α)} {segment next : String} {rest names : List String}
    {f : Field α} :
    Reaches fields (segment :: next :: rest) names f ↔
      ∃ name shape sub below, FirstNamed fields segment (.nested name shape sub) ∧
        Reaches sub (next :: rest) below f ∧ names = name :: below := by
  constructor
  · intro h
    cases h with
    | inside hfirst hsub => exact ⟨_, _, _, _, hfirst, hsub, rfl⟩
  · rintro ⟨name, shape, sub, below, hfirst, hsub, rfl⟩
    exact .inside hfirst hsub

/-- **Resolving gives the declared names on the way.** -/
theorem resolve_eq_some_iff {fields : List (Field α)} {path names : List String} :
    resolve fields path = some names ↔ ∃ f, Reaches fields (path.map Text.trim) names f := by
  induction path generalizing fields names with
  | nil =>
    constructor
    · intro h
      cases h
    · rintro ⟨f, h⟩
      cases h
  | cons head rest ih =>
    rw [resolve]
    cases rest with
    | nil =>
      simp only [List.map_cons, List.map_nil, reaches_singleton_iff, firstNamed_iff_find?]
      cases find? fields (Text.trim head) <;> simp [eq_comm]
    | cons next rest =>
      simp only [List.map_cons, reaches_cons_cons_iff, firstNamed_iff_find?] at ih ⊢
      cases find? fields (Text.trim head) with
      | none => simp
      | some g =>
        cases g with
        | scalar name read => simp
        | nested name shape sub =>
          simp only [List.isEmpty_cons, Bool.false_eq_true, if_false, Option.map_eq_some_iff, ih]
          constructor
          · rintro ⟨below, ⟨f, hbelow⟩, rfl⟩
            exact ⟨f, name, shape, sub, below, rfl, hbelow, rfl⟩
          · rintro ⟨f, _, _, _, below, heq, hbelow, rfl⟩
            obtain ⟨rfl, rfl, rfl⟩ := Field.nested.inj (Option.some.inj heq)
            exact ⟨below, ⟨f, hbelow⟩, rfl⟩

/-! ### Declared names and segments -/

/-- The declared names on the way are spellings of the segments. -/
theorem Reaches.sameNames {fields : List (Field α)} {segments names : List String} {f : Field α}
    (h : Reaches fields segments names f) : SameNames names segments := by
  induction h with
  | here hfirst => exact .cons (sameName_of_find? (firstNamed_iff_find?.mp hfirst)) .nil
  | inside hfirst hsub ih => exact .cons (sameName_of_find? (firstNamed_iff_find?.mp hfirst)) ih

/-- Other spellings of the segments lead to the same field on the same way. -/
theorem Reaches.congr {fields : List (Field α)} {segments segments' names : List String} {f : Field α}
    (h : Reaches fields segments names f) (hsame : SameNames segments segments') :
    Reaches fields segments' names f := by
  induction h generalizing segments' with
  | here hfirst =>
    obtain ⟨segment', rest', hhead, hrest, rfl⟩ := List.forall₂_cons_left_iff.mp hsame
    obtain rfl : rest' = [] := List.forall₂_nil_left_iff.mp hrest
    exact .here (hfirst.congr hhead)
  | inside hfirst hsub ih =>
    obtain ⟨segment', rest', hhead, hrest, rfl⟩ := List.forall₂_cons_left_iff.mp hsame
    exact .inside (hfirst.congr hhead) (ih hrest)

/-- **The declared names lead where the segments lead**, and on the same way. -/
theorem Reaches.canonical {fields : List (Field α)} {segments names : List String} {f : Field α}
    (h : Reaches fields segments names f) : Reaches fields names names f :=
  h.congr h.sameNames.symm

/-- **Reading follows the segments to the field they lead to.** -/
theorem Reaches.readPath {fields : List (Field α)} {segments names : List String} {f : Field α}
    (h : Reaches fields segments names f) (x : α) : readPath x fields segments = some (f.read x) := by
  induction h with
  | @here _ _ f hfirst =>
    rw [Field.readPath, firstNamed_iff_find?.mp hfirst]
    cases f with
    | scalar name r => simp [Field.read]
    | nested name shape sub => simp [Field.readPath, Field.read, readWhole]
  | inside hfirst hsub ih =>
    rw [readPath_cons_nested (firstNamed_iff_find?.mp hfirst)]
    exact ih

end Field

namespace Schema

variable {s : Schema α} {entry : String} {path : List String}

/-! ### Canonical paths -/

/-- The canonical path of an entry is the way to the field that its segments lead to. -/
theorem canonicalPath_eq_some_iff :
    s.canonicalPath entry = some path ↔ ∃ f, Field.Reaches s.fields (pathSegments entry) path f :=
  Field.resolve_eq_some_iff

/-- Spellings of one path have the same canonical path. -/
theorem canonicalPath_congr {other : String} (h : SameNames (pathSegments entry) (pathSegments other)) :
    s.canonicalPath entry = s.canonicalPath other := by
  ext path
  rw [canonicalPath_eq_some_iff, canonicalPath_eq_some_iff]
  constructor
  · rintro ⟨f, hf⟩
    exact ⟨f, hf.congr h⟩
  · rintro ⟨f, hf⟩
    exact ⟨f, hf.congr h.symm⟩

/-- A name on a canonical path is a spelling of a trimmed part of the entry. -/
theorem exists_part_of_mem (h : s.canonicalPath entry = some path) {name : String} (hname : name ∈ path) :
    ∃ part ∈ Text.split '.' entry, Text.sameName name (Text.trim part) := by
  obtain ⟨f, hf⟩ := canonicalPath_eq_some_iff.mp h
  obtain ⟨segment, hsegment, hsame⟩ := hf.sameNames.exists_of_mem hname
  obtain ⟨part, hpart, rfl⟩ := List.mem_map.mp hsegment
  exact ⟨part, hpart, hsame⟩

/-- A character in a name on a canonical path comes from the entry, unless it is a letter. -/
theorem exists_part_of_mem_name (h : s.canonicalPath entry = some path) {name : String} (hname : name ∈ path)
    {d : Char} (hlower : d.toNat < 97 ∨ 122 < d.toNat) (hupper : d.toLower = d) (hd : d ∈ name.toList) :
    ∃ part ∈ Text.split '.' entry, d ∈ part.toList := by
  obtain ⟨part, hpart, hsame⟩ := exists_part_of_mem h hname
  have hmem : d ∈ (Text.trim part).toList :=
    Text.mem_of_sameName (Text.sameName_comm.mp hsame) hlower hupper hd
  exact ⟨part, hpart, Text.mem_of_mem_trim hmem⟩

theorem ne_nil_of_canonicalPath (h : s.canonicalPath entry = some path) : path ≠ [] := by
  obtain ⟨f, hf⟩ := canonicalPath_eq_some_iff.mp h
  exact hf.canonical.ne_nil

/-- **No name on a canonical path holds a full stop**: a declared name that does is out of reach. -/
theorem not_mem_dot_of_mem (h : s.canonicalPath entry = some path) {name : String} (hname : name ∈ path) :
    '.' ∉ name.toList := by
  intro hdot
  obtain ⟨part, hpart, hmem⟩ := exists_part_of_mem_name h hname (by decide) rfl hdot
  exact Text.not_mem_of_mem_split hpart hmem

/-- The names on the canonical path of an entry hold no comma that the entry does not hold. -/
theorem not_mem_comma_of_mem (h : s.canonicalPath entry = some path) (hentry : ',' ∉ entry.toList) {name : String}
    (hname : name ∈ path) : ',' ∉ name.toList := by
  intro hcomma
  obtain ⟨part, hpart, hmem⟩ := exists_part_of_mem_name h hname (by decide) rfl hcomma
  exact hentry (Text.mem_of_mem_split hpart hmem)

/-- Every name on a canonical path is trimmed. -/
theorem trim_of_mem (h : s.canonicalPath entry = some path) {name : String} (hname : name ∈ path) :
    Text.trim name = name := by
  obtain ⟨part, -, hsame⟩ := exists_part_of_mem h hname
  exact Text.trim_of_sameName hsame (Text.trim_trim part)

/-! ### Dotted forms -/

/-- Cutting the dotted form of a canonical path gives the path back. -/
theorem split_dotted (h : s.canonicalPath entry = some path) : Text.split '.' (".".intercalate path) = path :=
  Text.split_intercalate (d := '.') (ne_nil_of_canonicalPath h) fun _ hname => not_mem_dot_of_mem h hname

/-- **Different canonical paths have different dotted forms.** -/
theorem dotted_inj {other : String} {path' : List String} (h : s.canonicalPath entry = some path)
    (h' : s.canonicalPath other = some path') : ".".intercalate path = ".".intercalate path' ↔ path = path' := by
  constructor
  · intro hdotted
    rw [← split_dotted h, hdotted, split_dotted h']
  · rintro rfl
    rfl

/-- The segments of the dotted form of a canonical path are its names. -/
theorem pathSegments_dotted (h : s.canonicalPath entry = some path) : pathSegments (".".intercalate path) = path :=
  pathSegments_intercalate (ne_nil_of_canonicalPath h) (fun _ => not_mem_dot_of_mem h) fun _ => trim_of_mem h

/-- **The dotted form of a canonical path has that canonical path.** -/
theorem canonicalPath_dotted (h : s.canonicalPath entry = some path) :
    s.canonicalPath (".".intercalate path) = some path := by
  obtain ⟨f, hf⟩ := canonicalPath_eq_some_iff.mp h
  rw [canonicalPath_eq_some_iff, pathSegments_dotted h]
  exact ⟨f, hf.canonical⟩

/-- A canonical path whose dotted form is empty is that of a blank entry. -/
theorem isBlankText_of_dotted_eq_empty (h : s.canonicalPath entry = some path)
    (hempty : ".".intercalate path = "") : Text.isBlankText entry := by
  obtain rfl : [""] = path := by
    rw [← split_dotted h, hempty]
    rfl
  obtain ⟨f, hf⟩ := canonicalPath_eq_some_iff.mp h
  obtain ⟨segment, rest, hsame, hrest, hsegments⟩ := List.forall₂_cons_left_iff.mp hf.sameNames
  obtain rfl : rest = [] := List.forall₂_nil_left_iff.mp hrest
  obtain rfl : segment = "" := Text.eq_empty_of_sameName hsame rfl
  -- The entry has one segment, which is blank, and so the entry is that segment.
  obtain ⟨part, hsplit, htrim⟩ := List.map_eq_singleton_iff.mp hsegments
  have hpart : entry = part := by
    rw [← Text.intercalate_split '.' entry, hsplit, String.intercalate_singleton]
  rw [hpart]
  exact Text.trim_eq_empty_iff.mp htrim

/-- **The dotted form of the canonical path of a list entry is a list entry**: it holds no comma, is trimmed and is
not empty. -/
theorem isEntry_dotted {list : String} (hentry : entry ∈ Text.entries list) (h : s.canonicalPath entry = some path) :
    ',' ∉ (".".intercalate path).toList ∧ Text.trim (".".intercalate path) = ".".intercalate path ∧
      ".".intercalate path ≠ "" := by
  have hnames : ∀ name ∈ path, ',' ∉ name.toList := fun _ =>
    not_mem_comma_of_mem h (Text.not_mem_comma_of_mem_entries hentry)
  refine ⟨not_mem_comma_intercalate hnames, trim_dotted fun _ => trim_of_mem h, ?_⟩
  intro hempty
  exact Text.not_isBlankText_of_mem_entries hentry (isBlankText_of_dotted_eq_empty h hempty)

end Schema

end HypermediaApi
