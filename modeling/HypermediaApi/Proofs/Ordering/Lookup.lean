import HypermediaApi.Proofs.Ordering.Agreement
import HypermediaApi.Proofs.Text.Spellings
import Mathlib.Data.List.Pairwise

/-!
# HypermediaApi.Proofs.Ordering.Lookup — which entry of a mapping a field is

A draft is a list of definitions put into a dictionary one after the other, the identity last of all
(`table_build_defineAll`), so the laws of dictionaries say which fields the finished mapping has and what stands behind them.
A field is then looked up in two steps, and `PropertyMapping.Names` says without looking what they find: the field as
it is spelled, or else the first field that is a spelling of it.

Whether there is an entry never depends on the spelling (`contains_of_sameName`). Which entry it is does, as soon as
two fields are spellings of each other, for each of them finds itself; where no two are (`Unambiguous`), a whole sort
expression compiles to the same steps in every spelling (`compile_of_sameName`).
-/

namespace HypermediaApi

/-! ### Definitions -/

/-- A definition of a public field. -/
inductive FieldDefinition where
  /-- The field stands for the given properties. -/
  | expanded (field : String) (properties : List MappedProperty)
  /-- The field stands for the property of its own name. -/
  | plain (field : String)
  deriving DecidableEq, Repr

namespace FieldDefinition

/-- The field that is defined. -/
def name : FieldDefinition → String
  | expanded field _ => field
  | plain field => field

/-- What the field stands for. -/
def properties : FieldDefinition → List MappedProperty
  | expanded _ properties => properties
  | plain field => [{ name := field }]

end FieldDefinition

/-- The draft after one more definition. -/
def MappingDraft.define (d : MappingDraft) : FieldDefinition → MappingDraft
  | .expanded field properties => d.map field properties
  | .plain field => d.field field

/-- The draft after definitions one after the other. -/
def MappingDraft.defineAll (d : MappingDraft) (definitions : List FieldDefinition) : MappingDraft :=
  definitions.foldl define d

/-- The properties are those that the last definition of the field gives. -/
def IsLastDefinition (definitions : List FieldDefinition) (field : String) (properties : List MappedProperty) : Prop :=
  ∃ before d after, definitions = before ++ d :: after ∧ d.name = field ∧ d.properties = properties ∧
    ∀ e ∈ after, e.name ≠ field

namespace MappingDraft

@[simp] theorem table_define (d : MappingDraft) (x : FieldDefinition) :
    (d.define x).table = d.table.insert x.name x.properties := by
  cases x <;> rfl

@[simp] theorem identity_define (d : MappingDraft) (x : FieldDefinition) : (d.define x).identity = d.identity := by
  cases x <;> rfl

@[simp] theorem identity_defineAll (d : MappingDraft) (definitions : List FieldDefinition) :
    (d.defineAll definitions).identity = d.identity := by
  induction definitions generalizing d with
  | nil => rfl
  | cons x rest ih =>
    have hrest : ((d.define x).defineAll rest).identity = (d.define x).identity := ih (d.define x)
    rw [identity_define] at hrest
    exact hrest

theorem table_defineAll (d : MappingDraft) (definitions : List FieldDefinition) :
    (d.defineAll definitions).table =
      (definitions.map fun x => (x.name, x.properties)).foldl (fun m e => m.insert e.1 e.2) d.table := by
  induction definitions generalizing d with
  | nil => rfl
  | cons x rest ih =>
    have hrest := ih (d.define x)
    rw [table_define] at hrest
    exact hrest

theorem table_build (d : MappingDraft) : d.build.table = d.table.insert d.identity [{ name := d.identity }] := rfl

/-- **A finished mapping holds its definitions in turn, and the identity after all of them.** -/
theorem table_build_defineAll (identity : String) (definitions : List FieldDefinition) :
    ((PropertyMapping.draft identity).defineAll definitions).build.table =
      .ofList ((definitions.map fun x => (x.name, x.properties)) ++ [(identity, [{ name := identity }])]) := by
  rw [table_build, identity_defineAll, table_defineAll, OrderedMap.ofList, List.foldl_append]
  rfl

/-- The fields stand in the order of their first definitions, and the identity is one of them. -/
theorem fields_build (identity : String) (definitions : List FieldDefinition) :
    ((PropertyMapping.draft identity).defineAll definitions).build.fields =
      (definitions.map FieldDefinition.name ++ [identity]).eraseDups := by
  rw [PropertyMapping.fields, table_build_defineAll, OrderedMap.keys_ofList]
  simp [Function.comp_def]

/-- **A field other than the identity stands for what its last definition gives.** -/
theorem get?_build_eq_some_iff {identity field : String} (hne : field ≠ identity)
    (definitions : List FieldDefinition) (properties : List MappedProperty) :
    ((PropertyMapping.draft identity).defineAll definitions).build.table.get? field = some properties ↔
      IsLastDefinition definitions field properties := by
  have hreverse : ((PropertyMapping.draft identity).defineAll definitions).build.table.get? field =
      (definitions.reverse.map fun x => (x.name, x.properties)).lookup field := by
    rw [table_build_defineAll, OrderedMap.get?_ofList, List.reverse_append, ← List.map_reverse]
    simp [List.lookup_cons, beq_eq_false_iff_ne.mpr hne]
  rw [hreverse, List.lookup_eq_some_iff]
  -- What comes before the definition in the reversed list comes after it.
  constructor
  · intro h
    obtain ⟨later, earlier, hsplit, hlater⟩ := h
    obtain ⟨after, rest, hrest, hafter, hhead⟩ := List.map_eq_append_iff.mp hsplit
    obtain ⟨d, before, hd, hentry, -⟩ := List.map_eq_cons_iff.mp hhead
    obtain ⟨hname, hproperties⟩ := Prod.mk.inj hentry
    refine ⟨before.reverse, d, after.reverse, ?_, hname, hproperties, ?_⟩
    · rw [← List.reverse_inj, hrest, hd]
      simp
    · intro e he hsame
      have hmem : (e.name, e.properties) ∈ later := by
        rw [← hafter]
        exact List.mem_map_of_mem (List.mem_reverse.mp he)
      have hdiffer := hlater _ hmem
      simp [hsame] at hdiffer
  · intro h
    obtain ⟨before, d, after, hsplit, hname, hproperties, hafter⟩ := h
    refine ⟨after.reverse.map fun x => (x.name, x.properties), before.reverse.map fun x => (x.name, x.properties), ?_, ?_⟩
    · simp [hsplit, hname, hproperties]
    · intro p hp
      obtain ⟨e, he, rfl⟩ := List.mem_map.mp hp
      have hdiffer : field ≠ e.name := Ne.symm (hafter e (List.mem_reverse.mp he))
      simpa using hdiffer

end MappingDraft

/-! ### Looking up -/

/-- `key` is the first of the names that is a spelling of `name`. -/
def IsFirstSpelling (names : List String) (name key : String) : Prop :=
  ∃ before after, names = before ++ key :: after ∧ Text.sameName key name ∧
    ∀ other ∈ before, ¬ Text.sameName other name

theorem isFirstSpelling_iff {names : List String} {name key : String} :
    IsFirstSpelling names name key ↔ names.find? (Text.sameName · name) = some key := by
  rw [IsFirstSpelling, List.find?_eq_some_iff_append]
  constructor
  · intro h
    obtain ⟨before, after, hsplit, hsame, hbefore⟩ := h
    exact ⟨hsame, before, after, hsplit, fun other hother => by simpa using hbefore other hother⟩
  · intro h
    obtain ⟨hsame, before, after, hsplit, hbefore⟩ := h
    exact ⟨before, after, hsplit, hsame, fun other hother => by simpa using hbefore other hother⟩

/-- A name that has a spelling among the names has a first one. -/
theorem exists_isFirstSpelling {names : List String} {name key : String} (hkey : key ∈ names)
    (hsame : Text.sameName key name) : ∃ first ∈ names, IsFirstSpelling names name first := by
  have hfound : (names.find? (Text.sameName · name)).isSome := List.find?_isSome.mpr ⟨key, hkey, hsame⟩
  obtain ⟨first, hfirst⟩ := Option.isSome_iff_exists.mp hfound
  exact ⟨first, List.mem_of_find?_eq_some hfirst, isFirstSpelling_iff.mpr hfirst⟩

namespace PropertyMapping

/-- The field of the mapping that a field names. -/
inductive Names (m : PropertyMapping) (field : String) : String → Prop
  /-- A field of the mapping names itself. -/
  | itself (h : field ∈ m.fields) : m.Names field field
  /-- Any other one names the first field that is a spelling of it. -/
  | spelling {key : String} (h : field ∉ m.fields) (hfirst : IsFirstSpelling m.fields field key) : m.Names field key

/-- No two fields of the mapping are spellings of each other. -/
def Unambiguous (m : PropertyMapping) : Prop := m.fields.Pairwise fun a b => ¬ Text.sameName a b

instance (m : PropertyMapping) : Decidable m.Unambiguous :=
  inferInstanceAs (Decidable (m.fields.Pairwise fun a b => ¬ Text.sameName a b))

variable {m : PropertyMapping} {a b field key : String}

theorem find?_entries_eq_some_iff {e : String × List MappedProperty} :
    m.table.entries.find? (fun e => Text.sameName e.1 field) = some e ↔
      IsFirstSpelling m.fields field e.1 ∧ m.table.get? e.1 = some e.2 := by
  have hfirst : m.fields.find? (Text.sameName · field) =
      (m.table.entries.find? fun e => Text.sameName e.1 field).map Prod.fst := List.find?_map ..
  rw [isFirstSpelling_iff, hfirst, Option.map_eq_some_iff]
  constructor
  · intro h
    exact ⟨⟨e, h, rfl⟩, OrderedMap.lookup_of_mem m.table.nodup_keys (List.mem_of_find?_eq_some h)⟩
  · intro h
    obtain ⟨⟨found, hfound, hkey⟩, hvalue⟩ := h
    have hproperties : m.table.get? found.1 = some found.2 :=
      OrderedMap.lookup_of_mem m.table.nodup_keys (List.mem_of_find?_eq_some hfound)
    rw [hkey, hvalue] at hproperties
    rw [hfound, Prod.ext hkey (Option.some.inj hproperties).symm]

/-- **An entry is found exactly if the field names its key.** -/
theorem entry?_eq_some_iff {properties : List MappedProperty} :
    m.entry? field = some (key, properties) ↔ m.Names field key ∧ m.table.get? key = some properties := by
  unfold entry?
  cases hfield : m.table.get? field with
  | some known =>
    have hmem : field ∈ m.fields := by
      rw [fields, ← OrderedMap.contains_iff, OrderedMap.contains, hfield]
      rfl
    simp only [Option.some.injEq, Prod.mk.injEq]
    constructor
    · intro h
      obtain ⟨rfl, rfl⟩ := h
      exact ⟨.itself hmem, hfield⟩
    · intro h
      obtain ⟨hnames, hvalue⟩ := h
      cases hnames with
      | itself => exact ⟨rfl, Option.some.inj (hfield.symm.trans hvalue)⟩
      | spelling hnot => exact absurd hmem hnot
  | none =>
    have hnot : field ∉ m.fields := (OrderedMap.get?_eq_none_iff m.table field).mp hfield
    simp only [find?_entries_eq_some_iff]
    constructor
    · intro h
      exact ⟨.spelling hnot h.1, h.2⟩
    · intro h
      obtain ⟨hnames, hvalue⟩ := h
      cases hnames with
      | itself hmem => exact absurd hmem hnot
      | spelling _ hfirst => exact ⟨hfirst, hvalue⟩

theorem entry?_eq_none_iff : m.entry? field = none ↔ ∀ key ∈ m.fields, ¬ Text.sameName key field := by
  have hcontains : m.entry? field = none ↔ ¬ m.contains field := by simp [contains]
  rw [hcontains, contains_iff_exists_sameName]
  simp

/-- Every field of the mapping is an entry under its own name. -/
theorem exists_entry?_of_mem (h : field ∈ m.fields) : ∃ properties, m.entry? field = some (field, properties) := by
  obtain ⟨properties, hvalue⟩ := Option.isSome_iff_exists.mp ((OrderedMap.contains_iff m.table field).mpr h)
  exact ⟨properties, entry?_eq_some_iff.mpr ⟨.itself h, hvalue⟩⟩

/-! ### Spellings -/

/-- **Whether a field is mapped does not depend on its spelling.** -/
theorem contains_of_sameName (h : Text.sameName a b) : m.contains a = m.contains b := by
  rw [Bool.eq_iff_iff, contains_iff_exists_sameName, contains_iff_exists_sameName]
  simp only [Text.sameName_congr_right h]

/-- Spellings of each other among the fields of an unambiguous mapping are one field. -/
theorem Unambiguous.eq (hm : m.Unambiguous) (ha : a ∈ m.fields) (hb : b ∈ m.fields) (h : Text.sameName a b) :
    a = b := by
  by_contra hne
  have hsymm : Std.Symm fun a b => ¬ Text.sameName a b := ⟨fun _ _ hab hba => hab (Text.sameName_comm.mp hba)⟩
  exact List.Pairwise.forall hm ha hb hne h

/-- In an unambiguous mapping a field names the one field that is a spelling of it. -/
theorem Unambiguous.names_iff (hm : m.Unambiguous) : m.Names field key ↔ key ∈ m.fields ∧ Text.sameName key field := by
  constructor
  · intro h
    cases h with
    | itself hmem => exact ⟨hmem, Text.sameName_refl field⟩
    | spelling _ hfirst =>
      have hfind := isFirstSpelling_iff.mp hfirst
      exact ⟨List.mem_of_find?_eq_some hfind, List.find?_some (p := (Text.sameName · field)) hfind⟩
  · intro h
    obtain ⟨hmem, hsame⟩ := h
    by_cases hfield : field ∈ m.fields
    · rw [hm.eq hmem hfield hsame]
      exact .itself hfield
    · obtain ⟨first, hfirstMem, hfirst⟩ := exists_isFirstSpelling hmem hsame
      have hspelling : Text.sameName first field := by
        obtain ⟨-, -, -, hspelling, -⟩ := hfirst
        exact hspelling
      have hone : first = key := hm.eq hfirstMem hmem (by
        rw [Text.sameName_iff] at hspelling hsame ⊢
        rw [hspelling, hsame])
      exact .spelling hfield (hone ▸ hfirst)

/-- **Which entry a field finds is independent of its spelling exactly if the mapping is unambiguous.** -/
theorem unambiguous_iff : m.Unambiguous ↔ ∀ a b, Text.sameName a b → m.entry? a = m.entry? b := by
  constructor
  · intro hm a b h
    refine Option.ext fun e => ?_
    rw [entry?_eq_some_iff, entry?_eq_some_iff, hm.names_iff, hm.names_iff, Text.sameName_iff, Text.sameName_iff,
      Text.sameName_iff.mp h]
  · intro h
    refine List.Pairwise.imp_of_mem ?_ m.table.nodup
    intro a b ha hb hne hsame
    obtain ⟨p, hp⟩ := exists_entry?_of_mem ha
    obtain ⟨q, hq⟩ := exists_entry?_of_mem hb
    rw [h a b hsame, hq] at hp
    exact hne (Prod.mk.inj (Option.some.inj hp)).1.symm

end PropertyMapping

/-! ### Results up to spelling -/

/-- Two results that tell apart at most how a field was spelled: values that stand in the given relation, or failures
that report spellings of one text. -/
inductive AlikeUpToCase {β : Type} (same : β → β → Prop) : Except Failure β → Except Failure β → Prop
  | ok {x y : β} (h : same x y) : AlikeUpToCase same (.ok x) (.ok y)
  | unknown {a b : String} (h : Text.sameName a b) :
      AlikeUpToCase same (.error (.unknownSortField a)) (.error (.unknownSortField b))

namespace AlikeUpToCase

variable {α β γ : Type} {same : β → β → Prop}

/-- **What goes on alike after alike results is alike.** -/
theorem bind {same' : γ → γ → Prop} {f g : β → Except Failure γ} {r r' : Except Failure β}
    (h : AlikeUpToCase same r r') (hfg : ∀ x y, same x y → AlikeUpToCase same' (f x) (g y)) :
    AlikeUpToCase same' (r.bind f) (r'.bind g) := by
  cases h with
  | ok h => exact hfg _ _ h
  | unknown h => exact .unknown h

/-- Lists that are gone through with alike results at every place have alike results. -/
theorem mapM {f : α → Except Failure β} {xs ys : List α}
    (h : List.Forall₂ (fun x y => AlikeUpToCase same (f x) (f y)) xs ys) :
    AlikeUpToCase (List.Forall₂ same) (xs.mapM f) (ys.mapM f) := by
  induction h with
  | nil => exact .ok .nil
  | cons hhead hrest ih =>
    rw [List.mapM_cons, List.mapM_cons]
    refine hhead.bind fun x y hxy => ?_
    refine ih.bind fun xs ys hlists => ?_
    exact .ok (.cons hxy hlists)

end AlikeUpToCase

/-! ### Whole expressions -/

/-- The keys name spellings of one field, in the same direction. -/
def SameKey (k k' : SortKey) : Prop := Text.sameName k.field k'.field ∧ k.direction = k'.direction

/-- A keyword names the same direction in every spelling. -/
theorem Direction.ofKeyword?_of_sameName {a b : String} (h : Text.sameName a b) : ofKeyword? a = ofKeyword? b := by
  rw [ofKeyword?, ofKeyword?, Text.sameName_congr_left h, Text.sameName_congr_left h]

/-- **Spellings of one entry are read as keys for spellings of one field.** -/
theorem SortKey.read_of_sameName {a b : String} (h : Text.sameName a b) :
    AlikeUpToCase SameKey (SortKey.read a) (SortKey.read b) := by
  have hwords := Text.words_of_sameName h
  rw [SortKey.read, SortKey.read]
  generalize Text.words a = ws, Text.words b = ws' at hwords
  -- No word, one, two, or more, of both alike.
  rcases hwords with _ | ⟨hfield, _ | ⟨hword, _ | ⟨hthird, hrest⟩⟩⟩
  · exact .unknown h
  · exact .ok ⟨hfield, rfl⟩
  · simp only [Direction.ofKeyword?_of_sameName hword]
    split
    · exact .ok ⟨hfield, rfl⟩
    · exact .unknown h
  · exact .unknown h

theorem readOrderBy_of_sameName {a b : String} (h : Text.sameName a b) :
    AlikeUpToCase (List.Forall₂ SameKey) (readOrderBy a) (readOrderBy b) :=
  AlikeUpToCase.mapM ((Text.entries_of_sameName h).imp fun _ _ => SortKey.read_of_sameName)

namespace PropertyMapping

variable {m : PropertyMapping}

/-- A key of an unambiguous mapping expands alike in every spelling of its field. -/
theorem Unambiguous.expand (hm : m.Unambiguous) {k k' : SortKey} (h : SameKey k k') :
    AlikeUpToCase Eq (m.expand k) (m.expand k') := by
  have hget : m.get? k.field = m.get? k'.field := by
    rw [get?, get?, unambiguous_iff.mp hm _ _ h.1]
  rw [PropertyMapping.expand, PropertyMapping.expand, hget, h.2]
  cases m.get? k'.field with
  | some properties => exact .ok rfl
  | none => exact .unknown h.1

theorem Unambiguous.compileKeys (hm : m.Unambiguous) {keys keys' : List SortKey} (h : List.Forall₂ SameKey keys keys') :
    AlikeUpToCase Eq (m.compileKeys keys) (m.compileKeys keys') := by
  have hexpanded : AlikeUpToCase (List.Forall₂ Eq) (keys.mapM m.expand) (keys'.mapM m.expand) :=
    AlikeUpToCase.mapM (h.imp fun _ _ => hm.expand)
  refine hexpanded.bind fun x y hxy => ?_
  rw [List.forall₂_eq_eq_eq] at hxy
  exact .ok (by rw [hxy])

/-- **By an unambiguous mapping a sort expression compiles to the same steps in every spelling**, or fails with a
spelling of the same text. -/
theorem Unambiguous.compile (hm : m.Unambiguous) {a b : String} (h : Text.sameName a b) :
    AlikeUpToCase Eq (m.compile (some a)) (m.compile (some b)) := by
  refine (readOrderBy_of_sameName h).bind fun keys keys' hkeys => ?_
  -- The identity takes the place of no keys in both.
  cases hkeys with
  | nil => exact hm.compileKeys (.cons ⟨Text.sameName_refl _, rfl⟩ .nil)
  | cons hhead hrest => exact hm.compileKeys (.cons hhead hrest)

/-- **Fields are looked up by one rule in every mapping that can be built.** The fields are those that were defined,
in the order of their first definitions, and the identity, which comes last if it was not defined. The identity stands
for the property of its name whatever was defined, and any other field for what its last definition gives. A field
finds the entry under its own name if there is one, else the first one under a spelling of it, and none if there is no
such either. So whether a field is mapped does not depend on its spelling. Which entry it finds is independent of it
exactly if no two fields of the mapping are spellings of each other, and then every sort expression compiles to the
same steps in all its spellings, or fails with a spelling of the same text. -/
theorem lookup_in_built_mapping (identity : String) (definitions : List FieldDefinition) :
    let m := ((draft identity).defineAll definitions).build
    m.fields = (definitions.map FieldDefinition.name ++ [identity]).eraseDups ∧
    m.table.get? identity = some [{ name := identity }] ∧
    (∀ field properties, field ≠ identity →
      (m.table.get? field = some properties ↔ IsLastDefinition definitions field properties)) ∧
    (∀ field key properties,
      m.entry? field = some (key, properties) ↔ m.Names field key ∧ m.table.get? key = some properties) ∧
    (∀ field, m.entry? field = none ↔ ∀ key ∈ m.fields, ¬ Text.sameName key field) ∧
    (∀ a b, Text.sameName a b → m.contains a = m.contains b) ∧
    (m.Unambiguous ↔ ∀ a b, Text.sameName a b → m.entry? a = m.entry? b) ∧
    (m.Unambiguous → ∀ a b, Text.sameName a b → AlikeUpToCase Eq (m.compile (some a)) (m.compile (some b))) := by
  intro m
  refine ⟨MappingDraft.fields_build identity definitions, ?_, ?_, ?_, ?_, ?_, unambiguous_iff, ?_⟩
  · have hidentity : m.identity = identity := MappingDraft.identity_defineAll (draft identity) definitions
    have hmapped := m.identity_mapped
    rw [hidentity] at hmapped
    exact hmapped
  · intro field properties hne
    exact MappingDraft.get?_build_eq_some_iff hne definitions properties
  · intro field key properties
    exact entry?_eq_some_iff
  · intro field
    exact entry?_eq_none_iff
  · intro a b h
    exact contains_of_sameName h
  · intro hm a b h
    exact hm.compile h

/-- Of the two definitions of `title` the second counts at the place of the first, `Title` is a field of its own that
`TITLE` does not find, and the identity keeps its place and nothing else of its definition. Without `Title` all
spellings of an expression compile alike. -/
theorem lookup_in_built_mapping_two_spellings :
    let definitions := [FieldDefinition.plain "title", .expanded "id" [⟨"legacy", true⟩], .plain "body",
      .expanded "title" [⟨"caption", true⟩, ⟨"rank", false⟩]]
    let unambiguous := ((draft "id").defineAll definitions).build
    let ambiguous := ((draft "id").defineAll (definitions ++ [.plain "Title"])).build
    unambiguous.fields = ["title", "id", "body"] ∧ ambiguous.fields = ["title", "id", "body", "Title"] ∧
      unambiguous.table.get? "id" = some [⟨"id", false⟩] ∧
      unambiguous.table.get? "title" = some [⟨"caption", true⟩, ⟨"rank", false⟩] ∧
      ambiguous.entry? "TITLE" = some ("title", [⟨"caption", true⟩, ⟨"rank", false⟩]) ∧
      ambiguous.entry? "Title" = some ("Title", [⟨"Title", false⟩]) ∧
      AlikeUpToCase Eq (unambiguous.compile (some "TITLE desc,Id")) (unambiguous.compile (some "title DESC,ID")) := by
  intro definitions unambiguous ambiguous
  obtain ⟨hfields, hidentity, hget, -, -, -, -, hcompile⟩ := lookup_in_built_mapping "id" definitions
  obtain ⟨hfields', -, -, hentry, -⟩ := lookup_in_built_mapping "id" (definitions ++ [.plain "Title"])
  have hnames : ambiguous.Names "TITLE" "title" :=
    .spelling (by decide +kernel) ⟨[], ["id", "body", "Title"], by decide +kernel, by decide +kernel, by simp⟩
  have hlast : IsLastDefinition definitions "title" [⟨"caption", true⟩, ⟨"rank", false⟩] :=
    ⟨definitions.take 3, .expanded "title" _, [], rfl, rfl, rfl, by simp⟩
  refine ⟨hfields.trans (by decide), hfields'.trans (by decide), hidentity, (hget _ _ (by decide)).mpr hlast,
    (hentry _ _ _).mpr ⟨hnames, by decide +kernel⟩, (hentry _ _ _).mpr ⟨.itself (by decide +kernel), by decide +kernel⟩,
    hcompile (by decide +kernel) _ _ (by decide +kernel)⟩

end PropertyMapping

end HypermediaApi
