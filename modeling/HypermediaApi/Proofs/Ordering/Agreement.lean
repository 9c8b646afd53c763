import HypermediaApi.Ordering.Registry
import HypermediaApi.Proofs.Text.Entries
import HypermediaApi.Proofs.Traversal

/-!
# HypermediaApi.Proofs.Ordering.Agreement — checking a sort expression and compiling it agree

A registry first checks a sort expression (`Registry.accepts`) and later compiles it (`Registry.compile`). The
check reads the keys and looks each one up; compiling reads them again, expands them, and puts the identity
field in the place of an expression without keys.

Both are measured against one predicate that mentions neither, `PropertyMapping.Covers`: every entry of the
expression can be read and names a field of the mapping up to case. The check decides it and compiling
succeeds exactly under it. For an expression without entries it holds trivially, and there compiling relies on
the identity field being mapped, which is part of the type `PropertyMapping`.
-/

namespace HypermediaApi

/-! ### Reading keys -/

theorem SortKey.eq_unknownSortField_of_read {entry : String} {failure : Failure}
    (h : SortKey.read entry = .error failure) : failure = .unknownSortField entry := by
  unfold SortKey.read at h
  split at h
  · cases h
  · split at h
    · cases h
    · exact (Except.error.inj h).symm
  · exact (Except.error.inj h).symm

theorem exists_unknownSortField_of_readOrderBy {text : String} {failure : Failure}
    (h : readOrderBy text = .error failure) : ∃ field, failure = .unknownSortField field := by
  obtain ⟨entry, -, hentry⟩ := exists_of_mapM_eq_error h
  exact ⟨entry, SortKey.eq_unknownSortField_of_read hentry⟩

namespace PropertyMapping

/-! ### Mapped fields -/

/-- An entry that is found has the name that was looked for, up to case. -/
theorem sameName_of_entry? {m : PropertyMapping} {field : String} {e : String × List MappedProperty}
    (h : m.entry? field = some e) : e ∈ m.table.entries ∧ Text.sameName e.1 field := by
  unfold entry? OrderedMap.get? at h
  cases hlookup : m.table.entries.lookup field with
  | some properties =>
    rw [hlookup] at h
    obtain rfl : (field, properties) = e := Option.some.inj h
    obtain ⟨before, after, hsplit, -⟩ := List.lookup_eq_some_iff.mp hlookup
    exact ⟨by simp [hsplit], Text.sameName_refl field⟩
  | none =>
    rw [hlookup] at h
    exact ⟨List.mem_of_find?_eq_some h,
      List.find?_some (p := fun e : String × List MappedProperty => Text.sameName e.1 field) h⟩

/-- **A field is mapped exactly if it is one of the fields of the mapping up to case.** -/
theorem contains_iff_exists_sameName {m : PropertyMapping} {field : String} :
    m.contains field ↔ ∃ name ∈ m.fields, Text.sameName name field := by
  unfold contains
  rw [Option.isSome_iff_exists]
  constructor
  · rintro ⟨e, he⟩
    obtain ⟨hmem, hname⟩ := sameName_of_entry? he
    exact ⟨e.1, List.mem_map_of_mem hmem, hname⟩
  · rintro ⟨name, hname, hsame⟩
    obtain ⟨e, hmem, rfl⟩ := List.mem_map.mp hname
    have hfind : (m.table.entries.find? fun e => Text.sameName e.1 field).isSome :=
      List.find?_isSome.mpr ⟨e, hmem, hsame⟩
    unfold entry?
    split
    · exact ⟨_, rfl⟩
    · exact Option.isSome_iff_exists.mp hfind

/-- The identity field leads to the identity property. -/
theorem get?_identity (m : PropertyMapping) : m.get? m.identity = some [{ name := m.identity }] := by
  simp [get?, entry?, m.identity_mapped]

/-! ### Covered expressions -/

/-- The entry can be read and names a field of the mapping. -/
def CoversEntry (m : PropertyMapping) (entry : String) : Prop :=
  match SortKey.read entry with
  | .ok key => ∃ name ∈ m.fields, Text.sameName name key.field
  | .error _ => False

instance (m : PropertyMapping) (entry : String) : Decidable (m.CoversEntry entry) :=
  match h : SortKey.read entry with
  | .ok key =>
    decidable_of_iff (∃ name ∈ m.fields, Text.sameName name key.field) (by simp [CoversEntry, h])
  | .error _ => isFalse (by simp [CoversEntry, h])

/-- Every entry of the expression can be read and names a field of the mapping. -/
def Covers (m : PropertyMapping) (orderBy : Option String) : Prop :=
  ∀ entry ∈ Text.entries (orderBy.getD ""), m.CoversEntry entry

instance (m : PropertyMapping) (orderBy : Option String) : Decidable (m.Covers orderBy) :=
  inferInstanceAs (Decidable (∀ entry ∈ Text.entries (orderBy.getD ""), m.CoversEntry entry))

theorem coversEntry_iff {m : PropertyMapping} {entry : String} :
    m.CoversEntry entry ↔ ∃ key, SortKey.read entry = .ok key ∧ m.contains key.field := by
  unfold CoversEntry
  cases SortKey.read entry with
  | ok key => simp [contains_iff_exists_sameName]
  | error failure => simp

/-- An expression is covered exactly if it can be read and all its keys are mapped. -/
theorem covers_iff {m : PropertyMapping} {orderBy : Option String} :
    m.Covers orderBy ↔
      ∃ keys, readOrderBy (orderBy.getD "") = .ok keys ∧ ∀ key ∈ keys, m.contains key.field := by
  constructor
  · intro h
    obtain ⟨keys, hkeys⟩ := exists_mapM_eq_ok_iff.mpr fun entry he =>
      (coversEntry_iff.mp (h entry he)).imp fun key hkey => hkey.1
    refine ⟨keys, hkeys, ?_⟩
    -- A key comes from an entry, and that entry is covered.
    intro key hkey
    obtain ⟨entry, he, hread⟩ := (mem_iff_of_mapM_eq_ok hkeys).mp hkey
    obtain ⟨key', hread', hmapped⟩ := coversEntry_iff.mp (h entry he)
    obtain rfl : key = key' := Except.ok.inj (hread.symm.trans hread')
    exact hmapped
  · rintro ⟨keys, hkeys, hmapped⟩ entry he
    obtain ⟨key, hread⟩ := exists_mapM_eq_ok_iff.mp ⟨keys, hkeys⟩ entry he
    exact coversEntry_iff.mpr
      ⟨key, hread, hmapped key ((mem_iff_of_mapM_eq_ok hkeys).mpr ⟨entry, he, hread⟩)⟩

theorem covers_filter_not_blank {m : PropertyMapping} {orderBy : Option String} :
    m.Covers (orderBy.filter (! Text.isBlankText ·)) ↔ m.Covers orderBy := by
  unfold Covers
  rw [Text.entries_of_filter_not_blank]

/-- A blank expression is covered by every mapping. -/
theorem covers_of_blank (m : PropertyMapping) {orderBy : Option String}
    (h : Text.isBlankText (orderBy.getD "")) : m.Covers orderBy := by
  intro entry he
  rw [Text.entries_of_isBlankText h] at he
  exact absurd he List.not_mem_nil

/-! ### Compiling -/

/-- The properties behind a mapped key, with the directions in which they run. -/
theorem expand_of_contains {m : PropertyMapping} {key : SortKey} (h : m.contains key.field) :
    m.expand key = .ok (((m.get? key.field).getD []).map fun p => (p.name, p.direction key.direction)) := by
  obtain ⟨entry, hentry⟩ := Option.isSome_iff_exists.mp h
  simp [expand, get?, hentry]

theorem expand_of_not_contains {m : PropertyMapping} {key : SortKey} (h : m.contains key.field = false) :
    m.expand key = .error (.unknownSortField key.field) := by
  have hnone : m.entry? key.field = none := by simpa [contains] using h
  simp [expand, get?, hnone]

/-- **Keys compile exactly if all of them are mapped**; otherwise one of them is reported. -/
theorem compileKeys_cases (m : PropertyMapping) (keys : List SortKey) :
    ((∀ key ∈ keys, m.contains key.field) ∧ ∃ steps, m.compileKeys keys = .ok steps) ∨
    ((∃ key ∈ keys, m.contains key.field = false) ∧
      ∃ field, m.compileKeys keys = .error (.unknownSortField field)) := by
  unfold compileKeys
  cases hkeys : keys.mapM m.expand with
  | ok expanded =>
    left
    refine ⟨?_, stepsOf expanded.flatten, rfl⟩
    intro key hkey
    by_contra hnot
    obtain ⟨y, hy⟩ := exists_mapM_eq_ok_iff.mp ⟨expanded, hkeys⟩ key hkey
    rw [expand_of_not_contains (by simpa using hnot)] at hy
    cases hy
  | error failure =>
    right
    obtain ⟨key, hkey, hfail⟩ := exists_of_mapM_eq_error hkeys
    cases hmapped : m.contains key.field with
    | true =>
      rw [expand_of_contains hmapped] at hfail
      cases hfail
    | false =>
      rw [expand_of_not_contains hmapped] at hfail
      obtain rfl : .unknownSortField key.field = failure := Except.error.inj hfail
      exact ⟨⟨key, hkey, hmapped⟩, key.field, rfl⟩

/-- The identity field alone compiles to one ascending step by the identity property. -/
theorem compileKeys_identity (m : PropertyMapping) :
    m.compileKeys [⟨m.identity, .ascending⟩] = .ok [⟨m.identity, .ascending, true⟩] := by
  have hexpand : m.expand ⟨m.identity, .ascending⟩ = .ok [(m.identity, .ascending)] := by
    simp [expand, m.get?_identity, MappedProperty.direction]
  unfold compileKeys
  rw [mapM_cons_of_ok hexpand]
  rfl

/-- A blank expression compiles to the identity field, ascending. -/
theorem compile_of_blank (m : PropertyMapping) {orderBy : Option String}
    (h : Text.isBlankText (orderBy.getD "")) :
    m.compile orderBy = .ok [⟨m.identity, .ascending, true⟩] := by
  have hread : readOrderBy (orderBy.getD "") = .ok [] := by
    unfold readOrderBy
    rw [Text.entries_of_isBlankText h]
    rfl
  unfold compile
  rw [hread]
  exact m.compileKeys_identity

theorem compile_filter_not_blank (m : PropertyMapping) (orderBy : Option String) :
    m.compile (orderBy.filter (! Text.isBlankText ·)) = m.compile orderBy := by
  unfold compile readOrderBy
  rw [Text.entries_of_filter_not_blank]

/-- **Compiling succeeds exactly on covered expressions**, and its only failure is an unknown sort field. -/
theorem compile_cases (m : PropertyMapping) (orderBy : Option String) :
    (m.Covers orderBy ∧ ∃ steps, m.compile orderBy = .ok steps) ∨
    (¬ m.Covers orderBy ∧ ∃ field, m.compile orderBy = .error (.unknownSortField field)) := by
  rw [covers_iff]
  unfold compile
  cases hread : readOrderBy (orderBy.getD "") with
  | error failure =>
    obtain ⟨field, rfl⟩ := exists_unknownSortField_of_readOrderBy hread
    right
    refine ⟨?_, field, rfl⟩
    rintro ⟨keys, hkeys, -⟩
    cases hkeys
  | ok keys =>
    cases keys with
    | nil =>
      -- Without keys the identity field takes their place, and every mapping maps it.
      exact Or.inl ⟨⟨[], rfl, by simp⟩, _, m.compileKeys_identity⟩
    | cons key rest =>
      rcases m.compileKeys_cases (key :: rest) with ⟨hall, hsteps⟩ | ⟨⟨k, hk, hmapped⟩, hfail⟩
      · exact Or.inl ⟨⟨key :: rest, rfl, hall⟩, hsteps⟩
      · right
        refine ⟨?_, hfail⟩
        rintro ⟨keys, hkeys, hall⟩
        obtain rfl : key :: rest = keys := Except.ok.inj hkeys
        exact absurd (hall k hk) (by simp [hmapped])

theorem covers_of_compile {m : PropertyMapping} {orderBy : Option String} {steps : List SortStep}
    (h : m.compile orderBy = .ok steps) : m.Covers orderBy := by
  rcases m.compile_cases orderBy with ⟨hcovers, -⟩ | ⟨-, field, hfield⟩
  · exact hcovers
  · rw [h] at hfield
    cases hfield

theorem exists_compile_of_covers {m : PropertyMapping} {orderBy : Option String} (h : m.Covers orderBy) :
    ∃ steps, m.compile orderBy = .ok steps := by
  rcases m.compile_cases orderBy with ⟨-, hsteps⟩ | ⟨hcovers, -⟩
  · exact hsteps
  · exact absurd h hcovers

end PropertyMapping

/-! ### The registry -/

namespace Registry

theorem resolve_of_get?_eq_none {r : Registry} {pair : TypePair} (h : r.table.get? pair = none) :
    r.resolve pair = .error (.mappingNotFound (shortName pair.resource) (shortName pair.entity)) := by
  unfold resolve
  rw [h]

theorem resolve_of_get?_eq_some {r : Registry} {pair : TypePair} {m : PropertyMapping}
    (h : r.table.get? pair = some m) : r.resolve pair = .ok m := by
  unfold resolve
  rw [h]

/-- The steps for a registered pair are those of its mapping. -/
theorem compile_of_get? {r : Registry} {pair : TypePair} {m : PropertyMapping}
    (h : r.table.get? pair = some m) (orderBy : Option String) :
    r.compile pair orderBy = m.compile orderBy := by
  unfold compile
  rw [resolve_of_get?_eq_some h]
  rfl

/-- **The check decides whether the mapping covers the expression.** -/
theorem accepts_cases {r : Registry} {pair : TypePair} {m : PropertyMapping}
    (h : r.table.get? pair = some m) (orderBy : Option String) :
    (m.Covers orderBy ∧ r.accepts pair orderBy = .ok true) ∨
    (¬ m.Covers orderBy ∧ r.accepts pair orderBy = .ok false) := by
  have hresolve : r.resolve pair = .ok m := resolve_of_get?_eq_some h
  unfold accepts
  rw [hresolve]
  cases orderBy with
  | none =>
    -- The check reads nothing here, where compiling reads an empty text; that text has no entries.
    exact Or.inl ⟨m.covers_of_blank rfl, rfl⟩
  | some text =>
    rw [PropertyMapping.covers_iff, Option.getD_some]
    cases hread : readOrderBy text with
    | error failure =>
      right
      refine ⟨?_, by simp only [bind, Except.bind, hread]⟩
      rintro ⟨keys, hkeys, -⟩
      cases hkeys
    | ok keys =>
      by_cases hall : ∀ key ∈ keys, m.contains key.field
      · left
        refine ⟨⟨keys, rfl, hall⟩, ?_⟩
        have hbool : keys.all (m.contains ·.field) = true := List.all_eq_true.mpr hall
        simp only [bind, Except.bind, hread, hbool]
      · right
        have hbool : keys.all (m.contains ·.field) = false := by
          rw [← Bool.not_eq_true, List.all_eq_true]
          exact hall
        refine ⟨?_, by simp only [bind, Except.bind, hread, hbool]⟩
        rintro ⟨keys', hkeys, hall'⟩
        obtain rfl : keys = keys' := Except.ok.inj hkeys
        exact hall hall'

/-- **Checking a sort expression and compiling it never disagree.** For a pair without a mapping both report
the missing mapping. For a registered pair the check passes exactly if compiling succeeds, and fails exactly
if compiling reports an unknown sort field; a blank expression compiles to the identity field. -/
theorem accepts_iff_compile_ok (r : Registry) (pair : TypePair) (orderBy : Option String) :
    match r.table.get? pair with
    | none =>
      r.accepts pair orderBy =
        .error (.mappingNotFound (shortName pair.resource) (shortName pair.entity)) ∧
      r.compile pair orderBy =
        .error (.mappingNotFound (shortName pair.resource) (shortName pair.entity))
    | some m =>
      (r.accepts pair orderBy = .ok true ∨ r.accepts pair orderBy = .ok false) ∧
      (r.accepts pair orderBy = .ok true ↔ ∃ steps, r.compile pair orderBy = .ok steps) ∧
      (r.accepts pair orderBy = .ok false ↔
        ∃ field, r.compile pair orderBy = .error (.unknownSortField field)) ∧
      (Text.isBlankText (orderBy.getD "") →
        r.compile pair orderBy = .ok [⟨m.identity, .ascending, true⟩]) := by
  cases hm : r.table.get? pair with
  | none =>
    have hresolve := resolve_of_get?_eq_none hm
    unfold accepts compile
    rw [hresolve]
    exact ⟨rfl, rfl⟩
  | some m =>
    have hblank : Text.isBlankText (orderBy.getD "") →
        m.compile orderBy = .ok [⟨m.identity, .ascending, true⟩] := m.compile_of_blank
    rw [compile_of_get? hm]
    rcases accepts_cases hm orderBy with ⟨hcovers, haccepts⟩ | ⟨hcovers, haccepts⟩ <;>
      rcases m.compile_cases orderBy with ⟨hcovers', steps, hsteps⟩ | ⟨hcovers', field, hfield⟩
    · exact ⟨Or.inl haccepts, by simp [haccepts, hsteps], by simp [haccepts, hsteps], hblank⟩
    · exact absurd hcovers hcovers'
    · exact absurd hcovers' hcovers
    · exact ⟨Or.inr haccepts, by simp [haccepts, hfield], by simp [haccepts, hfield], hblank⟩

end Registry

end HypermediaApi
