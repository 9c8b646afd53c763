import HypermediaApi.Proofs.Schema.Paths
import HypermediaApi.Selection

/-!
# HypermediaApi.Proofs.Selection.Agreement — checking a field list and cutting to it agree

A field list is checked by resolving its entries and then cut to by resolving them again and reading what they
lead to. The two could part company where an entry resolves and cannot be read; `Schema.Paths` excludes that.

`exists_selectField_of_hasPath` and `selectField_of_not_hasPath` say what one entry does to a record, and the
fold over all entries follows the search for the first entry without a canonical path (`foldlM_selectField`).
So the check passes exactly if cutting succeeds, and when they fail, both name the first entry that leads
nowhere.
-/

namespace HypermediaApi

variable {α : Type}

namespace Schema

/-- The entry at which a field list stops making sense: it has no canonical path, and every entry before it
has one. -/
def FirstUnresolved (s : Schema α) (entries : List String) (entry : String) : Prop :=
  ∃ before after, entries = before ++ entry :: after ∧
    (∀ e ∈ before, ∃ path, s.canonicalPath e = some path) ∧ s.canonicalPath entry = none

theorem hasPath_iff {s : Schema α} {entry : String} :
    s.hasPath entry ↔ ∃ path, s.canonicalPath entry = some path := by
  unfold hasPath
  exact Option.isSome_iff_exists

/-- The search for an entry without a path finds the first one. -/
theorem firstUnresolved_of_find? {s : Schema α} {entries : List String} {entry : String}
    (h : entries.find? (! s.hasPath ·) = some entry) : s.FirstUnresolved entries entry := by
  obtain ⟨hentry, before, after, hsplit, hbefore⟩ := List.find?_eq_some_iff_append.mp h
  refine ⟨before, after, hsplit, ?_, ?_⟩
  · intro e he
    have hnot := hbefore e he
    exact hasPath_iff.mp (by simpa using hnot)
  · simpa [hasPath] using hentry

/-! ### One entry -/

theorem exists_selectField_of_hasPath {s : Schema α} {entry : String} (h : s.hasPath entry) (x : α)
    (r : Record) : ∃ r', s.selectField x r entry = .ok r' := by
  obtain ⟨path, hpath⟩ := hasPath_iff.mp h
  obtain ⟨v, hv⟩ := exists_readPath_of_canonicalPath hpath x
  unfold selectField
  rw [hpath]
  by_cases hkey : r.contains (".".intercalate path)
  · exact ⟨r, by simp [hkey]⟩
  · exact ⟨r.insert (".".intercalate path) v, by simp [hkey, hv]⟩

theorem selectField_of_not_hasPath {s : Schema α} {entry : String} (h : s.hasPath entry = false) (x : α)
    (r : Record) : s.selectField x r entry = .error (.shapeMismatch s.name entry) := by
  have hnone : s.canonicalPath entry = none := by simpa [hasPath] using h
  unfold selectField
  rw [hnone]

/-! ### All entries -/

/-- **The fold over the entries follows the search for one without a path**: it stops with that entry if
there is one, and succeeds otherwise. The record it starts from plays no part. -/
theorem foldlM_selectField (s : Schema α) (x : α) (entries : List String) (r : Record) :
    match entries.find? (! s.hasPath ·) with
    | some entry => entries.foldlM (s.selectField x) r = .error (.shapeMismatch s.name entry)
    | none => ∃ r', entries.foldlM (s.selectField x) r = .ok r' := by
  induction entries generalizing r with
  | nil => exact ⟨r, rfl⟩
  | cons e rest ih =>
    rw [List.find?_cons, List.foldlM_cons]
    -- The head leaves a record to go on from, or ends the fold; the search goes on or ends alike.
    by_cases he : s.hasPath e
    · obtain ⟨r', hr'⟩ := exists_selectField_of_hasPath he x r
      rw [hr', he]
      exact ih r'
    · rw [Bool.not_eq_true] at he
      rw [selectField_of_not_hasPath he x r, he]
      rfl

/-- Cutting to a field list follows the same search. -/
theorem select_of_find? (s : Schema α) (x : α) (fields : Option String) :
    match s.firstUnknown? fields with
    | some entry => s.select x fields = .error (.shapeMismatch s.name entry)
    | none => ∃ r, s.select x fields = .ok r := by
  have hfold := s.foldlM_selectField x (requestedFields fields) .empty
  unfold firstUnknown? select
  cases hentries : requestedFields fields with
  | nil => exact ⟨s.selectAll x, rfl⟩
  | cons e rest =>
    rw [hentries] at hfold
    exact hfold

/-! ### Which lists pass -/

theorem requestedFields_eq (fields : Option String) :
    requestedFields fields = Text.entries (fields.getD "") := by
  cases fields with
  | none => rfl
  | some text => rfl

theorem requestedFields_filter_not_blank (fields : Option String) :
    requestedFields (fields.filter (! Text.isBlankText ·)) = requestedFields fields := by
  rw [requestedFields_eq, requestedFields_eq, Text.entries_of_filter_not_blank]

/-- A list passes the check exactly if every entry has a canonical path. -/
theorem fieldsExist_iff {s : Schema α} {fields : Option String} :
    s.fieldsExist fields = true ↔ ∀ entry ∈ requestedFields fields, s.hasPath entry := by
  have hnone : s.firstUnknown? fields = none ↔ ∀ entry ∈ requestedFields fields, s.hasPath entry := by
    unfold firstUnknown?
    rw [List.find?_eq_none]
    simp
  rw [← hnone]
  unfold fieldsExist checkFields
  cases s.firstUnknown? fields with
  | none => exact ⟨fun _ => rfl, fun _ => rfl⟩
  | some entry => simp [Except.isOk, Except.toBool]

/-- A list that passes the check can be cut to. -/
theorem exists_select_of_fieldsExist {s : Schema α} {fields : Option String} (h : s.fieldsExist fields = true)
    (x : α) : ∃ r, s.select x fields = .ok r := by
  have hselect := s.select_of_find? x fields
  unfold fieldsExist checkFields at h
  cases hfirst : s.firstUnknown? fields with
  | none =>
    rw [hfirst] at hselect
    exact hselect
  | some entry =>
    rw [hfirst] at h
    cases h

/-- Every entry of the field list is one of the schema's own names up to case. -/
def Covers (s : Schema α) (fields : Option String) : Prop :=
  ∀ entry ∈ requestedFields fields, ∃ name ∈ s.names, Text.sameName name entry

instance (s : Schema α) (fields : Option String) : Decidable (s.Covers fields) :=
  inferInstanceAs (Decidable (∀ entry ∈ requestedFields fields, ∃ name ∈ s.names, Text.sameName name entry))

/-- In a flat schema the lists that pass are those of its own names. -/
theorem fieldsExist_iff_covers {s : Schema α} (hflat : s.Flat) {fields : Option String} :
    s.fieldsExist fields = true ↔ s.Covers fields := by
  rw [fieldsExist_iff]
  unfold Covers
  refine forall₂_congr fun entry he => hasPath_iff_of_flat hflat ?_
  rw [requestedFields_eq] at he
  exact Text.trim_of_mem_entries he

/-! ### Agreement -/

/-- **Checking a field list and cutting to it never disagree.** The check passes exactly if cutting succeeds,
whatever the resource; and when they fail, the two failures name the same entry, the first one of the list
that has no canonical path. -/
theorem fieldsExist_iff_select_ok (s : Schema α) (x : α) (fields : Option String) :
    (s.fieldsExist fields = true ↔ ∃ r, s.select x fields = .ok r) ∧
    (s.fieldsExist fields = true ∨
      ∃ entry, s.FirstUnresolved (requestedFields fields) entry ∧
        s.checkFields fields = .error (.unknownField s.name entry) ∧
        s.select x fields = .error (.shapeMismatch s.name entry)) := by
  have hselect := s.select_of_find? x fields
  unfold fieldsExist checkFields
  cases hfirst : s.firstUnknown? fields with
  | none =>
    rw [hfirst] at hselect
    exact ⟨⟨fun _ => hselect, fun _ => rfl⟩, Or.inl rfl⟩
  | some entry =>
    rw [hfirst] at hselect
    refine ⟨⟨fun h => by simp [Except.isOk, Except.toBool] at h, ?_⟩,
      Or.inr ⟨entry, firstUnresolved_of_find? hfirst, rfl, hselect⟩⟩
    rintro ⟨r, hr⟩
    rw [hselect] at hr
    exact absurd hr (by simp)

end Schema

end HypermediaApi
