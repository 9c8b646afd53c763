import HypermediaApi.Proofs.Ordering.Agreement

/-!
# HypermediaApi.Proofs.Ordering.Meaning — what a sort expression compiles to

The meaning of a list of keys is given in one line for all of them (`PropertyMapping.meaning`): each key stands for
the properties behind its field, in the order of the mapping, descending where exactly one of the key and the
property says so, and the step at the head of the whole list is the first. Compiling works in two passes instead,
each of which stops at its first failure: all entries are read, and then all keys are looked up. So an entry that
cannot be read is reported before a field that is not mapped, wherever the two stand.
-/

namespace HypermediaApi

/-! ### Readable entries -/

/-- The entry is a field, alone or with one word after it that is a direction up to case. -/
def SortKey.isReadable (entry : String) : Bool :=
  match Text.words entry with
  | [_] => true
  | [_, word] => Text.sameName word "asc" || Text.sameName word "desc"
  | _ => false

theorem Direction.isSome_ofKeyword? (word : String) :
    (Direction.ofKeyword? word).isSome = (Text.sameName word "asc" || Text.sameName word "desc") := by
  unfold Direction.ofKeyword?
  cases Text.sameName word "desc" <;> cases Text.sameName word "asc" <;> rfl

/-- An entry is read if it is readable, and reported as it stands if it is not. -/
theorem SortKey.read_cases (entry : String) :
    (SortKey.isReadable entry = true ∧ ∃ key, SortKey.read entry = .ok key) ∨
      (SortKey.isReadable entry = false ∧ SortKey.read entry = .error (.unknownSortField entry)) := by
  unfold SortKey.isReadable SortKey.read
  -- No word, one, two, or more.
  rcases Text.words entry with _ | ⟨field, _ | ⟨word, _ | ⟨other, rest⟩⟩⟩
  · exact Or.inr ⟨rfl, rfl⟩
  · exact Or.inl ⟨rfl, _, rfl⟩
  · simp only [← Direction.isSome_ofKeyword? word]
    cases Direction.ofKeyword? word with
    | some direction => exact Or.inl ⟨rfl, _, rfl⟩
    | none => exact Or.inr ⟨rfl, rfl⟩
  · exact Or.inr ⟨rfl, rfl⟩

theorem SortKey.exists_read_of_isReadable {entry : String} (h : SortKey.isReadable entry) :
    ∃ key, SortKey.read entry = .ok key := by
  rcases SortKey.read_cases entry with ⟨-, hkey⟩ | ⟨hnot, -⟩
  · exact hkey
  · rw [hnot] at h
    cases h

theorem SortKey.read_of_not_isReadable {entry : String} (h : SortKey.isReadable entry = false) :
    SortKey.read entry = .error (.unknownSortField entry) := by
  rcases SortKey.read_cases entry with ⟨hread, -⟩ | ⟨-, hfail⟩
  · rw [hread] at h
    cases h
  · exact hfail

/-! ### The meaning of keys -/

/-- The steps that a list of keys stands for. -/
def PropertyMapping.meaning (m : PropertyMapping) (keys : List SortKey) : List SortStep :=
  let properties := keys.flatMap fun key => ((m.get? key.field).getD []).map fun property =>
    (property.name, if key.direction.isDescending ^^ property.reversed then Direction.descending else .ascending)
  properties.mapIdx fun i (name, direction) => ⟨name, direction, i == 0⟩

/-- The keys that an expression sorts by: those it has, or the identity in ascending order if it has none. -/
def PropertyMapping.wanted (m : PropertyMapping) (keys : List SortKey) : List SortKey :=
  if keys.isEmpty then [⟨m.identity, .ascending⟩] else keys

/-- A property runs downwards if exactly one of the key and the property says so. -/
theorem MappedProperty.direction_eq (property : MappedProperty) (d : Direction) :
    property.direction d = if d.isDescending ^^ property.reversed then .descending else .ascending := by
  unfold MappedProperty.direction
  cases d <;> cases property.reversed <;> rfl

/-- The first step is the one at the head of the list. -/
theorem stepsOf_eq_mapIdx (properties : List (String × Direction)) :
    stepsOf properties = properties.mapIdx fun i (name, direction) => ⟨name, direction, i == 0⟩ := by
  cases properties with
  | nil => rfl
  | cons head rest =>
    simp only [List.mapIdx_cons, stepsOf]
    congr 1
    refine List.ext_getElem (by simp) ?_
    intro i h₁ h₂
    simp

namespace PropertyMapping

/-- Keys that are all mapped compile to what they stand for. -/
theorem compileKeys_eq_meaning {m : PropertyMapping} {keys : List SortKey}
    (h : ∀ key ∈ keys, m.contains key.field) : m.compileKeys keys = .ok (m.meaning keys) := by
  unfold compileKeys meaning
  rw [mapM_eq_ok_map fun key hkey => expand_of_contains (h key hkey)]
  simp only [Except.map, stepsOf_eq_mapIdx, ← List.flatMap_def, MappedProperty.direction_eq]

/-- Keys of which one is not mapped do not compile, and the first such one is reported. -/
theorem compileKeys_of_find? {m : PropertyMapping} {keys : List SortKey} {key : SortKey}
    (hfind : keys.find? (! m.contains ·.field) = some key) :
    m.compileKeys keys = .error (.unknownSortField key.field) := by
  have hnot : m.contains key.field = false := by simpa using List.find?_some hfind
  have hkeys : keys.mapM m.expand = .error (.unknownSortField key.field) :=
    mapM_eq_error_of_find? (fun _ hkey => ⟨_, expand_of_contains hkey⟩) hfind (expand_of_not_contains hnot)
  unfold compileKeys
  rw [hkeys]
  rfl

theorem compile_of_read {m : PropertyMapping} {orderBy : Option String} {keys : List SortKey}
    (h : readOrderBy (orderBy.getD "") = .ok keys) : m.compile orderBy = m.compileKeys (m.wanted keys) := by
  unfold compile wanted
  rw [h]
  cases keys <;> rfl

theorem compile_of_read_error {m : PropertyMapping} {orderBy : Option String} {failure : Failure}
    (h : readOrderBy (orderBy.getD "") = .error failure) : m.compile orderBy = .error failure := by
  unfold compile
  rw [h]
  rfl

/-- **A sort expression compiles to what its keys stand for.** If an entry cannot be read, the first such one is
reported as it stands, whatever the other entries name. Otherwise the expression has its keys, or the identity in
ascending order if there are none: if a field among them is not mapped, the first such one is reported as it was
written, and if all are mapped, the steps are those that the keys stand for. -/
theorem compile_eq_meaning (m : PropertyMapping) (orderBy : Option String) :
    match (Text.entries (orderBy.getD "")).find? (! SortKey.isReadable ·) with
    | some entry =>
      readOrderBy (orderBy.getD "") = .error (.unknownSortField entry) ∧
        m.compile orderBy = .error (.unknownSortField entry)
    | none =>
      ∃ keys, readOrderBy (orderBy.getD "") = .ok keys ∧
        match (m.wanted keys).find? (! m.contains ·.field) with
        | some key => m.compile orderBy = .error (.unknownSortField key.field)
        | none => m.compile orderBy = .ok (m.meaning (m.wanted keys)) := by
  cases hentry : (Text.entries (orderBy.getD "")).find? (! SortKey.isReadable ·) with
  | some entry =>
    have hnot : SortKey.isReadable entry = false := by simpa using List.find?_some hentry
    have hread : readOrderBy (orderBy.getD "") = .error (.unknownSortField entry) :=
      mapM_eq_error_of_find? (fun _ => SortKey.exists_read_of_isReadable) hentry
        (SortKey.read_of_not_isReadable hnot)
    exact ⟨hread, compile_of_read_error hread⟩
  | none =>
    have hreadable : ∀ entry ∈ Text.entries (orderBy.getD ""), ∃ key, SortKey.read entry = .ok key := by
      intro entry he
      have hnot := List.find?_eq_none.mp hentry entry he
      exact SortKey.exists_read_of_isReadable (by simpa using hnot)
    obtain ⟨keys, hread⟩ := exists_mapM_eq_ok_iff.mpr hreadable
    refine ⟨keys, hread, ?_⟩
    rw [compile_of_read hread]
    cases hkey : (m.wanted keys).find? (! m.contains ·.field) with
    | some key => exact compileKeys_of_find? hkey
    | none =>
      refine compileKeys_eq_meaning fun key hmem => ?_
      simpa using List.find?_eq_none.mp hkey key hmem

/-- A field without properties leaves the first place to the next one, and a reversed property runs downwards. -/
example :
    let m := (draft.map "none" [] |>.map "fresh" [{ name := "changed", reversed := true }]).build
    m.compile (some " none , FRESH asc,id") =
      .ok [⟨"changed", .descending, true⟩, ⟨"id", .ascending, false⟩] := by
  decide +kernel

end PropertyMapping

end HypermediaApi
