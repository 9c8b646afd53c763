import HypermediaApi.Ordering.Expression
import HypermediaApi.Proofs.Text.Names
import HypermediaApi.Proofs.Traversal

/-!
# HypermediaApi.Proofs.Ordering.Grammar — the texts that sort expressions are

Which texts can be read, and as which keys, is said without the reader by a grammar: `Writes text keys` holds of a
text made of entries with commas between them, each of them blank (`WritesEntry.blank`), a field
(`WritesEntry.bare`) or a field and a direction (`WritesEntry.directed`), with blank characters around and between.
Fields and directions are told apart by their places alone.

The grammar is ambiguous in neither direction that matters: a text is read as the keys it writes and as no others
(`readOrderBy_eq_ok_iff`). The proof goes along the commas (`readOrderBy_append`), so that all that is left is a single
entry, whose words are known from `Text.Words`.
-/

namespace HypermediaApi

/-! ### The grammar -/

/-- A field as it may stand in a sort expression: at least one character, none of them blank or a comma. -/
def IsFieldText (field : String) : Prop := Text.IsWord field ∧ ',' ∉ field.toList

instance (field : String) : Decidable (IsFieldText field) :=
  inferInstanceAs (Decidable (Text.IsWord field ∧ ',' ∉ field.toList))

/-- The texts that may stand between two commas, with the keys that they write. -/
inductive WritesEntry : String → List SortKey → Prop
  /-- Blank text writes no key. -/
  | blank {pad : String} (hpad : Text.isBlankText pad) : WritesEntry pad []
  /-- A field alone is ascending. -/
  | bare {left field right : String} (hleft : Text.isBlankText left) (hfield : IsFieldText field)
      (hright : Text.isBlankText right) : WritesEntry (left ++ (field ++ right)) [⟨field, .ascending⟩]
  /-- A word after the field, the keyword of a direction in any case, gives the direction. -/
  | directed {left field gap word right : String} {direction : Direction} (hleft : Text.isBlankText left)
      (hfield : IsFieldText field) (hgap : Text.isBlankText gap) (hne : gap ≠ "")
      (hword : Text.sameName word direction.label) (hright : Text.isBlankText right) :
      WritesEntry (left ++ (field ++ (gap ++ (word ++ right)))) [⟨field, direction⟩]

/-- The texts that write a list of keys: entries with commas between them. -/
inductive Writes : String → List SortKey → Prop
  | entry {text : String} {keys : List SortKey} (h : WritesEntry text keys) : Writes text keys
  | cons {text rest : String} {keys more : List SortKey} (h : WritesEntry text keys) (hrest : Writes rest more) :
      Writes (text ++ "," ++ rest) (keys ++ more)

/-! ### Keywords -/

namespace Direction

theorem ofKeyword?_eq_some_iff {word : String} {d : Direction} :
    ofKeyword? word = some d ↔ Text.sameName word d.label := by
  unfold ofKeyword?
  by_cases hdesc : Text.sameName word "desc"
  · -- No word is a spelling of both keywords.
    have hasc : ¬ Text.sameName word "asc" := by
      rw [Text.sameName_iff] at hdesc ⊢
      rw [hdesc]
      decide
    cases d <;> simp [hdesc, hasc, label]
  · by_cases hasc : Text.sameName word "asc" <;> cases d <;> simp [hdesc, hasc, label]

/-- A keyword in any case may as well be a field. -/
theorem isFieldText_of_sameName {word : String} {d : Direction} (h : Text.sameName word d.label) :
    IsFieldText word := by
  have hlabel : IsFieldText d.label := by cases d <;> decide
  have hsame : Text.sameName d.label word := Text.sameName_comm.mp h
  refine ⟨Text.IsWord.of_sameName h hlabel.1, fun hcomma => ?_⟩
  exact hlabel.2 (Text.mem_of_sameName hsame (by decide) rfl hcomma)

end Direction

/-! ### One entry -/

theorem SortKey.read_eq_ok_iff {entry : String} {key : SortKey} :
    SortKey.read entry = .ok key ↔
      (Text.words entry = [key.field] ∧ key.direction = .ascending) ∨
        ∃ word, Text.words entry = [key.field, word] ∧ Text.sameName word key.direction.label := by
  obtain ⟨field, direction⟩ := key
  unfold SortKey.read
  -- No word, one, two, or more.
  rcases Text.words entry with _ | ⟨field', _ | ⟨word, _ | ⟨other, rest⟩⟩⟩
  · simp
  · simp [eq_comm (a := direction)]
  · simp only [← Direction.ofKeyword?_eq_some_iff]
    cases hword : Direction.ofKeyword? word <;> simp [hword]
  · simp

/-- A text without a comma is read as a single key, or as none if it is blank. -/
theorem readOrderBy_of_not_mem_comma {text : String} (h : ',' ∉ text.toList) {keys : List SortKey} :
    readOrderBy text = .ok keys ↔
      (Text.isBlankText text ∧ keys = []) ∨ ∃ key, SortKey.read (Text.trim text) = .ok key ∧ keys = [key] := by
  unfold readOrderBy
  rw [Text.entries_of_not_mem_comma h]
  by_cases hblank : Text.isBlankText text
  · have hnone : ∀ key, SortKey.read (Text.trim text) ≠ .ok key := by
      intro key hread
      rw [SortKey.read_eq_ok_iff, Text.words_trim, Text.words_of_isBlankText hblank] at hread
      simp at hread
    simp [hblank, hnone, pure, Except.pure, eq_comm]
  · rw [if_neg hblank]
    cases hread : SortKey.read (Text.trim text) with
    | ok key =>
      rw [mapM_cons_of_ok hread]
      simp [hblank, pure, Except.pure, Except.map, eq_comm]
    | error failure =>
      rw [mapM_cons_of_error hread]
      simp [hblank]

/-- Texts put together at a comma are read as one after the other. -/
theorem readOrderBy_append {a b : String} {keys : List SortKey} :
    readOrderBy (a ++ "," ++ b) = .ok keys ↔
      ∃ before after, readOrderBy a = .ok before ∧ readOrderBy b = .ok after ∧ keys = before ++ after := by
  unfold readOrderBy
  rw [Text.entries_append, mapM_append_eq_ok_iff]

/-! ### Reading and the grammar -/

/-- No entry holds a comma. -/
theorem WritesEntry.not_mem_comma {text : String} {keys : List SortKey} (h : WritesEntry text keys) :
    ',' ∉ text.toList := by
  have hblank : ∀ {pad : String}, Text.isBlankText pad → ',' ∉ pad.toList := fun hpad hcomma =>
    absurd (Text.isBlankText_iff.mp hpad ',' hcomma) (by decide)
  cases h with
  | blank hpad => exact hblank hpad
  | bare hleft hfield hright =>
    simp [hblank hleft, hfield.2, hblank hright]
  | directed hleft hfield hgap hne hword hright =>
    simp [hblank hleft, hfield.2, hblank hgap, (Direction.isFieldText_of_sameName hword).2, hblank hright]

/-- **An entry is read as what it writes.** -/
theorem readOrderBy_eq_ok_iff_writesEntry {text : String} (h : ',' ∉ text.toList) {keys : List SortKey} :
    readOrderBy text = .ok keys ↔ WritesEntry text keys := by
  rw [readOrderBy_of_not_mem_comma h]
  simp only [SortKey.read_eq_ok_iff, Text.words_trim]
  constructor
  · rintro (⟨hblank, rfl⟩ | ⟨⟨field, direction⟩, ⟨hwords, hdirection⟩ | ⟨word, hwords, hword⟩, rfl⟩)
    · exact .blank hblank
    · obtain ⟨left, right, rfl, hleft, hfield, hright⟩ := Text.words_eq_singleton_iff.mp hwords
      obtain rfl : direction = .ascending := hdirection
      exact .bare hleft ⟨hfield, fun hcomma => h (by simp [hcomma])⟩ hright
    · obtain ⟨left, gap, right, rfl, hleft, hfield, hgap, hne, -, hright⟩ := Text.words_eq_pair_iff.mp hwords
      exact .directed hleft ⟨hfield, fun hcomma => h (by simp [hcomma])⟩ hgap hne hword hright
  · intro hwrites
    cases hwrites with
    | blank hpad => exact Or.inl ⟨hpad, rfl⟩
    | bare hleft hfield hright =>
      have hwords := Text.words_eq_singleton_iff.mpr ⟨_, _, rfl, hleft, hfield.1, hright⟩
      exact Or.inr ⟨⟨_, _⟩, Or.inl ⟨hwords, rfl⟩, rfl⟩
    | directed hleft hfield hgap hne hword hright =>
      have hwords := Text.words_eq_pair_iff.mpr
        ⟨_, _, _, rfl, hleft, hfield.1, hgap, hne, (Direction.isFieldText_of_sameName hword).1, hright⟩
      exact Or.inr ⟨⟨_, _⟩, Or.inr ⟨_, hwords, hword⟩, rfl⟩

/-- Entries joined by commas write what they are read as. -/
theorem writes_intercalate {parts : List String} (hne : parts ≠ []) (hcomma : ∀ part ∈ parts, ',' ∉ part.toList)
    {keys : List SortKey} (h : readOrderBy (",".intercalate parts) = .ok keys) :
    Writes (",".intercalate parts) keys := by
  induction parts generalizing keys with
  | nil => exact absurd rfl hne
  | cons part rest ih =>
    obtain ⟨hpart, hrest⟩ := List.forall_mem_cons.mp hcomma
    cases rest with
    | nil =>
      rw [String.intercalate_singleton] at h ⊢
      exact .entry ((readOrderBy_eq_ok_iff_writesEntry hpart).mp h)
    | cons next rest =>
      rw [String.intercalate_cons_cons] at h ⊢
      obtain ⟨before, after, hbefore, hafter, rfl⟩ := readOrderBy_append.mp h
      exact .cons ((readOrderBy_eq_ok_iff_writesEntry hpart).mp hbefore) (ih (by simp) hrest hafter)

/-- **A text is read as the keys it writes, and as no others.** -/
theorem readOrderBy_eq_ok_iff {text : String} {keys : List SortKey} :
    readOrderBy text = .ok keys ↔ Writes text keys := by
  constructor
  · have hjoin : ",".intercalate (Text.split ',' text) = text := Text.intercalate_split ',' text
    intro h
    rw [← hjoin] at h ⊢
    exact writes_intercalate (Text.split_ne_nil ',' text) (fun _ => Text.not_mem_of_mem_split) h
  · intro h
    induction h with
    | entry h => exact (readOrderBy_eq_ok_iff_writesEntry h.not_mem_comma).mpr h
    | cons h hrest ih =>
      exact readOrderBy_append.mpr ⟨_, _, (readOrderBy_eq_ok_iff_writesEntry h.not_mem_comma).mpr h, ih, rfl⟩

/-! ### Which keys can be written -/

theorem WritesEntry.isFieldText {text : String} {keys : List SortKey} (h : WritesEntry text keys) :
    ∀ key ∈ keys, IsFieldText key.field := by
  cases h with
  | blank => simp
  | bare hleft hfield hright => simpa using hfield
  | directed hleft hfield hgap hne hword hright => simpa using hfield

theorem Writes.isFieldText {text : String} {keys : List SortKey} (h : Writes text keys) :
    ∀ key ∈ keys, IsFieldText key.field := by
  induction h with
  | entry h => exact h.isFieldText
  | cons h hrest ih =>
    intro key hkey
    rcases List.mem_append.mp hkey with hkey | hkey
    · exact h.isFieldText key hkey
    · exact ih key hkey

/-- Keys whose fields may stand in an expression can be written. -/
theorem exists_writes {keys : List SortKey} (h : ∀ key ∈ keys, IsFieldText key.field) : ∃ text, Writes text keys := by
  induction keys with
  | nil => exact ⟨"", .entry (.blank rfl)⟩
  | cons key rest ih =>
    obtain ⟨hkey, hrest⟩ := List.forall_mem_cons.mp h
    obtain ⟨text, htext⟩ := ih hrest
    have hentry : WritesEntry ("" ++ (key.field ++ (" " ++ (key.direction.label ++ "")))) [key] :=
      .directed rfl hkey rfl (by decide) (Text.sameName_refl _) rfl
    exact ⟨_, .cons hentry htext⟩

/-- **Sort expressions are read by their grammar.** A text is read as a list of keys exactly if it writes that list.
The lists that some text writes, and that therefore come back whatever the layout they were written in, are those
whose fields are non-empty and hold neither blank characters nor commas. A keyword in the place of a field is a field,
also before a keyword. -/
theorem readOrderBy_iff_writes :
    (∀ text keys, readOrderBy text = .ok keys ↔ Writes text keys) ∧
    (∀ keys : List SortKey, (∃ text, Writes text keys) ↔ ∀ key ∈ keys, IsFieldText key.field) ∧
    ∀ (d e : Direction) (field word : String), Text.sameName field d.label → Text.sameName word e.label →
      readOrderBy field = .ok [⟨field, .ascending⟩] ∧ readOrderBy (field ++ " " ++ word) = .ok [⟨field, e⟩] := by
  refine ⟨fun text keys => readOrderBy_eq_ok_iff, fun keys => ⟨?_, exists_writes⟩, ?_⟩
  · rintro ⟨text, h⟩
    exact h.isFieldText
  · intro d e field word hfield hword
    have hstands : IsFieldText field := Direction.isFieldText_of_sameName hfield
    have hbare : WritesEntry ("" ++ (field ++ "")) [⟨field, .ascending⟩] := .bare rfl hstands rfl
    have hdirected : WritesEntry ("" ++ (field ++ (" " ++ (word ++ "")))) [⟨field, e⟩] :=
      .directed rfl hstands rfl (by decide) hword rfl
    rw [readOrderBy_eq_ok_iff, readOrderBy_eq_ok_iff]
    simp only [String.empty_append, String.append_empty, ← String.append_assoc] at hbare hdirected
    exact ⟨.entry hbare, .entry hdirected⟩

/-- Padding of several kinds, an empty entry, a keyword in mixed case and a field that is spelled like one. -/
theorem readOrderBy_iff_writes_padded :
    Writes " title\u00a0\tDESC , ,desc aSC,id\n" [⟨"title", .descending⟩, ⟨"desc", .ascending⟩, ⟨"id", .ascending⟩] :=
  (readOrderBy_iff_writes.1 _ _).mp (by decide +kernel)

end HypermediaApi
