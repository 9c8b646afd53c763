import HypermediaApi.Proofs.Text.Entries

/-!
# HypermediaApi.Proofs.Text.Joining — cutting undoes joining

A list of texts is written with one character between them and read by cutting at that character. The two are
inverse where no text of the list holds the character (`split_intercalate`, `intercalate_split`), and cutting a
text that was put together at a separator is cutting its two halves (`split_append`).

For comma-separated lists, of which the reader trims the entries and leaves out the empty ones, it follows that
a list of texts that are entries already reads back as it is (`entries_intercalate`).
-/

namespace HypermediaApi.Text

/-! ### Pieces -/

/-- The pieces are those of the standard library. -/
theorem pieces_eq_splitOnP (p : Char → Bool) (cs : List Char) : pieces p cs = cs.splitOnP p := by
  induction cs with
  | nil => rfl
  | cons c r ih =>
    rw [pieces, List.splitOnP_cons_eq_if_modifyHead, ih]
    split
    · rfl
    · cases h : r.splitOnP p with
      | nil => exact absurd h (List.splitOnP_ne_nil p r)
      | cons w ws => rfl

/-- A separator ends a piece, whatever stands before it. -/
theorem pieces_append_separator {p : Char → Bool} {d : Char} (hd : p d) (cs r : List Char) :
    pieces p (cs ++ d :: r) = pieces p cs ++ pieces p r := by
  simp only [pieces_eq_splitOnP]
  exact List.splitOnP_append_cons cs r hd

/-! ### Joining -/

variable {d : Char}

theorem split_eq_splitOn (d : Char) (s : String) : split d s = (s.toList.splitOn d).map String.ofList := by
  unfold split
  rw [pieces_eq_splitOnP, List.splitOn_eq_splitOnP]

/-- No part of a cut text holds the separator. -/
theorem not_mem_of_mem_split {s part : String} (h : part ∈ split d s) : d ∉ part.toList := by
  obtain ⟨w, hw, rfl⟩ := List.mem_map.mp h
  intro hd
  rw [String.toList_ofList] at hd
  have hnot := not_of_mem_pieces hw d hd
  simp at hnot

theorem split_ne_nil (d : Char) (s : String) : split d s ≠ [] := by
  unfold split
  simpa using pieces_ne_nil (· == d) s.toList

/-- Joining the parts of a cut text gives the text back. -/
theorem intercalate_split (d : Char) (s : String) : (String.singleton d).intercalate (split d s) = s := by
  rw [← String.toList_inj, String.toList_intercalate, split_eq_splitOn, List.map_map]
  simp [Function.comp_def, List.intercalate_splitOn]

/-- **Cutting undoes joining** where no part holds the separator. -/
theorem split_intercalate {parts : List String} (hne : parts ≠ []) (h : ∀ part ∈ parts, d ∉ part.toList) :
    split d ((String.singleton d).intercalate parts) = parts := by
  have hparts : ∀ cs ∈ parts.map String.toList, d ∉ cs := by simpa using h
  rw [split_eq_splitOn, String.toList_intercalate, String.toList_singleton,
    List.splitOn_intercalate d hparts (by simpa using hne)]
  simp [Function.comp_def]

/-- Text put together at a separator is cut as its two halves are. -/
theorem split_append (d : Char) (a b : String) :
    split d (a ++ String.singleton d ++ b) = split d a ++ split d b := by
  unfold split
  rw [← List.map_append, ← pieces_append_separator (p := (· == d)) (beq_self_eq_true d)]
  simp

/-! ### Characters -/

/-- A joined text holds the separator and the characters of its parts. -/
theorem eq_or_mem_of_mem_intercalate {parts : List String} {c : Char}
    (h : c ∈ ((String.singleton d).intercalate parts).toList) : c = d ∨ ∃ part ∈ parts, c ∈ part.toList := by
  induction parts with
  | nil => simp at h
  | cons a rest ih =>
    cases rest with
    | nil =>
      rw [String.intercalate_singleton] at h
      exact .inr ⟨a, by simp, h⟩
    | cons b rest =>
      rw [String.intercalate_cons_cons] at h
      simp only [String.toList_append, String.toList_singleton, List.mem_append, List.mem_singleton] at h
      rcases h with (ha | hd) | hrest
      · exact .inr ⟨a, by simp, ha⟩
      · exact .inl hd
      · exact (ih hrest).imp_right fun ⟨part, hpart, hc⟩ => ⟨part, List.mem_cons_of_mem a hpart, hc⟩

theorem mem_intercalate_of_mem {parts : List String} {part : String} {c : Char} (hpart : part ∈ parts)
    (hc : c ∈ part.toList) : c ∈ ((String.singleton d).intercalate parts).toList := by
  induction parts with
  | nil => simp at hpart
  | cons a rest ih =>
    cases rest with
    | nil =>
      obtain rfl : part = a := by simpa using hpart
      simpa using hc
    | cons b rest =>
      rw [String.intercalate_cons_cons]
      simp only [String.toList_append, List.mem_append]
      rcases List.mem_cons.mp hpart with rfl | hrest
      · exact .inl (.inl hc)
      · exact .inr (ih hrest)

/-- The parts of a cut text hold characters of the text only. -/
theorem mem_of_mem_split {s part : String} {c : Char} (h : part ∈ split d s) (hc : c ∈ part.toList) :
    c ∈ s.toList := by
  rw [← intercalate_split d s]
  exact mem_intercalate_of_mem h hc

/-! ### Trimmed parts -/

/-- Trimmed texts with a character between them that is not blank make a trimmed text. -/
theorem trim_append {a b : String} (hd : isBlank d = false) (ha : trim a = a) (hb : trim b = b) :
    trim (a ++ String.singleton d ++ b) = a ++ String.singleton d ++ b := by
  rw [trim_eq_self_iff] at ha hb ⊢
  simp only [String.toList_append, String.toList_singleton]
  constructor
  · cases hcs : a.toList with
    | nil => simp [hd]
    | cons c r =>
      rw [hcs] at ha
      simpa using ha.1
  · cases hcs : b.toList with
    | nil => simp [hd]
    | cons c r =>
      rw [hcs] at hb
      simpa [List.getLast?_append] using hb.2

theorem trim_intercalate (hd : isBlank d = false) {parts : List String} (h : ∀ part ∈ parts, trim part = part) :
    trim ((String.singleton d).intercalate parts) = (String.singleton d).intercalate parts := by
  induction parts with
  | nil => rfl
  | cons a rest ih =>
    obtain ⟨ha, hrest⟩ := List.forall_mem_cons.mp h
    cases rest with
    | nil =>
      rw [String.intercalate_singleton]
      exact ha
    | cons b rest =>
      rw [String.intercalate_cons_cons]
      exact trim_append hd ha (ih hrest)

/-! ### Comma-separated lists -/

/-- No entry holds a comma. -/
theorem not_mem_comma_of_mem_entries {s e : String} (h : e ∈ entries s) : ',' ∉ e.toList := by
  obtain ⟨hmap, -⟩ := List.mem_filter.mp h
  obtain ⟨part, hpart, rfl⟩ := List.mem_map.mp hmap
  exact fun hcomma => not_mem_of_mem_split hpart (mem_of_mem_trim hcomma)

/-- No entry is blank. -/
theorem not_isBlankText_of_mem_entries {s e : String} (h : e ∈ entries s) : ¬ isBlankText e := by
  have hne : e ≠ "" := by simpa using (List.mem_filter.mp h).2
  rw [← trim_eq_empty_iff, trim_of_mem_entries h]
  exact hne

/-- A text without a comma is a single entry, or none if it is blank. -/
theorem entries_of_not_mem_comma {s : String} (h : ',' ∉ s.toList) :
    entries s = if isBlankText s then [] else [trim s] := by
  split
  · next hblank => exact entries_of_isBlankText hblank
  · next hblank =>
    have hne : trim s ≠ "" := fun he => hblank (trim_eq_empty_iff.mp he)
    unfold entries
    rw [split_eq_singleton h]
    simp [hne]

/-- Two lists put together at a comma have the entries of the one and then those of the other. -/
theorem entries_append (a b : String) : entries (a ++ "," ++ b) = entries a ++ entries b := by
  have hsplit : split ',' (a ++ "," ++ b) = split ',' a ++ split ',' b := split_append ',' a b
  unfold entries
  rw [hsplit, List.map_append, List.filter_append]

/-- **Entries joined by commas read back as they are.** -/
theorem entries_intercalate {es : List String}
    (h : ∀ e ∈ es, ',' ∉ e.toList ∧ trim e = e ∧ e ≠ "") : entries (",".intercalate es) = es := by
  cases es with
  | nil => rfl
  | cons e rest =>
    have hsplit : split ',' (",".intercalate (e :: rest)) = e :: rest :=
      split_intercalate (d := ',') (by simp) fun x hx => (h x hx).1
    have htrim : (e :: rest).map trim = e :: rest := by
      rw [List.map_congr_left fun x hx => (h x hx).2.1, List.map_id']
    have hfilter : (e :: rest).filter (! ·.isEmpty) = e :: rest := by
      rw [List.filter_eq_self]
      intro x hx
      simpa using (h x hx).2.2
    unfold entries
    rw [hsplit, htrim, hfilter]

end HypermediaApi.Text
