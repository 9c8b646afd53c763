import HypermediaApi.Text.Basic
import Mathlib.Data.List.DropRight

/-!
# HypermediaApi.Proofs.Text.Entries — trimming, and the entries of a list

Sort expressions and field lists are comma-separated entries, trimmed and without the empty ones. Two facts
about them matter to every reader of such lists: an entry is trimmed already (`trim_of_mem_entries`), and
blank text has no entry (`entries_of_isBlankText`), so that it makes no difference whether a blank list is
dropped before it is read (`entries_of_filter_not_blank`).
-/

namespace HypermediaApi.Text

/-! ### Trimming -/

/-- Trimming drops the blank characters at the right end of what has none at the left. -/
theorem trimChars_eq_rdropWhile (cs : List Char) :
    trimChars cs = (cs.dropWhile isBlank).rdropWhile isBlank := rfl

/-- Nothing is left of blank text. -/
theorem trimChars_eq_nil {cs : List Char} (h : ∀ c ∈ cs, isBlank c) : trimChars cs = [] := by
  have hdrop : cs.dropWhile isBlank = [] := List.dropWhile_eq_nil_iff.mpr h
  rw [trimChars_eq_rdropWhile, hdrop, List.rdropWhile_nil]

/-- Text with no blank character at its left end is left alone there. -/
theorem dropWhile_trimChars (cs : List Char) : (trimChars cs).dropWhile isBlank = trimChars cs := by
  rw [List.dropWhile_eq_self_iff]
  intro hpos
  -- The first character of the trimmed text is the first one after the blank characters at the left.
  have hstart : trimChars cs <+: cs.dropWhile isBlank := List.rdropWhile_prefix isBlank _
  have hle : (trimChars cs).length ≤ (cs.dropWhile isBlank).length := hstart.length_le
  have hself := List.dropWhile_eq_self_iff.mp (List.dropWhile_idempotent isBlank cs) (by omega)
  rw [hstart.getElem hpos]
  exact hself

/-- Trimming twice is trimming once. -/
@[simp] theorem trimChars_trimChars (cs : List Char) : trimChars (trimChars cs) = trimChars cs := by
  rw [trimChars_eq_rdropWhile (trimChars cs), dropWhile_trimChars, trimChars_eq_rdropWhile,
    List.rdropWhile_idempotent]

@[simp] theorem trim_trim (s : String) : trim (trim s) = trim s := by
  unfold trim
  rw [String.toList_ofList, trimChars_trimChars]

theorem isBlankText_iff {s : String} : isBlankText s ↔ ∀ c ∈ s.toList, isBlank c := by
  unfold isBlankText
  exact List.all_eq_true

/-- **Blank text is what trimming leaves nothing of.** -/
theorem trim_eq_empty_iff {s : String} : trim s = "" ↔ isBlankText s := by
  have hempty : trim s = "" ↔ trimChars s.toList = [] := by
    rw [← String.toList_inj, toList_trim, String.toList_empty]
  rw [hempty, isBlankText_iff]
  refine ⟨fun h => ?_, trimChars_eq_nil⟩
  -- What is left after the blank characters at the left is blank to its right end, so there is nothing left.
  rw [trimChars_eq_rdropWhile, List.rdropWhile_eq_nil_iff] at h
  refine List.dropWhile_eq_nil_iff.mp ?_
  by_contra hne
  have hhead := List.head_dropWhile_not isBlank hne
  rw [h _ (List.head_mem hne)] at hhead
  cases hhead

/-- **Text is trimmed if neither its first nor its last character is blank.** -/
theorem trim_eq_self_iff {s : String} :
    trim s = s ↔ s.toList.head?.map isBlank ≠ some true ∧ s.toList.getLast?.map isBlank ≠ some true := by
  have hfront : ∀ cs : List Char, cs.dropWhile isBlank = cs ↔ cs.head?.map isBlank ≠ some true := by
    intro cs
    cases cs <;> simp [List.dropWhile_eq_self_iff]
  have hback : ∀ cs : List Char, cs.rdropWhile isBlank = cs ↔ cs.getLast?.map isBlank ≠ some true := by
    intro cs
    rw [← List.head?_reverse, ← hfront]
    exact List.reverse_eq_iff
  rw [← String.toList_inj, toList_trim, ← hfront, ← hback]
  constructor
  · intro h
    have hdrop : s.toList.dropWhile isBlank = s.toList := by
      rw [← h, dropWhile_trimChars]
    rw [trimChars_eq_rdropWhile, hdrop] at h
    exact ⟨hdrop, h⟩
  · rintro ⟨hdrop, hrdrop⟩
    rw [trimChars_eq_rdropWhile, hdrop, hrdrop]

/-- Trimming adds no character. -/
theorem mem_of_mem_trim {s : String} {c : Char} (h : c ∈ (trim s).toList) : c ∈ s.toList := by
  rw [toList_trim, trimChars_eq_rdropWhile] at h
  have hdrop : c ∈ s.toList.dropWhile isBlank := (List.rdropWhile_prefix isBlank _).mem h
  exact (List.dropWhile_suffix isBlank).mem hdrop

/-! ### Entries -/

/-- An entry is trimmed. -/
theorem trim_of_mem_entries {s e : String} (h : e ∈ entries s) : trim e = e := by
  obtain ⟨hmap, -⟩ := List.mem_filter.mp h
  obtain ⟨piece, -, rfl⟩ := List.mem_map.mp hmap
  exact trim_trim piece

/-- Text without a comma is a single piece. -/
theorem split_eq_singleton {d : Char} {s : String} (h : d ∉ s.toList) : split d s = [s] := by
  have hpieces : pieces (· == d) s.toList = [s.toList] := by
    apply pieces_of_forall_not
    intro c hc
    have hne : c ≠ d := fun he => h (he ▸ hc)
    simpa using hne
  unfold split
  rw [hpieces, List.map_singleton, String.ofList_toList]

/-- Text with a comma, or any other separator, falls into two pieces at least. -/
theorem exists_pieces_eq_cons_cons {p : Char → Bool} {cs : List Char} {d : Char} (hd : p d) (hmem : d ∈ cs) :
    ∃ a b rest, pieces p cs = a :: b :: rest := by
  induction cs with
  | nil => exact absurd hmem List.not_mem_nil
  | cons c r ih =>
    obtain ⟨w, ws, hw⟩ := List.exists_cons_of_ne_nil (pieces_ne_nil p r)
    by_cases hc : p c
    · exact ⟨[], w, ws, by simp [pieces, hc, hw]⟩
    · have hr : d ∈ r := by
        rcases List.mem_cons.mp hmem with rfl | hr
        · exact absurd hd hc
        · exact hr
      obtain ⟨a, b, rest, hpieces⟩ := ih hr
      exact ⟨c :: a, b, rest, by simp [pieces, hc, hpieces]⟩

/-- **Blank text has no entry.** -/
theorem entries_of_isBlankText {s : String} (h : isBlankText s) : entries s = [] := by
  have hblank : ∀ c ∈ s.toList, isBlank c := isBlankText_iff.mp h
  have hcomma : ',' ∉ s.toList := fun hc => absurd (hblank ',' hc) (by decide)
  have htrim : trim s = "" := by
    unfold trim
    rw [trimChars_eq_nil hblank, String.ofList_nil]
  unfold entries
  rw [split_eq_singleton hcomma, List.map_singleton, htrim]
  rfl

/-- A blank list may be dropped before it is cut into entries. -/
theorem entries_of_filter_not_blank (list : Option String) :
    entries ((list.filter (! isBlankText ·)).getD "") = entries (list.getD "") := by
  cases list with
  | none => rfl
  | some s =>
    rw [Option.filter_some]
    by_cases hs : isBlankText s
    · rw [if_neg (by simp [hs])]
      exact (entries_of_isBlankText (s := "") rfl).trans (entries_of_isBlankText hs).symm
    · rw [if_pos (by simp [hs])]

end HypermediaApi.Text
