import HypermediaApi.Proofs.Text.Entries
import HypermediaApi.Proofs.Text.Names
import Mathlib.Data.List.Forall2

/-!
# HypermediaApi.Proofs.Text.Spellings — cutting the spellings of a text

Whether a character is blank or a separator does not depend on its case, so a text is cut at the same places however
it is spelled: what is left of its entries when case is ignored is cut from what is left of the text
(`map_foldCase_entries`, `map_foldCase_words`). Hence spellings of one text have entries and words that are spellings
of each other, one by one (`entries_of_sameName`, `words_of_sameName`).
-/

namespace HypermediaApi.Text

/-! ### Characters -/

/-- Characters that are changed in a way that no test notices are cut at the same places. -/
theorem pieces_map {p : Char → Bool} {f : Char → Char} (h : ∀ c, p (f c) = p c) (cs : List Char) :
    pieces p (cs.map f) = (pieces p cs).map (List.map f) := by
  induction cs with
  | nil => rfl
  | cons c r ih =>
    obtain ⟨w, ws, hw⟩ := List.exists_cons_of_ne_nil (pieces_ne_nil p r)
    rw [List.map_cons]
    by_cases hc : p c <;> simp [pieces, h, hc, ih, hw]

/-- A comma is no letter. -/
theorem toLower_beq_comma (c : Char) : (c.toLower == ',') = (c == ',') := by
  by_cases hc : c.toLower = ','
  · have heq : c = ',' := eq_of_toLower_eq (by decide) hc
    simp [heq]
  · have hne : c ≠ ',' := by
      intro heq
      exact hc (by rw [heq]; rfl)
    simp [hc, hne]

theorem trimChars_map_toLower (cs : List Char) : trimChars (cs.map Char.toLower) = (trimChars cs).map Char.toLower := by
  have hblank : isBlank ∘ Char.toLower = isBlank := funext isBlank_toLower
  simp only [trimChars, List.dropWhile_map, ← List.map_reverse, hblank]

/-! ### Texts -/

theorem foldCase_ofList (cs : List Char) : foldCase (.ofList cs) = cs.map Char.toLower := by
  simp [foldCase]

theorem foldCase_trim (s : String) : foldCase (trim s) = trimChars (foldCase s) := by
  simp [foldCase, trimChars_map_toLower]

/-- An empty text is empty however it is spelled. -/
theorem isEmpty_foldCase (s : String) : (foldCase s).isEmpty = s.isEmpty := by
  rw [foldCase, List.isEmpty_map, Bool.eq_iff_iff, List.isEmpty_iff, String.isEmpty_iff, ← String.toList_inj,
    String.toList_empty]

/-- **The entries of a text are cut without regard to case.** -/
theorem map_foldCase_entries (s : String) :
    (entries s).map foldCase =
      ((pieces (· == ',') (foldCase s)).map trimChars).filter (! ·.isEmpty) := by
  have hcut : pieces (· == ',') (foldCase s) = (pieces (· == ',') s.toList).map (List.map Char.toLower) :=
    pieces_map (p := (· == ',')) toLower_beq_comma s.toList
  have hpieces : pieces (· == ',') (foldCase s) = (split ',' s).map foldCase := by
    simp [hcut, split, Function.comp_def, foldCase_ofList]
  have hentry : trimChars ∘ foldCase = foldCase ∘ trim := by
    funext t
    simp only [Function.comp_apply, foldCase_trim]
  have hempty : (fun cs : List Char => ! cs.isEmpty) ∘ foldCase = fun t => ! t.isEmpty := by
    funext t
    simp [isEmpty_foldCase]
  rw [hpieces, List.map_map, hentry, ← List.map_map, List.filter_map, hempty]
  rfl

/-- **The words of a text are cut without regard to case.** -/
theorem map_foldCase_words (s : String) :
    (words s).map foldCase = (pieces isBlank (foldCase s)).filter (! ·.isEmpty) := by
  have hcut : pieces isBlank (foldCase s) = (pieces isBlank s.toList).map (List.map Char.toLower) :=
    pieces_map isBlank_toLower s.toList
  have hempty : (fun cs : List Char => ! cs.isEmpty) ∘ List.map Char.toLower = fun cs => ! cs.isEmpty := by
    funext cs
    simp
  rw [hcut, List.filter_map, hempty]
  simp [words, Function.comp_def, foldCase_ofList]

/-! ### Spellings -/

/-- Spellings of one text are spellings of the same texts. -/
theorem sameName_congr_left {a b : String} (h : sameName a b) (c : String) : sameName a c = sameName b c := by
  rw [sameName, sameName, sameName_iff.mp h]

theorem sameName_congr_right {a b : String} (h : sameName a b) (c : String) : sameName c a = sameName c b := by
  rw [sameName, sameName, sameName_iff.mp h]

/-- Texts are spellings of each other, one by one, if the same is left of them when case is ignored. -/
theorem forall₂_sameName_iff {ss ts : List String} :
    List.Forall₂ (fun a b => sameName a b) ss ts ↔ ss.map foldCase = ts.map foldCase := by
  rw [← List.forall₂_eq_eq_eq, List.forall₂_map_left_iff, List.forall₂_map_right_iff]
  simp only [sameName_iff]

/-- **Spellings of one text have spellings of the same entries.** -/
theorem entries_of_sameName {a b : String} (h : sameName a b) :
    List.Forall₂ (fun a b => sameName a b) (entries a) (entries b) := by
  rw [forall₂_sameName_iff, map_foldCase_entries, map_foldCase_entries, sameName_iff.mp h]

/-- **Spellings of one text have spellings of the same words.** -/
theorem words_of_sameName {a b : String} (h : sameName a b) :
    List.Forall₂ (fun a b => sameName a b) (words a) (words b) := by
  rw [forall₂_sameName_iff, map_foldCase_words, map_foldCase_words, sameName_iff.mp h]

end HypermediaApi.Text
