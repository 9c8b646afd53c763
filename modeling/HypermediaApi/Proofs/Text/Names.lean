import HypermediaApi.Proofs.Text.Words

/-!
# HypermediaApi.Proofs.Text.Names — what spellings of one name have in common

A lookup that ignores ASCII case may answer with another spelling of the name it was given. Two spellings differ in
letters only (`toLower_cases`): any other character stands in both at the same places, and so do the blank ones.
Hence a spelling of a word is a word (`IsWord.of_sameName`), and a spelling of a trimmed text is trimmed
(`trim_of_sameName`).
-/

namespace HypermediaApi.Text

/-! ### Characters -/

/-- **Ignoring case moves capital letters only**, each to its small letter 32 places up. -/
theorem toLower_cases (c : Char) :
    c.toLower = c ∨ (65 ≤ c.toNat ∧ c.toNat ≤ 90 ∧ c.toLower.toNat = c.toNat + 32) := by
  unfold Char.toLower
  split
  · next hupper =>
    right
    have hge : 65 ≤ c.val.toNat := hupper.1
    have hle : c.val.toNat ≤ 90 := hupper.2
    refine ⟨hge, hle, ?_⟩
    show (c.val + 32).toNat = c.val.toNat + 32
    rw [UInt32.toNat_add, show (32 : UInt32).toNat = 32 from rfl]
    omega
  · left
    rfl

/-- Ignoring case turns no other character into one that is no small letter. -/
theorem eq_of_toLower_eq {c d : Char} (hd : d.toNat < 97 ∨ 122 < d.toNat) (h : c.toLower = d) : c = d := by
  rcases toLower_cases c with heq | ⟨hge, hle, hmove⟩
  · rw [← h, heq]
  · rw [h] at hmove
    omega

/-- No letter is blank. -/
theorem isBlank_of_letter {c : Char} (hge : 65 ≤ c.toNat) (hle : c.toNat ≤ 122) : isBlank c = false := by
  simp only [isBlank, Bool.or_eq_false_iff, Bool.and_eq_false_iff, decide_eq_false_iff_not]
  omega

@[simp] theorem isBlank_toLower (c : Char) : isBlank c.toLower = isBlank c := by
  rcases toLower_cases c with heq | ⟨hge, hle, hmove⟩
  · rw [heq]
  · rw [isBlank_of_letter hge (by omega), isBlank_of_letter (c := c.toLower) (by omega) (by omega)]

/-! ### Spellings -/

theorem sameName_comm {a b : String} : sameName a b ↔ sameName b a := by
  rw [sameName_iff, sameName_iff, eq_comm]

section Spellings

variable {a b : String} (h : sameName a b)

include h

/-- A character that is no letter stands in both spellings or in neither. -/
theorem mem_of_sameName {d : Char} (hlower : d.toNat < 97 ∨ 122 < d.toNat) (hupper : d.toLower = d)
    (hb : d ∈ b.toList) : d ∈ a.toList := by
  have hfold : foldCase a = foldCase b := sameName_iff.mp h
  have hmem : d ∈ foldCase a := by
    rw [hfold]
    exact List.mem_map.mpr ⟨d, hb, hupper⟩
  obtain ⟨c, hc, hcd⟩ := List.mem_map.mp hmem
  rw [← eq_of_toLower_eq hlower hcd]
  exact hc

theorem eq_empty_of_sameName (ha : a = "") : b = "" := by
  have hfold : foldCase a = foldCase b := sameName_iff.mp h
  rw [ha] at hfold
  have hnil : b.toList = [] := List.map_eq_nil_iff.mp hfold.symm
  exact String.toList_inj.mp hnil

theorem map_isBlank_of_sameName : a.toList.map isBlank = b.toList.map isBlank := by
  have hfold : foldCase a = foldCase b := sameName_iff.mp h
  have hmap : (foldCase a).map isBlank = (foldCase b).map isBlank := congrArg (List.map isBlank) hfold
  unfold foldCase at hmap
  simpa [Function.comp_def] using hmap

/-- **A spelling of a word is a word.** -/
theorem IsWord.of_sameName (hb : IsWord b) : IsWord a := by
  refine ⟨fun ha => hb.1 (eq_empty_of_sameName h ha), fun c hc => ?_⟩
  have hmem : isBlank c ∈ b.toList.map isBlank := by
    rw [← map_isBlank_of_sameName h]
    exact List.mem_map_of_mem hc
  obtain ⟨d, hd, hblank⟩ := List.mem_map.mp hmem
  rw [← hblank]
  exact hb.2 d hd

/-- **A spelling of a trimmed text is trimmed.** -/
theorem trim_of_sameName (hb : trim b = b) : trim a = a := by
  rw [trim_eq_self_iff, ← List.head?_map, ← List.getLast?_map] at hb ⊢
  rw [map_isBlank_of_sameName h]
  exact hb

end Spellings

end HypermediaApi.Text
