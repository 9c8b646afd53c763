import HypermediaApi.Proofs.Text.Joining

/-!
# HypermediaApi.Proofs.Text.Words — where the words of a text stand

The words of a text are what blank characters leave of it, so a blank character between two texts keeps their words
apart (`runs_append_blank`) and nothing else is needed to say where they stand: the first word comes after blank
characters and ends at the end of the text or before a blank character (`words_eq_cons_iff`). The texts of no word,
of one and of two follow from it, with all their blank characters (`words_eq_nil_iff`, `words_eq_singleton_iff`,
`words_eq_pair_iff`).
-/

namespace HypermediaApi.Text

/-- At least one character, and no blank one. -/
def IsWord (w : String) : Prop := w ≠ "" ∧ ∀ c ∈ w.toList, isBlank c = false

/-- The text is empty or begins with a blank character. -/
def StartsBlank (s : String) : Prop := ∀ c ∈ s.toList.head?, isBlank c

instance (w : String) : Decidable (IsWord w) :=
  decidable_of_iff (w ≠ "" ∧ w.toList.all (! isBlank ·)) (by simp [IsWord])

/-! ### Runs of characters -/

/-- The maximal runs of characters that are not blank. -/
def runs (cs : List Char) : List (List Char) := (pieces isBlank cs).filter (! ·.isEmpty)

theorem words_eq_map_runs (s : String) : words s = (runs s.toList).map String.ofList := rfl

/-- **A blank character keeps the runs of two texts apart.** -/
theorem runs_append_blank {b : Char} (hb : isBlank b) (cs r : List Char) :
    runs (cs ++ b :: r) = runs cs ++ runs r := by
  unfold runs
  rw [pieces_append_separator hb, List.filter_append]

/-- Blank characters in front make no difference. -/
theorem runs_pad_append {pad : List Char} (h : ∀ c ∈ pad, isBlank c) (cs : List Char) :
    runs (pad ++ cs) = runs cs := by
  induction pad with
  | nil => rfl
  | cons b pad ih =>
    obtain ⟨hb, hpad⟩ := List.forall_mem_cons.mp h
    have hsplit : runs ([] ++ b :: (pad ++ cs)) = runs [] ++ runs (pad ++ cs) := runs_append_blank hb ..
    rw [List.cons_append]
    exact hsplit.trans (ih hpad)

theorem runs_eq_nil {pad : List Char} (h : ∀ c ∈ pad, isBlank c) : runs pad = [] := by
  rw [← List.append_nil pad, runs_pad_append h]
  rfl

/-- Nor do blank characters behind. -/
theorem runs_append_pad {pad : List Char} (h : ∀ c ∈ pad, isBlank c) (cs : List Char) :
    runs (cs ++ pad) = runs cs := by
  cases pad with
  | nil => rw [List.append_nil]
  | cons b pad =>
    obtain ⟨hb, hpad⟩ := List.forall_mem_cons.mp h
    rw [runs_append_blank hb, runs_eq_nil hpad, List.append_nil]

/-- A run ends where the text ends or at a blank character. -/
theorem runs_word_append {w rest : List Char} (hne : w ≠ []) (hw : ∀ c ∈ w, isBlank c = false)
    (hrest : ∀ c ∈ rest.head?, isBlank c) : runs (w ++ rest) = w :: runs rest := by
  have hrun : runs w = [w] := by
    unfold runs
    rw [pieces_of_forall_not hw]
    simp [hne]
  cases rest with
  | nil => rw [List.append_nil, hrun, runs_eq_nil (by simp)]
  | cons b r =>
    have hb : isBlank b := hrest b rfl
    rw [runs_append_blank hb, hrun, ← List.nil_append (b :: r), runs_append_blank hb]
    rfl

/-! ### Words -/

theorem words_pad_append {pad : String} (h : isBlankText pad) (s : String) : words (pad ++ s) = words s := by
  rw [words_eq_map_runs, String.toList_append, runs_pad_append (isBlankText_iff.mp h)]
  rfl

theorem words_word_append {w rest : String} (hw : IsWord w) (hrest : StartsBlank rest) :
    words (w ++ rest) = w :: words rest := by
  have hne : w.toList ≠ [] := fun h => hw.1 (String.toList_inj.mp h)
  rw [words_eq_map_runs, String.toList_append, runs_word_append hne hw.2 hrest, List.map_cons,
    String.ofList_toList]
  rfl

theorem words_of_isBlankText {s : String} (h : isBlankText s) : words s = [] := by
  rw [words_eq_map_runs, runs_eq_nil (isBlankText_iff.mp h)]
  rfl

/-- Text that is not blank begins, after blank characters, with a word. -/
theorem exists_first_word (s : String) :
    isBlankText s ∨ ∃ left w rest, s = left ++ (w ++ rest) ∧ isBlankText left ∧ IsWord w ∧ StartsBlank rest := by
  have hsplit : s.toList.takeWhile isBlank ++ s.toList.dropWhile isBlank = s.toList :=
    List.takeWhile_append_dropWhile
  have hpad : ∀ c ∈ s.toList.takeWhile isBlank, isBlank c := fun c hc => List.mem_takeWhile_imp hc
  cases hdrop : s.toList.dropWhile isBlank with
  | nil =>
    left
    rw [hdrop, List.append_nil] at hsplit
    rw [isBlankText_iff, ← hsplit]
    exact hpad
  | cons c r =>
    right
    have hc : isBlank c = false := by
      have hnot := List.head_dropWhile_not isBlank (l := s.toList) (by simp [hdrop])
      simpa [hdrop] using hnot
    -- The word goes on while there is no blank character.
    refine ⟨.ofList (s.toList.takeWhile isBlank), .ofList (c :: r.takeWhile (! isBlank ·)),
      .ofList (r.dropWhile (! isBlank ·)), ?_, ?_, ⟨by simp, ?_⟩, ?_⟩
    · rw [← String.toList_inj, String.toList_append, String.toList_append, String.toList_ofList,
        String.toList_ofList, String.toList_ofList, List.cons_append, List.takeWhile_append_dropWhile, ← hdrop,
        hsplit]
    · rw [isBlankText_iff, String.toList_ofList]
      exact hpad
    · rw [String.toList_ofList]
      intro d hd
      rcases List.mem_cons.mp hd with rfl | hd
      · exact hc
      · simpa using List.mem_takeWhile_imp hd
    · unfold StartsBlank
      rw [String.toList_ofList]
      intro d hd
      have hstop := List.head?_dropWhile_not (! isBlank ·) r
      rw [Option.mem_def.mp hd] at hstop
      simpa using hstop

/-- **A text without words is blank.** -/
theorem words_eq_nil_iff {s : String} : words s = [] ↔ isBlankText s := by
  refine ⟨fun h => ?_, words_of_isBlankText⟩
  rcases exists_first_word s with hblank | ⟨left, w, rest, rfl, hleft, hw, hrest⟩
  · exact hblank
  · rw [words_pad_append hleft, words_word_append hw hrest] at h
    cases h

/-- **The first word stands after blank characters and ends at the end or at a blank character.** -/
theorem words_eq_cons_iff {s w : String} {ws : List String} :
    words s = w :: ws ↔
      ∃ left rest, s = left ++ (w ++ rest) ∧ isBlankText left ∧ IsWord w ∧ StartsBlank rest ∧ words rest = ws := by
  constructor
  · intro h
    rcases exists_first_word s with hblank | ⟨left, w', rest, rfl, hleft, hw, hrest⟩
    · rw [words_of_isBlankText hblank] at h
      cases h
    · rw [words_pad_append hleft, words_word_append hw hrest] at h
      obtain ⟨rfl, rfl⟩ := List.cons.inj h
      exact ⟨left, rest, rfl, hleft, hw, hrest, rfl⟩
  · rintro ⟨left, rest, rfl, hleft, hw, hrest, rfl⟩
    rw [words_pad_append hleft, words_word_append hw hrest]

/-! ### Blank characters between words -/

theorem startsBlank_of_isBlankText {s : String} (h : isBlankText s) : StartsBlank s := fun c hc =>
  isBlankText_iff.mp h c (List.mem_of_head? hc)

theorem startsBlank_append {gap : String} (hgap : isBlankText gap) (hne : gap ≠ "") (s : String) :
    StartsBlank (gap ++ s) := by
  have hne' : gap.toList ≠ [] := fun h => hne (String.toList_inj.mp h)
  intro c hc
  rw [String.toList_append, List.head?_append_of_ne_nil _ hne'] at hc
  exact isBlankText_iff.mp hgap c (List.mem_of_head? hc)

/-- No blank character stands right before a word. -/
theorem ne_empty_of_startsBlank {gap w rest : String} (hw : IsWord w) (h : StartsBlank (gap ++ (w ++ rest))) :
    gap ≠ "" := by
  rintro rfl
  obtain ⟨c, r, hcr⟩ := List.exists_cons_of_ne_nil fun he => hw.1 (String.toList_inj.mp he)
  have hblank : isBlank c := h c (by simp [hcr])
  rw [hw.2 c (by simp [hcr])] at hblank
  cases hblank

/-- A text of one word is that word with blank characters around it. -/
theorem words_eq_singleton_iff {s w : String} :
    words s = [w] ↔ ∃ left right, s = left ++ (w ++ right) ∧ isBlankText left ∧ IsWord w ∧ isBlankText right := by
  rw [words_eq_cons_iff]
  constructor
  · rintro ⟨left, right, rfl, hleft, hw, -, hright⟩
    exact ⟨left, right, rfl, hleft, hw, words_eq_nil_iff.mp hright⟩
  · rintro ⟨left, right, rfl, hleft, hw, hright⟩
    exact ⟨left, right, rfl, hleft, hw, startsBlank_of_isBlankText hright, words_of_isBlankText hright⟩

/-- A text of two words has blank characters between them, and maybe around them. -/
theorem words_eq_pair_iff {s w v : String} :
    words s = [w, v] ↔
      ∃ left gap right, s = left ++ (w ++ (gap ++ (v ++ right))) ∧ isBlankText left ∧ IsWord w ∧
        isBlankText gap ∧ gap ≠ "" ∧ IsWord v ∧ isBlankText right := by
  rw [words_eq_cons_iff]
  constructor
  · rintro ⟨left, rest, rfl, hleft, hw, hstarts, hrest⟩
    obtain ⟨gap, right, rfl, hgap, hv, hright⟩ := words_eq_singleton_iff.mp hrest
    exact ⟨left, gap, right, rfl, hleft, hw, hgap, ne_empty_of_startsBlank hv hstarts, hv, hright⟩
  · rintro ⟨left, gap, right, rfl, hleft, hw, hgap, hne, hv, hright⟩
    exact ⟨left, gap ++ (v ++ right), rfl, hleft, hw, startsBlank_append hgap hne _,
      words_eq_singleton_iff.mpr ⟨gap, right, rfl, hgap, hv, hright⟩⟩

/-! ### Trimming -/

/-- Trimming keeps the words. -/
theorem words_trim (s : String) : words (trim s) = words s := by
  have hleft : ∀ c ∈ s.toList.takeWhile isBlank, isBlank c := fun c hc => List.mem_takeWhile_imp hc
  have hright : ∀ c ∈ (s.toList.dropWhile isBlank).rtakeWhile isBlank, isBlank c := fun c hc =>
    List.mem_rtakeWhile_imp hc
  -- The text is what trimming leaves of it, between the blank characters that trimming drops.
  have hruns : runs s.toList = runs (trimChars s.toList) := by
    calc runs s.toList
      _ = runs (s.toList.takeWhile isBlank ++ s.toList.dropWhile isBlank) := by
        rw [List.takeWhile_append_dropWhile]
      _ = runs (s.toList.dropWhile isBlank) := runs_pad_append hleft _
      _ = runs (trimChars s.toList ++ (s.toList.dropWhile isBlank).rtakeWhile isBlank) := by
        rw [trimChars_eq_rdropWhile, List.rdropWhile_append_rtakeWhile]
      _ = runs (trimChars s.toList) := runs_append_pad hright _
  rw [words_eq_map_runs, words_eq_map_runs, toList_trim, hruns]

end HypermediaApi.Text
