/-!
# HypermediaApi.SortedEntries — entries in the order of their keys

Lists of entries with text keys that are kept in the order of the keys, by code point. A plain JSON object
and a section of settings are such lists: what they hold is a function of the keys, and the order is always
the same one. Sorting entries whose keys are all different moves them and changes no value (`lookup_sortEntries`).
-/

namespace HypermediaApi

variable {β : Type}

/-- The entries with `key` set to `value`, in the order of the keys; the value of a key that is there
already is replaced. -/
def putSorted (key : String) (value : β) : List (String × β) → List (String × β)
  | [] => [(key, value)]
  | (k, v) :: r =>
    if key < k then (key, value) :: (k, v) :: r
    else if key = k then (key, value) :: r
    else (k, v) :: putSorted key value r

/-- The entries in the order of their keys, the last of several with one key. -/
def sortEntries (es : List (String × β)) : List (String × β) :=
  es.foldl (fun acc e => putSorted e.1 e.2 acc) []

/-- Putting an entry changes what is found under its key and under no other. -/
theorem lookup_putSorted (key k : String) (value : β) (es : List (String × β)) :
    (putSorted key value es).lookup k = if k = key then some value else es.lookup k := by
  induction es with
  | nil =>
    by_cases h : k = key
    · simp [putSorted, h]
    · simp [putSorted, List.lookup_cons, h, beq_eq_false_iff_ne.2 h]
  | cons e r ih =>
    obtain ⟨k', v'⟩ := e
    simp only [putSorted]
    split
    · by_cases h : k = key
      · simp [h]
      · simp [List.lookup_cons, h, beq_eq_false_iff_ne.2 h]
    · split
      · next h' =>
        subst h'
        by_cases h : k = key
        · simp [h]
        · simp [List.lookup_cons, h, beq_eq_false_iff_ne.2 h]
      · next h' =>
        by_cases h : k = k'
        · simp [h, Ne.symm h']
        · simp [List.lookup_cons, beq_eq_false_iff_ne.2 h, ih]

/-- The keys after putting an entry: the ones before, and its own. -/
theorem mem_keys_putSorted (key k : String) (value : β) (es : List (String × β)) :
    k ∈ (putSorted key value es).map Prod.fst ↔ k = key ∨ k ∈ es.map Prod.fst := by
  induction es with
  | nil => simp [putSorted]
  | cons e r ih =>
    obtain ⟨k', v'⟩ := e
    simp only [putSorted]
    split
    · simp
    · split
      · next h' => subst h'; simp
      · simp only [List.map_cons, List.mem_cons, ih]
        constructor <;> rintro (h | h | h) <;> simp [h]

/-- The entries after putting one: the ones before, and the new one. -/
theorem mem_putSorted {key : String} {value : β} {e : String × β} {es : List (String × β)}
    (h : e ∈ putSorted key value es) : e = (key, value) ∨ e ∈ es := by
  induction es with
  | nil => simpa [putSorted] using h
  | cons e' r ih =>
    obtain ⟨k', v'⟩ := e'
    simp only [putSorted] at h
    split at h
    · simpa using h
    · split at h
      · rcases List.mem_cons.mp h with h | h
        · exact .inl h
        · exact .inr (List.mem_cons_of_mem _ h)
      · rcases List.mem_cons.mp h with h | h
        · exact .inr (by simp [h])
        · exact (ih h).imp_right (List.mem_cons_of_mem _)

/-- Putting an entry keeps the keys in strictly ascending order. -/
theorem pairwise_putSorted {key : String} {value : β} {es : List (String × β)}
    (h : (es.map Prod.fst).Pairwise (· < ·)) :
    ((putSorted key value es).map Prod.fst).Pairwise (· < ·) := by
  induction es with
  | nil => simp [putSorted]
  | cons e r ih =>
    obtain ⟨k, v⟩ := e
    rw [List.map_cons, List.pairwise_cons] at h
    simp only [putSorted]
    split
    · next hk =>
      rw [List.map_cons, List.pairwise_cons]
      refine ⟨?_, List.pairwise_cons.2 h⟩
      intro a ha
      rcases List.mem_cons.1 ha with rfl | ha
      · exact hk
      · exact String.lt_trans hk (h.1 a ha)
    · next hk =>
      split
      · next hk' => subst hk'; exact List.pairwise_cons.2 h
      · next hk' =>
        rw [List.map_cons, List.pairwise_cons]
        refine ⟨?_, ih h.2⟩
        intro a ha
        rcases (mem_keys_putSorted ..).1 ha with rfl | ha
        · exact Decidable.byContradiction fun h' =>
            hk' (String.le_antisymm (String.not_lt.1 h') (String.not_lt.1 hk))
        · exact h.1 a ha

/-- Keys in strictly ascending order are all different. -/
theorem nodup_of_ascending {keys : List String} (h : keys.Pairwise (· < ·)) : keys.Nodup := by
  refine h.imp ?_
  intro a b hlt heq
  exact String.lt_irrefl a (heq ▸ hlt)

/-! ### Sorting -/

/-- Putting entries one after the other keeps the keys in strictly ascending order. -/
theorem pairwise_foldl_putSorted {es acc : List (String × β)} (h : (acc.map Prod.fst).Pairwise (· < ·)) :
    ((es.foldl (fun acc e => putSorted e.1 e.2 acc) acc).map Prod.fst).Pairwise (· < ·) := by
  induction es generalizing acc with
  | nil => exact h
  | cons e r ih => exact ih (pairwise_putSorted h)

/-- The keys are then those of the entries and those from before. -/
theorem mem_keys_foldl_putSorted (k : String) (es acc : List (String × β)) :
    k ∈ (es.foldl (fun acc e => putSorted e.1 e.2 acc) acc).map Prod.fst ↔
      k ∈ es.map Prod.fst ∨ k ∈ acc.map Prod.fst := by
  induction es generalizing acc with
  | nil => simp
  | cons e r ih =>
    rw [List.foldl_cons, ih, mem_keys_putSorted, List.map_cons, List.mem_cons, ← or_assoc, @or_comm (k = e.1)]

/-- A key has the value of its entry, or the value it had. -/
theorem lookup_foldl_putSorted (k : String) {es acc : List (String × β)} (h : (es.map Prod.fst).Nodup) :
    (es.foldl (fun acc e => putSorted e.1 e.2 acc) acc).lookup k = (es.lookup k).or (acc.lookup k) := by
  induction es generalizing acc with
  | nil => simp
  | cons e r ih =>
    obtain ⟨hnew, hrest⟩ := List.nodup_cons.mp h
    rw [List.foldl_cons, ih hrest, lookup_putSorted, List.lookup_cons]
    by_cases hk : k = e.1
    · -- No later entry has this key.
      have hnone : r.lookup k = none := by
        rw [List.lookup_eq_none_iff]
        intro p hp
        have hne : k ≠ p.1 := fun hsame => hnew (hk ▸ hsame ▸ List.mem_map_of_mem hp)
        simpa using hne
      simp [hk ▸ hnone, hk]
    · simp [hk, beq_eq_false_iff_ne.2 hk]

theorem mem_keys_sortEntries {k : String} {es : List (String × β)} :
    k ∈ (sortEntries es).map Prod.fst ↔ k ∈ es.map Prod.fst := by
  unfold sortEntries
  simp [mem_keys_foldl_putSorted]

/-- No key is left twice. -/
theorem nodup_sortEntries (es : List (String × β)) : ((sortEntries es).map Prod.fst).Nodup := by
  have hsorted : ((sortEntries es).map Prod.fst).Pairwise (· < ·) := pairwise_foldl_putSorted .nil
  exact nodup_of_ascending hsorted

/-- **Sorting entries whose keys are all different changes no value.** -/
theorem lookup_sortEntries (k : String) {es : List (String × β)} (h : (es.map Prod.fst).Nodup) :
    (sortEntries es).lookup k = es.lookup k := by
  unfold sortEntries
  rw [lookup_foldl_putSorted k h]
  simp

end HypermediaApi
