/-!
# HypermediaApi.Proofs.Traversal — lists gone through step by step

Reading, compiling and shaping all go through a list with a step that may fail, in order, and stop at the
first failure. Everything said about them rests on two equations for the head of the list
(`mapM_cons_of_ok`, `mapM_cons_of_error`): the traversal succeeds exactly if every step does, and a failure is
that of the first step that fails.
-/

namespace HypermediaApi

variable {α β γ ε ε' : Type} {f : α → Except ε β}

/-! ### One step -/

/-- How failures are reported does not concern a step that succeeds. -/
@[simp] theorem mapError_ok (report : ε → ε') (x : α) : (Except.ok x).mapError report = .ok x := rfl

@[simp] theorem mapError_error (report : ε → ε') (e : ε) :
    (Except.error e : Except ε α).mapError report = .error (report e) := rfl

/-! ### The head of the list -/

theorem mapM_cons_of_ok {x : α} {y : β} (h : f x = .ok y) (xs : List α) :
    (x :: xs).mapM f = (xs.mapM f).map (y :: ·) := by
  rw [List.mapM_cons, h]
  cases xs.mapM f <;> rfl

theorem mapM_cons_of_error {x : α} {e : ε} (h : f x = .error e) (xs : List α) :
    (x :: xs).mapM f = .error e := by
  rw [List.mapM_cons, h]
  rfl

/-! ### The whole list -/

/-- **A traversal fails exactly with the first step that fails.** -/
theorem mapM_eq_error_iff {xs : List α} {e : ε} :
    xs.mapM f = .error e ↔
      ∃ before x after, xs = before ++ x :: after ∧ (∀ b ∈ before, ∃ y, f b = .ok y) ∧ f x = .error e := by
  induction xs with
  | nil =>
    constructor
    · intro h
      cases h
    · rintro ⟨before, x, after, hsplit, -⟩
      simp at hsplit
  | cons x rest ih =>
    cases hx : f x with
    | error e' =>
      rw [mapM_cons_of_error hx]
      constructor
      · intro h
        obtain rfl : e' = e := Except.error.inj h
        exact ⟨[], x, rest, rfl, by simp, hx⟩
      · rintro ⟨before, y, after, hsplit, hbefore, hy⟩
        cases before with
        | nil =>
          obtain ⟨rfl, -⟩ := List.cons.inj hsplit
          obtain rfl : e' = e := Except.error.inj (hx.symm.trans hy)
          rfl
        | cons b before =>
          obtain ⟨rfl, -⟩ := List.cons.inj hsplit
          obtain ⟨z, hz⟩ := hbefore x (List.mem_cons_self ..)
          rw [hx] at hz
          cases hz
    | ok y =>
      have hmap : (rest.mapM f).map (y :: ·) = .error e ↔ rest.mapM f = .error e := by
        cases rest.mapM f <;> simp [Except.map]
      rw [mapM_cons_of_ok hx, hmap, ih]
      constructor
      · rintro ⟨before, z, after, rfl, hbefore, hz⟩
        refine ⟨x :: before, z, after, rfl, ?_, hz⟩
        intro b hb
        rcases List.mem_cons.mp hb with rfl | hb
        · exact ⟨y, hx⟩
        · exact hbefore b hb
      · rintro ⟨before, z, after, hsplit, hbefore, hz⟩
        cases before with
        | nil =>
          obtain ⟨rfl, -⟩ := List.cons.inj hsplit
          rw [hx] at hz
          cases hz
        | cons b before =>
          obtain ⟨rfl, rfl⟩ := List.cons.inj hsplit
          exact ⟨before, z, after, rfl, fun c hc => hbefore c (List.mem_cons_of_mem _ hc), hz⟩

/-- The results of a traversal are those of its steps, one by one and in order. -/
theorem map_ok_of_mapM_eq_ok {xs : List α} {ys : List β} (h : xs.mapM f = .ok ys) :
    ys.map Except.ok = xs.map f := by
  induction xs generalizing ys with
  | nil =>
    obtain rfl : [] = ys := Except.ok.inj h
    rfl
  | cons x rest ih =>
    cases hx : f x with
    | error e =>
      rw [mapM_cons_of_error hx] at h
      cases h
    | ok z =>
      rw [mapM_cons_of_ok hx] at h
      cases hrest : rest.mapM f with
      | error e =>
        rw [hrest] at h
        cases h
      | ok zs =>
        rw [hrest] at h
        obtain rfl : z :: zs = ys := Except.ok.inj h
        rw [List.map_cons, List.map_cons, ih hrest, hx]

/-- Failures may be reported by each step or by the whole traversal. -/
theorem mapM_mapError (report : ε → ε') (xs : List α) :
    xs.mapM (fun x => (f x).mapError report) = (xs.mapM f).mapError report := by
  induction xs with
  | nil => rfl
  | cons x rest ih =>
    cases hx : f x with
    | error e =>
      have hreported : (f x).mapError report = .error (report e) := by rw [hx, mapError_error]
      rw [mapM_cons_of_error hx, mapM_cons_of_error (f := fun x => (f x).mapError report) hreported,
        mapError_error]
    | ok y =>
      have hreported : (f x).mapError report = .ok y := by rw [hx, mapError_ok]
      rw [mapM_cons_of_ok hx, mapM_cons_of_ok (f := fun x => (f x).mapError report) hreported, ih]
      cases rest.mapM f <;> rfl

/-- Results may be changed by each step or after the whole traversal. -/
theorem mapM_map_result (g : β → γ) (xs : List α) :
    xs.mapM (fun x => (f x).map g) = (xs.mapM f).map (List.map g) := by
  induction xs with
  | nil => rfl
  | cons x rest ih =>
    cases hx : f x with
    | error e =>
      have hchanged : (f x).map g = .error e := by rw [hx]; rfl
      rw [mapM_cons_of_error hx, mapM_cons_of_error (f := fun x => (f x).map g) hchanged]
      rfl
    | ok y =>
      have hchanged : (f x).map g = .ok (g y) := by rw [hx]; rfl
      rw [mapM_cons_of_ok hx, mapM_cons_of_ok (f := fun x => (f x).map g) hchanged, ih]
      cases rest.mapM f <;> rfl

/-- The results of a traversal are those of its steps. -/
theorem mem_iff_of_mapM_eq_ok {xs : List α} {ys : List β} (h : xs.mapM f = .ok ys) {y : β} :
    y ∈ ys ↔ ∃ x ∈ xs, f x = .ok y := by
  have hmem : y ∈ ys ↔ Except.ok y ∈ ys.map (Except.ok : β → Except ε β) := by simp
  rw [hmem, map_ok_of_mapM_eq_ok h, List.mem_map]

/-- Two lists are gone through one after the other. -/
theorem mapM_append_eq_ok_iff {xs xs' : List α} {ys : List β} :
    (xs ++ xs').mapM f = .ok ys ↔
      ∃ before after, xs.mapM f = .ok before ∧ xs'.mapM f = .ok after ∧ ys = before ++ after := by
  rw [List.mapM_append]
  cases xs.mapM f with
  | error e =>
    constructor
    · intro h
      cases h
    · rintro ⟨before, after, h, -⟩
      cases h
  | ok before =>
    cases xs'.mapM f with
    | error e =>
      constructor
      · intro h
        cases h
      · rintro ⟨before', after, -, h, -⟩
        cases h
    | ok after => simp [bind, Except.bind, pure, Except.pure, eq_comm]

/-- What a traversal fails with is what one of its steps fails with. -/
theorem exists_of_mapM_eq_error {xs : List α} {e : ε} (h : xs.mapM f = .error e) :
    ∃ x ∈ xs, f x = .error e := by
  obtain ⟨before, x, after, rfl, -, hx⟩ := mapM_eq_error_iff.mp h
  exact ⟨x, by simp, hx⟩

/-- **A traversal succeeds exactly if every step does.** -/
theorem exists_mapM_eq_ok_iff {xs : List α} : (∃ ys, xs.mapM f = .ok ys) ↔ ∀ x ∈ xs, ∃ y, f x = .ok y := by
  induction xs with
  | nil => exact ⟨fun _ x hx => absurd hx List.not_mem_nil, fun _ => ⟨[], rfl⟩⟩
  | cons x rest ih =>
    cases hx : f x with
    | error e =>
      rw [mapM_cons_of_error hx]
      constructor
      · rintro ⟨ys, h⟩
        cases h
      · intro h
        obtain ⟨y, hy⟩ := h x (List.mem_cons_self ..)
        rw [hx] at hy
        cases hy
    | ok y =>
      have hmap : (∃ ys, (rest.mapM f).map (y :: ·) = .ok ys) ↔ ∃ ys, rest.mapM f = .ok ys := by
        cases rest.mapM f <;> simp [Except.map]
      rw [mapM_cons_of_ok hx, hmap, ih, List.forall_mem_cons]
      exact ⟨fun h => ⟨⟨y, hx⟩, h⟩, fun h => h.2⟩

/-- Where every step succeeds, the results are those of the steps. -/
theorem mapM_eq_ok_map {g : α → β} {xs : List α} (h : ∀ x ∈ xs, f x = .ok (g x)) :
    xs.mapM f = .ok (xs.map g) := by
  induction xs with
  | nil => rfl
  | cons x rest ih =>
    obtain ⟨hx, hrest⟩ := List.forall_mem_cons.mp h
    rw [mapM_cons_of_ok hx, ih hrest]
    rfl

/-- Where a test tells which steps succeed, a traversal fails with the first one that does not pass it. -/
theorem mapM_eq_error_of_find? {p : α → Bool} {xs : List α} {x : α} {e : ε} (hok : ∀ y, p y → ∃ z, f y = .ok z)
    (hfind : xs.find? (! p ·) = some x) (hx : f x = .error e) : xs.mapM f = .error e := by
  obtain ⟨-, before, after, hsplit, hbefore⟩ := List.find?_eq_some_iff_append.mp hfind
  exact mapM_eq_error_iff.mpr ⟨before, x, after, hsplit, fun y hy => hok y (by simpa using hbefore y hy), hx⟩

/-- A traversal has no result exactly if some step has none. -/
theorem mapM_eq_none_iff {f : α → Option β} {xs : List α} : xs.mapM f = none ↔ ∃ x ∈ xs, f x = none := by
  induction xs with
  | nil => simp
  | cons x rest ih =>
    simp only [List.mapM_cons, List.mem_cons, exists_eq_or_imp, ← ih]
    cases f x <;> cases rest.mapM f <;> simp

/-- Where every step reads something off what was written, so does the traversal. -/
theorem mapM_map_eq_some_map {write : α → β} {read : β → Option γ} {value : α → γ} {xs : List α}
    (h : ∀ x ∈ xs, read (write x) = some (value x)) : (xs.map write).mapM read = some (xs.map value) := by
  induction xs with
  | nil => rfl
  | cons x rest ih =>
    obtain ⟨hx, hrest⟩ := List.forall_mem_cons.mp h
    rw [List.map_cons, List.mapM_cons, hx, ih hrest]
    rfl

/-- Where every step reads back what was written, the list is read back. -/
theorem mapM_map_eq_some {write : α → β} {read : β → Option α} {xs : List α}
    (h : ∀ x ∈ xs, read (write x) = some x) : (xs.map write).mapM read = some xs := by
  simpa using mapM_map_eq_some_map h

end HypermediaApi
