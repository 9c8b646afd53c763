import HypermediaApi.Proofs.Ordering.Grammar
import HypermediaApi.Proofs.Ordering.Meaning

/-!
# HypermediaApi.Proofs.Ordering.Composition — sort expressions put together and turned round

A list of keys compiles key by key: the properties behind the keys stand one after the other, and only then are they
made steps, of which the one at the head is the first (`stepsOf`). So nothing but the mark of the first step tells
the steps of two expressions put together from the steps of the one followed by those of the other
(`compileKeys_append`), and turning every key round turns every step round (`compileKeys_reverse`).

Both carry over to texts that have an entry. A text without one stands for the identity field
(`PropertyMapping.wanted`), which is why such texts are left out: put behind another expression they add nothing.
-/

namespace HypermediaApi

/-! ### Turning round -/

/-- The key of the same field in the opposite direction. -/
def SortKey.reverse (key : SortKey) : SortKey := { key with direction := key.direction.reverse }

/-- The step by the same property in the opposite direction. -/
def SortStep.reverse (step : SortStep) : SortStep := { step with direction := step.direction.reverse }

/-- `b` writes the fields of `a` in the opposite directions. -/
def WritesOpposite (a b : String) : Prop := ∃ keys, Writes a keys ∧ Writes b (keys.map SortKey.reverse)

/-- A property runs the other way round if its key does, reversed or not. -/
theorem MappedProperty.direction_reverse (property : MappedProperty) (d : Direction) :
    property.direction d.reverse = (property.direction d).reverse := by
  unfold MappedProperty.direction
  split <;> rfl

/-! ### Marking the first step -/

/-- The property and the direction of a step. -/
def SortStep.criterion (step : SortStep) : String × Direction := (step.property, step.direction)

/-- The steps with the one at the head as the first, and no other. -/
def markFirst (steps : List SortStep) : List SortStep :=
  steps.mapIdx fun i step => { step with first := i == 0 }

theorem map_criterion_stepsOf (properties : List (String × Direction)) :
    (stepsOf properties).map SortStep.criterion = properties := by
  cases properties with
  | nil => rfl
  | cons head rest => simp [stepsOf, SortStep.criterion, Function.comp_def]

theorem markFirst_eq_stepsOf (steps : List SortStep) : markFirst steps = stepsOf (steps.map SortStep.criterion) := by
  rw [stepsOf_eq_mapIdx]
  refine List.ext_getElem (by simp [markFirst]) ?_
  intro i h₁ h₂
  simp [markFirst, SortStep.criterion]

/-- The mark of the first step is all that is lost where steps are put together. -/
theorem markFirst_append_stepsOf (properties more : List (String × Direction)) :
    markFirst (stepsOf properties ++ stepsOf more) = stepsOf (properties ++ more) := by
  rw [markFirst_eq_stepsOf, List.map_append, map_criterion_stepsOf, map_criterion_stepsOf]

/-- Turning steps round leaves the first one the first. -/
theorem stepsOf_map_reverse (properties : List (String × Direction)) :
    stepsOf (properties.map fun p => (p.1, p.2.reverse)) = (stepsOf properties).map SortStep.reverse := by
  cases properties with
  | nil => rfl
  | cons head rest => simp [stepsOf, SortStep.reverse, Function.comp_def]

namespace PropertyMapping

variable {m : PropertyMapping} {keys : List SortKey} {steps : List SortStep}

/-! ### Keys -/

theorem compileKeys_eq_ok_iff :
    m.compileKeys keys = .ok steps ↔
      ∃ expanded, keys.mapM m.expand = .ok expanded ∧ steps = stepsOf expanded.flatten := by
  unfold compileKeys
  cases keys.mapM m.expand with
  | ok expanded => simp [Except.map, eq_comm]
  | error failure => simp [Except.map]

/-- **The keys of two lists compile one list after the other.** -/
theorem compileKeys_append {more : List SortKey} :
    m.compileKeys (keys ++ more) = .ok steps ↔
      ∃ before after, m.compileKeys keys = .ok before ∧ m.compileKeys more = .ok after ∧
        steps = markFirst (before ++ after) := by
  simp only [compileKeys_eq_ok_iff, mapM_append_eq_ok_iff]
  constructor
  · rintro ⟨_, ⟨e, e', he, he', rfl⟩, rfl⟩
    refine ⟨_, _, ⟨e, he, rfl⟩, ⟨e', he', rfl⟩, ?_⟩
    rw [markFirst_append_stepsOf, List.flatten_append]
  · rintro ⟨_, _, ⟨e, he, rfl⟩, ⟨e', he', rfl⟩, rfl⟩
    refine ⟨_, ⟨e, e', he, he', rfl⟩, ?_⟩
    rw [markFirst_append_stepsOf, List.flatten_append]

theorem expand_reverse (m : PropertyMapping) (key : SortKey) :
    m.expand key.reverse = (m.expand key).map fun properties => properties.map fun p => (p.1, p.2.reverse) := by
  unfold expand SortKey.reverse
  dsimp only
  cases m.get? key.field with
  | none => rfl
  | some properties => simp [Except.map, MappedProperty.direction_reverse]

/-- **Keys turned round compile to the steps turned round**, or fail alike. -/
theorem compileKeys_reverse (m : PropertyMapping) (keys : List SortKey) :
    m.compileKeys (keys.map SortKey.reverse) = (m.compileKeys keys).map (List.map SortStep.reverse) := by
  have hexpand : (keys.map SortKey.reverse).mapM m.expand =
      (keys.mapM m.expand).map (List.map (List.map fun p => (p.1, p.2.reverse))) := by
    have hsteps : m.expand ∘ SortKey.reverse = fun key =>
        (m.expand key).map (List.map fun p => (p.1, p.2.reverse)) := funext m.expand_reverse
    rw [List.mapM_map, hsteps, mapM_map_result]
  unfold compileKeys
  rw [hexpand]
  cases keys.mapM m.expand with
  | error failure => rfl
  | ok expanded => simp [Except.map, ← stepsOf_map_reverse, List.map_flatten]

/-! ### Texts with an entry -/

/-- A text has as many keys as entries, so it has none of either or some of both. -/
theorem eq_nil_iff_of_readOrderBy {text : String} (h : readOrderBy text = .ok keys) :
    keys = [] ↔ Text.entries text = [] := by
  have hresults : keys.map Except.ok = (Text.entries text).map SortKey.read := map_ok_of_mapM_eq_ok h
  rw [← List.map_eq_nil_iff, hresults, List.map_eq_nil_iff]

/-- A text with an entry has keys of its own, and the identity does not take their place. -/
theorem compile_eq_compileKeys {text : String} (h : Text.entries text ≠ []) (hread : readOrderBy text = .ok keys) :
    m.compile (some text) = m.compileKeys keys := by
  have hne : keys ≠ [] := (eq_nil_iff_of_readOrderBy hread).not.mpr h
  have hread' : readOrderBy ((some text).getD "") = .ok keys := hread
  rw [compile_of_read hread']
  unfold wanted
  rw [if_neg (by simpa using hne)]

theorem compile_eq_ok_iff {text : String} (h : Text.entries text ≠ []) :
    m.compile (some text) = .ok steps ↔ ∃ keys, readOrderBy text = .ok keys ∧ m.compileKeys keys = .ok steps := by
  constructor
  · intro hcompile
    cases hread : readOrderBy text with
    | ok keys =>
      rw [compile_eq_compileKeys h hread] at hcompile
      exact ⟨keys, rfl, hcompile⟩
    | error failure =>
      have hread' : readOrderBy ((some text).getD "") = .error failure := hread
      rw [compile_of_read_error hread'] at hcompile
      cases hcompile
  · rintro ⟨keys, hread, hkeys⟩
    rw [compile_eq_compileKeys h hread]
    exact hkeys

/-- **Expressions put together at a comma compile one after the other.** -/
theorem compile_append {a b : String} (ha : Text.entries a ≠ []) (hb : Text.entries b ≠ []) :
    m.compile (some (a ++ "," ++ b)) = .ok steps ↔
      ∃ before after, m.compile (some a) = .ok before ∧ m.compile (some b) = .ok after ∧
        steps = markFirst (before ++ after) := by
  have hab : Text.entries (a ++ "," ++ b) ≠ [] := by
    rw [Text.entries_append]
    exact List.append_ne_nil_of_left_ne_nil ha _
  simp only [compile_eq_ok_iff ha, compile_eq_ok_iff hb, compile_eq_ok_iff hab, readOrderBy_append]
  constructor
  · rintro ⟨_, ⟨keys, more, hkeys, hmore, rfl⟩, h⟩
    obtain ⟨before, after, hbefore, hafter, rfl⟩ := compileKeys_append.mp h
    exact ⟨before, after, ⟨keys, hkeys, hbefore⟩, ⟨more, hmore, hafter⟩, rfl⟩
  · rintro ⟨before, after, ⟨keys, hkeys, hbefore⟩, ⟨more, hmore, hafter⟩, rfl⟩
    exact ⟨_, ⟨keys, more, hkeys, hmore, rfl⟩, compileKeys_append.mpr ⟨before, after, hbefore, hafter, rfl⟩⟩

/-- **An expression in the opposite directions compiles to the opposite steps**, or fails alike. -/
theorem compile_opposite {a b : String} (ha : Text.entries a ≠ []) (hopposite : WritesOpposite a b) :
    m.compile (some b) = (m.compile (some a)).map (List.map SortStep.reverse) := by
  obtain ⟨keys, hkeys, hreversed⟩ := hopposite
  have hread : readOrderBy a = .ok keys := readOrderBy_eq_ok_iff.mpr hkeys
  have hread' : readOrderBy b = .ok (keys.map SortKey.reverse) := readOrderBy_eq_ok_iff.mpr hreversed
  have hb : Text.entries b ≠ [] := by
    rw [Ne, ← eq_nil_iff_of_readOrderBy hread', List.map_eq_nil_iff, eq_nil_iff_of_readOrderBy hread]
    exact ha
  rw [compile_eq_compileKeys ha hread, compile_eq_compileKeys hb hread', compileKeys_reverse]

/-- Every expression can be written in the opposite directions. -/
theorem exists_writesOpposite {a : String} {keys : List SortKey} (h : Writes a keys) : ∃ b, WritesOpposite a b := by
  have hfields : ∀ key ∈ keys.map SortKey.reverse, IsFieldText key.field := by
    intro key hkey
    obtain ⟨original, hmem, rfl⟩ := List.mem_map.mp hkey
    exact h.isFieldText original hmem
  obtain ⟨b, hb⟩ := exists_writes hfields
  exact ⟨b, keys, h, hb⟩

/-- **Sort expressions can be put together and turned round.** Two expressions that have an entry each, put together
at a comma, compile exactly if both do, to the steps of the one followed by those of the other, of which only the one
at the head is the first. An expression that has an entry and one that writes the same fields in the opposite
directions fail alike or compile to the same steps in the opposite directions, with the same one as the first; and
every expression that can be read has such an opposite. -/
theorem compile_append_and_opposite (m : PropertyMapping) :
    (∀ a b : String, Text.entries a ≠ [] → Text.entries b ≠ [] → ∀ steps,
      m.compile (some (a ++ "," ++ b)) = .ok steps ↔
        ∃ before after, m.compile (some a) = .ok before ∧ m.compile (some b) = .ok after ∧
          steps = markFirst (before ++ after)) ∧
    (∀ a b : String, Text.entries a ≠ [] → WritesOpposite a b →
      m.compile (some b) = (m.compile (some a)).map (List.map SortStep.reverse)) ∧
    ∀ a keys, readOrderBy a = .ok keys → ∃ b, WritesOpposite a b := by
  refine ⟨fun a b ha hb steps => compile_append ha hb, fun a b => compile_opposite, fun a keys h => ?_⟩
  exact exists_writesOpposite (readOrderBy_eq_ok_iff.mp h)

/-- A field without properties in front, so that the first step comes out of the second expression; and the same
expressions turned round, where a reversed property sorts upwards. -/
theorem compile_append_and_opposite_reversed :
    let m := (draft.map "none" [] |>.map "fresh" [{ name := "changed", reversed := true }]).build
    Text.entries "none desc, " ≠ [] ∧ Text.entries " FRESH,id DESC" ≠ [] ∧
    m.compile (some "none desc, , FRESH,id DESC") = .ok [⟨"changed", .descending, true⟩, ⟨"id", .descending, false⟩] ∧
    WritesOpposite " FRESH,id DESC" "FRESH Desc , id" ∧
    m.compile (some "FRESH Desc , id") = .ok [⟨"changed", .ascending, true⟩, ⟨"id", .ascending, false⟩] := by
  intro m
  have ha : Text.entries "none desc, " ≠ [] := by decide +kernel
  have hb : Text.entries " FRESH,id DESC" ≠ [] := by decide +kernel
  have hopposite : WritesOpposite " FRESH,id DESC" "FRESH Desc , id" :=
    ⟨[⟨"FRESH", .ascending⟩, ⟨"id", .descending⟩], readOrderBy_eq_ok_iff.mp (by decide +kernel),
      readOrderBy_eq_ok_iff.mp (by decide +kernel)⟩
  have happend := (compile_append_and_opposite m).1 "none desc, " " FRESH,id DESC" ha hb
  have hreversed := (compile_append_and_opposite m).2.1 " FRESH,id DESC" "FRESH Desc , id" hb hopposite
  refine ⟨ha, hb,
    (happend _).mpr ⟨[], [⟨"changed", .descending, true⟩, ⟨"id", .descending, false⟩], ?_, ?_, ?_⟩,
    hopposite, hreversed.trans ?_⟩
  all_goals decide +kernel

end PropertyMapping

end HypermediaApi
