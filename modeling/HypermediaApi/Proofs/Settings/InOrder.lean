import HypermediaApi.Settings.Sources

/-!
# HypermediaApi.Proofs.Settings.InOrder — the dictionaries of a layer are in the order of their keys

Looking a key up finds its first entry, while laying entries over others and reading a section let the last one win. The
two agree because no dictionary that a source gives has a key twice: its keys ascend, and so do those of every
dictionary in it (`SettingValue.InOrder`).

Every step that builds a layer keeps that order. Both notations put the entries that they read in their place
(`Settings.Variable.value_inOrder`, `Settings.File.read?_inOrder`), a variable gives one entry at each level, and laying
values in order over each other leaves them in order (`SettingValue.InOrder.overlayEntries`).
-/

namespace HypermediaApi

/-! ### Entries -/

section Entries

variable {β : Type} {p : β → Prop} {es : List (String × β)} {key : String} {v : β}

/-- The keys ascend, and all values satisfy `p`. -/
structure OrderedEntries (p : β → Prop) (es : List (String × β)) : Prop where
  keys : (es.map Prod.fst).Pairwise (· < ·)
  values : ∀ e ∈ es, p e.2

namespace OrderedEntries

theorem nil : OrderedEntries p [] := ⟨.nil, by simp⟩

theorem singleton (hv : p v) : OrderedEntries p [(key, v)] := ⟨by simp, by simpa using hv⟩

theorem putSorted (h : OrderedEntries p es) (hv : p v) : OrderedEntries p (putSorted key v es) := by
  refine ⟨pairwise_putSorted h.keys, ?_⟩
  intro e he
  rcases mem_putSorted he with rfl | he
  · exact hv
  · exact h.values e he

theorem nodup (h : OrderedEntries p es) : (es.map Prod.fst).Nodup := nodup_of_ascending h.keys

theorem of_lookup (h : OrderedEntries p es) (hv : es.lookup key = some v) : p v := by
  obtain ⟨before, after, rfl, -⟩ := List.lookup_eq_some_iff.mp hv
  exact h.values (key, v) (by simp)

end OrderedEntries

end Entries

/-! ### Values -/

namespace SettingValue

/-- The keys of the dictionary ascend if the value is one, and so on in its values. -/
inductive InOrder : SettingValue → Prop
  | plain {v : SettingValue} (h : ∀ es, v ≠ .dict es) : InOrder v
  | dict {es : SettingEntries} (keys : (es.map Prod.fst).Pairwise (· < ·)) (values : ∀ e ∈ es, InOrder e.2) :
    InOrder (.dict es)

@[simp] theorem inOrder_dict {es : SettingEntries} : InOrder (.dict es) ↔ OrderedEntries InOrder es := by
  constructor
  · intro h
    cases h with
    | plain h => exact absurd rfl (h es)
    | dict keys values => exact ⟨keys, values⟩
  · intro h
    exact .dict h.keys h.values

@[simp] theorem inOrder_bool {b : Bool} : InOrder (.bool b) := .plain (by simp)
@[simp] theorem inOrder_signed {n : Int64} : InOrder (.signed n) := .plain (by simp)
@[simp] theorem inOrder_unsigned {n : UInt64} : InOrder (.unsigned n) := .plain (by simp)
@[simp] theorem inOrder_float {x : Decimal.Binary64} : InOrder (.float x) := .plain (by simp)
@[simp] theorem inOrder_text {s : String} : InOrder (.text s) := .plain (by simp)
@[simp] theorem inOrder_list {items : List SettingValue} : InOrder (.list items) := .plain (by simp)

/-! ### Laying over -/

/-- Entries laid over entries in order are in order if their values are, and laying them over a value in order gives
one in order. -/
private theorem orderedEntries_overlayEntries {lower upper : SettingEntries}
    (hupper : ∀ e ∈ upper, e.2.InOrder ∧ ∀ {below : SettingValue}, below.InOrder → (overlay below e.2).InOrder)
    (hlower : OrderedEntries InOrder lower) : OrderedEntries InOrder (overlayEntries lower upper) := by
  induction upper generalizing lower with
  | nil => simpa [overlayEntries] using hlower
  | cons e r ih =>
    obtain ⟨k, v⟩ := e
    obtain ⟨hv, hr⟩ := List.forall_mem_cons.mp hupper
    rw [overlayEntries]
    refine ih hr (hlower.putSorted ?_)
    cases hbelow : lower.lookup k with
    | none => exact hv.1
    | some below => exact hv.2 (hlower.of_lookup hbelow)

/-- **Laying values in order over each other gives a value in order.** -/
theorem InOrder.overlay {lower upper : SettingValue} (hupper : upper.InOrder) (hlower : lower.InOrder) :
    (overlay lower upper).InOrder := by
  induction hupper generalizing lower with
  | plain h => simpa [overlay_of_not_dict lower h] using InOrder.plain h
  | @dict es keys values ih =>
    cases hlower with
    | plain h =>
      rw [overlay_eq_of_lower_not_dict _ h]
      exact .dict keys values
    | @dict below keys' values' =>
      rw [overlay_dict, inOrder_dict]
      exact orderedEntries_overlayEntries (fun e he => ⟨values e he, ih e he⟩) ⟨keys', values'⟩

theorem InOrder.overlayEntries {lower upper : SettingEntries} (hlower : OrderedEntries InOrder lower)
    (hupper : OrderedEntries InOrder upper) : OrderedEntries InOrder (overlayEntries lower upper) :=
  orderedEntries_overlayEntries (fun e he => ⟨hupper.values e he, fun hbelow => (hupper.values e he).overlay hbelow⟩)
    hlower

end SettingValue

open SettingValue (InOrder)

/-! ### Variables -/

namespace Settings.Variable

theorem wordValue_inOrder (w : List Char) : (wordValue w).InOrder := by
  rw [wordValue]
  split <;> simp

/-- Values are read in order, and members are read into entries that stay in order. The induction is on the fuel, for
both together since each reads the other. -/
private theorem read_inOrder (fuel : Nat) :
    (∀ {cs v r}, readValue? fuel cs = some (v, r) → v.InOrder) ∧
    ∀ {es cs es' r}, readMembers? fuel es cs = some (es', r) → OrderedEntries InOrder es →
      OrderedEntries InOrder es' := by
  induction fuel with
  | zero => constructor <;> simp [readValue?, readMembers?]
  | succ fuel ih =>
    obtain ⟨ihValue, ihMembers⟩ := ih
    constructor
    · intro cs v r h
      simp only [readValue?, Option.bind_eq_bind] at h
      split at h
      case h_3 =>
        -- The entries of a dictionary are put in their places one after the other.
        simp only [Option.bind_eq_some_iff, Option.map_eq_some_iff] at h
        obtain ⟨_, ⟨⟨es, _⟩, hes, rfl⟩, heq⟩ := h
        obtain ⟨rfl, -⟩ := by simpa using heq
        exact SettingValue.inOrder_dict.mpr (ihMembers hes .nil)
      case h_4 | h_5 =>
        simp only [Option.bind_eq_some_iff, Option.map_eq_some_iff] at h
        obtain ⟨_, ⟨_, _, rfl⟩, heq⟩ := h
        obtain ⟨rfl, -⟩ := by simpa using heq
        simp
      case h_7 => simp at h
      all_goals
        obtain ⟨rfl, -⟩ := by simpa using h
        simp [wordValue_inOrder]
    · intro es cs es' r h hes
      unfold readMembers? at h
      split at h
      case h_1 => simp at h
      case h_2 =>
        obtain ⟨rfl, -⟩ := by simpa using h
        exact hes
      case h_3 hfuel _ =>
        obtain rfl := Nat.succ.inj hfuel
        -- Reading goes on in one way after a key with quotes and after one without.
        extract_lets afterKey at h
        have hafterKey : ∀ x, afterKey x = some (es', r) → OrderedEntries InOrder es' := by
          intro x h
          simp only [afterKey] at h
          split at h
          · obtain ⟨⟨v, _⟩, hv, h⟩ := Option.bind_eq_some_iff.mp h
            split at h
            · exact ihMembers h (hes.putSorted (ihValue hv))
            · obtain ⟨rfl, -⟩ := by simpa using h
              exact hes.putSorted (ihValue hv)
            · simp at h
          · simp at h
        split at h
        all_goals
          obtain ⟨x, -, h⟩ := Option.bind_eq_some_iff.mp h
          exact hafterKey x h

/-- **The value of a variable is in order.** -/
theorem value_inOrder (s : String) : (value s).InOrder := by
  rw [value]
  split
  · next v heq => exact (read_inOrder _).1 heq
  · simp

end Settings.Variable

theorem entriesBelow_inOrder {v : SettingValue} (h : v.InOrder) (keys : List String) :
    OrderedEntries InOrder (entriesBelow v keys) := by
  fun_induction entriesBelow v keys with
  | case1 => exact .nil
  | case2 key => exact .singleton h
  | case3 key keys _ ih => exact .singleton (SettingValue.inOrder_dict.mpr ih)

theorem variableEntries_inOrder (name text : String) : OrderedEntries InOrder (variableEntries name text) := by
  rw [variableEntries]
  split
  · exact entriesBelow_inOrder (Settings.Variable.value_inOrder text) _
  · exact .nil

/-- **The layer of the variables is in order.** -/
theorem Environment.layer_inOrder (env : Environment) : OrderedEntries InOrder env.layer := by
  rw [Environment.layer]
  refine List.foldlRecOn env.entries _ .nil ?_
  intro acc hacc entry _
  exact SettingValue.InOrder.overlayEntries hacc (variableEntries_inOrder entry.1 entry.2)

end HypermediaApi
