import HypermediaApi.Decimal.Shortest
import HypermediaApi.SortedEntries
import HypermediaApi.Text.Quoted

/-!
# HypermediaApi.Settings.Value — what sources of settings hold

The values that a source gives, before anything is known of the settings they are for, and laying one source
over another. A dictionary keeps its entries in the order of their keys (`putSorted`).

Laying values over each other goes key by key as long as both are dictionaries; otherwise the upper value
hides the lower one as a whole. So a source that gives one setting of a section leaves the rest of the
section to the sources below it.
-/

namespace HypermediaApi

open Decimal (Binary64)

/-- A value that a source of settings gives. -/
inductive SettingValue where
  | bool (b : Bool)
  | signed (n : Int64)
  | unsigned (n : UInt64)
  | float (x : Binary64)
  | text (s : String)
  | list (items : List SettingValue)
  | dict (entries : List (String × SettingValue))
  deriving Repr, Inhabited

/-- The entries of a dictionary. -/
abbrev SettingEntries := List (String × SettingValue)

namespace SettingValue

/-- The number that an integer of either kind is. -/
def integer? : SettingValue → Option Int
  | .signed n => some n.toInt
  | .unsigned n => some n.toNat
  | _ => none

/-- The wording of a binary64 number. -/
def floatText : Binary64 → String
  | .finite negative m e =>
    (if negative then "-" else "") ++ .ofList (Decimal.shortest m e).positional
  | .infinite negative => if negative then "-inf" else "inf"
  | .nan => "NaN"

/-- How a fault names a value. -/
def describe : SettingValue → String
  | .bool b => "bool " ++ toString b
  | .signed n => "signed int `" ++ toString n.toInt ++ "`"
  | .unsigned n => "unsigned int `" ++ toString n.toNat ++ "`"
  | .float x => "float `" ++ floatText x ++ "`"
  | .text s => "string " ++ Text.quoted s
  | .list _ => "sequence"
  | .dict _ => "map"

/-! ### Layers -/

mutual

/-- The second value laid over the first one. -/
def overlay (lower : SettingValue) : SettingValue → SettingValue
  | .dict upper =>
    match lower with
    | .dict entries => .dict (overlayEntries entries upper)
    | _ => .dict upper
  | .bool b => .bool b
  | .signed n => .signed n
  | .unsigned n => .unsigned n
  | .float x => .float x
  | .text s => .text s
  | .list items => .list items

/-- The second entries laid over the first ones. -/
def overlayEntries (lower : SettingEntries) : SettingEntries → SettingEntries
  | [] => lower
  | (k, v) :: upper =>
    let v := match lower.lookup k with
      | some below => overlay below v
      | none => v
    overlayEntries (putSorted k v lower) upper

end

/-- The value laid over another one if there is one. -/
def laidOver (lower : Option SettingValue) (upper : SettingValue) : SettingValue :=
  match lower with
  | some below => overlay below upper
  | none => upper

/-- Where the upper value is no dictionary it is all that is seen. -/
theorem overlay_of_not_dict {upper : SettingValue} (lower : SettingValue) (h : ∀ es, upper ≠ .dict es) :
    overlay lower upper = upper := by
  cases upper <;> simp_all [overlay]

/-- Where the lower value is no dictionary it is not seen. -/
theorem overlay_eq_of_lower_not_dict {lower : SettingValue} (upper : SettingValue) (h : ∀ es, lower ≠ .dict es) :
    overlay lower upper = upper := by
  cases upper with
  | dict es => cases lower <;> simp_all [overlay]
  | _ => simp [overlay]

/-- Dictionaries are laid over each other entry by entry. -/
theorem overlay_dict (lower upper : SettingEntries) :
    overlay (.dict lower) (.dict upper) = .dict (overlayEntries lower upper) := by
  simp [overlay]

/-- What is found under a key after laying entries with different keys over others: what the upper ones have
there, over what the lower ones have. -/
theorem lookup_overlayEntries {upper : SettingEntries} (h : (upper.map Prod.fst).Nodup) (lower : SettingEntries)
    (k : String) :
    (overlayEntries lower upper).lookup k =
      match upper.lookup k with
      | some v => some (laidOver (lower.lookup k) v)
      | none => lower.lookup k := by
  induction upper generalizing lower with
  | nil => simp [overlayEntries]
  | cons e r ih =>
    obtain ⟨k', v'⟩ := e
    rw [List.map_cons, List.nodup_cons] at h
    rw [overlayEntries, ih h.2]
    by_cases hk : k = k'
    · subst hk
      have hr : r.lookup k = none := by
        rw [List.lookup_eq_none_iff]
        intro p hp
        have : k ≠ p.1 := fun e => h.1 (List.mem_map.2 ⟨p, hp, e.symm⟩)
        simpa using this
      simp only [hr, lookup_putSorted, List.lookup_cons, if_true, beq_self_eq_true]
      cases lower.lookup k <;> simp [laidOver]
    · simp [lookup_putSorted, List.lookup_cons, hk, beq_eq_false_iff_ne.2 hk]

end SettingValue

end HypermediaApi
