import HypermediaApi.Proofs.Settings.Tables

/-!
# HypermediaApi.Proofs.Settings.Layers — what layers say of one setting

A setting is known by the section that it is in and its name there (`SettingKey`), and holds a text or a number within
bounds (`SettingKind`). A layer gives it a value or says nothing of it (`SettingKey.valueIn?`), and is well typed if it
says nothing of the settings but values that they can hold (`WellTyped`); what it says beside the settings is free.

Layers are laid over each other setting by setting: the upper one is asked first, and the lower one where that says
nothing (`IsLayer.valueIn?_overlay`). By induction, several of them are asked from the top (`IsLayer.foldl`).
-/

namespace HypermediaApi

/-! ### Settings -/

/-- What a setting holds. -/
inductive PlainSetting where
  | text (s : String)
  | number (n : Int)
  deriving DecidableEq, Repr

/-- What a setting can hold: texts, or the numbers between two bounds. -/
inductive SettingKind where
  | text
  | integer (low high : Int)

namespace SettingKind

abbrev int64 : SettingKind := .integer (-9223372036854775808) 9223372036854775807
abbrev uint32 : SettingKind := .integer 0 4294967295
abbrev uint64 : SettingKind := .integer 0 18446744073709551615

/-- What a value is for a setting of the kind; none if the setting cannot hold it. -/
def plain? : SettingKind → SettingValue → Option PlainSetting
  | .text, .text s => some (.text s)
  | .text, _ => none
  | .integer low high, v => (v.integer?.filter fun n => low ≤ n ∧ n ≤ high).map .number

theorem plain?_integer_iff {low high : Int} {v : SettingValue} {p : PlainSetting} :
    (integer low high).plain? v = some p ↔ ∃ n, v.integer? = some n ∧ low ≤ n ∧ n ≤ high ∧ .number n = p := by
  simp only [plain?, Option.map_eq_some_iff, Option.filter_eq_some_iff, decide_eq_true_eq, and_assoc]

theorem not_dict_of_plain? {kind : SettingKind} {v : SettingValue} (h : (kind.plain? v).isSome) (es : SettingEntries) :
    v ≠ .dict es := by
  intro hv
  cases kind <;> simp [hv, plain?, SettingValue.integer?] at h

end SettingKind

/-- The settings of the service section. -/
inductive ServiceKey where
  | name | logLevel | environment | baseUrl
  deriving DecidableEq, Repr

/-- The settings of the paging section. -/
inductive PagingKey where
  | defaultPageSize | maxPageSize
  deriving DecidableEq, Repr

/-- The settings of the seed section. -/
inductive SeedKey where
  | maxRetries | retryDelayMs
  deriving DecidableEq, Repr

/-- The settings, each in its section. -/
inductive SettingKey where
  | service (k : ServiceKey)
  | paging (k : PagingKey)
  | seed (k : SeedKey)
  deriving DecidableEq, Repr

def ServiceKey.text : ServiceKey → String
  | name => "name"
  | logLevel => "log_level"
  | environment => "environment"
  | baseUrl => "base_url"

def PagingKey.text : PagingKey → String
  | defaultPageSize => "default_page_size"
  | maxPageSize => "max_page_size"

def SeedKey.text : SeedKey → String
  | maxRetries => "max_retries"
  | retryDelayMs => "retry_delay_ms"

def SeedKey.kind : SeedKey → SettingKind
  | maxRetries => .uint32
  | retryDelayMs => .uint64

namespace SettingKey

/-- The key of the section. -/
def sectionText : SettingKey → String
  | service _ => "service"
  | paging _ => "paging"
  | seed _ => "seed"

/-- The key within the section. -/
def text : SettingKey → String
  | service k => k.text
  | paging k => k.text
  | seed k => k.text

def kind : SettingKey → SettingKind
  | service _ => .text
  | paging _ => .int64
  | seed k => k.kind

/-- The value that entries have for the setting. -/
def given? (k : SettingKey) (es : SettingEntries) : Option SettingValue :=
  match es.lookup k.sectionText with
  | some (.dict inner) => inner.lookup k.text
  | _ => none

/-- What the setting holds according to entries, if they say something of it that it can hold. -/
def valueIn? (k : SettingKey) (es : SettingEntries) : Option PlainSetting := (k.given? es).bind k.kind.plain?

/-- The setting can hold what entries say of it: its section is a dictionary if it is there, and so is in it only what
the setting can hold. -/
def fits (k : SettingKey) (es : SettingEntries) : Bool :=
  match es.lookup k.sectionText with
  | none => true
  | some (.dict inner) => (inner.lookup k.text).all fun v => (k.kind.plain? v).isSome
  | some _ => false

variable {k : SettingKey} {es : SettingEntries}

theorem section_of_fits (h : k.fits es) {v : SettingValue} (hv : es.lookup k.sectionText = some v) :
    ∃ inner, v = .dict inner := by
  rw [fits, hv] at h
  cases v with
  | dict inner => exact ⟨inner, rfl⟩
  | _ => simp at h

theorem plain?_of_fits (h : k.fits es) {v : SettingValue} (hv : k.given? es = some v) : (k.kind.plain? v).isSome := by
  rw [fits] at h
  rw [given?] at hv
  split at hv
  · next inner heq => simpa [heq, hv] using h
  · simp at hv

theorem fits_iff :
    k.fits es ↔ (∀ v, es.lookup k.sectionText = some v → ∃ inner, v = .dict inner) ∧
      ∀ v, k.given? es = some v → (k.kind.plain? v).isSome := by
  refine ⟨fun h => ⟨fun v => section_of_fits h, fun v => plain?_of_fits h⟩, ?_⟩
  intro ⟨hsection, hvalue⟩
  rw [fits]
  simp only [given?] at hvalue
  split
  · rfl
  · next inner heq =>
    rw [heq] at hvalue
    cases hinner : inner.lookup k.text with
    | none => rfl
    | some v => simpa using hvalue v hinner
  · next v hnot heq =>
    obtain ⟨inner, rfl⟩ := hsection v heq
    exact absurd rfl (hnot inner)

end SettingKey

/-- All settings. -/
def SettingKey.all : List SettingKey :=
  [.service .name, .service .logLevel, .service .environment, .service .baseUrl, .paging .defaultPageSize,
    .paging .maxPageSize, .seed .maxRetries, .seed .retryDelayMs]

theorem SettingKey.mem_all (k : SettingKey) : k ∈ all := by
  rcases k with k | k | k <;> cases k <;> simp [all]

/-- All settings can hold what entries say of them. -/
def WellTyped (es : SettingEntries) : Prop := ∀ k : SettingKey, k.fits es

instance (es : SettingEntries) : Decidable (WellTyped es) :=
  decidable_of_iff (∀ k ∈ SettingKey.all, k.fits es) ⟨fun h k => h k k.mem_all, fun h k _ => h k⟩

/-! ### Layers -/

/-- What is laid over anything is a dictionary if it is one by itself. -/
theorem SettingValue.laidOver_dict (below : Option SettingValue) (u : SettingEntries) :
    ∃ inner, laidOver below (.dict u) = .dict inner := by
  cases below with
  | none => exact ⟨u, rfl⟩
  | some v =>
    cases v with
    | dict l => exact ⟨_, overlay_dict l u⟩
    | _ => exact ⟨u, overlay_eq_of_lower_not_dict _ (by simp)⟩

/-- Entries as a well-typed source gives them. -/
structure IsLayer (es : SettingEntries) : Prop where
  inOrder : OrderedEntries SettingValue.InOrder es
  wellTyped : WellTyped es

namespace IsLayer

variable {lower upper : SettingEntries}

theorem nil : IsLayer [] := ⟨.nil, fun _ => rfl⟩

/-- **The value of a setting after laying over**: the upper one, or the lower one where there is none. -/
theorem given?_overlay (hlower : WellTyped lower) (hupper : IsLayer upper) (k : SettingKey) :
    k.given? (SettingValue.overlayEntries lower upper) = (k.given? upper).or (k.given? lower) := by
  have hvalue := fun v => SettingKey.plain?_of_fits (v := v) (hupper.wellTyped k)
  simp only [SettingKey.given?, SettingValue.lookup_overlayEntries hupper.inOrder.nodup] at hvalue ⊢
  cases hu : upper.lookup k.sectionText with
  | none => simp
  | some v =>
    obtain ⟨u, rfl⟩ := SettingKey.section_of_fits (hupper.wellTyped k) hu
    cases hl : lower.lookup k.sectionText with
    | none => simp [SettingValue.laidOver]
    | some w =>
      obtain ⟨l, rfl⟩ := SettingKey.section_of_fits (hlower k) hl
      have hnodup := (SettingValue.inOrder_dict.mp (hupper.inOrder.of_lookup hu)).nodup
      simp only [SettingValue.laidOver, SettingValue.overlay_dict, SettingValue.lookup_overlayEntries hnodup]
      rw [hu] at hvalue
      cases hx : u.lookup k.text with
      | none => simp
      | some x =>
        -- The value is a text or a number and hides the lower one as a whole.
        have hplain := SettingKind.not_dict_of_plain? (hvalue x hx)
        cases l.lookup k.text <;> simp [SettingValue.overlay_of_not_dict _ hplain]

theorem overlay (hlower : IsLayer lower) (hupper : IsLayer upper) :
    IsLayer (SettingValue.overlayEntries lower upper) := by
  refine ⟨SettingValue.InOrder.overlayEntries hlower.inOrder hupper.inOrder, ?_⟩
  intro k
  rw [SettingKey.fits_iff]
  constructor
  · intro v hv
    rw [SettingValue.lookup_overlayEntries hupper.inOrder.nodup] at hv
    split at hv
    · next w hw =>
      obtain ⟨u, rfl⟩ := SettingKey.section_of_fits (hupper.wellTyped k) hw
      obtain rfl := Option.some.inj hv
      exact SettingValue.laidOver_dict _ u
    · exact SettingKey.section_of_fits (hlower.wellTyped k) hv
  · intro v hv
    rw [given?_overlay hlower.wellTyped hupper, Option.or_eq_some_iff] at hv
    rcases hv with hv | ⟨-, hv⟩
    · exact SettingKey.plain?_of_fits (hupper.wellTyped k) hv
    · exact SettingKey.plain?_of_fits (hlower.wellTyped k) hv

theorem valueIn?_overlay (hlower : WellTyped lower) (hupper : IsLayer upper) (k : SettingKey) :
    k.valueIn? (SettingValue.overlayEntries lower upper) = (k.valueIn? upper).or (k.valueIn? lower) := by
  unfold SettingKey.valueIn?
  rw [given?_overlay hlower hupper]
  cases hv : k.given? upper with
  | none => simp
  | some v =>
    obtain ⟨p, hp⟩ := Option.isSome_iff_exists.mp (SettingKey.plain?_of_fits (hupper.wellTyped k) hv)
    simp [hp]

/-- **Layers laid over each other are asked from the top**, and the lowest one is asked last. -/
theorem foldl {lowest : SettingEntries} {layers : List SettingEntries} (hlowest : IsLayer lowest)
    (hlayers : ∀ es ∈ layers, IsLayer es) :
    IsLayer (layers.foldl SettingValue.overlayEntries lowest) ∧
    ∀ k : SettingKey, k.valueIn? (layers.foldl SettingValue.overlayEntries lowest) =
      (layers.reverse.findSome? k.valueIn?).or (k.valueIn? lowest) := by
  induction layers generalizing lowest with
  | nil => exact ⟨hlowest, fun k => by simp⟩
  | cons es rest ih =>
    obtain ⟨hes, hrest⟩ := List.forall_mem_cons.mp hlayers
    obtain ⟨hlayer, hvalue⟩ := ih (hlowest.overlay hes) hrest
    refine ⟨hlayer, fun k => ?_⟩
    rw [List.foldl_cons, hvalue k, valueIn?_overlay hlowest.wellTyped hes, List.reverse_cons, List.findSome?_append]
    simp [Option.or_assoc]

end IsLayer

/-! ### Variables -/

/-- **The layer of the variables is well typed if what they give is**, and the last variable that gives a setting a
value decides about it. -/
theorem Environment.isLayer_layer {env : Environment} (h : ∀ e ∈ env.entries, WellTyped (variableEntries e.1 e.2)) :
    IsLayer env.layer ∧
    ∀ k : SettingKey, k.valueIn? env.layer =
      env.entries.reverse.findSome? fun e => k.valueIn? (variableEntries e.1 e.2) := by
  have hlayers : ∀ es ∈ env.entries.map (fun e => variableEntries e.1 e.2), IsLayer es := by
    intro es hes
    obtain ⟨e, he, rfl⟩ := List.mem_map.mp hes
    exact ⟨variableEntries_inOrder e.1 e.2, h e he⟩
  obtain ⟨hlayer, hvalue⟩ := IsLayer.foldl .nil hlayers
  rw [List.foldl_map] at hlayer
  refine ⟨hlayer, fun k => ?_⟩
  have hk := hvalue k
  rw [List.foldl_map, ← List.map_reverse, List.findSome?_map] at hk
  simpa [Environment.layer, SettingKey.valueIn?, SettingKey.given?, Function.comp_def] using hk

end HypermediaApi
