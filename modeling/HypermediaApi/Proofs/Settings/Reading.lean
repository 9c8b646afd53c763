import HypermediaApi.Proofs.Settings.Layers

/-!
# HypermediaApi.Proofs.Settings.Reading — a layer that gives all settings reads as they are

One entry of a dictionary changes the one setting that it names, or nothing (`Section.Reads`). By induction over the
entries, a section ends up with what they mean for its settings and keeps the rest (`Section.Reads.foldlM_putEntry`).
Every section is of this kind because its settings are read and stored one by one (`Section.Reads.of_settings`). The
settings as a whole are a section of sections, so the same law holds for them, and a layer that gives every setting a
value reads as the settings with these values (`Settings.ofEntries_of_isLayer`).
-/

namespace HypermediaApi

/-! ### Values -/

namespace SettingValue

variable {v : SettingValue} {p : PlainSetting}

theorem readText_of_plain? (h : SettingKind.text.plain? v = some p) : ∃ s, v.readText = .ok s ∧ .text s = p := by
  cases v with
  | text s => exact ⟨s, rfl, by simpa [SettingKind.plain?] using h⟩
  | _ => simp [SettingKind.plain?] at h

theorem readInteger_of_plain? {low high : Int} (expected : String)
    (h : (SettingKind.integer low high).plain? v = some p) :
    ∃ n, v.readInteger expected low high = .ok n ∧ low ≤ n ∧ n ≤ high ∧ .number n = p := by
  obtain ⟨n, hn, hlow, hhigh, rfl⟩ := SettingKind.plain?_integer_iff.mp h
  exact ⟨n, by simp [readInteger, hn, hlow, hhigh], hlow, hhigh, rfl⟩

theorem readInt64_of_plain? (h : SettingKind.int64.plain? v = some p) :
    ∃ n, v.readInt64 = .ok n ∧ .number n.toInt = p := by
  obtain ⟨n, hn, hlow, hhigh, rfl⟩ := readInteger_of_plain? "i64" h
  have hread : v.readInt64 = .ok (.ofInt n) := by
    have hmin : Int64.minValue.toInt = -9223372036854775808 := by decide
    have hmax : Int64.maxValue.toInt = 9223372036854775807 := by decide
    rw [readInt64, hmin, hmax, hn]
    rfl
  exact ⟨.ofInt n, hread, by rw [Int64.toInt_ofInt_of_le (by omega) (by omega)]⟩

theorem readUInt32_of_plain? (h : SettingKind.uint32.plain? v = some p) :
    ∃ n, v.readUInt32 = .ok n ∧ .number n.toNat = p := by
  obtain ⟨n, hn, hlow, hhigh, rfl⟩ := readInteger_of_plain? "u32" h
  refine ⟨.ofNat n.toNat, ?_, ?_⟩
  · have hsize : ((UInt32.size : Int) - 1) = 4294967295 := by decide
    rw [readUInt32, hsize, hn]
    rfl
  · rw [UInt32.toNat_ofNat_of_lt' (by simp only [UInt32.size]; omega)]
    simp [Int.toNat_of_nonneg hlow]

theorem readUInt64_of_plain? (h : SettingKind.uint64.plain? v = some p) :
    ∃ n, v.readUInt64 = .ok n ∧ .number n.toNat = p := by
  obtain ⟨n, hn, hlow, hhigh, rfl⟩ := readInteger_of_plain? "u64" h
  refine ⟨.ofNat n.toNat, ?_, ?_⟩
  · have hsize : ((UInt64.size : Int) - 1) = 18446744073709551615 := by decide
    rw [readUInt64, hsize, hn]
    rfl
  · rw [UInt64.toNat_ofNat_of_lt' (by simp only [UInt64.size]; omega)]
    simp [Int.toNat_of_nonneg hlow]

end SettingValue

namespace SettingKind

theorem plain?_int64 (n : Int64) : int64.plain? (.signed n) = some (.number n.toInt) := by
  have hlow := n.le_toInt
  have hhigh := n.toInt_lt
  exact plain?_integer_iff.mpr ⟨n.toInt, rfl, by omega, by omega, rfl⟩

theorem plain?_uint32 (n : UInt32) : uint32.plain? (.unsigned n.toUInt64) = some (.number n.toNat) := by
  have hhigh := n.toNat_lt
  exact plain?_integer_iff.mpr ⟨n.toNat, by simp [SettingValue.integer?], by omega, by omega, rfl⟩

theorem plain?_uint64 (n : UInt64) : uint64.plain? (.unsigned n) = some (.number n.toNat) := by
  have hhigh := n.toNat_lt
  exact plain?_integer_iff.mpr ⟨n.toNat, rfl, by omega, by omega, rfl⟩

end SettingKind

/-! ### Sections -/

/-- The section consists of the settings `κ`, each under a name of its own: reading gives `view` what the entries mean. -/
structure Section.Reads {σ κ : Type} {α : κ → Type} (sec : Section σ) (name : κ → String)
    (meaning : (k : κ) → SettingValue → Option (α k)) (view : σ → (k : κ) → α k) : Prop where
  name_injective : Function.Injective name
  /-- An entry of a setting changes this setting. -/
  put : ∀ (s : σ) {k : κ} {v : SettingValue} {a : α k}, meaning k v = some a →
    ∃ s', sec.putEntry s (name k, v) = .ok s' ∧ view s' k = a ∧ ∀ k', k' ≠ k → view s' k' = view s k'
  /-- An entry of no setting changes none. -/
  pass : ∀ (s : σ) {key : String} (v : SettingValue), (∀ k, name k ≠ key) → sec.putEntry s (key, v) = .ok s
  named : ∀ x ∈ sec.settings, ∃ k, name k = x.name

namespace Section.Reads

variable {σ κ : Type} {α : κ → Type} {sec : Section σ} {name : κ → String}
  {meaning : (k : κ) → SettingValue → Option (α k)} {view : σ → (k : κ) → α k} {es : SettingEntries}

/-- **Entries set what they name**, each setting to what its entry means, and leave the rest as it is. -/
theorem foldlM_putEntry (h : sec.Reads name meaning view) (hnodup : (es.map Prod.fst).Nodup)
    (hmeaning : ∀ k v, es.lookup (name k) = some v → (meaning k v).isSome) (s : σ) :
    ∃ s', es.foldlM sec.putEntry s = .ok s' ∧
      ∀ k, view s' k = ((es.lookup (name k)).bind (meaning k)).getD (view s k) := by
  induction es generalizing s with
  | nil => exact ⟨s, rfl, fun k => rfl⟩
  | cons e r ih =>
    obtain ⟨key, v⟩ := e
    obtain ⟨hnew, hrest⟩ := List.nodup_cons.mp hnodup
    have hnone : r.lookup key = none := OrderedMap.lookup_eq_none_iff.mpr hnew
    have hr : ∀ k v', r.lookup (name k) = some v' → (meaning k v').isSome := by
      intro k v' hv'
      refine hmeaning k v' ?_
      have hne : name k ≠ key := by
        intro hk
        rw [hk, hnone] at hv'
        cases hv'
      rwa [List.lookup_cons, beq_eq_false_iff_ne.mpr hne]
    by_cases hkey : ∃ k, name k = key
    · obtain ⟨k, rfl⟩ := hkey
      obtain ⟨a, ha⟩ := Option.isSome_iff_exists.mp (hmeaning k v (by simp))
      obtain ⟨s₁, hput, hown, hother⟩ := h.put s ha
      obtain ⟨s', hfold, hview⟩ := ih hrest hr s₁
      refine ⟨s', by rw [List.foldlM_cons, hput]; exact hfold, ?_⟩
      intro k'
      by_cases hk : k' = k
      · subst hk
        rw [hview, hnone, List.lookup_cons_self]
        simp [hown, ha]
      · have hname : name k' ≠ name k := fun heq => hk (h.name_injective heq)
        rw [hview, hother k' hk, List.lookup_cons, beq_eq_false_iff_ne.mpr hname]
    · have hne : ∀ k, name k ≠ key := not_exists.mp hkey
      obtain ⟨s', hfold, hview⟩ := ih hrest hr s
      refine ⟨s', by rw [List.foldlM_cons, h.pass s v hne]; exact hfold, ?_⟩
      intro k
      rw [hview, List.lookup_cons, beq_eq_false_iff_ne.mpr (hne k)]

/-- **A dictionary that gives all settings reads as what its entries mean for them.** -/
theorem read_dict (h : sec.Reads name meaning view) (hnodup : (es.map Prod.fst).Nodup)
    (hgiven : ∀ k, ((es.lookup (name k)).bind (meaning k)).isSome) :
    ∃ s, sec.read (.dict es) = .ok s ∧ ∀ k, (es.lookup (name k)).bind (meaning k) = some (view s k) := by
  have hmeaning : ∀ k v, es.lookup (name k) = some v → (meaning k v).isSome := by
    intro k v hv
    simpa [hv] using hgiven k
  obtain ⟨s, hfold, hview⟩ := h.foldlM_putEntry hnodup hmeaning sec.start
  refine ⟨s, ?_, ?_⟩
  · have hnone : (sec.settings.take sec.required).find? (fun x => (es.lookup x.name).isNone) = none := by
      rw [List.find?_eq_none]
      intro x hx
      obtain ⟨k, hk⟩ := h.named x (List.mem_of_mem_take hx)
      have hsome := Option.isSome_of_isSome_bind (hgiven k)
      simpa [← hk, Option.isSome_iff_ne_none] using hsome
    simp only [Section.read, hfold, hnone]
    rfl
  · intro k
    obtain ⟨a, ha⟩ := Option.isSome_iff_exists.mp (hgiven k)
    rw [hview, ha]
    rfl

/-- Sections whose settings are read by `read` and stored by `store`, each under a name of its own. -/
theorem of_settings {β : κ → Type} (keys : List κ) (read : (k : κ) → SettingValue → Except SettingFault (β k))
    (store : (k : κ) → β k → σ → σ) (hkeys : ∀ k, k ∈ keys)
    (hsettings : sec.settings = keys.map fun k => .of (name k) (read k) (store k))
    (hname : Function.Injective name)
    (hread : ∀ {k v a}, meaning k v = some a → ∃ x, read k v = .ok x ∧ ∀ s, view (store k x s) k = a)
    (hstore : ∀ {k k'} x s, k' ≠ k → view (store k x s) k' = view s k') : sec.Reads name meaning view where
  name_injective := hname
  put := by
    intro s k v a ha
    obtain ⟨x, hx, hview⟩ := hread ha
    have hfind : keys.find? (fun k' => name k' == name k) = some k := by
      cases hfound : keys.find? (fun k' => name k' == name k) with
      | none => exact absurd (List.find?_eq_none.mp hfound k (hkeys k)) (by simp)
      | some k' => exact congrArg some (hname (by simpa using List.find?_some hfound))
    have hsetting : sec.settings.find? (·.name == name k) = some (.of (name k) (read k) (store k)) := by
      rw [hsettings, List.find?_map]
      exact congrArg (Option.map _) hfind
    refine ⟨store k x s, ?_, hview s, fun k' hk' => hstore x s hk'⟩
    simp only [Section.putEntry, hsetting, Setting.of, hx]
    rfl
  pass := by
    intro s key v hkey
    have hsetting : sec.settings.find? (·.name == key) = none := by
      rw [hsettings, List.find?_eq_none]
      intro setting hsetting
      obtain ⟨k, -, rfl⟩ := List.mem_map.mp hsetting
      simpa [Setting.of] using hkey k
    simp [Section.putEntry, hsetting]
  named := by
    intro setting hsetting
    rw [hsettings] at hsetting
    obtain ⟨k, -, rfl⟩ := List.mem_map.mp hsetting
    exact ⟨k, rfl⟩

end Section.Reads

/-! ### The sections of the settings -/

namespace ServiceSettings

/-- What a setting of the section holds. -/
def get (s : ServiceSettings) : ServiceKey → PlainSetting
  | .name => .text s.name
  | .logLevel => .text s.logLevel
  | .environment => .text s.environment
  | .baseUrl => .text s.baseUrl

/-- The section with a setting changed. -/
def set (k : ServiceKey) (x : String) (s : ServiceSettings) : ServiceSettings :=
  match k with
  | .name => { s with name := x }
  | .logLevel => { s with logLevel := x }
  | .environment => { s with environment := x }
  | .baseUrl => { s with baseUrl := x }

theorem layout_reads : layout.Reads ServiceKey.text (fun _ => SettingKind.text.plain?) get := by
  refine .of_settings [.name, .logLevel, .environment, .baseUrl] (fun _ v => v.readText) set ?_ rfl ?_ ?_ ?_
  · intro k
    cases k <;> simp
  · intro k k' h
    cases k <;> cases k' <;> simp_all [ServiceKey.text]
  · intro k v p hp
    obtain ⟨x, hx, rfl⟩ := SettingValue.readText_of_plain? hp
    exact ⟨x, hx, fun s => by cases k <;> rfl⟩
  · intro k k' x s hk
    cases k <;> cases k' <;> first | rfl | exact absurd rfl hk

end ServiceSettings

namespace PagingSettings

/-- What a setting of the section holds. -/
def get (s : PagingSettings) : PagingKey → PlainSetting
  | .defaultPageSize => .number s.defaultPageSize.toInt
  | .maxPageSize => .number s.maxPageSize.toInt

/-- The section with a setting changed. -/
def set (k : PagingKey) (x : Int64) (s : PagingSettings) : PagingSettings :=
  match k with
  | .defaultPageSize => { s with defaultPageSize := x }
  | .maxPageSize => { s with maxPageSize := x }

theorem layout_reads : layout.Reads PagingKey.text (fun _ => SettingKind.int64.plain?) get := by
  refine .of_settings [.defaultPageSize, .maxPageSize] (fun _ v => v.readInt64) set ?_ rfl ?_ ?_ ?_
  · intro k
    cases k <;> simp
  · intro k k' h
    cases k <;> cases k' <;> simp_all [PagingKey.text]
  · intro k v p hp
    obtain ⟨x, hx, rfl⟩ := SettingValue.readInt64_of_plain? hp
    exact ⟨x, hx, fun s => by cases k <;> rfl⟩
  · intro k k' x s hk
    cases k <;> cases k' <;> first | rfl | exact absurd rfl hk

end PagingSettings

/-- The integers that a setting of the seed section holds. -/
def SeedKey.Held : SeedKey → Type
  | maxRetries => UInt32
  | retryDelayMs => UInt64

def SeedKey.read : (k : SeedKey) → SettingValue → Except SettingFault k.Held
  | maxRetries => (·.readUInt32)
  | retryDelayMs => (·.readUInt64)

namespace SeedSettings

/-- What a setting of the section holds. -/
def get (s : SeedSettings) : SeedKey → PlainSetting
  | .maxRetries => .number s.maxRetries.toNat
  | .retryDelayMs => .number s.retryDelayMs.toNat

/-- The section with a setting changed. -/
def set : (k : SeedKey) → k.Held → SeedSettings → SeedSettings
  | .maxRetries, x, s => { s with maxRetries := x }
  | .retryDelayMs, x, s => { s with retryDelayMs := x }

theorem layout_reads : layout.Reads SeedKey.text (fun k => k.kind.plain?) get := by
  refine .of_settings [.maxRetries, .retryDelayMs] SeedKey.read set ?_ rfl ?_ ?_ ?_
  · intro k
    cases k <;> simp
  · intro k k' h
    cases k <;> cases k' <;> simp_all [SeedKey.text]
  · intro k v p hp
    cases k with
    | maxRetries =>
      obtain ⟨x, hx, rfl⟩ := SettingValue.readUInt32_of_plain? hp
      exact ⟨x, hx, fun s => rfl⟩
    | retryDelayMs =>
      obtain ⟨x, hx, rfl⟩ := SettingValue.readUInt64_of_plain? hp
      exact ⟨x, hx, fun s => rfl⟩
  · intro k k' x s hk
    cases k <;> cases k' <;> first | rfl | exact absurd rfl hk

end SeedSettings

/-- **A section of a layer that gives all its settings a value** reads as these values. -/
theorem IsLayer.read_section {σ κ : Type} {sec : Section σ} {es : SettingEntries} {key : String}
    (embed : κ → SettingKey) {get : σ → κ → PlainSetting} (h : IsLayer es)
    (hreads : sec.Reads (fun k => (embed k).text) (fun k => (embed k).kind.plain?) get)
    (hkey : ∀ k, (embed k).sectionText = key) (hgiven : ∀ k, ((embed k).valueIn? es).isSome) (k₀ : κ) :
    ∃ v s, es.lookup key = some v ∧ sec.read v = .ok s ∧ ∀ k, (embed k).valueIn? es = some (get s k) := by
  obtain ⟨inner, hinner⟩ : ∃ inner, es.lookup key = some (.dict inner) := by
    have h₀ := hgiven k₀
    rw [SettingKey.valueIn?, SettingKey.given?, hkey] at h₀
    split at h₀
    · next inner heq => exact ⟨inner, heq⟩
    · simp at h₀
  have hvalue : ∀ k, (embed k).valueIn? es = (inner.lookup (embed k).text).bind (embed k).kind.plain? := by
    intro k
    rw [SettingKey.valueIn?, SettingKey.given?, hkey, hinner]
  simp only [hvalue] at hgiven ⊢
  have hnodup := (SettingValue.inOrder_dict.mp (h.inOrder.of_lookup hinner)).nodup
  obtain ⟨s, hread, hget⟩ := hreads.read_dict hnodup hgiven
  exact ⟨.dict inner, s, hinner, hread, hget⟩

/-! ### The settings -/

/-- The sections of the settings. -/
inductive SectionKey where
  | service | paging | seed

namespace SectionKey

def text : SectionKey → String
  | service => "service"
  | paging => "paging"
  | seed => "seed"

/-- What is in the section. -/
def Held : SectionKey → Type
  | service => ServiceSettings
  | paging => PagingSettings
  | seed => SeedSettings

def read : (k : SectionKey) → SettingValue → Except SettingFault k.Held
  | service => ServiceSettings.layout.read
  | paging => PagingSettings.layout.read
  | seed => SeedSettings.layout.read

end SectionKey

namespace Settings

/-- What a setting holds. -/
def get (s : Settings) : SettingKey → PlainSetting
  | .service k => s.service.get k
  | .paging k => s.paging.get k
  | .seed k => s.seed.get k

/-- A section of the settings. -/
def part (s : Settings) : (k : SectionKey) → k.Held
  | .service => s.service
  | .paging => s.paging
  | .seed => s.seed

theorem ext_part {s s' : Settings} (h : ∀ k, s.part k = s'.part k) : s = s' := by
  have hservice : s.service = s'.service := h .service
  have hpaging : s.paging = s'.paging := h .paging
  have hseed : s.seed = s'.seed := h .seed
  cases s
  cases s'
  simp_all

/-- The settings with a section changed. -/
def setPart : (k : SectionKey) → k.Held → Settings → Settings
  | .service, x, s => { s with service := x }
  | .paging, x, s => { s with paging := x }
  | .seed, x, s => { s with seed := x }

theorem layout_reads : layout.Reads SectionKey.text (fun k v => (k.read v).toOption) part := by
  refine .of_settings [.service, .paging, .seed] SectionKey.read setPart ?_ rfl ?_ ?_ ?_
  · intro k
    cases k <;> simp
  · intro k k' h
    cases k <;> cases k' <;> simp_all [SectionKey.text]
  · intro k v x hx
    cases hread : k.read v with
    | error fault => simp [hread, Except.toOption] at hx
    | ok y =>
      obtain rfl : y = x := by simpa [hread, Except.toOption] using hx
      exact ⟨y, rfl, fun s => by cases k <;> rfl⟩
  · intro k k' x s hk
    cases k <;> cases k' <;> first | rfl | exact absurd rfl hk

/-- **A layer that gives every setting a value reads as the settings with these values.** -/
theorem ofEntries_of_isLayer {es : SettingEntries} (h : IsLayer es) (hgiven : ∀ k : SettingKey, (k.valueIn? es).isSome) :
    ∃ s, ofEntries es = .ok s ∧ ∀ k : SettingKey, k.valueIn? es = some (s.get k) := by
  obtain ⟨v₁, service, hlookup₁, hread₁, hservice⟩ :=
    h.read_section .service ServiceSettings.layout_reads (fun _ => rfl) (fun _ => hgiven _) .name
  obtain ⟨v₂, paging, hlookup₂, hread₂, hpaging⟩ :=
    h.read_section .paging PagingSettings.layout_reads (fun _ => rfl) (fun _ => hgiven _) .maxPageSize
  obtain ⟨v₃, seed, hlookup₃, hread₃, hseed⟩ :=
    h.read_section .seed SeedSettings.layout_reads (fun _ => rfl) (fun _ => hgiven _) .maxRetries
  let settings : Settings := { service, paging, seed }
  have hparts : ∀ k : SectionKey, ((es.lookup k.text).bind fun v => (k.read v).toOption) = some (settings.part k) := by
    intro k
    cases k with
    | service => simp only [SectionKey.text, hlookup₁, Option.bind_some, SectionKey.read, hread₁]; rfl
    | paging => simp only [SectionKey.text, hlookup₂, Option.bind_some, SectionKey.read, hread₂]; rfl
    | seed => simp only [SectionKey.text, hlookup₃, Option.bind_some, SectionKey.read, hread₃]; rfl
  obtain ⟨s, hread, hpart⟩ := layout_reads.read_dict h.inOrder.nodup fun k => by rw [hparts k]; rfl
  obtain rfl : s = settings := ext_part fun k => Option.some.inj ((hpart k).symm.trans (hparts k))
  refine ⟨_, hread, ?_⟩
  intro k
  cases k with
  | service k => exact hservice k
  | paging k => exact hpaging k
  | seed k => exact hseed k

end Settings

end HypermediaApi
