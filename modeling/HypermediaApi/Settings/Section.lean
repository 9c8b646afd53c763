import HypermediaApi.Settings.Basic
import HypermediaApi.Settings.Value

/-!
# HypermediaApi.Settings.Section — from values to settings

Reading the sections of the settings from the values that the sources give. A section is a dictionary, or a
list of its settings in declaration order. Keys that name no setting are ignored, and so are list items
beyond the last setting.

Settings are read in the order in which the value gives them — a dictionary gives them in the order of its
keys — and reading stops at the first one that is not what it has to be. The fault says where that is, as
the keys that lead there.
-/

namespace HypermediaApi

/-- The fault as seen from outside the dictionary or list in which it lies, under the given key or index. -/
def SettingFault.within (key : String) : SettingFault → SettingFault
  | .mismatch path reason => .mismatch (key :: path) reason
  | .unreadable reason => .unreadable reason

namespace SettingValue

/-- A value of the wrong kind. -/
def wrongKind (expected : String) (v : SettingValue) : SettingFault :=
  .mismatch [] ("invalid type: found " ++ v.describe ++ ", expected " ++ expected)

/-- The text that a value is. -/
def readText : SettingValue → Except SettingFault String
  | .text s => .ok s
  | v => .error (v.wrongKind "a string")

/-- The integer that a value is, in the given range. -/
def readInteger (expected : String) (low high : Int) (v : SettingValue) : Except SettingFault Int :=
  match v.integer? with
  | some n =>
    if low ≤ n ∧ n ≤ high then .ok n
    else .error (.mismatch [] ("invalid value " ++ v.describe ++ ", expected " ++ expected))
  | none => .error (v.wrongKind expected)

/-- A signed integer of 64 bits. -/
def readInt64 (v : SettingValue) : Except SettingFault Int64 :=
  (v.readInteger "i64" Int64.minValue.toInt Int64.maxValue.toInt).map Int64.ofInt

/-- An unsigned integer of 32 bits. -/
def readUInt32 (v : SettingValue) : Except SettingFault UInt32 :=
  (v.readInteger "u32" 0 (UInt32.size - 1)).map fun n => .ofNat n.toNat

/-- An unsigned integer of 64 bits. -/
def readUInt64 (v : SettingValue) : Except SettingFault UInt64 :=
  (v.readInteger "u64" 0 (UInt64.size - 1)).map fun n => .ofNat n.toNat

end SettingValue

/-- A setting of a section: its name, and what a value for it does to the section. -/
structure Setting (σ : Type) where
  name : String
  put : SettingValue → σ → Except SettingFault σ

/-- The setting that is read by `read` and stored by `store`. -/
def Setting.of (name : String) (read : SettingValue → Except SettingFault α) (store : α → σ → σ) : Setting σ where
  name := name
  put v s := (read v).map (store · s)

/-- A section of settings. -/
structure Section (σ : Type) where
  /-- What faults call the section. -/
  label : String
  /-- The settings in declaration order. -/
  settings : List (Setting σ)
  /-- How many of them, from the first one on, have no default. -/
  required : Nat
  /-- The section before any value is read. -/
  start : σ

namespace Section

variable {σ : Type}

/-- The section after one entry of a dictionary. -/
def putEntry (sec : Section σ) (s : σ) (entry : String × SettingValue) : Except SettingFault σ :=
  match sec.settings.find? (·.name == entry.1) with
  | some setting => (setting.put entry.2 s).mapError (.within entry.1)
  | none => .ok s

/-- The section after the items of a list, the first of which stands at the given index. -/
def putItems (index : Nat) : List (Setting σ) → List SettingValue → σ → Except SettingFault σ
  | setting :: settings, v :: vs, s => do
    putItems (index + 1) settings vs (← (setting.put v s).mapError (.within (toString index)))
  | _, _, s => .ok s

/-- The section that a value gives. -/
def read (sec : Section σ) : SettingValue → Except SettingFault σ
  | .dict entries => do
    let s ← entries.foldlM sec.putEntry sec.start
    match (sec.settings.take sec.required).find? fun x => (entries.lookup x.name).isNone with
    | some missing => .error (.mismatch [] ("missing field `" ++ missing.name ++ "`"))
    | none => .ok s
  | .list items => do
    let s ← putItems 0 sec.settings items sec.start
    if sec.required ≤ items.length then .ok s
    else .error (.mismatch [] ("invalid length " ++ toString items.length ++ ", expected " ++ sec.label ++
      " with " ++ toString sec.settings.length ++ " elements"))
  | v => .error (v.wrongKind sec.label)

end Section

namespace ServiceSettings

/-- The settings of the service section. -/
def layout : Section ServiceSettings where
  label := "struct ServiceConfig"
  settings := [
    .of "name" (·.readText) fun x s => { s with name := x },
    .of "log_level" (·.readText) fun x s => { s with logLevel := x },
    .of "environment" (·.readText) fun x s => { s with environment := x },
    .of "base_url" (·.readText) fun x s => { s with baseUrl := x }]
  required := 1
  start := { name := "" }

/-- The section as entries of a dictionary. -/
def entries (s : ServiceSettings) : SettingEntries :=
  [("base_url", .text s.baseUrl), ("environment", .text s.environment), ("log_level", .text s.logLevel),
    ("name", .text s.name)]

end ServiceSettings

namespace PagingSettings

/-- The settings of the paging section. -/
def layout : Section PagingSettings where
  label := "struct PagingConfig"
  settings := [
    .of "default_page_size" (·.readInt64) fun x s => { s with defaultPageSize := x },
    .of "max_page_size" (·.readInt64) fun x s => { s with maxPageSize := x }]
  required := 0
  start := {}

/-- The section as entries of a dictionary. -/
def entries (s : PagingSettings) : SettingEntries :=
  [("default_page_size", .signed s.defaultPageSize), ("max_page_size", .signed s.maxPageSize)]

end PagingSettings

namespace SeedSettings

/-- The settings of the seed section. -/
def layout : Section SeedSettings where
  label := "struct SeedConfig"
  settings := [
    .of "max_retries" (·.readUInt32) fun x s => { s with maxRetries := x },
    .of "retry_delay_ms" (·.readUInt64) fun x s => { s with retryDelayMs := x }]
  required := 0
  start := {}

/-- The section as entries of a dictionary. -/
def entries (s : SeedSettings) : SettingEntries :=
  [("max_retries", .unsigned s.maxRetries.toUInt64), ("retry_delay_ms", .unsigned s.retryDelayMs)]

end SeedSettings

namespace Settings

/-- The sections of the settings. -/
def layout : Section Settings where
  label := "struct Config"
  settings := [
    .of "service" ServiceSettings.layout.read fun x s => { s with service := x },
    .of "paging" PagingSettings.layout.read fun x s => { s with paging := x },
    .of "seed" SeedSettings.layout.read fun x s => { s with seed := x }]
  required := 1
  start := named ""

/-- The settings as entries of a dictionary. -/
def entries (s : Settings) : SettingEntries :=
  [("paging", .dict s.paging.entries), ("seed", .dict s.seed.entries), ("service", .dict s.service.entries)]

/-- The settings that the entries of a dictionary give. -/
def ofEntries (es : SettingEntries) : Except SettingFault Settings := layout.read (.dict es)

end Settings

end HypermediaApi
