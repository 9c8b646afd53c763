import HypermediaApi.OrderedMap
import HypermediaApi.Settings.File
import HypermediaApi.Settings.Section
import HypermediaApi.Settings.Variable

/-!
# HypermediaApi.Settings.Sources — where settings come from

The settings of a service come from layers: its defaults, below files in three places, below the variables
of the environment. Each layer is laid over the ones below it key by key (`SettingValue.overlayEntries`), so
a setting has the value that the uppermost layer that mentions it gives, and its default if none does.

A variable sets the setting whose keys its name lists: `SHAPING_PAGING__MAX_PAGE_SIZE` is `max_page_size` in
the section `paging`. Its name is read without regard to case.
-/

namespace HypermediaApi

/-- The variables of an environment. -/
abbrev Environment := OrderedMap String String

/-- What the names of variables that are settings start with. -/
def variableMark : String := "SHAPING_"

/-- Two underscores as a dot, from the left. -/
def dotsForUnderscores : List Char → List Char
  | '_' :: '_' :: r => '.' :: dotsForUnderscores r
  | c :: r => c :: dotsForUnderscores r
  | [] => []

/-- The keys that the name of a variable lists, if it is a setting and none of them is empty. -/
def variableKeys? (name : String) : Option (List String) :=
  let cs := Text.trimChars name.toList
  let size := variableMark.length
  if Text.sameName (.ofList (cs.take size)) variableMark then
    let listed := Text.trimChars (dotsForUnderscores (cs.drop size))
    let keys := (Text.pieces (· = '.') listed).map fun key => String.ofList (key.map Char.toLower)
    if keys.any String.isEmpty then none else some keys
  else none

/-- The entries that give a value to the setting below the keys. -/
def entriesBelow (v : SettingValue) : List String → SettingEntries
  | [] => []
  | [key] => [(key, v)]
  | key :: keys => [(key, .dict (entriesBelow v keys))]

/-- The entries that one variable gives. -/
def variableEntries (name text : String) : SettingEntries :=
  match variableKeys? name with
  | some keys => entriesBelow (Settings.Variable.value text) keys
  | none => []

/-- The layer of the variables, a later one laid over an earlier one. -/
def Environment.layer (env : Environment) : SettingEntries :=
  env.entries.foldl (fun acc (name, text) => SettingValue.overlayEntries acc (variableEntries name text)) []

/-- The files of settings that a service looks for, as their texts where they exist. -/
structure SettingFiles where
  /-- In the working directory. -/
  workingDirectory : Option String := none
  /-- In the configuration directory of the user. -/
  userDirectory : Option String := none
  /-- In the configuration directory of the system. -/
  systemDirectory : Option String := none

/-- The files that exist, the one that hides the others first. -/
def SettingFiles.byPrecedence (files : SettingFiles) : List String :=
  [files.workingDirectory, files.userDirectory, files.systemDirectory].filterMap id

namespace Settings

/-- The layer of a file. -/
def fileLayer (text : String) : Except SettingFault SettingEntries :=
  match File.read? text with
  | some entries => .ok entries
  | none => .error (.unreadable "a settings file is not TOML")

/-- The settings that layers give over defaults, each laid over the ones before it. -/
def ofLayers (defaults : Settings) (layers : List SettingEntries) : Except SettingFault Settings :=
  ofEntries (layers.foldl SettingValue.overlayEntries defaults.entries)

/-- The settings of one file, if there is one, and the environment. -/
def loadFrom (file : Option String) (env : Environment) : Except SettingFault Settings := do
  let files ← file.toList.mapM fileLayer
  ofLayers default (files ++ [Environment.layer env])

/-- The settings of a service from the places where it looks for files, and the environment. -/
def loadForService (name : String) (files : SettingFiles) (env : Environment) : Except SettingFault Settings := do
  let files ← files.byPrecedence.reverse.mapM fileLayer
  ofLayers (named name) (files ++ [Environment.layer env])

end Settings

end HypermediaApi
