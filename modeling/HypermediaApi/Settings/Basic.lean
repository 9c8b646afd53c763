import HypermediaApi.Json.Fields
import HypermediaApi.Json.Writer
import HypermediaApi.Parameters

/-!
# HypermediaApi.Settings.Basic — what can be set

The settings of a service in three sections, with their defaults. Only the name of the service has none of
its own.
-/

namespace HypermediaApi

/-- The settings of the service itself. -/
structure ServiceSettings where
  name : String
  logLevel : String := "info"
  environment : String := "dev"
  /-- The URL that links start with. -/
  baseUrl : String := "http://localhost:5000"
  deriving DecidableEq, Repr

/-- The page sizes of collections. -/
structure PagingSettings where
  defaultPageSize : Int64 := HypermediaApi.defaultPageSize
  maxPageSize : Int64 := HypermediaApi.maxPageSize
  deriving DecidableEq, Repr

/-- How often and how fast seeding is tried. -/
structure SeedSettings where
  maxRetries : UInt32 := 10
  retryDelayMs : UInt64 := 100
  deriving DecidableEq, Repr

/-- All settings. -/
structure Settings where
  service : ServiceSettings
  paging : PagingSettings := {}
  seed : SeedSettings := {}
  deriving DecidableEq, Repr

namespace Settings

/-- The defaults for a service of the given name. -/
def named (name : String) : Settings := { service := { name } }

/-- The name of a service that has none. -/
def defaultName : String := "resource-shaping"

/-- The defaults. -/
def default : Settings := named defaultName

def toJson (s : Settings) : Json :=
  .object [
    ("service", .object [("name", .string s.service.name), ("log_level", .string s.service.logLevel),
      ("environment", .string s.service.environment), ("base_url", .string s.service.baseUrl)]),
    ("paging", .object [("default_page_size", .int s.paging.defaultPageSize.toInt),
      ("max_page_size", .int s.paging.maxPageSize.toInt)]),
    ("seed", .object [("max_retries", .nat s.seed.maxRetries.toNat),
      ("retry_delay_ms", .nat s.seed.retryDelayMs.toNat)])]

def serviceOfTree? (t : Json.Tree) : Option ServiceSettings := do
  let fields ← t.fields? ["name", "log_level", "environment", "base_url"] 1
  let defaults : ServiceSettings := { name := "" }
  some {
    name := ← fields.required "name" (·.string?)
    logLevel := ← fields.withDefault "log_level" defaults.logLevel (·.string?)
    environment := ← fields.withDefault "environment" defaults.environment (·.string?)
    baseUrl := ← fields.withDefault "base_url" defaults.baseUrl (·.string?) }

def pagingOfTree? (t : Json.Tree) : Option PagingSettings := do
  let fields ← t.fields? ["default_page_size", "max_page_size"] 0
  let defaults : PagingSettings := {}
  some {
    defaultPageSize := ← fields.withDefault "default_page_size" defaults.defaultPageSize (·.int64?)
    maxPageSize := ← fields.withDefault "max_page_size" defaults.maxPageSize (·.int64?) }

def seedOfTree? (t : Json.Tree) : Option SeedSettings := do
  let fields ← t.fields? ["max_retries", "retry_delay_ms"] 0
  let defaults : SeedSettings := {}
  some {
    maxRetries := ← fields.withDefault "max_retries" defaults.maxRetries (·.uint32?)
    retryDelayMs := ← fields.withDefault "retry_delay_ms" defaults.retryDelayMs (·.uint64?) }

def ofTree? (t : Json.Tree) : Option Settings := do
  let fields ← t.fields? ["service", "paging", "seed"] 1
  some {
    service := ← fields.required "service" serviceOfTree?
    paging := ← fields.withDefault "paging" {} pagingOfTree?
    seed := ← fields.withDefault "seed" {} seedOfTree? }

end Settings

end HypermediaApi
