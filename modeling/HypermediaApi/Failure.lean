import HypermediaApi.Storage.Error
import HypermediaApi.Text.Quoted

/-!
# HypermediaApi.Failure — what can go wrong

The failures of the library as causes, with their wording in one place (`Failure.message`). Two of them are
the client's doing, `unknownField` and `invalidPage`; every other one is a fault of the program or its
set-up and reaches clients only as an internal error.
-/

namespace HypermediaApi

/-- Why a page cannot exist. -/
inductive PageFault where
  | negativeIndex (index : Int64)
  | sizeNotPositive (size : Int64)
  /-- More items than the page size. -/
  | overfull (count : Nat) (size : Int64)
  deriving DecidableEq, Repr

def PageFault.message : PageFault → String
  | negativeIndex index => "page index must not be negative, got " ++ toString index.toInt
  | sizeNotPositive size => "page size must be positive, got " ++ toString size.toInt
  | overfull count size =>
    "page holds " ++ toString count ++ " items but its size is " ++ toString size.toInt

/-- Why a route cannot be rendered. -/
inductive RouteFault where
  | unknownRoute (route : String)
  /-- A brace that opens a placeholder and is never closed. -/
  | unterminated (template : String)
  | missingValue (placeholder : String) (route : String)
  deriving DecidableEq, Repr

def RouteFault.message : RouteFault → String
  | unknownRoute route => "unknown route '" ++ route ++ "'"
  | unterminated template => "unterminated placeholder in '" ++ template ++ "'"
  | missingValue placeholder route =>
    "missing value for '\x7b" ++ placeholder ++ "\x7d' in route '" ++ route ++ "'"

/-- Why settings cannot be read. -/
inductive SettingFault where
  /-- A source that cannot be read at all. -/
  | unreadable (reason : String)
  /-- A value at a key that is not what the setting needs. -/
  | mismatch (key : List String) (reason : String)
  deriving DecidableEq, Repr

def SettingFault.message : SettingFault → String
  | unreadable reason => reason
  | mismatch key reason => reason ++ " for key " ++ Text.quoted (".".intercalate key)

/-- The failures of the library. -/
inductive Failure where
  | duplicateMapping (resource entity : String)
  | mappingNotFound (resource entity : String)
  | unknownSortField (text : String)
  | invalidPage (reason : String)
  /-- A field that a resource cannot be cut down to. -/
  | shapeMismatch (shape field : String)
  /-- A field that a client asked for and the schema does not have. -/
  | unknownField (shape field : String)
  | saveFailed (reason : String)
  | seedExhausted (attempts : UInt32) (lastError : String)
  | route (reason : String)
  | storage (error : StorageError)
  | configuration (fault : SettingFault)
  /-- A text that cannot be read or written. -/
  | serialization (reason : String)
  deriving DecidableEq, Repr

namespace Failure

def message : Failure → String
  | duplicateMapping resource entity =>
    "Duplicate property mapping for " ++ resource ++ " -> " ++ entity
  | mappingNotFound resource entity =>
    "No property mapping registered for " ++ resource ++ " -> " ++ entity
  | unknownSortField text => "Unknown sort field: " ++ text
  | invalidPage reason => "Invalid page: " ++ reason
  | shapeMismatch shape field => "Field '" ++ field ++ "' does not exist on " ++ shape
  | unknownField shape field => "Unknown field '" ++ field ++ "' requested for " ++ shape
  | saveFailed reason => "Save failed: " ++ reason
  | seedExhausted attempts lastError =>
    "Seeding failed after " ++ toString attempts.toNat ++ " attempts: " ++ lastError
  | route reason => "Route error: " ++ reason
  | storage error => error.message
  | configuration fault => "Configuration error: " ++ fault.message
  | serialization reason => "Serialization error: " ++ reason

/-- The failure is the client's doing. -/
def isClientError : Failure → Bool
  | unknownField .. => true
  | invalidPage .. => true
  | _ => false

/-- A text that ends before a value begins. -/
def emptyText : Failure := .serialization "EOF while parsing a value at line 1 column 0"

end Failure

end HypermediaApi
