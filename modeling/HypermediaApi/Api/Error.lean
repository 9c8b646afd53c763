import HypermediaApi.Failure
import HypermediaApi.Http

/-!
# HypermediaApi.Api.Error — failures as clients see them

An API error names the operation, a kind that decides the status, a message and what is known of the entity
and the fields concerned. Storage errors and failures of the library are converted to it: what is not the
client's doing keeps its wording to itself and reads "An internal error occurred".
-/

namespace HypermediaApi

/-- The operations of a resource handler. -/
inductive ApiOperation where
  | list
  | get
  | create
  | update
  | partialUpdate
  | delete
  deriving DecidableEq, Repr

/-- The name of the operation in messages and bodies. -/
def ApiOperation.label : ApiOperation → String
  | list => "list"
  | get => "get"
  | create => "create"
  | update => "update"
  | partialUpdate => "partial_update"
  | delete => "delete"

def ApiOperation.all : List ApiOperation := [list, get, create, update, partialUpdate, delete]

/-- The kinds of API error. -/
inductive ApiErrorKind where
  | notFound
  | badRequest
  | validationFailed
  | conflict
  | internalError
  deriving DecidableEq, Repr

namespace ApiErrorKind

def all : List ApiErrorKind := [notFound, badRequest, validationFailed, conflict, internalError]

def label : ApiErrorKind → String
  | notFound => "not_found"
  | badRequest => "bad_request"
  | validationFailed => "validation_failed"
  | conflict => "conflict"
  | internalError => "internal_error"

/-- The code of the kind in bodies. -/
def code : ApiErrorKind → String
  | notFound => "NOT_FOUND"
  | badRequest => "BAD_REQUEST"
  | validationFailed => "VALIDATION_FAILED"
  | conflict => "CONFLICT"
  | internalError => "INTERNAL_ERROR"

/-- The status of the response. -/
def status : ApiErrorKind → Nat
  | notFound => 404
  | badRequest => 400
  | validationFailed => 422
  | conflict => 409
  | internalError => 500

end ApiErrorKind

/-- A field of a request body that breaks a rule. -/
structure FieldError where
  field : String
  message : String
  deriving DecidableEq, Repr

def FieldError.toJson (e : FieldError) : Json :=
  .object [("field", .string e.field), ("message", .string e.message)]

/-- A failed operation of a resource handler. -/
structure ApiError where
  operation : ApiOperation
  kind : ApiErrorKind
  reason : String
  entityType : Option String := none
  entityId : Option String := none
  details : List FieldError := []
  deriving DecidableEq, Repr

namespace ApiError

/-- The reason given for a sort expression that cannot be read or is not mapped. -/
def unknownSortFields : String := "Can't find fields for sorting."

/-- The reason given for a field list with an unknown field. -/
def unknownFields : String := "Fields not exist."

/-- The reason given for everything that is not the client's doing. -/
def internalReason : String := "An internal error occurred"

/-- The entity is not there. -/
def notFound (entityType entityId : String) : ApiError where
  operation := .get
  kind := .notFound
  reason := "Entity not found"
  entityType := some entityType
  entityId := some entityId

/-- The request body breaks rules. -/
def validationFailed (details : List FieldError) : ApiError where
  operation := .create
  kind := .validationFailed
  reason := "Validation failed"
  details := details

/-- The request cannot be understood. -/
def badRequest (reason : String) : ApiError where
  operation := .list
  kind := .badRequest
  reason := reason

/-- The program failed. -/
def internal (reason : String) : ApiError where
  operation := .get
  kind := .internalError
  reason := reason

/-- The error with the entity it concerns. -/
def withEntity (e : ApiError) (entityType entityId : String) : ApiError :=
  { e with entityType := some entityType, entityId := some entityId }

/-- The error as one of another operation. -/
def withOperation (e : ApiError) (operation : ApiOperation) : ApiError := { e with operation }

/-- The wording for operators. -/
def message (e : ApiError) : String :=
  "API " ++ e.kind.label ++ " error during " ++ e.operation.label ++ ": " ++ e.reason ++
    entitySuffix e.entityType e.entityId

/-- The body of the response; what is not known is left out. -/
def toJson (e : ApiError) : Json :=
  .object ([("error", .string e.reason), ("code", .string e.kind.code), ("status", .nat e.kind.status),
    ("operation", .string e.operation.label)] ++
    Json.optionalMember "entity_type" e.entityType ++ Json.optionalMember "entity_id" e.entityId ++
    (if e.details.isEmpty then [] else [("details", .array (e.details.map FieldError.toJson))]))

def toResponse (e : ApiError) : Http.Response := .json e.kind.status e.toJson

/-! ### Conversions -/

/-- The handler operation during which a storage operation runs where nothing else is said. -/
def operationOf : StorageOperation → ApiOperation
  | .count => .list
  | .fetchPage => .list
  | .fetchById => .get
  | .add => .create
  | .markUpdated => .update
  | .remove => .delete
  | .commit => .update

/-- The API error kind of a storage error. -/
def kindOf : StorageErrorKind → ApiErrorKind
  | .notFound => .notFound
  | .constraintViolation => .conflict
  | .invalidSort => .internalError
  | .storageError => .internalError

/-- A storage error as clients see it: only what is not internal keeps its reason. -/
def ofStorage (e : StorageError) : ApiError where
  operation := operationOf e.operation
  kind := kindOf e.kind
  reason := if kindOf e.kind = .internalError then internalReason else e.reason
  entityType := e.entityType
  entityId := e.entityId

/-- A failure of the library as clients see it. -/
def ofFailure : Failure → ApiError
  | .storage e => ofStorage e
  | .unknownField .. => badRequest unknownFields
  | .invalidPage reason => badRequest reason
  | _ => internal internalReason

end ApiError

end HypermediaApi
