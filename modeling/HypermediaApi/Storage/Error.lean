/-!
# HypermediaApi.Storage.Error — what a storage may answer instead of data

A storage names the operation that failed, the kind of failure and, where one entity is concerned, its type
and identity. The wording for operators is in `StorageError.message`; clients see it only as far as the
conversion to an API error lets it through.
-/

namespace HypermediaApi

/-- The operations of a storage. -/
inductive StorageOperation where
  | count
  | fetchPage
  | fetchById
  | add
  | remove
  | markUpdated
  | commit
  deriving DecidableEq, Repr

def StorageOperation.label : StorageOperation → String
  | count => "count"
  | fetchPage => "fetch_page"
  | fetchById => "fetch_by_id"
  | add => "add"
  | remove => "remove"
  | markUpdated => "mark_updated"
  | commit => "commit"

def StorageOperation.all : List StorageOperation :=
  [count, fetchPage, fetchById, add, remove, markUpdated, commit]

/-- The kinds of storage failure. -/
inductive StorageErrorKind where
  | notFound
  | constraintViolation
  | invalidSort
  | storageError
  deriving DecidableEq, Repr

def StorageErrorKind.label : StorageErrorKind → String
  | notFound => "not_found"
  | constraintViolation => "constraint_violation"
  | invalidSort => "invalid_sort"
  | storageError => "storage_error"

def StorageErrorKind.all : List StorageErrorKind :=
  [notFound, constraintViolation, invalidSort, storageError]

/-- A failed storage operation. -/
structure StorageError where
  operation : StorageOperation
  kind : StorageErrorKind
  reason : String
  entityType : Option String := none
  entityId : Option String := none
  deriving DecidableEq, Repr

/-- The entity in brackets after a message, when both its type and its identity are known. -/
def entitySuffix (entityType entityId : Option String) : String :=
  match entityType, entityId with
  | some t, some i => " [" ++ t ++ ": " ++ i ++ "]"
  | _, _ => ""

namespace StorageError

/-- The entity is not there. -/
def notFound (entityType entityId : String) : StorageError where
  operation := .fetchById
  kind := .notFound
  reason := "Entity not found"
  entityType := some entityType
  entityId := some entityId

/-- The property cannot be sorted by. -/
def invalidSort (property : String) : StorageError where
  operation := .fetchPage
  kind := .invalidSort
  reason := "cannot sort by '" ++ property ++ "'"

/-- The storage itself failed. -/
def broken (operation : StorageOperation) (reason : String) : StorageError where
  operation := operation
  kind := .storageError
  reason := reason

/-- The error with the entity it concerns. -/
def withEntity (e : StorageError) (entityType entityId : String) : StorageError :=
  { e with entityType := some entityType, entityId := some entityId }

/-- The wording for operators. -/
def message (e : StorageError) : String :=
  "Repository " ++ e.kind.label ++ " error during " ++ e.operation.label ++ ": " ++ e.reason ++
    entitySuffix e.entityType e.entityId

end StorageError

end HypermediaApi
