import HypermediaApi.Failure
import HypermediaApi.OrderedMap
import HypermediaApi.Schema

/-!
# HypermediaApi.Selection — cutting resources down to the fields a client names

A field list is a comma-separated list of paths into a schema. `checkFields` says whether every path leads
somewhere; `select` cuts a resource down to a record that holds, under the canonical path of each entry, the
value at its end. A path that is named twice, in whatever spelling, is held once, at its first place.
Without a field list, or with one that has no entry, the record holds every field of the schema in
declaration order.

Checking and cutting go through the same `Schema.canonicalPath`, so a list that passes the check can be cut
to.
-/

namespace HypermediaApi

variable {α : Type}

/-- A resource cut down to named values. -/
abbrev Record := OrderedMap String Json

/-- The record as JSON, its fields in order. -/
def Record.toJson (r : Record) : Json := .object r.entries

/-- The record of an object's members, later ones replacing earlier ones in place; the values are plain. -/
def Record.ofJson? : Json → Option Record
  | .object ms => some (.ofList (ms.map fun (k, v) => (k, v.canonical)))
  | _ => none

/-- The entries of an optional field list. -/
def requestedFields (fields : Option String) : List String := (fields.map Text.entries).getD []

namespace Schema

/-- The first entry of the field list that leads nowhere. -/
def firstUnknown? (s : Schema α) (fields : Option String) : Option String :=
  (requestedFields fields).find? (! s.hasPath ·)

/-- Every entry of the field list leads to a field. -/
def checkFields (s : Schema α) (fields : Option String) : Except Failure Unit :=
  match s.firstUnknown? fields with
  | some field => .error (.unknownField s.name field)
  | none => .ok ()

/-- Every entry of the field list leads to a field. -/
def fieldsExist (s : Schema α) (fields : Option String) : Bool := (s.checkFields fields).isOk

/-- The record of every field. -/
def selectAll (s : Schema α) (x : α) : Record := .ofList (Field.readAll x s.fields)

/-- One entry of a field list added to the record. -/
def selectField (s : Schema α) (x : α) (record : Record) (field : String) : Except Failure Record :=
  match s.canonicalPath field with
  | none => .error (.shapeMismatch s.name field)
  | some path =>
    let key := ".".intercalate path
    if record.contains key then .ok record
    else match s.readPath x path with
      | some value => .ok (record.insert key value)
      | none => .error (.shapeMismatch s.name field)

/-- The resource cut down to the field list. -/
def select (s : Schema α) (x : α) (fields : Option String) : Except Failure Record :=
  match requestedFields fields with
  | [] => .ok (s.selectAll x)
  | requested => requested.foldlM (s.selectField x) .empty

/-- Every resource cut down to the field list, or the first failure. -/
def selectMany (s : Schema α) (xs : List α) (fields : Option String) : Except Failure (List Record) :=
  xs.mapM (s.select · fields)

end Schema

end HypermediaApi
