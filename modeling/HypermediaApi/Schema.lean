import HypermediaApi.Json.Basic
import HypermediaApi.Text.Quoted

/-!
# HypermediaApi.Schema — the public fields of a resource

A schema lists the fields that clients may see of a resource: each has a name and either reads one value off
the resource or opens a nested schema, to any depth. Names are looked up without regard to ASCII case, and
of several fields with one name the first declared one is meant.

A *path* leads through nested schemas. Resolving a path, as clients write it, gives its canonical form, the
declared names along it; reading a path gives the value at its end. Resolving trims every segment and
reading does not, and a path that ends at a nested schema reads the object of all its fields.
-/

namespace HypermediaApi

variable {α : Type}

/-- A public field of resources of type `α`. -/
inductive Field (α : Type) where
  /-- A field with a value of its own. -/
  | scalar (name : String) (read : α → Json)
  /-- A field that leads to the fields of a nested schema named `shape`. -/
  | nested (name : String) (shape : String) (fields : List (Field α))

/-- The public fields of resources of type `α`, in declaration order. -/
structure Schema (α : Type) where
  name : String
  fields : List (Field α)

namespace Field

/-- The declared name. -/
def name : Field α → String
  | scalar name _ => name
  | nested name _ _ => name

/-- The name of the nested schema. -/
def shape? : Field α → Option String
  | scalar .. => none
  | nested _ shape _ => some shape

mutual

/-- The value of the field: its own, or the object of the fields of the nested schema. -/
def read (x : α) : Field α → Json
  | scalar _ r => r x
  | nested _ _ fields => .object (sortEntries (readAll x fields))

/-- The names and values of fields in declaration order. -/
def readAll (x : α) : List (Field α) → List (String × Json)
  | [] => []
  | f :: r => (f.name, read x f) :: readAll x r

end

/-- The object of the values of fields, the last of several with one name. -/
def readWhole (x : α) (fields : List (Field α)) : Json :=
  .object (sortEntries (readAll x fields))

mutual

/-- The same field of resources that contain an `α`. -/
def comap (get : β → α) : Field α → Field β
  | scalar name r => scalar name (r ∘ get)
  | nested name shape fields => nested name shape (comapAll get fields)

/-- `comap` of every field. -/
def comapAll (get : β → α) : List (Field α) → List (Field β)
  | [] => []
  | f :: r => comap get f :: comapAll get r

end

/-- The first declared field of that name. -/
def find? (fields : List (Field α)) (name : String) : Option (Field α) :=
  fields.find? fun f => Text.sameName f.name name

/-- The value at the end of a path; the empty path reads the object of all fields. A field with a value of
its own ends every path. -/
def readPath (x : α) : List (Field α) → List String → Option Json
  | fields, [] => some (readWhole x fields)
  | fields, head :: rest =>
    match find? fields head with
    | some (scalar _ r) => if rest.isEmpty then some (r x) else none
    | some (nested _ _ sub) => readPath x sub rest
    | none => none

/-- The declared names along a path whose segments may be padded and differ in case. -/
def resolve (fields : List (Field α)) : List String → Option (List String)
  | [] => none
  | head :: rest =>
    match find? fields (Text.trim head) with
    | none => none
    | some f =>
      if rest.isEmpty then some [f.name]
      else match f with
        | scalar .. => none
        | nested name _ sub => (resolve sub rest).map (name :: ·)

/-- The value at the end of a path that starts below the field. -/
def readBelow (x : α) : Field α → List String → Option Json
  | scalar _ r, path => if path.isEmpty then some (r x) else none
  | nested _ _ sub, path => readPath x sub path

/-- The field in diagnostics: its name and the name of its nested schema. -/
def describe (f : Field α) : String :=
  let nested := match f.shape? with
    | some shape => "Some(" ++ Text.quoted shape ++ ")"
    | none => "None"
  "FieldAccessor \x7b name: " ++ Text.quoted f.name ++ ", nested: " ++ nested ++ " \x7d"

end Field

namespace Schema

/-- The declared names. -/
def names (s : Schema α) : List String := s.fields.map Field.name

/-- The first declared field of that name. -/
def find? (s : Schema α) (name : String) : Option (Field α) := Field.find? s.fields name

/-- The object of all fields. -/
def readWhole (s : Schema α) (x : α) : Json := Field.readWhole x s.fields

/-- The value at the end of a path. -/
def readPath (s : Schema α) (x : α) (path : List String) : Option Json := Field.readPath x s.fields path

/-- The declared names along a dotted path. -/
def canonicalPath (s : Schema α) (path : String) : Option (List String) :=
  Field.resolve s.fields (Text.split '.' path)

/-- The dotted path leads to a field. -/
def hasPath (s : Schema α) (path : String) : Bool := (s.canonicalPath path).isSome

/-- A field of `s` that leads to the schema of a part of the resource. -/
def asField (s : Schema α) (name : String) (get : β → α) : Field β :=
  .nested name s.name (Field.comapAll get s.fields)

end Schema

end HypermediaApi
