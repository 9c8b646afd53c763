import HypermediaApi.Json.Basic
import HypermediaApi.Ordering.Expression
import HypermediaApi.Ordering.Mapping
import HypermediaApi.Storage.Error

/-!
# HypermediaApi.Ordering.Step — sort steps: compiling and applying them

Compiling expands every key of a sort expression into one step per backing property, in mapping order; a
reversed property runs against the direction of its key. An expression without a key sorts by the identity
field.

Applying the steps sorts stably by the first step, among equals by the second, and so on, and last by the
identity property in ascending order, unless a step sorts by it already. Before anything is sorted, the
first entity is compared with itself by every property that will be needed: a property by which entities
cannot be compared is reported, and then the entities stay as they are.
-/

namespace HypermediaApi

variable {α : Type}

/-- One key of the sort of stored entities. -/
structure SortStep where
  property : String
  direction : Direction
  /-- The step is the leading one. -/
  first : Bool
  deriving DecidableEq, Repr

namespace SortStep

def toJson (s : SortStep) : Json :=
  .object [("property", .string s.property), ("direction", s.direction.toJson), ("first", .bool s.first)]

end SortStep

/-! ### Compiling -/

/-- The direction in which a property runs for a key of the given direction. -/
def MappedProperty.direction (p : MappedProperty) (d : Direction) : Direction :=
  if p.reversed then d.reverse else d

/-- The properties and directions behind one key. -/
def PropertyMapping.expand (m : PropertyMapping) (key : SortKey) :
    Except Failure (List (String × Direction)) :=
  match m.get? key.field with
  | some properties => .ok (properties.map fun p => (p.name, p.direction key.direction))
  | none => .error (.unknownSortField key.field)

/-- The steps of a list of properties: the one at the head is the first. -/
def stepsOf : List (String × Direction) → List SortStep
  | [] => []
  | (property, direction) :: rest =>
    ⟨property, direction, true⟩ :: rest.map fun (p, d) => ⟨p, d, false⟩

/-- The steps of a list of keys, or the first key that is not mapped. -/
def PropertyMapping.compileKeys (m : PropertyMapping) (keys : List SortKey) :
    Except Failure (List SortStep) :=
  (keys.mapM m.expand).map fun expanded => stepsOf expanded.flatten

/-- The steps of an optional sort expression. -/
def PropertyMapping.compile (m : PropertyMapping) (orderBy : Option String) :
    Except Failure (List SortStep) := do
  match ← readOrderBy (orderBy.getD "") with
  | [] => m.compileKeys [⟨m.identity, .ascending⟩]
  | keys => m.compileKeys keys

/-! ### Applying -/

/-- Entities with named properties by which they can be compared. -/
class Sortable (α : Type) where
  /-- The order of two entities by a property; nothing when they cannot be compared by it. -/
  compareBy : String → α → α → Option Ordering

/-- The order of two entities by a property, equal when they cannot be compared by it. -/
def orderBy [Sortable α] (property : String) (a b : α) : Ordering :=
  (Sortable.compareBy property a b).getD .eq

/-- The order of two entities by one step. -/
def SortStep.compare [Sortable α] (s : SortStep) (a b : α) : Ordering :=
  if s.direction.isDescending then (orderBy s.property a b).swap else orderBy s.property a b

/-- The order of two entities by the steps, the first one that tells them apart deciding. -/
def compareSteps [Sortable α] (steps : List SortStep) (a b : α) : Ordering :=
  match steps with
  | [] => .eq
  | s :: r => (s.compare a b).then (compareSteps r a b)

/-- Some step sorts by the property. -/
def sortsBy (steps : List SortStep) (property : String) : Bool := steps.any (·.property == property)

/-- The order by the steps, ties broken by the identity property unless a step sorts by it. -/
def compareFully [Sortable α] (steps : List SortStep) (identity : String) (a b : α) : Ordering :=
  (compareSteps steps a b).then (if sortsBy steps identity then .eq else orderBy identity a b)

/-- The first property needed by the sort by which entities like `probe` cannot be compared. -/
def incomparable? [Sortable α] (steps : List SortStep) (identity : String) (probe : α) : Option String :=
  (steps.map (·.property) ++ [identity]).find? fun p => (Sortable.compareBy p probe probe).isNone

/-- Entities put in the order of the steps where they stand. -/
def sortInPlace [Sortable α] (steps : List SortStep) (identity : String) :
    EStateM StorageError (List α) Unit := do
  match (← get).head?.bind (incomparable? steps identity) with
  | some property => throw (.invalidSort property)
  | none => modify fun xs => xs.mergeSort fun a b => (compareFully steps identity a b).isLE

/-- The entities in the order of the steps. -/
def sortEntities [Sortable α] (steps : List SortStep) (identity : String) (xs : List α) :
    Except StorageError (List α) :=
  match (sortInPlace steps identity).run xs with
  | .ok _ sorted => .ok sorted
  | .error failure _ => .error failure

end HypermediaApi
