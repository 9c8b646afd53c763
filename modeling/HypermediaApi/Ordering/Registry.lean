import HypermediaApi.Ordering.Step

/-!
# HypermediaApi.Ordering.Registry — mappings by type pair

The mappings of a program, each for a pair of a resource type and an entity type, registered once. Types are
known by their full names; messages and listings show the last segment after `::`.

The shared registry of a program is a cell that is written once: until a set-up succeeds every attempt
starts from an empty registry and leaves no trace when it fails, and after the first success no set-up runs
again.
-/

namespace HypermediaApi

/-- A resource type and the entity type behind it, by their full names. -/
structure TypePair where
  resource : String
  entity : String
  deriving DecidableEq, Repr

/-- The characters of a reversed name up to the first two colons. -/
def lastSegment : List Char → List Char
  | [] => []
  | ':' :: ':' :: _ => []
  | c :: r => c :: lastSegment r

/-- The part of a full name after its last `::`. -/
def shortName (name : String) : String := .ofList (lastSegment name.toList.reverse).reverse

/-- Mappings by type pair, in the order of registration. -/
structure Registry where
  table : OrderedMap TypePair PropertyMapping := .empty

namespace Registry

/-- The registry with one more mapping, for a pair that has none yet. -/
def register (r : Registry) (pair : TypePair) (mapping : PropertyMapping) : Except Failure Registry :=
  if r.table.contains pair then
    .error (.duplicateMapping (shortName pair.resource) (shortName pair.entity))
  else .ok { table := r.table.insert pair mapping }

/-- The mapping of a pair. -/
def resolve (r : Registry) (pair : TypePair) : Except Failure PropertyMapping :=
  match r.table.get? pair with
  | some mapping => .ok mapping
  | none => .error (.mappingNotFound (shortName pair.resource) (shortName pair.entity))

/-- The sort expression is readable and all its fields are mapped for the pair. -/
def accepts (r : Registry) (pair : TypePair) (orderBy : Option String) : Except Failure Bool := do
  let mapping ← r.resolve pair
  match orderBy with
  | none => .ok true
  | some text =>
    match readOrderBy text with
    | .ok keys => .ok (keys.all (mapping.contains ·.field))
    | .error _ => .ok false

/-- The steps of the sort expression for the pair. -/
def compile (r : Registry) (pair : TypePair) (orderBy : Option String) : Except Failure (List SortStep) := do
  (← r.resolve pair).compile orderBy

def size (r : Registry) : Nat := r.table.size

/-- The short names of the registered pairs, sorted. -/
def pairs (r : Registry) : List (String × String) :=
  (r.table.keys.map fun p => (shortName p.resource, shortName p.entity)).mergeSort fun a b =>
    ((compare a.1 b.1).then (compare a.2 b.2)).isLE

end Registry

/-! ### The shared registry -/

/-- The shared registry: empty until a set-up succeeds. -/
abbrev SharedRegistry := Option Registry

/-- The answer to a call that brings its own set-up, which may have effects of its own, and the shared registry
after it. -/
def SharedRegistry.initializeWith {m : Type → Type} [Monad m] (shared : SharedRegistry)
    (setUp : Registry → m (Except Failure Registry)) : m (Except Failure Registry × SharedRegistry) :=
  match shared with
  | some registry => pure (.ok registry, some registry)
  | none => do
    match ← setUp {} with
    | .ok registry => pure (.ok registry, some registry)
    | .error failure => pure (.error failure, none)

/-- The same for a set-up without effects. -/
def SharedRegistry.initialize (shared : SharedRegistry) (setUp : Registry → Except Failure Registry) :
    Except Failure Registry × SharedRegistry :=
  Id.run (shared.initializeWith fun r => pure (setUp r))

end HypermediaApi
