import HypermediaApi.Ordering.Step

/-!
# HypermediaApi.Sample.Row — rows of named properties

Entities that consist of named integers and texts. Two rows can be compared by a property that both have
with the same type.
-/

namespace HypermediaApi.Sample

/-- The value of a property. -/
inductive PropertyValue where
  | int (n : Int)
  | text (s : String)
  deriving DecidableEq, Repr

/-- The order of two values of the same type. -/
def PropertyValue.compare? : PropertyValue → PropertyValue → Option Ordering
  | int a, int b => some (compare a b)
  | text a, text b => some (compare a b)
  | _, _ => none

/-- A row with its number. -/
structure Row where
  number : Nat
  properties : List (String × PropertyValue)
  deriving DecidableEq, Repr

instance : Sortable Row where
  compareBy property a b := do
    let x ← a.properties.lookup property
    let y ← b.properties.lookup property
    x.compare? y

end HypermediaApi.Sample
