import HypermediaApi.Ordering.Step
import HypermediaApi.Page

/-!
# HypermediaApi.Storage.Source — what a collection reads from

The reading side of a storage, as a collection sees it for the time of one request: how many entities pass a
filter, and which of them stand in a window when sorted.
-/

namespace HypermediaApi

/-- The reading side of a storage of entities of type `ε` under filters of type `φ`. -/
structure Source (ε φ : Type) where
  count : φ → Except StorageError UInt64
  fetch : φ → List SortStep → Window → Except StorageError (List ε)

/-- The entities that pass a test, as a source. -/
def Source.ofList {ε φ : Type} [Sortable ε] (identity : String) (passes : φ → ε → Bool) (xs : List ε) :
    Source ε φ where
  count filter := .ok (.ofNat (xs.filter (passes filter)).length)
  fetch filter steps window :=
    (sortEntities steps identity (xs.filter (passes filter))).map window.slice

end HypermediaApi
