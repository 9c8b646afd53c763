import HypermediaApi.Schema

/-!
# HypermediaApi.Sample.Positional — schemas of records given by position

Resources that are arrays of values, and schemas that read them by position. A layout lists the names of the
positions; a nested layout describes an array inside the array. A position that is missing, and every
position of a value that is no array, reads as `null`.
-/

namespace HypermediaApi.Sample

/-- The name and kind of a position. -/
inductive Layout where
  | scalar (name : String)
  | nested (name : String) (shape : String) (parts : List Layout)
  deriving Repr

mutual

/-- The field that reads a position. -/
def Layout.field (position : Nat) : Layout → Field Json
  | .scalar name => .scalar name fun v => v.nth position
  | .nested name shape parts => .nested name shape (Field.comapAll (·.nth position) (layoutFields 0 parts))

/-- The fields that read the positions from `position` on. -/
def layoutFields (position : Nat) : List Layout → List (Field Json)
  | [] => []
  | l :: r => l.field position :: layoutFields (position + 1) r

end

/-- The schema of a list of positions. -/
def positionalSchema (name : String) (layout : List Layout) : Schema Json where
  name := name
  fields := layoutFields 0 layout

end HypermediaApi.Sample
