import HypermediaApi.OrderedMap
import HypermediaApi.Text.Basic

/-!
# HypermediaApi.Ordering.Mapping — public names and backing properties

A mapping says which properties of a stored entity stand behind each public field that clients may sort by:
one field may expand into several properties, and a property may be reversed, so that ascending on the field
sorts it descending. Every mapping has an identity field, which maps to the property of the same name
whatever was said about it before.
-/

namespace HypermediaApi

/-- A backing property of a public field. -/
structure MappedProperty where
  name : String
  reversed : Bool := false
  deriving DecidableEq, Repr

/-- A mapping under construction. -/
structure MappingDraft where
  identity : String
  table : OrderedMap String (List MappedProperty) := .empty

namespace MappingDraft

/-- A public field with its properties; an earlier definition of the field is replaced. -/
def map (d : MappingDraft) (field : String) (properties : List MappedProperty) : MappingDraft :=
  { d with table := d.table.insert field properties }

/-- A public field backed by the property of the same name. -/
def field (d : MappingDraft) (name : String) : MappingDraft := d.map name [{ name }]

end MappingDraft

/-- A finished mapping: the identity field maps to the identity property. -/
structure PropertyMapping where
  identity : String
  table : OrderedMap String (List MappedProperty)
  identity_mapped : table.get? identity = some [{ name := identity }]

/-- The finished mapping of a draft. -/
def MappingDraft.build (d : MappingDraft) : PropertyMapping where
  identity := d.identity
  table := d.table.insert d.identity [{ name := d.identity }]
  identity_mapped := by simp [OrderedMap.get?_insert]

namespace PropertyMapping

/-- The identity field where nothing else is said. -/
def defaultIdentity : String := "id"

/-- The start of a mapping with the given identity field. -/
def draft (identity : String := defaultIdentity) : MappingDraft := { identity }

/-- The entry of a field: the one of exactly that name, else the first of that name up to ASCII case. -/
def entry? (m : PropertyMapping) (field : String) : Option (String × List MappedProperty) :=
  match m.table.get? field with
  | some properties => some (field, properties)
  | none => m.table.entries.find? fun e => Text.sameName e.1 field

/-- The properties behind a field. -/
def get? (m : PropertyMapping) (field : String) : Option (List MappedProperty) :=
  (m.entry? field).map Prod.snd

/-- The field can be sorted by. -/
def contains (m : PropertyMapping) (field : String) : Bool := (m.entry? field).isSome

/-- The public fields in order of their first definition. -/
def fields (m : PropertyMapping) : List String := m.table.keys

def size (m : PropertyMapping) : Nat := m.table.size

end PropertyMapping

end HypermediaApi
