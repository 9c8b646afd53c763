import HypermediaApi.Blog.Timestamp
import HypermediaApi.Json.Fields
import HypermediaApi.Ordering.Step
import HypermediaApi.Parameters
import HypermediaApi.Schema
import HypermediaApi.Text.Casing

/-!
# HypermediaApi.Blog.Post — posts as they are stored and as clients see them

A stored post can be sorted by each of its properties. Its public form calls the time of the last change
`update_time`, and so does sorting: the mapping leads from there to the stored property. Clients may filter
posts by title, whatever its case.
-/

namespace HypermediaApi.Blog

/-- A stored post. -/
structure Post where
  id : Int32
  title : String
  body : String
  author : String
  lastModified : Timestamp
  remark : Option String
  deriving DecidableEq, Repr, Inhabited

/-- The order of two optional texts: none comes before every text. -/
def compareOptional : Option String → Option String → Ordering
  | none, none => .eq
  | none, some _ => .lt
  | some _, none => .gt
  | some a, some b => compare a b

instance : Sortable Post where
  compareBy property a b :=
    match property with
    | "id" => some (compare a.id b.id)
    | "title" => some (compare a.title b.title)
    | "body" => some (compare a.body b.body)
    | "author" => some (compare a.author b.author)
    | "last_modified" => some (compare a.lastModified b.lastModified)
    | "remark" => some (compareOptional a.remark b.remark)
    | _ => none

/-! ### The public form -/

/-- A post as clients see it. -/
structure PostResource where
  id : Int32
  title : String
  body : String
  author : String
  updateTime : Timestamp
  remark : Option String
  deriving DecidableEq, Repr, Inhabited

namespace PostResource

/-- The public form of a stored post. -/
def ofPost (p : Post) : PostResource where
  id := p.id
  title := p.title
  body := p.body
  author := p.author
  updateTime := p.lastModified
  remark := p.remark

/-- The public fields. -/
def schema : Schema PostResource where
  name := "PostResource"
  fields := [
    .scalar "id" fun p => .int p.id.toInt,
    .scalar "title" fun p => .string p.title,
    .scalar "body" fun p => .string p.body,
    .scalar "author" fun p => .string p.author,
    .scalar "update_time" fun p => .string p.updateTime.text,
    .scalar "remark" fun p => Json.optionalString p.remark]

/-- The text of the identity. -/
def idText (id : Int32) : String := toString id.toInt

def toJson (p : PostResource) : Json :=
  .object [("id", .int p.id.toInt), ("title", .string p.title), ("body", .string p.body),
    ("author", .string p.author), ("update_time", .string p.updateTime.shortText),
    ("remark", Json.optionalString p.remark)]

def ofTree? (t : Json.Tree) : Option PostResource := do
  let fields ← t.fields? ["id", "title", "body", "author", "update_time", "remark"] 6
  some {
    id := ← fields.required "id" (·.int32?)
    title := ← fields.required "title" (·.string?)
    body := ← fields.required "body" (·.string?)
    author := ← fields.required "author" (·.string?)
    updateTime := ← fields.required "update_time" fun t => t.string?.bind Timestamp.read?
    remark := ← fields.optional "remark" (·.string?) }

end PostResource

/-! ### Sorting and filtering -/

/-- The fields that clients may sort posts by. -/
def postMapping : PropertyMapping :=
  ((((PropertyMapping.draft.field "title").field "body").field "author").map
    "update_time" [{ name := "last_modified" }]).build

/-- A filter of posts by title. -/
structure PostFilter where
  title : Option String := none
  deriving DecidableEq, Repr

namespace PostFilter

/-- The title to look for; an empty one counts as none. -/
def wanted (f : PostFilter) : Option String := f.title.filter (! ·.isEmpty)

/-- The post passes: its title is the wanted one up to case. -/
def passes (f : PostFilter) (p : Post) : Bool :=
  match f.wanted with
  | some title => Text.sameText p.title title
  | none => true

def ofTree? (t : Json.Tree) : Option PostFilter := do
  let fields ← t.fields? ["title"] 0
  some { title := ← fields.optional "title" (·.string?) }

def toJson (f : PostFilter) : Json := .object (Json.optionalMember "title" f.title)

end PostFilter

instance : Filter PostFilter where
  neutral := {}
  names := ["title"]
  ofFields? fields := do some { title := ← fields.optional "title" (·.string?) }
  ofTree? := PostFilter.ofTree?
  ofPairs pairs := { title := pairs.lookup "title" }
  members f := Json.optionalMember "title" f.title
  queryPairs f := Parameters.optionalPair "title" f.wanted

end HypermediaApi.Blog
