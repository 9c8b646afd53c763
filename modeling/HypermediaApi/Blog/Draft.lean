import HypermediaApi.Api.Error
import HypermediaApi.Blog.Post

/-!
# HypermediaApi.Blog.Draft — what clients send

The body of a request that creates or replaces a post is a draft: the parts of a post that clients may set.
A patch sets some of them; it leaves out what is to stay. For the remark, which may be absent from a post,
leaving it out and setting it to `null` are different things: the first keeps it and the second clears it.
-/

namespace HypermediaApi.Blog

/-- The greatest number of characters of a title. -/
def titleLimit : Nat := 100

/-- The greatest number of characters of a remark. -/
def remarkLimit : Nat := 200

/-- The parts of a post that clients may set. -/
structure PostDraft where
  title : String := ""
  body : String := ""
  remark : Option String := none
  deriving DecidableEq, Repr

namespace PostDraft

def ofTree? (t : Json.Tree) : Option PostDraft := do
  let fields ← t.fields? ["title", "body", "remark"] 0
  some {
    title := ← fields.withDefault "title" "" (·.string?)
    body := ← fields.withDefault "body" "" (·.string?)
    remark := ← fields.optional "remark" (·.string?) }

def toJson (d : PostDraft) : Json :=
  .object [("title", .string d.title), ("body", .string d.body), ("remark", Json.optionalString d.remark)]

/-- The title is missing or too long. -/
def titleErrors (title : String) : List FieldError :=
  if Text.isBlankText title then [⟨"title", "Title is required"⟩]
  else if titleLimit < Text.codePoints title then
    [⟨"title", "Title must not exceed " ++ toString titleLimit ++ " characters"⟩]
  else []

/-- The body is missing. -/
def bodyErrors (body : String) : List FieldError :=
  if Text.isBlankText body then [⟨"body", "Body is required"⟩] else []

/-- The rules that the draft breaks. -/
def errors (d : PostDraft) : List FieldError := titleErrors d.title ++ bodyErrors d.body

/-- The parts of a stored post that clients may set. -/
def ofPost (p : Post) : PostDraft where
  title := p.title
  body := p.body
  remark := p.remark

/-- The post with the parts of the draft. -/
def applyTo (d : PostDraft) (p : Post) : Post :=
  { p with title := d.title, body := d.body, remark := d.remark }

end PostDraft

/-- Changes to some parts of a post. -/
structure PostPatch where
  /-- The new title, if it changes. -/
  title : Option String := none
  /-- The new body, if it changes. -/
  body : Option String := none
  /-- The new remark, if it changes; `some none` clears it. -/
  remark : Option (Option String) := none
  deriving DecidableEq, Repr

namespace PostPatch

def ofTree? (t : Json.Tree) : Option PostPatch := do
  let fields ← t.fields? ["title", "body", "remark"] 0
  some {
    title := ← fields.optional "title" (·.string?)
    body := ← fields.optional "body" (·.string?)
    remark := ← fields.withDefault "remark" none fun t => (t.nullable? (·.string?)).map some }

/-- The patch as JSON; what does not change is written `null`. -/
def toJson (p : PostPatch) : Json :=
  .object [("title", Json.optionalString p.title), ("body", Json.optionalString p.body),
    ("remark", Json.optionalString (p.remark.getD none))]

/-- The draft with the changes of the patch. -/
def apply (p : PostPatch) (d : PostDraft) : PostDraft where
  title := p.title.getD d.title
  body := p.body.getD d.body
  remark := p.remark.getD d.remark

end PostPatch

end HypermediaApi.Blog
