import HypermediaApi.Collection

/-!
# HypermediaApi.Sample.Article — articles, a resource with a nested part

Articles have an author with a name and an address of their own, which clients reach by dotted paths, while
the storage sorts by flat properties. The collection of articles can be put together with any registry and
links.
-/

namespace HypermediaApi.Sample

/-- The author of an article. -/
structure Author where
  name : String
  email : String
  deriving DecidableEq, Repr

/-- An article. -/
structure Article where
  id : Int
  title : String
  body : String
  author : Author
  deriving DecidableEq, Repr

/-- The public fields of authors. -/
def Author.schema : Schema Author where
  name := "Author"
  fields := [
    .scalar "name" fun a => .string a.name,
    .scalar "email" fun a => .string a.email]

/-- The public fields of articles. -/
def Article.schema : Schema Article where
  name := "Article"
  fields := [
    .scalar "id" fun a => .int a.id,
    .scalar "title" fun a => .string a.title,
    .scalar "body" fun a => .string a.body,
    Author.schema.asField "author" Article.author]

instance : Sortable Article where
  compareBy property a b :=
    match property with
    | "id" => some (compare a.id b.id)
    | "title" => some (compare a.title b.title)
    | "body" => some (compare a.body b.body)
    | "author_name" => some (compare a.author.name b.author.name)
    | "author_email" => some (compare a.author.email b.author.email)
    | _ => none

/-- The types behind a collection of articles. -/
def articleTypes : TypePair := ⟨"sample::Article", "sample::ArticleRow"⟩

/-- The collection of articles. -/
def articleCollection (registry : Registry) (links : LinkBuilder) : Collection Article Article where
  schema := Article.schema
  identify := fun a => toString a.id
  present := id
  types := articleTypes
  registry := registry
  links := links

/-- A storage of articles that answers as it is told. -/
structure ArticleStorage where
  rows : List Article
  /-- The total to report instead of the number of rows. -/
  total : Option UInt64 := none
  countError : Option StorageError := none
  fetchError : Option StorageError := none
  /-- Every row is answered, whatever the window. -/
  ignoreLimit : Bool := false

/-- The storage as a source. -/
def ArticleStorage.source (s : ArticleStorage) : Source Article NoFilter where
  count _ :=
    match s.countError with
    | some e => .error e
    | none => .ok (s.total.getD (.ofNat s.rows.length))
  fetch _ steps window :=
    match s.fetchError with
    | some e => .error e
    | none =>
      (sortEntities steps "id" s.rows).map fun rows => if s.ignoreLimit then rows else window.slice rows

end HypermediaApi.Sample
