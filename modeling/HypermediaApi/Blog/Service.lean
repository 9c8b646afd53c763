import HypermediaApi.Blog.Seeding
import HypermediaApi.Collection

/-!
# HypermediaApi.Blog.Service — the posts API

The operations that clients have on posts. Reading operations answer from the committed posts. A writing
operation stages its change in a unit of work of its own, commits it and answers with the service after it;
whatever fails leaves the committed posts as they were. The time of a change is given by the caller.

Each failure is reported under the operation during which it happened.
-/

namespace HypermediaApi.Blog

/-- The service: the stored posts and what is known of posts as a collection. -/
structure PostService where
  store : PostStore
  collection : Collection Post PostResource

/-- The path of the posts. -/
def postsPath : String := "/api/posts"

/-- The author of posts that clients create. -/
def createAuthor : String := "admin"

/-- The types behind the posts collection. -/
def postTypes : TypePair := ⟨"blog::PostResource", "blog::Post"⟩

/-- The registry with the mapping of posts. -/
def registerPosts (r : Registry) : Except Failure Registry := r.register postTypes postMapping

/-- The route names of posts. -/
def postRoutes : ResourceRoutes := .ofResource "post"

/-- What is known of posts as a collection. -/
def postCollection (registry : Registry) (settings : Settings) : Collection Post PostResource where
  schema := PostResource.schema
  identify := fun p => PostResource.idText p.id
  present := PostResource.ofPost
  types := postTypes
  registry := registry
  links := {
    table := (RouteTable.ofBaseUrl settings.service.baseUrl).mount postRoutes postsPath
    routes := postRoutes }
  defaultSize := settings.paging.defaultPageSize
  maxSize := settings.paging.maxPageSize

namespace PostService

/-- The service with a newly seeded store. -/
def bootstrap (settings : Settings) (now : Timestamp) : Except Failure PostService := do
  let registry ← registerPosts {}
  let (outcome, store, _) := ({} : PostStore).seed [] settings.seed now
  outcome
  .ok { store, collection := postCollection registry settings }

/-! ### Parts of the operations -/

/-- A failure as one of the given operation. -/
def during (operation : ApiOperation) (failure : Failure) : ApiError :=
  (ApiError.ofFailure failure).withOperation operation

/-- The post of that identity. -/
def find (s : PostService) (operation : ApiOperation) (id : Int32) : Except ApiError Post :=
  match s.store.find? id with
  | some post => .ok post
  | none => .error ((ApiError.notFound entityName (PostResource.idText id)).withOperation operation)

/-- The draft breaks no rule. -/
def checkDraft (operation : ApiOperation) (draft : PostDraft) : Except ApiError Unit :=
  if draft.errors.isEmpty then .ok ()
  else .error ((ApiError.validationFailed draft.errors).withOperation operation)

/-- The outcome of a commit of a unit of work, and the service after it. -/
def save (s : PostService) (operation : ApiOperation) (unit : UnitOfWork) (complaint : String) :
    Except ApiError Unit × PostService :=
  let (answer, store) := s.store.commit unit
  let s := { s with store }
  match answer with
  | .ok true => (.ok (), s)
  | .ok false => (.error (during operation (.saveFailed complaint)), s)
  | .error e => (.error (during operation (.storage e)), s)

/-! ### Reading -/

/-- A page of posts with all links in the body. -/
def list (s : PostService) (p : Parameters PostFilter) : Except ApiError (PageAnswer ShapedPage) :=
  (s.collection.list s.store.source p).mapError (·.withOperation .list)

/-- A page of posts as plain records. -/
def listPlain (s : PostService) (p : Parameters PostFilter) : Except ApiError (PageAnswer (List Record)) :=
  (s.collection.listPlain s.store.source p).mapError (·.withOperation .list)

/-- One post, cut to a field list. -/
def get (s : PostService) (id : Int32) (fields : Option String) : Except ApiError ShapedItem := do
  (s.collection.checkFields fields).mapError (·.withOperation .get)
  let post ← s.find .get id
  (s.collection.shapeItem (.ofPost post) fields).mapError (·.withOperation .get)

/-! ### Writing -/

/-- The answer to the creation of a post that has been stored. -/
def created (s : PostService) (post : Post) : Except ApiError CreatedAnswer := do
  let resource := PostResource.ofPost post
  let location ← (s.collection.links.itemUri (s.collection.identify resource)).mapError (during .create)
  let item ← (s.collection.shapeItem resource none).mapError (·.withOperation .create)
  .ok { location, item }

/-- Creating a post. -/
def create (s : PostService) (draft : PostDraft) (now : Timestamp) :
    Except ApiError CreatedAnswer × PostService :=
  match checkDraft .create draft with
  | .error e => (.error e, s)
  | .ok () =>
    let (post, store, unit) := s.store.stageAdd [] {
      id := 0
      title := draft.title
      body := draft.body
      author := createAuthor
      lastModified := now
      remark := draft.remark }
    match { s with store }.save .create unit "Adding post failed on save." with
    | (.error e, s) => (.error e, s)
    | (.ok (), s) => (s.created post, s)

/-- Storing a changed post. -/
def storeChanged (s : PostService) (operation : ApiOperation) (post : Post) (now : Timestamp) (complaint : String) :
    Except ApiError Unit × PostService :=
  s.save operation [.update { post with lastModified := now }] complaint

/-- Replacing the parts of a post that clients may set. -/
def update (s : PostService) (id : Int32) (draft : PostDraft) (now : Timestamp) :
    Except ApiError Unit × PostService :=
  match checkDraft .update draft, s.find .update id with
  | .error e, _ => (.error e, s)
  | .ok (), .error e => (.error e, s)
  | .ok (), .ok post =>
    s.storeChanged .update (draft.applyTo post) now
      ("Updating post " ++ PostResource.idText id ++ " failed on save.")

/-- Changing some parts of a post. -/
def patch (s : PostService) (id : Int32) (patch : PostPatch) (now : Timestamp) :
    Except ApiError Unit × PostService :=
  match s.find .partialUpdate id with
  | .error e => (.error e, s)
  | .ok post =>
    let draft := patch.apply (.ofPost post)
    match checkDraft .partialUpdate draft with
    | .error e => (.error e, s)
    | .ok () =>
      s.storeChanged .partialUpdate (draft.applyTo post) now
        ("Patching post " ++ PostResource.idText id ++ " failed on save.")

/-- Deleting a post. -/
def delete (s : PostService) (id : Int32) : Except ApiError Unit × PostService :=
  match s.find .delete id with
  | .error e => (.error e, s)
  | .ok post =>
    s.save .delete [.remove post.id] ("Deleting post " ++ PostResource.idText id ++ " failed on save.")

/-- The service with so many of the next commits failing. -/
def failNextCommits (s : PostService) (count : UInt32) : PostService :=
  { s with store := s.store.failNextCommits count }

end PostService

end HypermediaApi.Blog
