import HypermediaApi.Blog.Draft
import HypermediaApi.Storage.Source
import Std.Data.TreeMap

/-!
# HypermediaApi.Blog.Store — posts in memory

The store holds the committed posts by identity. Changes are staged in units of work and reach the store
only by a commit, which takes all staged changes of its unit, whatever becomes of them, and applies all or
none. Readers see committed posts only.

A commit fails as a whole when failures are armed, which is how tests provoke it, and is refused when one of
its changes is not allowed in the store as it was before the commit: a remark that is too long, or an update
or removal of a post that is not there. Identities are given out when a post is staged, counting up from 1,
and are never given out again.
-/

namespace HypermediaApi.Blog

/-- A staged change. -/
inductive Change where
  | add (post : Post)
  | update (post : Post)
  | remove (id : Int32)
  deriving DecidableEq, Repr

/-- Committed posts by identity. -/
abbrev Posts := Std.TreeMap Int32 Post

/-- The entity type in errors. -/
def entityName : String := "Post"

namespace Change

/-- The remark of the post is too long. -/
def remarkFault? (p : Post) : Option StorageError :=
  match p.remark with
  | some remark =>
    if remarkLimit < Text.codePoints remark then
      some (StorageError.withEntity {
        operation := .commit
        kind := .constraintViolation
        reason := "remark exceeds " ++ toString remarkLimit ++ " characters" }
        entityName (PostResource.idText p.id))
    else none
  | none => none

/-- There is no post of that identity. -/
def absenceFault? (posts : Posts) (id : Int32) : Option StorageError :=
  if posts.contains id then none else some (.notFound entityName (PostResource.idText id))

/-- Why the change is not allowed among the given posts. -/
def fault? (posts : Posts) : Change → Option StorageError
  | add p => remarkFault? p
  | update p => (remarkFault? p).or (absenceFault? posts p.id)
  | remove id => absenceFault? posts id

/-- The posts after the change. -/
def apply (posts : Posts) : Change → Posts
  | add p => posts.insert p.id p
  | update p => posts.insert p.id p
  | remove id => posts.erase id

end Change

/-- The changes staged in a unit of work, in staging order. -/
abbrev UnitOfWork := List Change

/-- The store of posts. -/
structure PostStore where
  committed : Posts := {}
  /-- The identity of the next post that is staged. -/
  nextId : Int32 := 1
  /-- So many of the next commits fail. -/
  armedFailures : UInt32 := 0

namespace PostStore

/-- The post of that identity. -/
def find? (s : PostStore) (id : Int32) : Option Post := s.committed[id]?

def size (s : PostStore) : Nat := s.committed.size

/-- The committed posts in order of their identities. -/
def posts (s : PostStore) : List Post := s.committed.values

/-- The store with so many of the next commits failing. -/
def failNextCommits (s : PostStore) (count : UInt32) : PostStore := { s with armedFailures := count }

/-- The committed posts as a source of collections. -/
def source (s : PostStore) : Source Post PostFilter := .ofList "id" PostFilter.passes s.posts

/-! ### Units of work -/

/-- Staging a new post: the post with its identity, the store that has given it out and the unit. -/
def stageAdd (s : PostStore) (unit : UnitOfWork) (p : Post) : Post × PostStore × UnitOfWork :=
  let p := { p with id := s.nextId }
  (p, { s with nextId := s.nextId + 1 }, unit ++ [.add p])

/-- Staging new posts one after the other. -/
def stageAll (s : PostStore) (unit : UnitOfWork) : List Post → PostStore × UnitOfWork
  | [] => (s, unit)
  | p :: r =>
    let (_, s', unit') := s.stageAdd unit p
    s'.stageAll unit' r

/-- The answer to a commit of the staged changes, and the store after it: `false` for an armed failure, the
first fault of a change that is not allowed, and otherwise `true` with all changes applied. -/
def commit (s : PostStore) (unit : UnitOfWork) : Except StorageError Bool × PostStore :=
  if s.armedFailures ≠ 0 then (.ok false, { s with armedFailures := s.armedFailures - 1 })
  else match unit.findSome? (·.fault? s.committed) with
    | some fault => (.error fault, s)
    | none => (.ok true, { s with committed := unit.foldl Change.apply s.committed })

end PostStore

/-! ### Sessions of several units -/

/-- A store and the units of work on it, by name. -/
structure StoreSession where
  store : PostStore := {}
  units : OrderedMap String UnitOfWork := .empty

/-- One step of a session. -/
inductive StoreStep where
  | add (unit : String) (post : Post)
  | markUpdated (unit : String) (post : Post)
  | remove (unit : String) (id : Int32)
  | commit (unit : String)
  | count (unit : String) (filter : PostFilter)
  | fetchPage (unit : String) (filter : PostFilter) (steps : List SortStep) (window : Window)
  | fetchById (unit : String) (id : Int32)
  | failNextCommits (count : UInt32)
  deriving DecidableEq, Repr

/-- The answer to a step of a session. -/
inductive StoreAnswer where
  | done
  | staged (post : Post)
  | committed (saved : Bool)
  | counted (n : UInt64)
  | page (posts : List Post)
  | found (post : Option Post)
  | failed (error : StorageError)
  deriving DecidableEq, Repr

namespace StoreSession

/-- The staged changes of a unit. -/
def unit (s : StoreSession) (name : String) : UnitOfWork := (s.units.get? name).getD []

/-- The session with other staged changes of a unit. -/
def setUnit (s : StoreSession) (name : String) (staged : UnitOfWork) : StoreSession :=
  { s with units := s.units.insert name staged }

/-- The session with a unit of that name, new or as it is. -/
def openUnit (s : StoreSession) (name : String) : StoreSession := s.setUnit name (s.unit name)

/-- The session without a unit; its staged changes are forgotten. -/
def dropUnit (s : StoreSession) (name : String) : StoreSession :=
  { s with units := s.units.erase name }

/-- The answer to a step and the session after it. -/
def step (s : StoreSession) : StoreStep → StoreAnswer × StoreSession
  | .add unit post =>
    let (post, store, staged) := s.store.stageAdd (s.unit unit) post
    (.staged post, { s with store }.setUnit unit staged)
  | .markUpdated unit post => (.done, s.setUnit unit (s.unit unit ++ [.update post]))
  | .remove unit id => (.done, s.setUnit unit (s.unit unit ++ [.remove id]))
  | .commit unit =>
    let (answer, store) := s.store.commit (s.unit unit)
    let s := { s with store }.setUnit unit []
    match answer with
    | .ok saved => (.committed saved, s)
    | .error error => (.failed error, s)
  | .count _ filter =>
    match s.store.source.count filter with
    | .ok n => (.counted n, s)
    | .error error => (.failed error, s)
  | .fetchPage _ filter steps window =>
    match s.store.source.fetch filter steps window with
    | .ok posts => (.page posts, s)
    | .error error => (.failed error, s)
  | .fetchById _ id => (.found (s.store.find? id), s)
  | .failNextCommits count => (.done, { s with store := s.store.failNextCommits count })

/-- The answers to steps one after the other, and the session after them. -/
def run (s : StoreSession) : List StoreStep → List StoreAnswer × StoreSession
  | [] => ([], s)
  | step :: r =>
    let (answer, s') := s.step step
    let (answers, s'') := s'.run r
    (answer :: answers, s'')

end StoreSession

end HypermediaApi.Blog
