import HypermediaApi.Blog.Store
import HypermediaApi.Settings.Basic

/-!
# HypermediaApi.Blog.Seeding — sample posts for an empty store

A store without posts is given eight sample posts in one commit. A failed commit is tried again, up to the
number of attempts of the settings and at least once; every attempt stages the posts anew, so that each
takes new identities. A store that holds posts is left alone.
-/

namespace HypermediaApi.Blog

def samplePostCount : Nat := 8

/-- The author of the sample posts. -/
def sampleAuthor : String := "Dave"

/-- The sample posts. -/
def samplePosts (now : Timestamp) : List Post :=
  (List.range samplePostCount).map fun i => {
    id := 0
    title := "Post Title " ++ toString (i + 1)
    body := "Post Body " ++ toString (i + 1)
    author := sampleAuthor
    lastModified := now
    remark := none }

namespace PostStore

/-- One attempt to seed through a unit of work: the outcome, and the store and the unit after it. -/
def seedOnce (s : PostStore) (unit : UnitOfWork) (now : Timestamp) :
    Except Failure Unit × PostStore × UnitOfWork :=
  if s.size ≠ 0 then (.ok (), s, unit)
  else
    let (s, unit) := s.stageAll unit (samplePosts now)
    match s.commit unit with
    | (.ok true, s) => (.ok (), s, [])
    | (.ok false, s) => (.error (.saveFailed "seed posts"), s, [])
    | (.error e, s) => (.error (.storage e), s, [])

/-- Attempts to seed until one succeeds or none is left; `lastError` is the wording of the last failure. -/
def seedAttempts (total : UInt32) (now : Timestamp) :
    Nat → String → PostStore → UnitOfWork → Except Failure Unit × PostStore × UnitOfWork
  | 0, lastError, s, unit => (.error (.seedExhausted total lastError), s, unit)
  | left + 1, _, s, unit =>
    match s.seedOnce unit now with
    | (.ok (), s, unit) => (.ok (), s, unit)
    | (.error failure, s, unit) => seedAttempts total now left failure.message s unit

/-- The number of attempts to seed: at least one. -/
def attempts (settings : SeedSettings) : UInt32 :=
  if settings.maxRetries = 0 then 1 else settings.maxRetries

/-- Seeding through a unit of work: the outcome, and the store and the unit after it. -/
def seed (s : PostStore) (unit : UnitOfWork) (settings : SeedSettings) (now : Timestamp) :
    Except Failure Unit × PostStore × UnitOfWork :=
  let total := attempts settings
  seedAttempts total now total.toNat "" s unit

end PostStore

end HypermediaApi.Blog
