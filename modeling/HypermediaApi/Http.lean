import HypermediaApi.Json.Writer

/-!
# HypermediaApi.Http — responses

A response as it leaves the program: a status, the headers that the answer sets and a body. Header values
may hold any text without control characters, the tab excepted.
-/

namespace HypermediaApi.Http

/-- A rendered response; header names are in lower case. -/
structure Response where
  status : Nat
  headers : List (String × String)
  body : String
  deriving DecidableEq, Repr

/-- A character that may stand in a header value. -/
def isHeaderChar (c : Char) : Bool := c = '\t' || (0x20 ≤ c.toNat && c.toNat ≠ 0x7F)

/-- A text that may be the value of a header. -/
def isHeaderText (s : String) : Bool := s.toList.all isHeaderChar

/-- A response with a JSON body. -/
def Response.json (status : Nat) (body : Json) : Response where
  status := status
  headers := [("content-type", "application/json")]
  body := body.render

/-- The response with one more header. -/
def Response.withHeader (r : Response) (name value : String) : Response :=
  { r with headers := r.headers ++ [(name, value)] }

end HypermediaApi.Http
