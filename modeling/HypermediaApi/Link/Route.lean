import HypermediaApi.Failure
import HypermediaApi.OrderedMap
import HypermediaApi.Text.Percent

/-!
# HypermediaApi.Link.Route — named route templates

A route is a template with placeholders in braces. Rendering goes through the template once from left to
right: a placeholder is replaced by the percent-encoded value of the first parameter of that name and is not
looked at again, everything else stands as it is. Parameters that no placeholder uses and that are not empty
follow as a query, in order and with repetitions.

A brace that opens and never closes, and a placeholder without a parameter, are faults; the leftmost one is
reported.
-/

namespace HypermediaApi

/-- A piece of a route template. -/
inductive TemplatePiece where
  /-- A character that stands for itself. -/
  | literal (c : Char)
  | placeholder (name : String)
  /-- A brace that opens and never closes, with the rest of the template. -/
  | unterminated
  deriving DecidableEq, Repr

namespace TemplatePiece

/-- The pieces of the rest of a template; inside a placeholder its characters so far are in reverse. -/
def scan : Option (List Char) → List Char → List TemplatePiece
  | none, [] => []
  | some _, [] => [.unterminated]
  | none, c :: r => if c = '\x7b' then scan (some []) r else .literal c :: scan none r
  | some name, c :: r =>
    if c = '\x7d' then .placeholder (.ofList name.reverse) :: scan none r else scan (some (c :: name)) r

/-- The pieces of a template. -/
def ofTemplate (template : String) : List TemplatePiece := scan none template.toList

/-- The names of the placeholders. -/
def names : List TemplatePiece → List String
  | [] => []
  | .placeholder name :: r => name :: names r
  | _ :: r => names r

end TemplatePiece

/-- Named route templates under a base URL. -/
structure RouteTable where
  baseUrl : String
  routes : OrderedMap String String := .empty

namespace RouteTable

/-- The table without routes; slashes at the end of the base URL are dropped. -/
def ofBaseUrl (url : String) : RouteTable := { baseUrl := Text.dropEnd '/' url }

/-- The table with a route; an earlier one of that name is replaced. -/
def add (t : RouteTable) (name template : String) : RouteTable :=
  { t with routes := t.routes.insert name template }

/-- The path of rendered pieces, or the leftmost fault. -/
def renderPieces (route template : String) (params : List (String × String)) :
    List TemplatePiece → Except RouteFault (List Char)
  | [] => .ok []
  | .literal c :: r => (renderPieces route template params r).map (c :: ·)
  | .placeholder name :: r =>
    match params.lookup name with
    | some value =>
      (renderPieces route template params r).map (Text.Percent.encodeChars value.toList ++ ·)
    | none => .error (.missingValue name route)
  | .unterminated :: _ => .error (.unterminated template)

/-- The parameters that go into the query. -/
def leftover (used : List String) (params : List (String × String)) : List (String × String) :=
  params.filter fun (name, value) => !used.contains name && !value.isEmpty

/-- The text of a query. -/
def queryText (params : List (String × String)) : String :=
  "&".intercalate (params.map fun (name, value) => name ++ "=" ++ Text.Percent.encode value)

/-- The URI of a route. -/
def render (t : RouteTable) (route : String) (params : List (String × String)) : Except RouteFault String :=
  match t.routes.get? route with
  | none => .error (.unknownRoute route)
  | some template =>
    let pieces := TemplatePiece.ofTemplate template
    (renderPieces route template params pieces).map fun path =>
      let query := leftover (TemplatePiece.names pieces) params
      t.baseUrl ++ .ofList path ++ (if query.isEmpty then "" else "?" ++ queryText query)

end RouteTable

/-- The names of the routes of a resource. -/
structure ResourceRoutes where
  item : String
  collection : String
  delete : String
  update : String
  partialUpdate : String
  deriving DecidableEq, Repr

/-- The usual route names of a resource. -/
def ResourceRoutes.ofResource (resource : String) : ResourceRoutes where
  item := "get_" ++ resource
  collection := "get_" ++ resource ++ "s"
  delete := "delete_" ++ resource
  update := "update_" ++ resource
  partialUpdate := "partially_update_" ++ resource

/-- The table with the routes of a resource mounted at a path, whose slashes at the end are dropped. -/
def RouteTable.mount (t : RouteTable) (routes : ResourceRoutes) (path : String) : RouteTable :=
  let path := Text.dropEnd '/' path
  let item := path ++ "/\x7bid\x7d"
  ((((t.add routes.item item).add routes.collection path).add routes.delete item).add
    routes.update item).add routes.partialUpdate item

end HypermediaApi
