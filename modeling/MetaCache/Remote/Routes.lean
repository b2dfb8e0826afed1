import MetaCache.Remote.Fetcher

/-!
# Transports from route tables

A route table says for some paths what is answered. Of several routes for a path the last one
counts, and all other paths are not found.
-/

namespace MetaCache.Remote

/-- What is answered on a path. -/
inductive Route
  | respond (response : Response)
  /-- No answer comes. -/
  | fail (reason : String)
  deriving DecidableEq, Repr

def Route.answer : Route → Except Error Response
  | respond response => .ok response
  | fail reason => .error (.remote (.transport reason))

/-- Routes under their paths, in the order in which they were added. -/
abbrev Routes := List (String × Route)

namespace Routes

/-- The body of the answer on a path without a route. -/
def notFoundBody : String :=
  "\x7b\"code\":10000,\"error_code\":\"CF-NotFound\"\x7d"

/-- The answer on a path without a route. -/
def notFound : Route := .respond ⟨404, Json.bytesOf notFoundBody⟩

/-- The route that counts for a path. -/
def find (routes : Routes) (path : String) : Route :=
  ((routes.filter (·.1 = path)).getLast?.map Prod.snd).getD notFound

/-- The table with an entity at the path of its own. -/
def withEntity (routes : Routes) (kind : Kind) (guid : String) (entity : Json.Value) : Routes :=
  routes ++
    [(entityPath kind guid, .respond ⟨200, Json.bytesOf (document (entityBody guid entity))⟩)]

theorem find_mem (routes : Routes) (path : String) :
    routes.find path ∈ notFound :: routes.map Prod.snd := by
  unfold find
  cases h : (routes.filter (·.1 = path)).getLast? with
  | none => simp
  | some route =>
    have hm : route ∈ routes := (List.mem_filter.1 (List.mem_of_getLast? h)).1
    simp only [Option.map_some, Option.getD_some, List.mem_cons, List.mem_map]
    exact .inr ⟨route, hm, rfl⟩

/-- The transport that answers as the table says. -/
def transport (routes : Routes) : Transport :=
  .ofAnswers ((notFound :: routes.map Prod.snd).map Route.answer)
    (fun path => (routes.find path).answer)
    (fun path => List.mem_map.2 ⟨_, routes.find_mem path, rfl⟩)

end Routes

end MetaCache.Remote
