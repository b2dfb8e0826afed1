import MetaCache.Remote.Fetcher
import MetaCache.Url.Address

/-!
# The web

A web is what becomes of requests. It may answer each of them as it likes, depending on the address
and on who asks, but there are only finitely many answers that it gives.
-/

namespace MetaCache.Remote

open MetaCache.Url

/-- What a request says about who asks. -/
inductive Credential
  | bearer (token : String)
  | user (name : String) (password : Option String)
  deriving DecidableEq, Repr

/-- A request for what lies at an address. -/
structure Request where
  address : Address
  credential : Option Credential
  deriving DecidableEq, Repr

/-- What becomes of a request. -/
inductive Delivery
  | answered (response : Response)
  /-- The answer ends before it is complete. -/
  | truncated
  | unanswered
  deriving DecidableEq, Repr

structure Web where
  deliver : Request → Delivery
  /-- All answers that are given. -/
  responses : List Response
  deliver_mem : ∀ {request : Request} {response : Response},
    deliver request = .answered response → response ∈ responses

/-- The web in which nothing answers. -/
def Web.silent : Web := ⟨fun _ => .unanswered, [], fun h => by cases h⟩

instance : Inhabited Web := ⟨.silent⟩

end MetaCache.Remote
