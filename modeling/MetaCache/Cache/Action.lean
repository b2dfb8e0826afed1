import MetaCache.Remote.Fetcher
import MetaCache.Store.Backend

/-!
# Actions on a cache

What a cache does depends on more than its store: on the clock, on chance, and on what the API
answers at the time. All of this is the *world*, a sequence of moments. Every look at the clock,
every normalization and every fetch takes the next moment, so a world may answer differently each
time, and a world that is the same at all moments is a remote that does not change.

An action ends with a result or an error, and with the state that it leaves: also after an error.
The state keeps a record of what the cache has done: the paths asked for, and what was handed to the
store.
-/

namespace MetaCache.Cache

open MetaCache.Remote MetaCache.Store

/-- What the outside is like when it is looked at. -/
structure Moment where
  now : Instant
  /-- Sixty-four random bits. -/
  draw : UInt64
  fetcher : Fetcher

/-- The moments in order. -/
abbrev World := Nat → Moment

/-- A record that was handed to the store. -/
structure Deposit where
  key : Key
  record : Record
  /-- When the record was normalized. -/
  now : Instant
  /-- Whether the store took it. -/
  isKept : Bool

/-- What changes while a cache is used. -/
structure State where
  backend : Backend
  /-- How many fetches there have been. -/
  fetches : Nat
  /-- How many moments are behind. -/
  elapsed : Nat
  /-- The paths that the API was asked for, in order. -/
  asked : List String
  /-- What was handed to the store, in order. -/
  deposits : List Deposit
  deriving Inhabited

/-- The state of a cache that has not been used. -/
def State.ofBackend (backend : Backend) : State := ⟨backend, 0, 0, [], []⟩

/-- How an action proceeds in a world. -/
def Action (α : Type) := World → State → Except Error α × State

namespace Action

variable {α β : Type}

protected def pure (a : α) : Action α := fun _ s => (.ok a, s)

protected def bind (x : Action α) (f : α → Action β) : Action β := fun w s =>
  match x w s with
  | (.ok a, s) => f a w s
  | (.error e, s) => (.error e, s)

instance : Monad Action where
  pure := Action.pure
  bind := Action.bind

theorem pure_apply (a : α) (w : World) (s : State) : (pure a : Action α) w s = (.ok a, s) := rfl

theorem bind_apply (x : Action α) (f : α → Action β) (w : World) (s : State) :
    (x >>= f) w s =
      match x w s with
      | (.ok a, s) => f a w s
      | (.error e, s) => (.error e, s) := rfl

/-- Ends with a given result; nothing changes. -/
def ofExcept (result : Except Error α) : Action α := fun _ s => (result, s)

def fail (e : Error) : Action α := ofExcept (.error e)

/-- Goes on after an error, which becomes the result. -/
def attempt (x : Action α) : Action (Except Error α) := fun w s =>
  let (result, s) := x w s
  (.ok result, s)

/-- Uses the backend. -/
def onBackend (use : Backend → Outcome Backend α) : Action α := fun _ s =>
  let (result, backend) := use s.backend
  (result, { s with backend })

/-- Hands a record, normalized at a given time, to the store. -/
def deposit (key : Key) (r : Record) (now : Instant) : Action Unit := fun _ s =>
  let (result, backend) := s.backend.put key r
  (result, { s with backend, deposits := s.deposits ++ [⟨key, r, now, result.isOk⟩] })

/-- Takes the next moment. -/
def moment : Action Moment := fun w s => (.ok (w s.elapsed), { s with elapsed := s.elapsed + 1 })

/-- Asks a fetcher at the next moment, and counts it. -/
def fetch (ask : Fetcher → Reply α) : Action α := fun w s =>
  let reply := ask (w s.elapsed).fetcher
  (reply.answer,
    { s with
      fetches := s.fetches + 1
      elapsed := s.elapsed + 1
      asked := s.asked ++ reply.asked })

end Action

end MetaCache.Cache
