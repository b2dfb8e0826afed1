import MetaCache.Cache.ReadThrough
import MetaCache.Json.Writer

/-!
# What is told about a run

While it runs, the command tells what happens: that the cache is open, that it is preloaded, which
app could not be resolved and why, and what it all came to. An event is told as a line of text or as
a JSON object. The time, which goes in front of a line, is not part of it.
-/

namespace MetaCache.Command

open MetaCache.Json

/-- How serious an event is. -/
inductive Level
  | error
  | warn
  | info
  | debug
  | trace
  deriving DecidableEq, Repr

namespace Level

def name : Level → String
  | error => "ERROR"
  | warn => "WARN"
  | info => "INFO"
  | debug => "DEBUG"
  | trace => "TRACE"

/-- How far down a level is. -/
def depth : Level → Nat
  | error => 1
  | warn => 2
  | info => 3
  | debug => 4
  | trace => 5

end Level

/-- What a run comes to. -/
structure Summary where
  resolved : Nat
  failed : Nat
  deriving DecidableEq, Repr

inductive Event
  | opened (backend : BackendChoice) (baseUrl : String)
  | preloaded (report : FillReport)
  | unresolved (guid : String) (cause : Error)
  | finished (summary : Summary) (hits misses fetches : Nat)
  deriving DecidableEq, Repr

/-- What an event tells under one name. -/
inductive Detail
  | text (value : String)
  | count (value : Nat)
  deriving DecidableEq, Repr

namespace Detail

def plain : Detail → String
  | text value => value
  | count value => toString value

def toValue : Detail → Value
  | text value => .string value
  | count value => Remote.countValue value

end Detail

/-- The name of a backend in a log. -/
def backendName : BackendChoice → String
  | .persistent => "Persistent"
  | .memory => "Memory"
  | .disabled => "Disabled"

namespace Event

/-- What part of the command all events come from. -/
def target : String := "appmeta_cli"

/-- Only a failure is a warning. -/
def level : Event → Level
  | unresolved _ _ => .warn
  | _ => .info

def message : Event → String
  | opened _ _ => "cache opened"
  | preloaded _ => "cache preloaded"
  | unresolved _ _ => "resolution failed"
  | finished _ _ _ _ => "done"

def details : Event → List (String × Detail)
  | opened backend baseUrl =>
    [("backend", .text (backendName backend)), ("base_url", .text baseUrl)]
  | preloaded report =>
    [("apps", .count report.apps), ("spaces", .count report.spaces),
      ("orgs", .count report.organizations)]
  | unresolved guid cause => [("guid", .text guid), ("error", .text cause.message)]
  | finished summary hits misses fetches =>
    [("resolved", .count summary.resolved), ("failed", .count summary.failed),
      ("hits", .count hits), ("misses", .count misses), ("remote_fetches", .count fetches)]

/-- The names of all that an event tells. -/
def fieldNames (e : Event) : List String := "message" :: e.details.map Prod.fst

/-- An event as text: level, target, message and details. -/
def line (e : Event) : String :=
  e.level.name ++ " " ++ target ++ ": " ++ e.message
    ++ String.join (e.details.map fun (name, detail) => " " ++ name ++ "=" ++ detail.plain)

/-- An event as an object. -/
def toValue (e : Event) : Value :=
  .object [("level", .string e.level.name),
    ("fields", .object (("message", .string e.message)
      :: e.details.map fun (name, detail) => (name, detail.toValue))),
    ("target", .string target)]

end Event

end MetaCache.Command
