import MetaCache.Command.Config
import MetaCache.Command.Event
import MetaCache.Remote.Client

/-!
# A run

A run sets up the client and the cache, opens the cache, preloads it if that is asked for, and
resolves one app after the other. An app that cannot be resolved is counted and told about, and the
run goes on. A setup that fails, or a preload, ends the run. In the end the cache is closed in any
case, and what a persistent store has stays on the disk.
-/

namespace MetaCache.Command

open MetaCache.Remote MetaCache.Store

/-- What the outside of a run is like at a moment. -/
structure Outside where
  now : Instant
  draw : UInt64
  web : Web

/-- Why a run ends early. -/
inductive Failure
  | config (cause : ConfigFailure)
  | client (cause : ClientError)
  | cache (cause : Error)
  deriving DecidableEq, Repr

def Failure.message : Failure → String
  | config cause => cause.message
  | client cause => cause.message
  | cache cause => cause.message

/-- What a run comes to, what it tells meanwhile, and what it leaves behind. -/
structure Report where
  result : Except Failure Summary
  /-- The apps resolved, in order. -/
  apps : List App
  events : List Event
  /-- The paths that the API was asked for, in order. -/
  asked : List String
  /-- The backend as the run leaves it, if it came to have one. -/
  backend : Option Backend
  disk : Disk

/-- The apps as they are written out, one on a line. -/
def Report.output (r : Report) : String := String.join (r.apps.map fun app => app.encode ++ "\n")

/-- The report of a run that came to nothing before the cache was open. -/
def Report.ofFailure (disk : Disk) (backend : Option Backend) (failure : Failure) : Report :=
  ⟨.error failure, [], [], [], backend, disk⟩

/-! ## The work -/

/-- How far the work is. -/
structure Progress where
  apps : List App
  failed : Nat
  events : List Event

namespace Progress

/-- Nothing is done yet. -/
def start : Progress := ⟨[], 0, []⟩

def summary (p : Progress) : Summary := ⟨p.apps.length, p.failed⟩

end Progress

/-- Resolves one more app. -/
def resolveNext (cache : Cache) (p : Progress) (guid : String) : Cache.Action Progress := do
  match ← Cache.Action.attempt (cache.resolveApp guid) with
  | .ok app => return { p with apps := p.apps ++ [app] }
  | .error e =>
    return { p with failed := p.failed + 1, events := p.events ++ [.unresolved guid e] }

/-- All that is done while the cache is open. -/
def work (cache : Cache) (a : Arguments) : Cache.Action Progress := do
  let start ←
    if a.fill then do
      let report ← cache.fillAll
      pure { Progress.start with events := [.preloaded report] }
    else pure .start
  a.guids.foldlM (resolveNext cache) start

/-! ## The whole -/

/-- What a run works with. -/
structure Setup where
  client : Client
  cache : Cache
  backend : Backend

/-- The setup that a configuration describes, nothing being open yet. -/
def setUp (c : Config) (disk : Disk) : Except Failure Setup := do
  let client ← (Client.ofSettings c.api).mapError .client
  let backend ← (disk.backend c.cache).mapError .cache
  let cache ← (Cache.ofSettings c.cache).mapError .cache
  return ⟨client, cache, backend⟩

/-- The world of a cache that asks by a client. -/
def Outside.world (outside : Nat → Outside) (client : Client) : Cache.World := fun n =>
  let moment := outside n
  ⟨moment.now, moment.draw, (client.transport moment.web).fetcher⟩

/-- Closes the cache after the work. -/
def finish (c : Config) (disk : Disk) (worked : Except Error Progress × Cache.State) : Report :=
  let (result, state) := worked
  let opened : Event := .opened c.cache.backend c.api.baseUrl
  let closed := state.backend.closeStore
  let disk := disk.settle c.cache closed
  match result with
  | .error e => ⟨.error (.cache e), [], [opened], state.asked, some closed, disk⟩
  | .ok p =>
    let tally := state.backend.tally
    let finished : Event := .finished p.summary tally.hits tally.misses state.fetches
    ⟨.ok p.summary, p.apps, opened :: p.events ++ [finished], state.asked, some closed, disk⟩

/-- Runs the command with a configuration. -/
def run (c : Config) (a : Arguments) (disk : Disk) (outside : Nat → Outside) : Report :=
  match setUp c disk with
  | .error failure => .ofFailure disk none failure
  | .ok s =>
    match s.backend.openStore with
    | (.error e, backend) => .ofFailure (disk.settle c.cache backend) backend (.cache e)
    | (.ok (), backend) =>
      finish c disk (work s.cache a (Outside.world outside s.client) (.ofBackend backend))

end MetaCache.Command
