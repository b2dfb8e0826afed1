import MetaCache.Command.Filter
import MetaCache.Command.Run

/-!
# The program

The program reads its arguments, finds and reads its configuration, and runs. Apps go to the output;
complaints and the log go elsewhere. Its exit status tells whether all apps were resolved, some were
not, or there was no run to the end.
-/

namespace MetaCache.Command

open MetaCache.Store

/-- What the environment says. -/
structure Environment where
  /-- Where the configuration is. -/
  config : Option String
  /-- Which events are logged. -/
  filter : Option String
  deriving DecidableEq, Repr

/-- What the program does. -/
structure Execution where
  exit : UInt8
  output : String
  /-- What is said about a failure. -/
  complaint : Option String
  events : List Event
  /-- Whether events are logged as objects. -/
  jsonLog : Bool
  disk : Disk

/-- All apps were resolved. -/
def exitSuccess : UInt8 := 0

/-- Some apps were not resolved. -/
def exitUnresolved : UInt8 := 1

/-- There was no run to the end. -/
def exitFailure : UInt8 := 2

namespace Execution

/-- A program that ends with a complaint before it logs anything. -/
def ofComplaint (disk : Disk) (complaint : String) : Execution :=
  ⟨exitFailure, "", some complaint, [], false, disk⟩

/-- How the program complains about a failure. -/
def complaintOf (failure : Failure) : String := "appmeta: " ++ failure.message

/-- What the program does about a report. -/
def ofReport (filter : Filter) (jsonLog : Bool) (r : Report) : Execution :=
  let events := r.events.filter filter.admits
  match r.result with
  | .ok summary =>
    ⟨if summary.failed = 0 then exitSuccess else exitUnresolved, r.output, none, events, jsonLog,
      r.disk⟩
  | .error failure =>
    ⟨exitFailure, r.output, some (complaintOf failure), events, jsonLog, r.disk⟩

end Execution

/-- The configuration that arguments and environment lead to. -/
def configFor (a : Arguments) (e : Environment) (disk : Disk) : Except ConfigFailure Config := do
  Config.ofFile disk (← a.configPath e.config)

/-- Executes the program. -/
def execute (line : List String) (e : Environment) (disk : Disk) (outside : Nat → Outside) :
    Execution :=
  match Arguments.parse line with
  | .error usage => .ofComplaint disk usage.message
  | .ok a =>
    match configFor a e disk with
    | .error failure => .ofComplaint disk (Execution.complaintOf (.config failure))
    | .ok c => .ofReport (.ofEnvironment e.filter) c.jsonLog (run c a disk outside)

end MetaCache.Command
