/-!
# Command lines

The arguments are options and guids in any order. `--config` takes the next argument whatever it
is, `--fill` asks for a preload, and what begins with a hyphen and is neither is refused. Without a
guid there must at least be a preload to do.
-/

namespace MetaCache.Command

/-- Why a command line is no use. -/
inductive UsageError
  | missingPath
  | unknownOption (argument : String)
  /-- Help was asked for, or there is nothing to do. -/
  | help
  deriving DecidableEq, Repr

def usage : String := "usage: appmeta [--config PATH] [--fill] GUID..."

def UsageError.message : UsageError → String
  | .missingPath => "--config requires a path"
  | .unknownOption argument => "unknown option " ++ argument ++ "\n" ++ usage
  | .help => usage

/-- What a command line asks for. -/
structure Arguments where
  /-- The path given last. -/
  config : Option String
  fill : Bool
  guids : List String
  deriving DecidableEq, Repr

namespace Arguments

/-- Nothing is asked for. -/
def blank : Arguments := ⟨none, false, []⟩

/-- Whether an argument is meant as an option. -/
def isOption (argument : String) : Bool := argument.toList.head? = some '-'

/-- Takes up one argument after the other. -/
def scan : List String → Arguments → Except UsageError Arguments
  | [], a => .ok a
  | argument :: rest, a =>
    if argument = "--config" then
      match rest with
      | [] => .error .missingPath
      | path :: rest => scan rest { a with config := some path }
    else if argument = "--fill" then scan rest { a with fill := true }
    else if argument = "-h" ∨ argument = "--help" then .error .help
    else if isOption argument then .error (.unknownOption argument)
    else scan rest { a with guids := a.guids ++ [argument] }

/-- The arguments of a command line. -/
def parse (line : List String) : Except UsageError Arguments := do
  let a ← scan line .blank
  if a.guids.isEmpty && !a.fill then .error .help else .ok a

end Arguments

end MetaCache.Command
