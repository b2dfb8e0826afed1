import MetaCache.Command.Arguments
import MetaCache.Settings.Api
import MetaCache.Store.Disk
import MetaCache.Text.Blank
import MetaCache.Toml.Decode

/-!
# The configuration of the command

A TOML document with the settings of the connection, of the cache and of logging. What decodes may
still be of no use; the settings of the connection are looked at first.
-/

namespace MetaCache.Command

open MetaCache.Text

/-- Why there is no configuration. -/
inductive ConfigFailure
  | missingPath
  | unreadable (path : String) (fault : Store.ReadFault)
  | malformed (fault : Toml.Fault)
  | invalidValue (field reason : String)
  deriving DecidableEq, Repr

def ConfigFailure.message : ConfigFailure → String
  | .missingPath => "Missing configuration file path (use --config or APPMETA_CONFIG)"
  | .unreadable path fault => "Failed to read config file " ++ path ++ ": " ++ fault.message
  | .malformed _ => "Failed to parse config TOML"
  | .invalidValue field reason => "Invalid config value for " ++ field ++ ": " ++ reason

structure Config where
  api : ApiSettings
  cache : CacheSettings
  /-- Whether log lines are JSON. -/
  jsonLog : Bool
  deriving DecidableEq, Repr

namespace Config

/-- The settings of logging in documents. -/
def loggingSchema : Schema :=
  .record "LoggingSettings" true (.cons "json" .mayBeAbsent .flag .nil)

/-- The fields of a configuration in documents. -/
def fields : Fields :=
  .cons "api" .required ApiSettings.schema <|
  .cons "cache" .required CacheSettings.schema <|
  .cons "logging" .mayBeAbsent loggingSchema .nil

def schema : Schema := .record "CliConfig" true fields

def ofData : schema.Carrier → Config
  | (api, cache, logging, ()) =>
    { api := .ofData api
      cache := .ofData cache
      jsonLog :=
        match logging with
        | some (json, ()) => json.getD false
        | none => false }

/-- The first thing wrong with a configuration. -/
def problem? (c : Config) : Option ConfigFailure :=
  if isBlankText c.api.baseUrl then
    some (.invalidValue "api.base_url" "must not be empty")
  else if c.api.requestTimeoutMillis = 0 then
    some (.invalidValue "api.request_timeout_ms" "must be > 0")
  else if c.api.token.any isBlankText then
    some (.invalidValue "api.token" "must not be empty when set")
  else
    c.cache.problem?.map fun problem => .invalidValue "cache" (Error.config problem).message

/-- The configuration in a text. -/
def ofToml (text : String) : Except ConfigFailure Config :=
  match Toml.decode schema text with
  | .error fault => .error (.malformed fault)
  | .ok data =>
    let c := ofData data
    match c.problem? with
    | some problem => .error problem
    | none => .ok c

/-- The configuration in a file. -/
def ofFile (disk : Store.Disk) (path : String) : Except ConfigFailure Config :=
  match disk.read path with
  | .ok text => ofToml text
  | .error fault => .error (.unreadable path fault)

end Config

/-- Where the configuration is: what the command line says comes before the environment. -/
def Arguments.configPath (a : Arguments) (environment : Option String) :
    Except ConfigFailure String :=
  match a.config.or environment with
  | some path => .ok path
  | none => .error .missingPath

end MetaCache.Command
