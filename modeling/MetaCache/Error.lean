import MetaCache.Kind

/-!
# Errors

Everything that can go wrong, by cause. A failure is *missing-class* when it says that an entity is
not there: its guid is unusable or the API does not know it. A failure is *transport-class* when the
API could not be asked or answered with something unusable. No failure is both.
-/

namespace MetaCache

open MetaCache.Text

/-- Failures of asking the API. -/
inductive RemoteError
  | notFound (kind : Kind) (guid : String)
  | transport (reason : String)
  | badStatus (path : String) (status : Nat)
  | decode (reason : String)
  deriving DecidableEq, Repr

def RemoteError.message : RemoteError → String
  | .notFound kind guid => "Remote " ++ kind.segment ++ " not found: " ++ guid
  | .transport reason => "Transport failed: " ++ reason
  | .badStatus path status => "Bad status " ++ toString status ++ " for " ++ path
  | .decode reason => "Failed to decode response: " ++ reason

/-- Failures of storage. -/
inductive StorageError
  | unavailable (reason : String)
  | notOpen
  | transactionFailed (reason : String)
  | serialization (reason : String)
  | corrupt (key : String) (reason : String)
  | lockPoisoned
  deriving DecidableEq, Repr

def StorageError.message : StorageError → String
  | .unavailable reason => "Storage unavailable: " ++ reason
  | .notOpen => "Storage used before open"
  | .transactionFailed reason => "Transaction failed: " ++ reason
  | .serialization reason => "Serialization failed: " ++ reason
  | .corrupt key reason => "Corrupt value under " ++ key ++ ": " ++ reason
  | .lockPoisoned => "Storage lock poisoned"

/-- Settings that cannot be used. -/
inductive ConfigError
  | missingRequired (field : String)
  | invalidValue (field value reason : String)
  deriving DecidableEq, Repr

def ConfigError.message : ConfigError → String
  | .missingRequired field => "Missing required configuration field: " ++ field
  | .invalidValue field value reason =>
    "Invalid value for " ++ field ++ ": " ++ value ++ " - " ++ reason

/-- Failures of the cache. -/
inductive Error
  /-- The text spells no guid. -/
  | invalidGuid (raw : String)
  | remote (cause : RemoteError)
  | storage (cause : StorageError)
  | config (cause : ConfigError)
  deriving DecidableEq, Repr

namespace Error

def message : Error → String
  | invalidGuid raw => "Invalid guid: " ++ quoted raw
  | remote cause => "Remote error: " ++ cause.message
  | storage cause => "Storage error: " ++ cause.message
  | config cause => "Config error: " ++ cause.message

/-- The entity is not there. -/
def isMissing : Error → Bool
  | invalidGuid _ | remote (.notFound _ _) => true
  | _ => false

/-- The API could not be asked, or its answer is of no use. -/
def isTransport : Error → Bool
  | remote (.notFound _ _) => false
  | remote _ => true
  | _ => false

theorem not_isMissing_of_isTransport {e : Error} (h : e.isTransport) : e.isMissing = false := by
  cases e with
  | remote cause => cases cause <;> simp_all [isTransport, isMissing]
  | _ => simp_all [isTransport]

end Error

end MetaCache
