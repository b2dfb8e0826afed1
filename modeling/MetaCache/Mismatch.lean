import MetaCache.Text.Quoted

/-!
# Data of the wrong shape

What can be wrong with a well-formed document whose data does not have the shape asked for. The
causes and their wording are the same whatever format the data came in.
-/

namespace MetaCache

open MetaCache.Text

/-- What was found where something else was expected. -/
inductive Found
  | null
  | bool (value : Bool)
  | integer (value : Int)
  /-- A number with a fraction or exponent, as its format writes it. -/
  | floating (shown : String)
  | string (value : String)
  | sequence
  | map
  deriving DecidableEq, Repr

def Found.describe : Found → String
  | .null => "null"
  | .bool value => "boolean `" ++ (if value then "true" else "false") ++ "`"
  | .integer value => "integer `" ++ toString value ++ "`"
  | .floating shown => "floating point `" ++ shown ++ "`"
  | .string value => "string " ++ quoted value
  | .sequence => "sequence"
  | .map => "map"

/-- How data misses the shape asked for. -/
inductive Mismatch
  | wrongType (found : Found) (expected : String)
  | wrongValue (found : Found) (expected : String)
  | wrongLength (length : Nat) (expected : String)
  | unknownVariant (name : String) (variants : List String)
  | unknownField (name : String) (fields : List String)
  | missingField (name : String)
  | repeatedField (name : String)
  /-- Refused by the type that the data was meant for. -/
  | refused (message : String)
  deriving DecidableEq, Repr

/-- The names one could have used instead. -/
def listOptions : List String → String
  | [one] => "`" ++ one ++ "`"
  | [one, two] => "`" ++ one ++ "` or `" ++ two ++ "`"
  | names => "one of " ++ ", ".intercalate (names.map fun name => "`" ++ name ++ "`")

def Mismatch.message : Mismatch → String
  | .wrongType found expected => "invalid type: " ++ found.describe ++ ", expected " ++ expected
  | .wrongValue found expected => "invalid value: " ++ found.describe ++ ", expected " ++ expected
  | .wrongLength length expected =>
    "invalid length " ++ toString length ++ ", expected " ++ expected
  | .unknownVariant name variants =>
    "unknown variant `" ++ name ++ "`, expected " ++ listOptions variants
  | .unknownField name fields => "unknown field `" ++ name ++ "`, expected " ++ listOptions fields
  | .missingField name => "missing field `" ++ name ++ "`"
  | .repeatedField name => "duplicate field `" ++ name ++ "`"
  | .refused message => message

end MetaCache
