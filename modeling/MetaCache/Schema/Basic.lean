import MetaCache.Mismatch
import MetaCache.Json.Value

/-!
# Schemas

A schema says which shape data must have, whatever format it comes in, and its *carrier* is the
type of data that has this shape. Reading and writing by schema use the same field names in the
same order, so neither direction can miss a field of the other.

A field is either required or may be left out. The carrier of a field that may be left out is an
option, and its owner supplies the default.
-/

namespace MetaCache

open MetaCache.Json

/-- What becomes of a field that is not given. -/
inductive Presence
  | required
  | mayBeAbsent
  deriving DecidableEq, Repr

mutual
/-- The shape of data. -/
inductive Schema
  /-- A string; `expected` is what a message calls it. -/
  | text (expected : String)
  | flag
  /-- A number from 0 to `2 ^ 64 - 1`; `word` is what a message calls it. -/
  | natural (word : String)
  /-- One of some names. -/
  | choice (names : List String)
  /-- An object with any members. -/
  | object
  | optional (content : Schema)
  | list (item : Schema)
  /-- Named fields. A strict record admits no other names. -/
  | record (name : String) (strict : Bool) (fields : Fields)

/-- The fields of a record in order. -/
inductive Fields
  | nil
  | cons (name : String) (presence : Presence) (schema : Schema) (rest : Fields)
end

namespace Presence

/-- The carrier of a field whose content has type `α`. -/
abbrev Carrier : Presence → Type → Type
  | .required, α => α
  | .mayBeAbsent, α => Option α

end Presence

mutual
/-- The type of data of a schema. -/
abbrev Schema.Carrier : Schema → Type
  | .text _ => String
  | .flag => Bool
  | .natural _ => UInt64
  | .choice names => Fin names.length
  | .object => Object
  | .optional content => Option content.Carrier
  | .list item => List item.Carrier
  | .record _ _ fields => fields.Carrier

/-- The contents of all fields. -/
abbrev Fields.Carrier : Fields → Type
  | .nil => Unit
  | .cons _ presence schema rest => presence.Carrier schema.Carrier × rest.Carrier
end

namespace Fields

/-- The contents of the fields that have been given so far. -/
abbrev Draft : Fields → Type
  | .nil => Unit
  | .cons _ _ schema rest => Option schema.Carrier × rest.Draft

/-- No field has been given. -/
def blank : (fields : Fields) → fields.Draft
  | .nil => ()
  | .cons _ _ _ rest => (none, rest.blank)

def names : Fields → List String
  | .nil => []
  | .cons name _ _ rest => name :: rest.names

/-- The contents of all fields, unless a required one has not been given. -/
def complete : (fields : Fields) → fields.Draft → Except Mismatch fields.Carrier
  | .nil, _ => .ok ()
  | .cons name .required _ rest, (given, more) =>
    match given with
    | none => .error (.missingField name)
    | some content => (rest.complete more).map (content, ·)
  | .cons _ .mayBeAbsent _ rest, (given, more) => (rest.complete more).map (given, ·)

/-- The number of fields. -/
def count : Fields → Nat
  | .nil => 0
  | .cons _ _ _ rest => rest.count + 1

end Fields

namespace Schema

/-- What a message calls data of this schema. -/
def expected : Schema → String
  | .text expected => expected
  | .flag => "a boolean"
  | .natural word => word
  | .choice _ => "variant identifier"
  | .object => "a map"
  | .optional _ => "option"
  | .list _ => "a sequence"
  | .record name _ _ => "struct " ++ name

/-- What a message calls a list that stands for a record. -/
def expectedLength (name : String) (count : Nat) : String :=
  "struct " ++ name ++ " with " ++ toString count ++ (if count = 1 then " element" else " elements")

/-- Strings as messages call them. -/
def string : Schema := .text "a string"

end Schema

end MetaCache
