import MetaCache.Instant
import MetaCache.Json.Decode

/-!
# Entity records and applications

A record is what the API tells about one entity, plus the time at which it stops being fresh. The
expiry is not part of the document. In a document every field may be left out or `null`, which means
its empty default.

An `App` joins an app's record with those of its space and its organization. It is made anew for
every lookup and never stored.
-/

namespace MetaCache

open MetaCache.Json

/-- What is known about an app, a space or an organization. -/
structure Record where
  name : String
  /-- Empty for spaces and organizations. -/
  spaceGuid : String
  /-- Empty for apps and organizations. -/
  organizationGuid : String
  environment : Object
  expiresAt : Timestamp

namespace Record

/-- Nothing is known. -/
def empty : Record := ⟨"", "", "", .empty, .epoch⟩

instance : Inhabited Record := ⟨empty⟩

def named (name : String) : Record := { empty with name }

/-- The record with one more environment variable. -/
def withEnvironment (r : Record) (key : String) (value : Value) : Record :=
  { r with environment := r.environment.insert key value }

/-- The variable by which an app asks not to be processed. -/
def optOutMarker : String := "F2S_DISABLE_LOGGING"

/-- The marker counts only when it is the string `true`. -/
def isOptedOut (r : Record) : Bool :=
  match r.environment.get? optOutMarker with
  | some (.string s) => s = "true"
  | _ => false

/-- A record is fresh strictly before it expires. -/
def isFreshAt (r : Record) (now : Timestamp) : Bool := r.expiresAt.isAfter now

/-! ## Documents -/

/-- The fields of a record in documents. -/
def fields : Fields :=
  .cons "name" .mayBeAbsent (.optional .string) <|
  .cons "space_guid" .mayBeAbsent (.optional .string) <|
  .cons "organization_guid" .mayBeAbsent (.optional .string) <|
  .cons "environment_json" .mayBeAbsent (.optional .object) .nil

def schema : Schema := .record "EntityRecord" false fields

/-- Left out and `null` both mean the default. -/
def ofData : schema.Carrier → Record
  | (name, space, organization, environment, ()) =>
    { name := name.join.getD ""
      spaceGuid := space.join.getD ""
      organizationGuid := organization.join.getD ""
      environment := environment.join.getD .empty
      expiresAt := .epoch }

def toData (r : Record) : schema.Carrier :=
  (some (some r.name), some (some r.spaceGuid), some (some r.organizationGuid),
    some (some r.environment), ())

/-- Only the expiry is lost in a document. -/
theorem ofData_toData (r : Record) : ofData r.toData = { r with expiresAt := .epoch } := rfl

/-- The document of a record. -/
def encode (r : Record) : String := Json.encode schema r.toData

/-- The record that a document holds. -/
def decode (bytes : List UInt8) : Except Fault Record := (Json.decode schema bytes).map ofData

end Record

/-- An application with the names around it. -/
structure App where
  guid : String
  name : String
  spaceGuid : String
  spaceName : String
  orgGuid : String
  orgName : String
  ignored : Bool
  deriving DecidableEq, Repr, Inhabited

namespace App

/-- Joins the records of an app, its space and its organization. -/
def assemble (guid : String) (app space organization : Record) : App where
  guid := guid
  name := app.name
  spaceGuid := app.spaceGuid
  spaceName := space.name
  orgGuid := space.organizationGuid
  orgName := organization.name
  ignored := app.isOptedOut

/-- The fields of an app in documents. -/
def fields : Fields :=
  .cons "guid" .required .string <|
  .cons "name" .required .string <|
  .cons "space_guid" .required .string <|
  .cons "space_name" .required .string <|
  .cons "org_guid" .required .string <|
  .cons "org_name" .required .string <|
  .cons "ignored_app" .required .flag .nil

def schema : Schema := .record "App" false fields

def ofData : schema.Carrier → App
  | (guid, name, spaceGuid, spaceName, orgGuid, orgName, ignored, ()) =>
    { guid, name, spaceGuid, spaceName, orgGuid, orgName, ignored }

def toData (a : App) : schema.Carrier :=
  (a.guid, a.name, a.spaceGuid, a.spaceName, a.orgGuid, a.orgName, a.ignored, ())

theorem ofData_toData (a : App) : ofData a.toData = a := rfl

def encode (a : App) : String := Json.encode schema a.toData

def decode (bytes : List UInt8) : Except Fault App := (Json.decode schema bytes).map ofData

end App

end MetaCache
