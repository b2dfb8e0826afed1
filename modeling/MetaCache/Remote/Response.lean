import MetaCache.Error
import MetaCache.Record

/-!
# Answers of the API

The API is asked for paths. Its answer is a status and a body; of a successful one the body is a
document, either of one entity or of a page of a list. A page names the *cursor* of the next page
unless it is the last one.
-/

namespace MetaCache.Remote

open MetaCache.Json

structure Response where
  status : Nat
  body : List UInt8
  deriving DecidableEq, Repr

/-- Only two hundred and what is counted to it is a success. -/
def Response.isSuccess (r : Response) : Bool := 200 ≤ r.status && r.status < 300

/-- Bytes that count as blank in a body. -/
def isBlank (b : UInt8) : Bool := b = 0x20 || b = 0x09 || b = 0x0a || b = 0x0c || b = 0x0d

/-! ## One entity -/

/-- The document around one entity. -/
def envelope : Schema :=
  .record "SingleEntity" false (.cons "entity" .mayBeAbsent (.optional Record.schema) .nil)

/-- The entity in an envelope, if there is one. -/
def unwrap : envelope.Carrier → Option Record
  | (entity, ()) => entity.join.map Record.ofData

/-- Reads the document of one entity. -/
def readEntity (body : List UInt8) : Except Fault (Option Record) :=
  (Json.decode envelope body).map unwrap

/-! ## Pages -/

/-- A page of a list: guids as the API spells them, each with its record. -/
structure Page where
  next : Option String
  listing : List (String × Record)

/-- What is told about an entity besides its record. -/
def metadata : Schema := .record "ResourceMetadata" false (.cons "guid" .required .string .nil)

/-- An entity in a list. -/
def resource : Schema :=
  .record "Resource" false
    (.cons "metadata" .required metadata <|
      .cons "entity" .mayBeAbsent (.optional Record.schema) .nil)

/-- The document of a page. -/
def pageSchema : Schema :=
  .record "ResourcePage" false
    (.cons "next_url" .mayBeAbsent (.optional .string) <|
      .cons "resources" .mayBeAbsent (.list resource) .nil)

/-- A listed entity without a record counts as empty. -/
def listed : resource.Carrier → String × Record
  | ((guid, ()), entity, ()) => (guid, (entity.join.map Record.ofData).getD .empty)

/-- An empty cursor is none. -/
def pageOfData : pageSchema.Carrier → Page
  | (next, resources, ()) =>
    { next := next.join.filter (· ≠ "")
      listing := (resources.getD []).map listed }

/-- Reads the document of a page. -/
def readPage (body : List UInt8) : Except Fault Page :=
  (Json.decode pageSchema body).map pageOfData

/-! ## Building documents -/

/-- The path of one entity. -/
def entityPath (kind : Kind) (guid : String) : String := "/v2/" ++ kind.segment ++ "/" ++ guid

/-- How many entities a page has at most. -/
def pageSize : Nat := 100

/-- The path of the first page of a list. -/
def listPath (kind : Kind) : String :=
  "/v2/" ++ kind.segment ++ "?results-per-page=" ++ toString pageSize

/-- An envelope around an entity. -/
def entityBody (guid : String) (entity : Value) : Value :=
  .object [("entity", entity),
    ("metadata", .object [("guid", .string guid), ("url", .string ("/v2/unknown/" ++ guid))])]

/-- A count as a value; counts are far below the limit of numbers. -/
def countValue (n : Nat) : Value :=
  (Number.ofNat? n).elim .null .number

/-- A page of entities. -/
def pageBody (next : Option String) (resources : List (String × Value)) : Value :=
  .object [("next_url", next.elim .null .string),
    ("resources", .array (resources.map fun (guid, entity) =>
      .object [("entity", entity), ("metadata", .object [("guid", .string guid)])])),
    ("total_results", countValue resources.length)]

def appEntity (name spaceGuid : String) : Value :=
  .object [("environment_json", .object []), ("name", .string name),
    ("space_guid", .string spaceGuid)]

def spaceEntity (name organizationGuid : String) : Value :=
  .object [("name", .string name), ("organization_guid", .string organizationGuid)]

def organizationEntity (name : String) : Value := .object [("name", .string name)]

/-- The text of a built document. -/
def document (v : Value) : String := String.ofList v.canonical.write

end MetaCache.Remote
