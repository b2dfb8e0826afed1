import MetaCache.Schema.Basic

/-!
# Kinds of entities

Applications live in spaces, spaces in organizations. A kind has a segment, which names its
collection in request paths and keys, and a name of its own in documents.
-/

namespace MetaCache

inductive Kind
  | app
  | space
  | organization
  deriving DecidableEq, Repr, Inhabited

namespace Kind

/-- All kinds, in their order. -/
def all : List Kind := [app, space, organization]

/-- The name of the collection. -/
def segment : Kind → String
  | app => "apps"
  | space => "spaces"
  | organization => "organizations"

/-- The name in documents. -/
def name : Kind → String
  | app => "app"
  | space => "space"
  | organization => "organization"

/-- The place in the order of kinds. -/
def rank : Kind → Nat
  | app => 0
  | space => 1
  | organization => 2

/-- The kind whose collection has this name. -/
def ofSegment? (segment : String) : Option Kind := all.find? fun kind => kind.segment = segment

/-- Kinds in documents. -/
def schema : Schema := .choice [app.name, space.name, organization.name]

def ofData : schema.Carrier → Kind
  | ⟨0, _⟩ => app
  | ⟨1, _⟩ => space
  | _ => organization

def toData : Kind → schema.Carrier
  | app => ⟨0, by decide⟩
  | space => ⟨1, by decide⟩
  | organization => ⟨2, by decide⟩

theorem ofData_toData (kind : Kind) : ofData kind.toData = kind := by
  cases kind <;> rfl

end Kind

end MetaCache
