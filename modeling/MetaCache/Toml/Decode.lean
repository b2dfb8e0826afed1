import MetaCache.Toml.Document

/-!
# Data of a schema from TOML documents

Surplus items of an array are passed over. One of several names is a string, or the only member of
a table, with an empty table or array as its content. A text that is not TOML has no mismatch to
tell.
-/

namespace MetaCache.Toml

/-- What can be wrong with a text. -/
inductive Fault
  | malformed
  | mismatch (what : Mismatch)
  deriving DecidableEq, Repr

/-- One of several names. -/
def choiceOfTree (names : List String) : Tree → Except Mismatch (Fin names.length)
  | .string name => Dialect.variant names name
  | .map [(name, content)] => do
    let index ← Dialect.variant names name
    match content with
    | .map [] | .sequence [] => .ok index
    | .map _ => .error (.refused "expected empty table")
    | .sequence _ => .error (.refused "expected empty array")
    | _ => .error (.refused "expected table")
  | .map [] => .error (.refused "wanted exactly 1 element, found 0 elements")
  | .map _ => .error (.refused "wanted exactly 1 element, more than 1 element")
  | _ => .error (.refused "wanted string or table")

/-- The rules of TOML. -/
def dialect : Dialect := ⟨false, choiceOfTree⟩

/-- The data of the schema that a text holds. -/
def decode (schema : Schema) (text : String) : Except Fault schema.Carrier :=
  match read? text with
  | none => .error .malformed
  | some tree => (dialect.ofTree schema tree).mapError .mismatch

end MetaCache.Toml
