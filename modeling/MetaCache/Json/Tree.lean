import MetaCache.Json.Decode
import MetaCache.Schema.Tree

/-!
# Data of a schema from JSON values

A value that has been read already is matched member by member in the order of names. What can be
wrong is the same as in text, except that nothing has a position and that there is no text to go on
after a record or a choice: surplus items and members are mismatches of their own.
-/

namespace MetaCache.Json

/-- A number as data. -/
def Number.toTree : Number → Tree
  | .integer value _ => .integer value
  | .float value => .floating (String.ofList (floatStyle.write value)) (some value)

mutual
/-- A value as data. -/
def Value.toTree : Value → Tree
  | .null => .null
  | .bool value => .bool value
  | .number value => value.toTree
  | .string value => .string value
  | .array items => .sequence (itemTrees items)
  | .object members => .map (memberTrees members)

def itemTrees : List Value → List Tree
  | [] => []
  | item :: rest => item.toTree :: itemTrees rest

def memberTrees : List (String × Value) → List (String × Tree)
  | [] => []
  | (name, value) :: rest => (name, value.toTree) :: memberTrees rest
end

/-- A name is a string, or the only member of an object, with `null` as its content. -/
def choiceOfTree (names : List String) : Tree → Except Mismatch (Fin names.length)
  | .string name => Dialect.variant names name
  | .map [(name, content)] => do
    let index ← Dialect.variant names name
    match content with
    | .null => .ok index
    | other => .error (.wrongType other.found "unit")
  | .map _ => .error (.wrongValue .map "map with a single key")
  | other => .error (.wrongType other.found "string or map")

/-- The rules of JSON values. -/
def dialect : Dialect := ⟨true, choiceOfTree⟩

/-- The data of the schema that a value holds. -/
def Value.decode (schema : Schema) (value : Value) : Except Mismatch schema.Carrier :=
  dialect.ofTree schema value.canonical.toTree

end MetaCache.Json
