import MetaCache.Schema.Basic

/-!
# Data of a schema from trees

Some formats are read into a tree of data first and matched with a schema afterwards. Nothing has
a position then. Formats differ in a few points, which are gathered in a `Dialect`.
-/

namespace MetaCache

open MetaCache.Json MetaCache.Number

/-- Data that has been read, whatever its format. Members are in the order in which they count. -/
inductive Tree
  | null
  | bool (value : Bool)
  | integer (value : Int)
  /-- A number that is no integer; none if it is infinite or undefined. -/
  | floating (shown : String) (value : Option Binary64)
  | string (value : String)
  /-- A date or a time, which counts as a map whose only member has the name `field`. -/
  | moment (field shown : String)
  | sequence (items : List Tree)
  | map (members : List (String × Tree))
  deriving Repr, Inhabited

namespace Tree

/-- What a message says about the data. -/
def found : Tree → Found
  | null => .null
  | bool value => .bool value
  | integer value => .integer value
  | floating shown _ => .floating shown
  | string value => .string value
  | moment _ _ => .map
  | sequence _ => .sequence
  | map _ => .map

mutual
/-- The same data as a JSON value. -/
def toValue : Tree → Value
  | null => .null
  | bool value => .bool value
  | integer value =>
    if fits : -0x8000000000000000 ≤ value ∧ value < 0x10000000000000000 then
      .number (.integer value fits)
    else .null
  | floating _ (some value) => .number (.float value)
  | floating _ none => .null
  | string value => .string value
  | moment field shown => .object [(field, .string shown)]
  | sequence items => .array (itemValues items)
  | map members => .object (memberValues members)

def itemValues : List Tree → List Value
  | [] => []
  | item :: rest => item.toValue :: itemValues rest

def memberValues : List (String × Tree) → List (String × Value)
  | [] => []
  | (name, tree) :: rest => (name, tree.toValue) :: memberValues rest
end

/-- The members of a map, with none of the other data that counts as one. -/
def members? : Tree → Option (List (String × Tree))
  | map members => some members
  | moment field shown => some [(field, string shown)]
  | _ => none

end Tree

/-- The points in which formats differ. -/
structure Dialect where
  /-- A list with more items than a record has fields is no record. -/
  refusesSurplus : Bool
  /-- How one of several names is given. -/
  choice : (names : List String) → Tree → Except Mismatch (Fin names.length)

namespace Dialect

/-- The place of a name among several. -/
def variant (names : List String) (name : String) : Except Mismatch (Fin names.length) :=
  match names.finIdxOf? name with
  | some index => .ok index
  | none => .error (.unknownVariant name names)

mutual
/-- The data of the schema that a tree holds. -/
def ofTree (d : Dialect) : (schema : Schema) → Tree → Except Mismatch schema.Carrier
  | .text expected, tree =>
    match tree with
    | .string value => .ok value
    | other => .error (.wrongType other.found expected)
  | .flag, tree =>
    match tree with
    | .bool value => .ok value
    | other => .error (.wrongType other.found Schema.flag.expected)
  | .natural word, tree =>
    match tree with
    | .integer value =>
      if 0 ≤ value ∧ value < 0x10000000000000000 then .ok (UInt64.ofNat value.toNat)
      else .error (.wrongValue (.integer value) word)
    | other => .error (.wrongType other.found word)
  | .choice names, tree => d.choice names tree
  | .object, tree =>
    match tree.members? with
    | some members => .ok (.ofMembers (Tree.memberValues members))
    | none => .error (.wrongType tree.found Schema.object.expected)
  | .optional content, tree =>
    match tree with
    | .null => .ok none
    | other => (ofTree d content other).map some
  | .list item, tree =>
    match tree with
    | .sequence items => items.mapM (ofTree d item)
    | other => .error (.wrongType other.found (Schema.list .flag).expected)
  | .record name strict fields, tree =>
    match tree with
    | .sequence items => do
      let (contents, surplus) ←
        inOrder d fields (Schema.expectedLength name fields.count) 0 items
      if d.refusesSurplus && !surplus.isEmpty then
        .error (.wrongLength items.length "fewer elements in array")
      else .ok contents
    | other =>
      match other.members? with
      | some members => do
        let draft ← members.foldlM
          (fun draft (key, content) =>
            match byName d fields key content draft with
            | some result => result
            | none =>
              if strict then .error (.unknownField key fields.names) else .ok draft)
          fields.blank
        fields.complete draft
      | none => .error (.wrongType other.found (Schema.record name strict fields).expected)

/-- Puts the content under the name `key` into the draft, if it is a field. -/
def byName (d : Dialect) :
    (fields : Fields) → String → Tree → fields.Draft → Option (Except Mismatch fields.Draft)
  | .nil, _, _, _ => none
  | .cons name _ schema rest, key, content, (given, more) =>
    if key = name then some do
      if given.isSome then .error (.repeatedField name)
      else return (some (← ofTree d schema content), more)
    else (byName d rest key content more).map fun result => do return (given, ← result)

/-- The contents of the fields from items in order, and the items that are left; `index` items
are behind. -/
def inOrder (d : Dialect) :
    (fields : Fields) → String → Nat → List Tree → Except Mismatch (fields.Carrier × List Tree)
  | .nil, _, _, items => .ok ((), items)
  | .cons _ .required schema rest, expected, index, items =>
    match items with
    | [] => .error (.wrongLength index expected)
    | item :: others => do
      let content ← ofTree d schema item
      let (contents, surplus) ← inOrder d rest expected (index + 1) others
      return ((content, contents), surplus)
  | .cons _ .mayBeAbsent schema rest, expected, index, items =>
    match items with
    | [] => do
      let (contents, surplus) ← inOrder d rest expected (index + 1) []
      return ((none, contents), surplus)
    | item :: others => do
      let content ← ofTree d schema item
      let (contents, surplus) ← inOrder d rest expected (index + 1) others
      return ((some content, contents), surplus)
end

end Dialect

end MetaCache
