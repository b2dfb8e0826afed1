import MetaCache.Json.Document
import MetaCache.Json.Skip
import MetaCache.Json.Writer
import MetaCache.Schema.Basic

/-!
# Data of a schema as JSON text

Reading follows the schema byte by byte, so that the first thing wrong in the text is what gets
reported, be it malformed text or a mismatch.

A record is written as an object with its fields in order and is read from an object with the
fields in any order, or from an array with the contents in order. Members that are no fields are
skipped, unless the record is strict.
-/

namespace MetaCache.Json

open MetaCache.Number

/-- What a message says about a number. -/
def Number.found : Number → Found
  | .integer value _ => .integer value
  | .float value => .floating (String.ofList (floatStyle.write value))

namespace Reader

/-- Reports that the next value is not what was expected. A scalar is read first, so that it can
be told and what is malformed about it comes before; a container is left where it is. -/
def unexpected {α : Type} (expected : String) : Reader α := located do
  let wrong (found : Found) : Reader α := mismatch (.wrongType found expected)
  match ← peek with
  | none => failNext .expectedValue
  | some b =>
    if b = 0x6e then do advance; word ull; wrong .null
    else if b = 0x74 then do advance; word rue; wrong (.bool true)
    else if b = 0x66 then do advance; word alse; wrong (.bool false)
    else if b = 0x2d then do advance; wrong (← number true).found
    else if isDigit b then do wrong (← number false).found
    else if b = 0x22 then do advance; wrong (.string (← string))
    else if b = 0x5b then wrong .sequence
    else if b = 0x7b then wrong .map
    else failNext .expectedValue

/-- Looks at the next sign, which must be there. -/
def startOfValue : Reader UInt8 := do
  match ← nextSign with
  | none => failNext .endOfValue
  | some b => pure b

def text (expected : String) : Reader String := do
  if (← startOfValue) = 0x22 then
    advance
    string
  else unexpected expected

def flag : Reader Bool := do
  let b ← startOfValue
  if b = 0x74 then do advance; word rue; pure true
  else if b = 0x66 then do advance; word alse; pure false
  else unexpected Schema.flag.expected

/-- The number as a natural, if it is one. -/
def natural.accept (word : String) : Number → Reader UInt64
  | .integer value _ =>
    if value < 0 then mismatch (.wrongValue (.integer value) word)
    else pure (UInt64.ofNat value.toNat)
  | .float value => mismatch (.wrongType (Number.float value).found word)

def natural (word : String) : Reader UInt64 := do
  let b ← startOfValue
  if b = 0x2d then do
    advance
    located (do natural.accept word (← number true))
  else if isDigit b then located (do natural.accept word (← number false))
  else unexpected word

/-- A name out of several. -/
def variant (names : List String) : Reader (Fin names.length) := located do
  let name ← text (Schema.choice names).expected
  match names.finIdxOf? name with
  | some index => pure index
  | none => mismatch (.unknownVariant name names)

/-- A name out of several as the name of the only member of an object, whose brace is behind. -/
def variantKey (names : List String) : Reader (Fin names.length) := do
  match ← nextSign with
  | none => failNext .endOfObject
  | some 0x22 => variant names
  | some 0x7d => failNext .expectedValue
  | some _ => failNext .keyNotString

/-- One of some names: a string, or an object whose only member has that name and is `null`. -/
def choice (names : List String) (levels : Nat) : Reader (Fin names.length) := do
  let b ← startOfValue
  if b = 0x22 then variant names
  else if b = 0x7b then
    let index ← opening levels fun _ => do
      let index ← variantKey names
      colon
      if (← startOfValue) = 0x6e then
        advance
        word ull
        pure index
      else unexpected "unit"
    match ← nextSign with
    | none => failHere .endOfObject
    | some b =>
      if b = 0x7d then
        advance
        pure index
      else failHere .expectedValue
  else failNext .expectedValue

/-- Any members, gathered last one first. -/
def anyMembers (levels : Nat) : Reader Object := do
  if (← startOfValue) = 0x7b then
    let members ← object levels (fun levels members name => do
      colon
      return (name, ← value levels) :: members) []
    return .ofMembers members.reverse
  else unexpected Schema.object.expected

/-- The rest of a word, or else the content. -/
def optional {α : Type} (content : Reader α) : Reader (Option α) := do
  if (← nextSign) = some 0x6e then
    advance
    word ull
    pure none
  else return some (← content)

/-- A list, gathered last item first. -/
def listOf {α : Type} (item : Nat → Reader α) (levels : Nat) : Reader (List α) := do
  if (← startOfValue) = 0x5b then
    let items ← list levels (fun levels items => do
      return (← item levels) :: items) []
    return items.reverse
  else unexpected (Schema.list .flag).expected

mutual
/-- Data of the schema; `levels` more containers may open. -/
def ofSchema : (schema : Schema) → Nat → Reader schema.Carrier
  | .text expected, _ => text expected
  | .flag, _ => flag
  | .natural word, _ => natural word
  | .choice names, levels => choice names levels
  | .object, levels => anyMembers levels
  | .optional content, levels => optional (ofSchema content levels)
  | .list item, levels => listOf (fun levels => ofSchema item levels) levels
  | .record name strict fields, levels => do
    let b ← startOfValue
    if b = 0x5b then
      located (opening levels fun levels =>
        enclosed (inOrder fields (Schema.expectedLength name fields.count) levels 0) closeList)
    else if b = 0x7b then
      located (opening levels fun levels =>
        enclosed
          (do
            let draft ← members (fun draft key =>
              match byName fields levels key draft with
              | some read => read
              | none =>
                if strict then mismatch (.unknownField key fields.names)
                else do
                  colon
                  skipValue
                  pure draft) fields.blank
            match fields.complete draft with
            | .ok contents => pure contents
            | .error what => mismatch what)
          closeObject)
    else unexpected (Schema.record name strict fields).expected

/-- Reads the colon and the content behind the name `key` into the draft, if it is a field. -/
def byName : (fields : Fields) → Nat → String → fields.Draft → Option (Reader fields.Draft)
  | .nil, _, _, _ => none
  | .cons name _ schema rest, levels, key, (given, more) =>
    if key = name then some do
      if given.isSome then mismatch (.repeatedField name)
      else do
        colon
        return (some (← ofSchema schema levels), more)
    else (byName rest levels key more).map fun read => do return (given, ← read)

/-- Reads the contents of the fields one after the other; `index` of them are behind. -/
def inOrder : (fields : Fields) → String → Nat → Nat → Reader fields.Carrier
  | .nil, _, _, _ => pure ()
  | .cons _ .required schema rest, expected, levels, index => do
    if ← hasItem (index = 0) then
      let content ← ofSchema schema levels
      return (content, ← inOrder rest expected levels (index + 1))
    else mismatch (.wrongLength index expected)
  | .cons _ .mayBeAbsent schema rest, expected, levels, index => do
    if ← hasItem (index = 0) then
      let content ← ofSchema schema levels
      return (some content, ← inOrder rest expected levels (index + 1))
    else return (none, ← inOrder rest expected levels (index + 1))
end

end Reader

/-- The data of the schema that a document holds. -/
def decode (schema : Schema) (bytes : List UInt8) : Except Fault schema.Carrier :=
  readDocument (Reader.ofSchema schema nestingLimit) bytes

/-! ## Writing -/

/-- Texts with commas between them. -/
def commaSeparated (texts : List (List Char)) : List Char := [','].intercalate texts

mutual
/-- The text of data of the schema. -/
def encodeData : (schema : Schema) → schema.Carrier → List Char
  | .text _, s => writeString s
  | .flag, b => writeBool b
  | .natural _, n => writeInt n.toNat
  | .choice names, index => writeString names[index]
  | .object, o => o.write
  | .optional _, none => "null".toList
  | .optional content, some a => encodeData content a
  | .list item, as => '[' :: commaSeparated (as.map (encodeData item)) ++ [']']
  | .record _ _ fields, contents => '{' :: commaSeparated (encodeFields fields contents) ++ ['}']

/-- The texts of the fields that are given. -/
def encodeFields : (fields : Fields) → fields.Carrier → List (List Char)
  | .nil, _ => []
  | .cons name .required schema rest, (content, more) =>
    (writeString name ++ ':' :: encodeData schema content) :: encodeFields rest more
  | .cons name .mayBeAbsent schema rest, (some content, more) =>
    (writeString name ++ ':' :: encodeData schema content) :: encodeFields rest more
  | .cons _ .mayBeAbsent _ rest, (none, more) => encodeFields rest more
end

/-- The text of data of the schema. -/
def encode (schema : Schema) (data : schema.Carrier) : String :=
  String.ofList (encodeData schema data)

end MetaCache.Json
