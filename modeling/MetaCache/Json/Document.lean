import MetaCache.Json.Container

/-!
# Reading values and whole documents

Containers may be nested 127 deep. A document is one value with nothing but blanks around it.
-/

namespace MetaCache.Json

/-- How many containers may stand inside one another. -/
def nestingLimit : Nat := 127

namespace Reader

/-- A value; `levels` more containers may open. Items and members are gathered last one first. -/
def value : Nat → Reader Value
  | 0 => scalar (failNext .nestedTooDeep) (failNext .nestedTooDeep)
  | levels + 1 =>
    scalar
      (do
        let items ← list (levels + 1) (fun _ items => do
          return (← value levels) :: items) []
        return .array items.reverse)
      (do
        let members ← object (levels + 1) (fun _ members name => do
          colon
          return (name, ← value levels) :: members) []
        return .object members.reverse)
where
  /-- A value that is no container; `array` and `object` take over in front of a bracket. -/
  scalar (array object : Reader Value) : Reader Value := do
    match ← nextSign with
    | none => failNext .endOfValue
    | some b =>
      if b = 0x6e then do advance; word ull; pure .null
      else if b = 0x74 then do advance; word rue; pure (.bool true)
      else if b = 0x66 then do advance; word alse; pure (.bool false)
      else if b = 0x2d then do advance; return .number (← number true)
      else if isDigit b then do return .number (← number false)
      else if b = 0x22 then do advance; return .string (← string)
      else if b = 0x5b then array
      else if b = 0x7b then object
      else failNext .expectedValue

/-- Nothing but blanks is left. -/
def finish : Reader Unit := do
  match ← nextSign with
  | none => pure ()
  | some _ => failNext .trailingCharacters

end Reader

/-- Reads a whole document with `r`. -/
def readDocument {α : Type} (r : Reader α) (bytes : List UInt8) : Except Fault α :=
  let whole : Reader α := do
    let a ← r
    Reader.finish
    return a
  match whole (.ofBytes bytes) with
  | .done a _ => .ok a
  | .failed fault _ => .error fault

/-- The bytes of a text. -/
def bytesOf (text : String) : List UInt8 := text.toUTF8.data.toList

/-- The value that a text holds. -/
def Value.read (text : String) : Except Fault Value :=
  readDocument (Reader.value nestingLimit) (bytesOf text)

end MetaCache.Json
