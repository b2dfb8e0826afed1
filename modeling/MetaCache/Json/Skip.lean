import MetaCache.Json.Container

/-!
# Skipping a value

A value that nobody asked for must be well formed but is not kept. Skipping keeps only the stack of
open brackets, so nesting has no limit.
-/

namespace MetaCache.Json

/-- An open bracket. -/
inductive Frame
  | list
  | object
  deriving DecidableEq, Repr

namespace Frame

def closing : Frame → UInt8
  | .list => 0x5d
  | .object => 0x7d

/-- What is wrong when the text ends inside. -/
def unfinished : Frame → Malformed
  | .list => .endOfList
  | .object => .endOfObject

/-- What is wrong when neither a comma nor the closing bracket follows. -/
def unseparated : Frame → Malformed
  | .list => .expectedCommaOrBracket
  | .object => .expectedCommaOrBrace

end Frame

namespace Reader

/-- Skips up to the next value inside the frame: nothing in a list, name and colon in an object. -/
def skipName : Frame → Reader Unit
  | .list => pure ()
  | .object => do
    match ← nextSign with
    | none => failNext .endOfObject
    | some b => if b = 0x22 then advance else failNext .keyNotString
    skipString
    colon

/-- Skips closing brackets up to the next value and returns the frames around it, innermost first.
`behind` tells whether a value has just been skipped, so that a comma may follow. -/
def skipClosings : Bool → List Frame → Reader (List Frame)
  | _, [] => pure []
  | behind, frame :: outer => do
    match ← nextSign with
    | none => failNext frame.unfinished
    | some b =>
      if b = frame.closing then do
        advance
        skipClosings true outer
      else if behind then
        if b = 0x2c then do
          advance
          skipName frame
          pure (frame :: outer)
        else failNext frame.unseparated
      else do
        skipName frame
        pure (frame :: outer)

/-- Skips a scalar or an opening bracket. -/
def skipStart : Reader (Option Frame) := do
  match ← nextSign with
  | none => failNext .endOfValue
  | some b =>
    if b = 0x6e then do advance; word ull; pure none
    else if b = 0x74 then do advance; word rue; pure none
    else if b = 0x66 then do advance; word alse; pure none
    else if b = 0x2d then do advance; skipNumber; pure none
    else if isDigit b then do skipNumber; pure none
    else if b = 0x22 then do advance; skipString; pure none
    else if b = 0x5b then do advance; pure (some .list)
    else if b = 0x7b then do advance; pure (some .object)
    else failNext .expectedValue

/-- Skips values until none of the frames is open, at most `rounds` starts of values. -/
def skipWithin : Nat → List Frame → Reader Unit
  | 0, _ => pure ()
  | rounds + 1, frames => do
    let frames ← (do
      match ← skipStart with
      | none => skipClosings true frames
      | some frame => skipClosings false (frame :: frames))
    if frames.isEmpty then pure () else skipWithin rounds frames

/-- Skips one value. -/
def skipValue : Reader Unit := fun i => skipWithin (i.ahead.length + 1) [] i

end Reader

end MetaCache.Json
