import MetaCache.Json.Lexeme

/-!
# Arrays and objects of JSON text

The brackets, commas and colons around items and members. What the items and members are is up to
a *step*, which continues an accumulated state.

A walk ends in front of the closing bracket; `Reader.enclosed` then reads that one. Every round of
a walk consumes a byte, so the number of bytes ahead bounds the rounds.
-/

namespace MetaCache.Json.Reader

variable {σ : Type}

/-- Whether another item follows; `first` before the first one. -/
def hasItem (first : Bool) : Reader Bool := do
  match ← nextSign with
  | none => failNext .endOfList
  | some b =>
    if b = 0x5d then pure false
    else if first then pure true
    else if b = 0x2c then do
      advance
      match ← nextSign with
      | none => failNext .endOfValue
      | some b => if b = 0x5d then failNext .trailingComma else pure true
    else failNext .expectedCommaOrBracket

/-- Whether another member follows; `first` before the first one. -/
def hasMember (first : Bool) : Reader Bool := do
  match ← nextSign with
  | none => failNext .endOfObject
  | some b =>
    if b = 0x7d then pure false
    else if first then
      if b = 0x22 then pure true else failNext .keyNotString
    else if b = 0x2c then do
      advance
      match ← nextSign with
      | none => failNext .endOfValue
      | some b =>
        if b = 0x22 then pure true
        else if b = 0x7d then failNext .trailingComma
        else failNext .keyNotString
    else failNext .expectedCommaOrBrace

/-- The colon behind a member's name. -/
def colon : Reader Unit := do
  match ← nextSign with
  | none => failNext .endOfObject
  | some b => if b = 0x3a then advance else failNext .expectedColon

/-- At most `rounds` items. -/
def itemsWithin (step : σ → Reader σ) : Nat → Bool → σ → Reader σ
  | 0, _, s => pure s
  | rounds + 1, first, s => do
    if ← hasItem first then
      let s ← step s
      itemsWithin step rounds false s
    else pure s

/-- All items up to the closing bracket. -/
def items (step : σ → Reader σ) (s : σ) : Reader σ := fun i =>
  itemsWithin step (i.ahead.length + 1) true s i

/-- At most `rounds` members. The step gets the name; it reads the colon and the value. -/
def membersWithin (step : σ → String → Reader σ) : Nat → Bool → σ → Reader σ
  | 0, _, s => pure s
  | rounds + 1, first, s => do
    if ← hasMember first then
      advance
      let name ← string
      let s ← step s name
      membersWithin step rounds false s
    else pure s

/-- All members up to the closing brace. -/
def members (step : σ → String → Reader σ) (s : σ) : Reader σ := fun i =>
  membersWithin step (i.ahead.length + 1) true s i

/-- The bracket that closes a list. Another item there is one too many. -/
def closeList : Reader Unit := do
  match ← nextSign with
  | none => failNext .endOfList
  | some b =>
    if b = 0x5d then advance
    else if b = 0x2c then do
      advance
      match ← nextSign with
      | some b => if b = 0x5d then failNext .trailingComma else failNext .trailingCharacters
      | none => failNext .trailingCharacters
    else failNext .trailingCharacters

/-- The brace that closes an object. -/
def closeObject : Reader Unit := do
  match ← nextSign with
  | none => failNext .endOfObject
  | some b =>
    if b = 0x7d then advance
    else if b = 0x2c then failNext .trailingComma
    else failNext .trailingCharacters

/-- Opens a container, which is only possible while a level is left. -/
def opening (levels : Nat) (inside : Nat → Reader σ) : Reader σ :=
  match levels with
  | 0 => failNext .nestedTooDeep
  | levels + 1 => do
    advance
    inside levels

/-- A list whose bracket is ahead, one level further in. -/
def list (levels : Nat) (step : Nat → σ → Reader σ) (s : σ) : Reader σ :=
  located (opening levels fun levels => enclosed (items (step levels) s) closeList)

/-- An object whose brace is ahead, one level further in. -/
def object (levels : Nat) (step : Nat → σ → String → Reader σ) (s : σ) : Reader σ :=
  located (opening levels fun levels => enclosed (members (step levels) s) closeObject)

end MetaCache.Json.Reader
