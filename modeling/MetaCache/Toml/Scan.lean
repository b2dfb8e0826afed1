/-!
# Scanning TOML text

A scan takes characters from the front of a text or fails. It never says why: a text that is not
TOML is refused as a whole.

Lines end with a line feed, which a carriage return may precede. No other control character but the
tab may stand anywhere.
-/

namespace MetaCache.Toml

/-- A step through a text that may fail. -/
abbrev Scan := StateT (List Char) Option

namespace Scan

/-- The next character, which stays. -/
def peek : Scan (Option Char) := fun cs => some (cs.head?, cs)

/-- Takes the character `c`. -/
def char (c : Char) : Scan Unit := fun cs =>
  match cs with
  | d :: rest => if d = c then some ((), rest) else none
  | [] => none

/-- Takes a character that satisfies `p`. -/
def satisfying (p : Char → Bool) : Scan Char := fun cs =>
  match cs with
  | d :: rest => if p d then some (d, rest) else none
  | [] => none

/-- Takes the characters of a word. -/
def word (letters : List Char) : Scan Unit := fun cs =>
  if letters.isPrefixOf cs then some ((), cs.drop letters.length) else none

/-- Takes characters as long as they satisfy `p`. -/
def takeWhile (p : Char → Bool) : Scan (List Char) := fun cs =>
  some (cs.takeWhile p, cs.dropWhile p)

/-- What `x` takes, or else what `y` takes. -/
def orElse {α : Type} (x y : Scan α) : Scan α := fun cs => (x cs).or (y cs)

/-- What `x` takes, or nothing. -/
def optional {α : Type} (x : Scan α) : Scan (Option α) := fun cs =>
  match x cs with
  | some (a, rest) => some (some a, rest)
  | none => some (none, cs)

end Scan

/-! ## Blanks, lines and comments -/

def isBlank (c : Char) : Bool := c = ' ' || c = '\t'

/-- Characters that may stand where no other rule forbids it. -/
def isText (c : Char) : Bool := c = '\t' || 0x20 ≤ c.toNat && c.toNat ≠ 0x7f

namespace Scan

def blanks : Scan Unit := do let _ ← takeWhile isBlank

def newline : Scan Unit := orElse (char '\n') (word ['\r', '\n'])

/-- The end of a line or of the text. -/
def lineEnd : Scan Unit := do
  match ← peek with
  | none => pure ()
  | some _ => newline

/-- A comment up to the end of its line. -/
def comment : Scan Unit := do
  char '#'
  let _ ← takeWhile isText

/-- What may follow an expression on its line. -/
def restOfLine : Scan Unit := do
  blanks
  let _ ← optional comment
  lineEnd

end Scan

/-- Takes blanks, lines and comments at most `rounds` times. -/
def breaksWithin : Nat → Scan Unit
  | 0 => pure ()
  | rounds + 1 => do
    Scan.blanks
    match ← Scan.peek with
    | some '#' => do
      Scan.comment
      Scan.newline
      breaksWithin rounds
    | some '\n' | some '\r' => do
      Scan.newline
      breaksWithin rounds
    | _ => pure ()

/-- All blanks, lines and comments that are ahead. Each round takes a line. -/
def Scan.breaks : Scan Unit := fun cs => breaksWithin (cs.length + 1) cs

end MetaCache.Toml
