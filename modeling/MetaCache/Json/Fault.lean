import MetaCache.Mismatch

/-!
# What is wrong with a JSON text

A fault is a cause and, once it is known, the position at which it counts: lines from 1, and the
bytes of that line up to the fault. Malformed text is noticed at a position; a mismatch gets the
position that the reader has reached when it leaves the value concerned.
-/

namespace MetaCache.Json

/-- A place in a text: the line and the number of bytes of it that are behind. -/
structure Position where
  line : Nat
  column : Nat
  deriving DecidableEq, Repr, Inhabited

namespace Position

def start : Position := ⟨1, 0⟩

/-- The position behind one more byte. -/
def after (p : Position) (b : UInt8) : Position :=
  if b = 0x0a then ⟨p.line + 1, 0⟩ else ⟨p.line, p.column + 1⟩

def afterAll (p : Position) (bytes : List UInt8) : Position := bytes.foldl after p

end Position

/-- Ways of not being JSON text. -/
inductive Malformed
  | endOfList
  | endOfObject
  | endOfString
  | endOfValue
  | expectedColon
  | expectedCommaOrBracket
  | expectedCommaOrBrace
  | expectedWord
  | expectedValue
  | invalidEscape
  | invalidNumber
  | numberOutOfRange
  | invalidCodePoint
  | controlCharacter
  | keyNotString
  | loneSurrogate
  | trailingComma
  | trailingCharacters
  | endOfHexEscape
  | nestedTooDeep
  deriving DecidableEq, Repr

def Malformed.message : Malformed → String
  | .endOfList => "EOF while parsing a list"
  | .endOfObject => "EOF while parsing an object"
  | .endOfString => "EOF while parsing a string"
  | .endOfValue => "EOF while parsing a value"
  | .expectedColon => "expected `:`"
  | .expectedCommaOrBracket => "expected `,` or `]`"
  | .expectedCommaOrBrace => "expected `,` or `\x7d`"
  | .expectedWord => "expected ident"
  | .expectedValue => "expected value"
  | .invalidEscape => "invalid escape"
  | .invalidNumber => "invalid number"
  | .numberOutOfRange => "number out of range"
  | .invalidCodePoint => "invalid unicode code point"
  | .controlCharacter =>
    "control character (\\u0000-\\u001F) found while parsing a string"
  | .keyNotString => "key must be a string"
  | .loneSurrogate => "lone leading surrogate in hex escape"
  | .trailingComma => "trailing comma"
  | .trailingCharacters => "trailing characters"
  | .endOfHexEscape => "unexpected end of hex escape"
  | .nestedTooDeep => "recursion limit exceeded"

inductive Cause
  | malformed (what : Malformed)
  | mismatch (what : Mismatch)
  deriving DecidableEq, Repr

def Cause.message : Cause → String
  | .malformed what => what.message
  | .mismatch what => what.message

structure Fault where
  cause : Cause
  position : Option Position
  deriving DecidableEq, Repr

namespace Fault

/-- A mismatch whose position is not known yet. -/
def ofMismatch (what : Mismatch) : Fault := ⟨.mismatch what, none⟩

/-- Gives the fault a position unless it has one. -/
def locate (f : Fault) (p : Position) : Fault :=
  match f.position with
  | some _ => f
  | none => { f with position := some p }

def message (f : Fault) : String :=
  match f.position with
  | none => f.cause.message
  | some p =>
    f.cause.message ++ " at line " ++ toString p.line ++ " column " ++ toString p.column

end Fault

end MetaCache.Json
