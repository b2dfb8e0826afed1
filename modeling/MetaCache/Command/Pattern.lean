/-!
# Patterns

What a filter may ask of a value is a regular expression. Nothing is ever matched with it here, but
a filter with a bad one is a bad filter. A pattern is good when its groups and sets are closed, each
sign of repetition follows something, and each escape is known.

A filter cannot hold a closing brace, so a count in braces never comes to an end.
-/

namespace MetaCache.Command.Pattern

/-- How far a pattern is read. -/
inductive Stage
  /-- Outside of sets; `repeatable` if a sign of repetition may follow. -/
  | plain (repeatable : Bool)
  | escape
  /-- Hexadecimal digits of a code point are left. -/
  | code (left : Nat)
  /-- Behind the parenthesis that opens a group. -/
  | groupStart
  /-- Behind a parenthesis and a question mark. -/
  | groupKind
  /-- Behind these and a `P`. -/
  | groupMark
  | groupName (begun : Bool)
  /-- Letters that change how the rest is matched, and whether a minus sign is the last of them. -/
  | flags (given : List Char) (dangling : Bool)
  /-- At the beginning of a set, within others. -/
  | setStart (outer : Nat) (negated : Bool)
  /-- Inside of a set: the last character, which a range may begin with. -/
  | set (outer : Nat) (last : Option Char)
  /-- Behind a minus sign that may make a range from a character. -/
  | range (outer : Nat) (first : Char)
  | setEscape (outer : Nat)
  deriving DecidableEq, Repr

/-- What is read of a pattern: the groups that are open, and the stage. -/
structure Scan where
  groups : Nat
  stage : Stage
  deriving DecidableEq, Repr

/-- Letters that stand for other characters or for classes of them. -/
def escapeLetters : List Char :=
  ['a', 'f', 't', 'n', 'r', 'v', 'd', 'D', 's', 'S', 'w', 'W']

/-- Letters that stand for the ends of the text. -/
def boundaryLetters : List Char := ['A', 'z']

/-- How many digits follow a letter for code points. -/
def codeLength? (c : Char) : Option Nat :=
  if c = 'x' then some 2 else if c = 'u' then some 4 else if c = 'U' then some 8 else none

/-- Signs of ASCII may be escaped, but for two that stand for the ends of words. -/
def isEscapable (c : Char) : Bool :=
  c.toNat < 0x80 && !c.isAlphanum && c ≠ '<' && c ≠ '>'

def flagLetters : List Char := ['i', 'm', 's', 'U', 'u', 'R', 'x']

def isHexDigit (c : Char) : Bool :=
  c.isDigit || 'a' ≤ c && c ≤ 'f' || 'A' ≤ c && c ≤ 'F'

/-- One more character outside of sets. -/
def stepPlain (groups : Nat) (repeatable : Bool) (c : Char) : Option Scan :=
  if c = '\\' then some ⟨groups, .escape⟩
  else if c = '(' then some ⟨groups, .groupStart⟩
  else if c = ')' then if groups = 0 then none else some ⟨groups - 1, .plain true⟩
  else if c = '|' then some ⟨groups, .plain false⟩
  else if c = '[' then some ⟨groups, .setStart 0 false⟩
  else if c = '{' then none
  else if c = '*' || c = '+' || c = '?' then
    if repeatable then some ⟨groups, .plain true⟩ else none
  else some ⟨groups, .plain true⟩

/-- One more character inside of a set. -/
def stepSet (groups outer : Nat) (last : Option Char) (c : Char) : Option Scan :=
  if c = ']' then some ⟨groups, if outer = 0 then .plain true else .set (outer - 1) none⟩
  else if c = '[' then some ⟨groups, .setStart (outer + 1) false⟩
  else if c = '\\' then some ⟨groups, .setEscape outer⟩
  else
    match last with
    | some first => if c = '-' then some ⟨groups, .range outer first⟩
      else some ⟨groups, .set outer (some c)⟩
    | none => some ⟨groups, .set outer (some c)⟩

/-- One more character. -/
def step (s : Scan) (c : Char) : Option Scan :=
  match s.stage with
  | .plain repeatable => stepPlain s.groups repeatable c
  | .escape =>
    match codeLength? c with
    | some length => some { s with stage := .code length }
    | none =>
      if isEscapable c || c ∈ escapeLetters || c ∈ boundaryLetters then
        some { s with stage := .plain true }
      else none
  | .code left =>
    if isHexDigit c then
      some { s with stage := if left ≤ 1 then .plain true else .code (left - 1) }
    else none
  | .groupStart =>
    if c = '?' then some { s with stage := .groupKind } else stepPlain (s.groups + 1) false c
  | .groupKind =>
    if c = 'P' then some { s with stage := .groupMark }
    else if c = '<' then some { s with stage := .groupName false }
    else if c = ':' then some ⟨s.groups + 1, .plain false⟩
    else if c = '-' then some { s with stage := .flags ['-'] true }
    else if c ∈ flagLetters then some { s with stage := .flags [c] false }
    else none
  | .groupMark => if c = '<' then some { s with stage := .groupName false } else none
  | .groupName begun =>
    if c = '>' then if begun then some ⟨s.groups + 1, .plain false⟩ else none
    else if c = '_' || c.isAlpha || begun && (c.isDigit || c = '.' || c = '[' || c = ']') then
      some { s with stage := .groupName true }
    else none
  | .flags given dangling =>
    if c = ')' then if dangling then none else some { s with stage := .plain false }
    else if c = ':' then if dangling then none else some ⟨s.groups + 1, .plain false⟩
    else if c ∈ given then none
    else if c = '-' then some { s with stage := .flags ('-' :: given) true }
    else if c ∈ flagLetters then some { s with stage := .flags (c :: given) false }
    else none
  | .setStart outer negated =>
    if c = '^' && !negated then some { s with stage := .setStart outer true }
    else if c = ']' || c = '-' then some { s with stage := .set outer none }
    else stepSet s.groups outer none c
  | .set outer last => stepSet s.groups outer last c
  | .range outer first =>
    if c = ']' || c = '-' then stepSet s.groups outer none c
    else if c = '\\' then some { s with stage := .setEscape outer }
    else if first ≤ c then some { s with stage := .set outer none }
    else none
  | .setEscape outer =>
    if isEscapable c || c ∈ escapeLetters then some { s with stage := .set outer none } else none

/-- Whether a text is a good pattern. -/
def isGood (cs : List Char) : Bool :=
  match cs.foldlM step ⟨0, .plain false⟩ with
  | some ⟨0, .plain _⟩ => true
  | _ => false

/-- Brackets alone may close, but not open. -/
example : isGood [']'] ∧ ¬ isGood ['['] ∧ ¬ isGood ['*'] ∧ isGood ['(', 'a', ')', '+'] := by decide

end MetaCache.Command.Pattern
