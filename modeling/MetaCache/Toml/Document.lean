import MetaCache.Schema.Tree
import MetaCache.Toml.Scalar
import MetaCache.Toml.Table
import MetaCache.Toml.Text

/-!
# Reading TOML documents

A document is a list of lines: keys with values, headers of tables, and comments. Arrays and inline
tables may be nested 79 deep. The result is the data of the document with its members in order.
-/

namespace MetaCache.Toml

/-- How many arrays and inline tables may stand inside one another. -/
def nestingLimit : Nat := 79

namespace Scan

/-- At most `rounds` items of an array up to its bracket, with line breaks between everything. -/
def itemsWithin (value : Scan Tree) : Nat → Scan (List Tree)
  | 0 => failure
  | rounds + 1 => do
    breaks
    match ← peek with
    | some ']' => do
      char ']'
      pure []
    | _ => do
      let item ← value
      breaks
      match ← peek with
      | some ',' => do
        char ','
        return item :: (← itemsWithin value rounds)
      | _ => do
        char ']'
        return [item]

/-- The items of an array whose bracket is behind. A comma may follow the last one. -/
def items (value : Scan Tree) : Scan (List Tree) := fun cs => itemsWithin value (cs.length + 1) cs

/-- A key and a value with nothing but blanks around the equals sign. -/
def keyValue (value : Scan Tree) : Scan (List String × Tree) := do
  let path ← key
  char '='
  blanks
  return (path, ← value)

/-- At most `rounds` members of an inline table up to its brace. -/
def membersWithin (value : Scan Tree) : Nat → Members → Scan Members
  | 0, _ => failure
  | rounds + 1, members => do
    let (path, content) ← keyValue value
    blanks
    match Members.addValue path content .header members with
    | none => failure
    | some members =>
      match ← peek with
      | some ',' => do
        char ','
        membersWithin value rounds members
      | _ => do
        char '}'
        pure members

/-- The members of an inline table whose brace is behind. No comma may follow the last one. -/
def members (value : Scan Tree) : Scan Members := do
  blanks
  match ← peek with
  | some '}' => do
    char '}'
    pure []
  | _ => fun cs => membersWithin value (cs.length + 1) [] cs

/-- A value; `levels` more arrays and inline tables may open. -/
def value : Nat → Scan Tree
  | 0 => scalar failure failure
  | levels + 1 =>
    scalar (do return .sequence (← items (value levels)))
      (do return .map (memberTrees (← members (value levels))))
where
  /-- A value that is neither; `array` and `table` take over behind their opening signs. -/
  scalar (array table : Scan Tree) : Scan Tree := do
    match ← peek with
    | some '"' | some '\'' => do return .string (← string)
    | some '[' => do
      char '['
      array
    | some '{' => do
      char '{'
      table
    | some 't' => do
      word ['t', 'r', 'u', 'e']
      pure (.bool true)
    | some 'f' => do
      word ['f', 'a', 'l', 's', 'e']
      pure (.bool false)
    | some 'i' | some 'n' => special
    | _ => number

end Scan

/-- What stands on a line. -/
inductive Expression
  | blank
  | line (key : List String) (content : Tree)
  | header (path : List String)
  | elementHeader (path : List String)

/-- Adds what stands on a line to a document. -/
def Assembly.add (a : Assembly) : Expression → Option Assembly
  | .blank => some a
  | .line key content => a.addLine key content
  | .header path => a.openTable path
  | .elementHeader path => a.openElement path

namespace Scan

/-- A header whose first bracket is behind. -/
def header : Scan Expression := do
  match ← peek with
  | some '[' => do
    char '['
    let path ← key
    word [']', ']']
    return .elementHeader path
  | _ => do
    let path ← key
    char ']'
    return .header path

/-- A line that is not the empty rest of the text. -/
def expression : Scan Expression := do
  blanks
  match ← peek with
  | some '#' | some '\n' | some '\r' | none => do
    restOfLine
    pure .blank
  | some '[' => do
    char '['
    let e ← header
    restOfLine
    pure e
  | _ => do
    let (path, content) ← keyValue (value nestingLimit)
    restOfLine
    return .line path content

/-- At most `rounds` lines up to the end of the text. -/
def linesWithin : Nat → Assembly → Scan Assembly
  | 0, a => pure a
  | rounds + 1, a => do
    match ← peek with
    | none => pure a
    | some _ =>
      match a.add (← expression) with
      | some a => linesWithin rounds a
      | none => failure

end Scan

/-- A text without the mark that may stand at its very front. -/
def dropMark : List Char → List Char
  | '\ufeff' :: rest => rest
  | cs => cs

/-- The data of a document, if the text is one. -/
def read? (text : String) : Option Tree := do
  let cs := dropMark text.toList
  let (a, _) ← Scan.linesWithin (cs.length + 1) .start cs
  return .map (memberTrees (← a.finish))

end MetaCache.Toml
