import MetaCache.Text.Hex
import MetaCache.Toml.Scan

/-!
# Strings and keys of TOML

A string is *basic*, between quotes and with escapes, or *literal*, between apostrophes and without.
Either kind may span lines, between three quotes or three apostrophes. Then a line break directly
behind the opening is dropped, every other one is a line feed, and a basic string may end a line by
a backslash, which drops all blanks and line breaks up to the next character. One or two closing
signs in a row are part of such a string, also right before its end.
-/

namespace MetaCache.Toml

open MetaCache.Text

/-- The number that hexadecimal digits stand for. -/
def hexNumber? (digits : List Char) : Option Nat :=
  digits.foldlM (fun n c => (hexValue? c).map fun d => n * 16 + d.val) 0

/-- The character with a code point; surrogates have none. -/
def charOf? (n : Nat) : Option Char :=
  if h : n.isValidChar then some (Char.ofNatAux n h) else none

theorem length_lt_cons (c : Char) (rest : List Char) : rest.length < (c :: rest).length :=
  Nat.lt_succ_self _

/-- The character that the escape behind a backslash stands for, and the rest. -/
def escape? : (cs : List Char) → Option (Char × { rest : List Char // rest.length < cs.length })
  | 'u' :: a :: b :: c :: d :: rest => do
    let n ← hexNumber? [a, b, c, d]
    return (← charOf? n, ⟨rest, by simp; omega⟩)
  | 'U' :: a :: b :: c :: d :: e :: f :: g :: h :: rest => do
    let n ← hexNumber? [a, b, c, d, e, f, g, h]
    return (← charOf? n, ⟨rest, by simp; omega⟩)
  | e :: rest =>
    let found : Option Char :=
      if e = 'b' then some '\x08'
      else if e = 't' then some '\t'
      else if e = 'n' then some '\n'
      else if e = 'f' then some '\x0c'
      else if e = 'r' then some '\r'
      else if e = '"' then some '"'
      else if e = '\\' then some '\\'
      else none
    found.map fun c => (c, ⟨rest, length_lt_cons e rest⟩)
  | [] => none

/-! ## Strings on a line -/

/-- The content of a basic string up to its closing quote. -/
def basicContent : List Char → Option (List Char × List Char)
  | [] => none
  | '"' :: rest => some ([], rest)
  | '\\' :: rest =>
    match escape? rest with
    | some (c, ⟨rest, _⟩) => (basicContent rest).map fun (content, rest) => (c :: content, rest)
    | none => none
  | c :: rest =>
    if isText c then (basicContent rest).map fun (content, rest) => (c :: content, rest) else none
termination_by cs => cs.length
decreasing_by all_goals simp_all <;> omega

/-- The content of a literal string up to its closing apostrophe. -/
def literalContent (cs : List Char) : Option (List Char × List Char) :=
  let inside (c : Char) : Bool := isText c && c ≠ '\''
  match cs.dropWhile inside with
  | '\'' :: rest => some (cs.takeWhile inside, rest)
  | _ => none

/-! ## Strings over lines -/

/-- What is left behind blanks and line breaks. A carriage return without line feed stays. -/
def skipBreaks : List Char → List Char
  | '\r' :: '\n' :: rest => skipBreaks rest
  | c :: rest => if isBlank c || c = '\n' then skipBreaks rest else c :: rest
  | [] => []

theorem skipBreaks_length (cs : List Char) : (skipBreaks cs).length ≤ cs.length := by
  fun_induction skipBreaks cs with
  | case1 rest ih => simp; omega
  | case2 c rest _ _ ih => simp; omega
  | case3 c rest _ h => simp
  | case4 => simp

/-- What is left of a text that begins with blanks and then a line break: nothing of either. -/
def endOfLine? (cs : List Char) : Option (List Char) :=
  match cs.dropWhile isBlank with
  | '\n' :: rest => some (skipBreaks rest)
  | '\r' :: '\n' :: rest => some (skipBreaks rest)
  | _ => none

theorem endOfLine?_length {cs rest : List Char} (h : endOfLine? cs = some rest) :
    rest.length < cs.length := by
  have hdrop : (cs.dropWhile isBlank).length ≤ cs.length := (List.dropWhile_sublist _).length_le
  unfold endOfLine? at h
  split at h
  · next tail heq =>
    have := skipBreaks_length tail
    simp only [Option.some.injEq] at h
    rw [heq] at hdrop
    simp only [List.length_cons] at hdrop
    subst h
    omega
  · next tail heq =>
    have := skipBreaks_length tail
    simp only [Option.some.injEq] at h
    rw [heq] at hdrop
    simp only [List.length_cons] at hdrop
    subst h
    omega
  · simp at h

/-- The content of a basic string over lines up to its closing quotes. -/
def basicLines : List Char → Option (List Char × List Char)
  | '"' :: '"' :: '"' :: '"' :: '"' :: rest => some (['"', '"'], rest)
  | '"' :: '"' :: '"' :: '"' :: rest => some (['"'], rest)
  | '"' :: '"' :: '"' :: rest => some ([], rest)
  | '\\' :: rest =>
    match _h : endOfLine? rest with
    | some rest => basicLines rest
    | none =>
      match escape? rest with
      | some (c, ⟨rest, _⟩) => (basicLines rest).map fun (content, rest) => (c :: content, rest)
      | none => none
  | '\r' :: '\n' :: rest => (basicLines rest).map fun (content, rest) => ('\n' :: content, rest)
  | c :: rest =>
    if isText c || c = '\n' then
      (basicLines rest).map fun (content, rest) => (c :: content, rest)
    else none
  | [] => none
termination_by cs => cs.length
decreasing_by
  · have := endOfLine?_length _h; simp only [List.length_cons]; omega
  · simp only [List.length_cons]; omega
  · simp only [List.length_cons]; omega
  · simp only [List.length_cons]; omega

/-- The content of a literal string over lines up to its closing apostrophes. -/
def literalLines : List Char → Option (List Char × List Char)
  | '\'' :: '\'' :: '\'' :: '\'' :: '\'' :: rest => some (['\'', '\''], rest)
  | '\'' :: '\'' :: '\'' :: '\'' :: rest => some (['\''], rest)
  | '\'' :: '\'' :: '\'' :: rest => some ([], rest)
  | '\r' :: '\n' :: rest => (literalLines rest).map fun (content, rest) => ('\n' :: content, rest)
  | c :: rest =>
    if isText c || c = '\n' then
      (literalLines rest).map fun (content, rest) => (c :: content, rest)
    else none
  | [] => none

/-- What is left behind a line break right at the front. -/
def dropBreak : List Char → List Char
  | '\n' :: rest => rest
  | '\r' :: '\n' :: rest => rest
  | cs => cs

/-! ## Keys and strings -/

/-- The content of a string on a line, and the rest. -/
def lineString? : List Char → Option (List Char × List Char)
  | '"' :: rest => basicContent rest
  | '\'' :: rest => literalContent rest
  | _ => none

/-- The content of a string of any kind, and the rest. -/
def anyString? : List Char → Option (List Char × List Char)
  | '"' :: '"' :: '"' :: rest => basicLines (dropBreak rest)
  | '\'' :: '\'' :: '\'' :: rest => literalLines (dropBreak rest)
  | cs => lineString? cs

def isBareKey (c : Char) : Bool := c.isAlphanum || c = '-' || c = '_'

/-- How many parts a dotted key has at most. -/
def longestKey : Nat := 79

namespace Scan

def string : Scan String := fun cs =>
  (anyString? cs).map fun (content, rest) => (String.ofList content, rest)

/-- A part of a key: bare, or a string on a line. -/
def simpleKey : Scan String := fun cs =>
  match cs with
  | c :: _ =>
    if c = '"' || c = '\'' then
      (lineString? cs).map fun (content, rest) => (String.ofList content, rest)
    else if isBareKey c then
      some (String.ofList (cs.takeWhile isBareKey), cs.dropWhile isBareKey)
    else none
  | [] => none

/-- At most `rounds` more parts of a dotted key. -/
def moreParts : Nat → Scan (List String)
  | 0 => pure []
  | rounds + 1 => do
    blanks
    match ← peek with
    | some '.' => do
      char '.'
      blanks
      let part ← simpleKey
      return part :: (← moreParts rounds)
    | _ => pure []

/-- A key: parts with dots between them, and blanks around. -/
def key : Scan (List String) := do
  blanks
  let first ← simpleKey
  let more ← fun cs => moreParts (cs.length + 1) cs
  if more.length < longestKey then return first :: more else failure

end Scan

end MetaCache.Toml
