import MetaCache.Text.Hex
import MetaCache.Text.Printable

/-!
# Quoting in messages

Messages quote foreign text so that nothing in it can be mistaken for the message: the quote and
the backslash are escaped, four controls have a letter or digit of their own, and whatever does not
show by itself is written by its code point.
-/

namespace MetaCache.Text

/-- How a character is shown between quotes. -/
def quotedChar (c : Char) : List Char :=
  if c = '"' then ['\\', '"']
  else if c = '\\' then ['\\', '\\']
  else if c = '\n' then ['\\', 'n']
  else if c = '\r' then ['\\', 'r']
  else if c = '\t' then ['\\', 't']
  else if c.toNat = 0 then ['\\', '0']
  else if showsAlone c then [c]
  else ['\\', 'u', '{'] ++ hexDigits c.toNat ++ ['}']

/-- A text between quotes, fit to stand in a message. -/
def quoted (s : String) : String :=
  String.ofList ('"' :: s.toList.flatMap quotedChar ++ ['"'])

end MetaCache.Text
