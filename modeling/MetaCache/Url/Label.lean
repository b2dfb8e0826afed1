import MetaCache.Text.Composition
import MetaCache.Text.Direction
import MetaCache.Text.Joining
import MetaCache.Url.Folding
import MetaCache.Url.Punycode

/-!
# Labels of domains

A domain is a row of labels with dots between them. A label is written in ASCII, but may stand for a
text with other characters. Such a text is *folded*: each character is replaced by what it stands
for, in composed form. It must not begin with a mark, and signs that only change how letters join
may stand only where letters join (`isProper`).

In a domain with letters from right to left every label must have one direction
(`hasOneDirection`).
-/

namespace MetaCache.Url

open MetaCache.Text

/-- A text as domains have it; none if a character may not stand there. -/
def foldText? (text : List Char) : Option (List Char) :=
  (text.mapM fold).map fun counterparts => (composed counterparts.flatten).map Char.ofNat

/-- Whether a character may not stand in a domain in ASCII. -/
def isForbidden (c : Char) : Bool :=
  c.toNat ≤ 0x20 || c.toNat = 0x7f
    || c ∈ ['%', '#', '/', ':', '<', '>', '?', '@', '[', '\\', ']', '^', '|']

namespace Label

def isAscii (label : List Char) : Bool := label.all (·.toNat < 0x80)

/-- The mark of a label that stands for another text. -/
def punycodeMark : List Char := ['x', 'n', '-', '-']

/-- How many characters the text of a label may have, and how many its ASCII form behind the
mark. -/
def textLimit : Nat := 1000
def writtenLimit : Nat := 2000

/-! ## Joiners -/

/-- Whether the next letter, past characters that letters join over, satisfies `joins`. -/
def meets (joins : Nat → Bool) (text : List Char) : Bool :=
  match text.dropWhile (isTransparent ·.toNat) with
  | [] => false
  | c :: _ => joins c.toNat

/-- Whether a sign may stand between two texts, of which the one before comes last character first.
Behind a mark that takes the vowel any joiner may stand, and a sign that keeps letters apart may
stand between letters that would join. -/
def isJoinerInPlace (before : List Char) (c : Char) (behind : List Char) : Bool :=
  if c.toNat = 0x200c || c.toNat = 0x200d then
    before.head?.any (isVowelKiller ·.toNat)
      || c.toNat = 0x200c && meets joinsNext before && meets joinsPrevious behind
  else true

/-- Whether all joiners are in place; what is before comes last character first. -/
def haveJoinersPlace : List Char → List Char → Bool
  | _, [] => true
  | before, c :: behind => isJoinerInPlace before c behind && haveJoinersPlace (c :: before) behind

/-- Whether a text can be that of a label. -/
def isProper (text : List Char) : Bool :=
  text.length ≤ textLimit && !text.head?.any (isMark ·.toNat) && haveJoinersPlace [] text

/-! ## Directions -/

/-- Whether a character makes a domain one with letters from right to left. -/
def isRightward (c : Char) : Bool := direction c = .right || direction c = .arabicDigit

/-- Whether a text has one direction: that of its first letter. From left to right, there is nothing
of the other direction in it, and it ends with a letter or a digit. From right to left, there is no
letter of the other direction in it, it ends with a letter or a digit, and digits are of one kind.
Marks at the end do not count. -/
def hasOneDirection (text : List Char) : Bool :=
  match text.map direction with
  | [] => true
  | first :: rest =>
    let body := (first :: rest).reverse.dropWhile (· = .mark)
    let last := body.head?
    if first = .left then
      body.all (fun d => d ≠ .right && d ≠ .arabicDigit)
        && (last = some .left || last = some .europeanDigit)
    else if first = .right then
      body.all (· ≠ .left)
        && (last = some .right || last = some .europeanDigit || last = some .arabicDigit)
        && !(body.contains .europeanDigit && body.contains .arabicDigit)
    else false

/-! ## Both forms -/

/-- The text of a folded label. A label in ASCII form must stand for a text with other characters,
and for one that is folded already. -/
def text? (label : List Char) : Option (List Char) :=
  if punycodeMark.isPrefixOf label then do
    let written := label.drop punycodeMark.length
    if !isAscii written || writtenLimit < written.length || written.getLast? = some '-' then none
    else
      let text ← Punycode.read? written
      if isAscii text || foldText? text ≠ some text || text.any (fun c => isForbidden c || c = '.')
      then none
      else if isProper text then some text else none
  else if isAscii label || isProper label then some label
  else none

/-- The ASCII form of a text. -/
def ascii (text : List Char) : List Char :=
  if isAscii text then text else punycodeMark ++ Punycode.write text

end Label

end MetaCache.Url
