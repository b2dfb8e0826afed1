import MetaCache.Text.Hex

/-!
# Guids

A guid is 32 hexadecimal digits. Four spellings are accepted, in any case:

* *simple*: the digits alone,
* *hyphenated*: groups of 8, 4, 4, 4 and 12 digits with hyphens between them,
* *braced*: the hyphenated form between braces,
* *urn*: the hyphenated form behind `urn:uuid:`.

The canonical spelling is the hyphenated one in lowercase. A guid read from any spelling is written
in it, and it reads back as the same guid (`ofChars?_chars`).
-/

namespace MetaCache

open MetaCache.Text

/-- A place in a spelling. -/
inductive Slot
  | digit
  | hyphen
  deriving DecidableEq, Repr

/-- The places of a spelling in order. -/
abbrev Spelling := List Slot

namespace Spelling

open Slot

/-- Groups of digits with hyphens between them. -/
def groups (sizes : List Nat) : Spelling :=
  [hyphen].intercalate (sizes.map (List.replicate · digit))

/-- The places of the hyphenated form. -/
def hyphenated : Spelling := groups [8, 4, 4, 4, 12]

/-- The places of the simple form. -/
def simple : Spelling := groups [32]

/-- Writes digits into the places, hyphens into the others. -/
def fill : Spelling → List (Fin 16) → List Char
  | [], _ => []
  | digit :: slots, d :: digits => hexChar d :: fill slots digits
  | digit :: slots, [] => fill slots []
  | hyphen :: slots, digits => '-' :: fill slots digits

/-- Reads the digits in the places; text and places must end together. -/
def read : Spelling → List Char → Option (List (Fin 16))
  | [], [] => some []
  | digit :: slots, c :: chars => do
    let d ← hexValue? c
    let digits ← read slots chars
    return d :: digits
  | hyphen :: slots, c :: chars => if c = '-' then read slots chars else none
  | _, _ => none

theorem read_length : ∀ {slots : Spelling} {chars : List Char} {digits : List (Fin 16)},
    read slots chars = some digits → digits.length = slots.count digit
  | [], [], _, h => by simp only [read, Option.some.injEq] at h; subst h; rfl
  | [], _ :: _, _, h => by simp [read] at h
  | digit :: slots, [], _, h => by simp [read] at h
  | digit :: slots, c :: chars, digits, h => by
    simp only [read, Option.bind_eq_bind, Option.bind_eq_some_iff, Option.pure_def,
      Option.some.injEq] at h
    obtain ⟨d, -, rest, hrest, rfl⟩ := h
    simp [read_length hrest]
  | hyphen :: slots, [], _, h => by simp [read] at h
  | hyphen :: slots, c :: chars, digits, h => by
    simp only [read] at h
    split at h
    · rw [read_length h]; simp
    · simp at h

theorem read_fill : ∀ {slots : Spelling} {digits : List (Fin 16)},
    digits.length = slots.count digit → read slots (fill slots digits) = some digits
  | [], digits, h => by
    have : digits = [] := List.eq_nil_of_length_eq_zero (by simpa using h)
    subst this; rfl
  | digit :: slots, [], h => by simp at h
  | digit :: slots, d :: digits, h => by
    have h' : digits.length = slots.count digit := by simpa using h
    simp [fill, read, read_fill h']
  | hyphen :: slots, digits, h => by
    have h' : digits.length = slots.count digit := by simpa using h
    simp [fill, read, read_fill h']

end Spelling

/-- A guid: 32 hexadecimal digits, most significant first. -/
structure Guid where
  digits : List (Fin 16)
  size : digits.length = 32
  deriving DecidableEq, Repr

namespace Guid

/-- The canonical spelling. -/
def chars (g : Guid) : List Char := Spelling.hyphenated.fill g.digits

/-- The canonical spelling. -/
def text (g : Guid) : String := String.ofList g.chars

instance : ToString Guid := ⟨text⟩

/-- Letters that begin a urn, compared without case. -/
def urnLead : List Char := "urn:uuid:".toList

/-- The digits of a text in the simple or hyphenated form. -/
def bareDigits? (places : Spelling) (chars : List Char) : Option Guid :=
  match h : places.read chars with
  | some digits =>
    if hsize : places.count Slot.digit = 32 then some ⟨digits, (Spelling.read_length h).trans hsize⟩
    else none
  | none => none

/-- The guid that a text spells. -/
def ofChars? (chars : List Char) : Option Guid :=
  match bareDigits? Spelling.simple chars with
  | some g => some g
  | none =>
    match bareDigits? Spelling.hyphenated chars with
    | some g => some g
    | none =>
      if chars.head? = some '{' ∧ chars.getLast? = some '}' then
        bareDigits? Spelling.hyphenated (chars.drop 1).dropLast
      else if (chars.take urnLead.length).map Char.toLower = urnLead then
        bareDigits? Spelling.hyphenated (chars.drop urnLead.length)
      else none

/-- The guid that a text spells. -/
def ofText? (raw : String) : Option Guid := ofChars? raw.toList

theorem bareDigits?_fill {places : Spelling} (h : places.count Slot.digit = 32) (g : Guid) :
    bareDigits? places (places.fill g.digits) = some g := by
  have hread : places.read (places.fill g.digits) = some g.digits :=
    Spelling.read_fill (g.size.trans h.symm)
  unfold bareDigits?
  split
  · next digits heq =>
    rw [hread] at heq
    cases heq
    simp [h]
  · next heq => simp [hread] at heq

/-- The hyphenated form is no simple form: it is four places longer. -/
theorem simple_read_hyphenated (digits : List (Fin 16)) :
    Spelling.simple.read (Spelling.hyphenated.fill digits) = none := by
  simp only [Spelling.simple, Spelling.hyphenated, Spelling.groups]
  match digits with
  | [] => rfl
  | d0 :: d1 :: d2 :: d3 :: d4 :: d5 :: d6 :: d7 :: rest =>
    simp [List.replicate, List.intercalate, Spelling.fill, Spelling.read, hexValue?]
  | [_] => simp [List.replicate, List.intercalate, Spelling.fill, Spelling.read, hexValue?]
  | [_, _] => simp [List.replicate, List.intercalate, Spelling.fill, Spelling.read, hexValue?]
  | [_, _, _] => simp [List.replicate, List.intercalate, Spelling.fill, Spelling.read, hexValue?]
  | [_, _, _, _] => simp [List.replicate, List.intercalate, Spelling.fill, Spelling.read, hexValue?]
  | [_, _, _, _, _] => simp [List.replicate, List.intercalate, Spelling.fill, Spelling.read, hexValue?]
  | [_, _, _, _, _, _] => simp [List.replicate, List.intercalate, Spelling.fill, Spelling.read, hexValue?]
  | [_, _, _, _, _, _, _] =>
    simp [List.replicate, List.intercalate, Spelling.fill, Spelling.read, hexValue?]

/-- **The canonical spelling of a guid reads as that guid.** -/
theorem ofChars?_chars (g : Guid) : ofChars? g.chars = some g := by
  have hsimple : bareDigits? Spelling.simple g.chars = none := by
    unfold bareDigits?
    split
    · next digits heq => simp [chars, simple_read_hyphenated] at heq
    · rfl
  unfold ofChars?
  rw [hsimple]
  simp only [chars, bareDigits?_fill (by decide : Spelling.hyphenated.count Slot.digit = 32) g]

end Guid

end MetaCache
