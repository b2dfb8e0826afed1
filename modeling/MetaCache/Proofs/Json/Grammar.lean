import MetaCache.Json.Document
import MetaCache.Proofs.Text.Bytes
import Mathlib.Tactic.SplitIfs

/-!
# What a JSON text is and what it means

The grammar of JSON over characters, apart from any reader: `Text cs m rest` says that `cs` begins
with a JSON text that means `m` and goes on with `rest`. Blanks may stand in front of any sign. A
number takes all that could belong to it, so what a text means and where it ends is never in doubt
(`Text.unique`).

A meaning is a value, except that some strings and some numbers in it may mean nothing: a string in
which a surrogate stands alone, and a number past the largest double. Members are listed as they are
written, whatever their order and however often a name occurs.
-/

namespace MetaCache.Json

open MetaCache.Number MetaCache.Text

/-! ## Meanings -/

/-- What a text means. -/
inductive Meaning
  | null
  | bool (value : Bool)
  | number (value : Option Number)
  | string (value : Option String)
  | array (items : List Meaning)
  | object (members : List (Option String × Meaning))

mutual
/-- A value as what a text means. -/
def Value.meaning : Value → Meaning
  | .null => .null
  | .bool value => .bool value
  | .number value => .number (some value)
  | .string value => .string (some value)
  | .array items => .array (itemMeanings items)
  | .object members => .object (memberMeanings members)

def itemMeanings : List Value → List Meaning
  | [] => []
  | item :: rest => item.meaning :: itemMeanings rest

def memberMeanings : List (String × Value) → List (Option String × Meaning)
  | [] => []
  | (name, value) :: rest => (some name, value.meaning) :: memberMeanings rest
end

theorem memberMeanings_eq_map (members : List (String × Value)) :
    memberMeanings members = members.map fun m => (some m.1, m.2.meaning) := by
  induction members with
  | nil => rfl
  | cons m rest ih => rw [memberMeanings, ih, List.map_cons]

mutual
theorem Value.meaning_injective : ∀ v v' : Value, v.meaning = v'.meaning → v = v'
  | .null, v', h => by cases v' <;> cases h; rfl
  | .bool _, v', h => by cases v' <;> cases h; rfl
  | .number _, v', h => by cases v' <;> cases h; rfl
  | .string _, v', h => by cases v' <;> cases h; rfl
  | .array items, v', h => by
    cases v' with
    | array items' => rw [itemMeanings_injective items items' (Meaning.array.inj h)]
    | _ => cases h
  | .object members, v', h => by
    cases v' with
    | object members' => rw [memberMeanings_injective members members' (Meaning.object.inj h)]
    | _ => cases h

theorem itemMeanings_injective :
    ∀ items items' : List Value, itemMeanings items = itemMeanings items' → items = items'
  | [], [], _ => rfl
  | [], _ :: _, h => by cases h
  | _ :: _, [], h => by cases h
  | item :: rest, item' :: rest', h => by
    obtain ⟨hitem, hrest⟩ := List.cons.inj h
    rw [Value.meaning_injective item item' hitem, itemMeanings_injective rest rest' hrest]

theorem memberMeanings_injective : ∀ members members' : List (String × Value),
    memberMeanings members = memberMeanings members' → members = members'
  | [], [], _ => rfl
  | [], (_, _) :: _, h => by cases h
  | (_, _) :: _, [], h => by cases h
  | (name, value) :: rest, (name', value') :: rest', h => by
    obtain ⟨hmember, hrest⟩ := List.cons.inj h
    obtain ⟨hname, hvalue⟩ := Prod.mk.inj hmember
    rw [Option.some.inj hname, Value.meaning_injective value value' hvalue,
      memberMeanings_injective rest rest' hrest]
end

/-! ## Blanks -/

def isBlankChar (c : Char) : Bool := c = ' ' || c = '\n' || c = '\t' || c = '\r'

/-- The text without the blanks at its front. -/
def skipBlanks (cs : List Char) : List Char := cs.dropWhile isBlankChar

/-! ## Strings -/

/-- What one sign or one escape in a string stands for: a character or a code unit. -/
inductive Piece
  | char (c : Char)
  | unit (n : Nat)

/-- The characters of a string. A surrogate must be the first half of a pair, directly before its
second half. -/
def characters? : List Piece → Option (List Char)
  | [] => some []
  | .char c :: rest => (characters? rest).map (c :: ·)
  | .unit n :: .unit m :: rest =>
    if isSecondSurrogate n then none
    else if isFirstSurrogate n then
      if isSecondSurrogate m then
        (characters? rest).map (Char.ofNat (joinSurrogates n m) :: ·)
      else none
    else (characters? (.unit m :: rest)).map (Char.ofNat n :: ·)
  | .unit n :: rest =>
    if isSecondSurrogate n || isFirstSurrogate n then none
    else (characters? rest).map (Char.ofNat n :: ·)

/-- The string that pieces make. -/
def text? (pieces : List Piece) : Option String := (characters? pieces).map String.ofList

/-- The character that an escape of one letter stands for. -/
def letterOf? (e : Char) : Option Char :=
  if e = '"' then some '"'
  else if e = '\\' then some '\\'
  else if e = '/' then some '/'
  else if e = 'b' then some '\x08'
  else if e = 'f' then some '\x0c'
  else if e = 'n' then some '\n'
  else if e = 'r' then some '\r'
  else if e = 't' then some '\t'
  else none

/-- The code unit of four hexadecimal digits. -/
def unitOf? (a b c d : Char) : Option Nat := do
  let a ← hexValue? a
  let b ← hexValue? b
  let c ← hexValue? c
  let d ← hexValue? d
  return ((a.val * 16 + b.val) * 16 + c.val) * 16 + d.val

/-- A character that may stand for itself in a string. -/
def isPlainChar (c : Char) : Bool := 0x20 ≤ c.toNat && c ≠ '"' && c ≠ '\\'

/-- The content of a string behind its opening quote, with the closing one. -/
inductive Content : List Char → List Piece → List Char → Prop
  | close {rest : List Char} : Content ('"' :: rest) [] rest
  | plain {c : Char} {cs rest : List Char} {pieces : List Piece} (h : isPlainChar c)
      (more : Content cs pieces rest) : Content (c :: cs) (.char c :: pieces) rest
  | letter {e c : Char} {cs rest : List Char} {pieces : List Piece} (h : letterOf? e = some c)
      (more : Content cs pieces rest) : Content ('\\' :: e :: cs) (.char c :: pieces) rest
  | code {x y z w : Char} {n : Nat} {cs rest : List Char} {pieces : List Piece}
      (h : unitOf? x y z w = some n) (more : Content cs pieces rest) :
      Content ('\\' :: 'u' :: x :: y :: z :: w :: cs) (.unit n :: pieces) rest

/-! ## Numbers -/

/-- The digits of a number. -/
structure Numeral where
  whole : List Char
  /-- Empty without a point. -/
  fraction : List Char
  /-- Whether the exponent is negative, and its digits. -/
  exponent : Option (Bool × List Char)

namespace Numeral

/-- The double of a significand and a power of ten. -/
def double? (negative : Bool) (significand : Nat) (exponent : Int) : Option Number :=
  (scale significand exponent).map fun x => .float ⟨negative, x⟩

/-- The double of a significand, a power of ten and the digits of an exponent. -/
def raised? (negative : Bool) (significand : Nat) (shift : Int) (down : Bool)
    (digits : List UInt8) : Option Number :=
  if (exponentOverrun? 0 digits).isSome then
    if significand ≠ 0 ∧ !down then none else some (.float ⟨negative, .zero⟩)
  else
    double? negative significand
      (if down then shift - digitsValue digits else shift + digitsValue digits)

/-- The number of a significand with its surplus of digits, a fraction and an exponent. -/
def valueFrom? (negative : Bool) (significand surplus : Nat) (fraction : List Char)
    (exponent : Option (Bool × List Char)) : Option Number :=
  if fraction = [] ∧ exponent = none ∧ surplus = 0 then wholeNumber negative significand
  else
    let (significand, taken) := absorb significand (utf8 fraction)
    let shift : Int := (surplus : Int) - taken
    match exponent with
    | none => double? negative significand shift
    | some (down, digits) => raised? negative significand shift down (utf8 digits)

/-- The number that the digits mean, unless it is past the largest double. -/
def value? (negative : Bool) (n : Numeral) : Option Number :=
  let (significand, taken) := absorb 0 (utf8 n.whole)
  valueFrom? negative significand (n.whole.length - taken) n.fraction n.exponent

end Numeral

/-- The digits in front of anything else. -/
def digitsOf (cs : List Char) : List Char := cs.takeWhile Char.isDigit

/-- What stands behind the digits. -/
def behindDigits (cs : List Char) : List Char := cs.dropWhile Char.isDigit

/-- The whole part of a number: nothing stands behind a zero at its front. -/
def IsWhole (digits : List Char) : Prop :=
  digits = ['0'] ∨ ∃ d more, digits = d :: more ∧ d ≠ '0'

/-- A point and digits. -/
inductive Fraction : List Char → List Char → List Char → Prop
  | absent {cs : List Char} (h : cs.head? ≠ some '.') : Fraction cs [] cs
  | present {cs : List Char} (h : digitsOf cs ≠ []) :
    Fraction ('.' :: cs) (digitsOf cs) (behindDigits cs)

/-- A sign, which need not be there. -/
inductive Sign : List Char → Bool → List Char → Prop
  | none {cs : List Char} (hplus : cs.head? ≠ some '+') (hminus : cs.head? ≠ some '-') :
    Sign cs false cs
  | plus {cs : List Char} : Sign ('+' :: cs) false cs
  | minus {cs : List Char} : Sign ('-' :: cs) true cs

/-- A letter, a sign and digits. -/
inductive Exponent : List Char → Option (Bool × List Char) → List Char → Prop
  | absent {cs : List Char} (hsmall : cs.head? ≠ some 'e') (hlarge : cs.head? ≠ some 'E') :
    Exponent cs none cs
  | present {c : Char} {cs mid : List Char} {down : Bool} (hletter : c = 'e' ∨ c = 'E')
      (hsign : Sign cs down mid) (h : digitsOf mid ≠ []) :
    Exponent (c :: cs) (some (down, digitsOf mid)) (behindDigits mid)

/-- The digits of a number. -/
inductive Digits : List Char → Numeral → List Char → Prop
  | mk {cs fraction mid rest : List Char} {exponent : Option (Bool × List Char)}
      (whole : IsWhole (digitsOf cs)) (hfraction : Fraction (behindDigits cs) fraction mid)
      (hexponent : Exponent mid exponent rest) : Digits cs ⟨digitsOf cs, fraction, exponent⟩ rest

/-! ## Containers -/

/-- Items and commas up to the closing bracket. `behind` tells whether an item is behind, so that a
comma must stand in front of the next one. -/
inductive Items {α : Type} (P : List Char → α → List Char → Prop) :
    Bool → List Char → List α → List Char → Prop
  | close {behind : Bool} {cs rest : List Char} (h : skipBlanks cs = ']' :: rest) :
    Items P behind cs [] rest
  | first {cs mid rest : List Char} {a : α} {as : List α} (item : P cs a mid)
      (more : Items P true mid as rest) : Items P false cs (a :: as) rest
  | comma {cs front mid rest : List Char} {a : α} {as : List α} (h : skipBlanks cs = ',' :: front)
      (item : P front a mid) (more : Items P true mid as rest) : Items P true cs (a :: as) rest

/-- The name of a member and the colon behind it. -/
inductive Name : List Char → Option String → List Char → Prop
  | mk {cs front mid rest : List Char} {pieces : List Piece} (hquote : skipBlanks cs = '"' :: front)
      (content : Content front pieces mid) (hcolon : skipBlanks mid = ':' :: rest) :
      Name cs (text? pieces) rest

/-- Members and commas up to the closing brace. -/
inductive Members {α : Type} (P : List Char → α → List Char → Prop) :
    Bool → List Char → List (Option String × α) → List Char → Prop
  | close {behind : Bool} {cs rest : List Char} (h : skipBlanks cs = '\x7d' :: rest) :
    Members P behind cs [] rest
  | first {cs value mid rest : List Char} {name : Option String} {a : α}
      {as : List (Option String × α)} (hname : Name cs name value) (item : P value a mid)
      (more : Members P true mid as rest) : Members P false cs ((name, a) :: as) rest
  | comma {cs front value mid rest : List Char} {name : Option String} {a : α}
      {as : List (Option String × α)} (h : skipBlanks cs = ',' :: front)
      (hname : Name front name value) (item : P value a mid) (more : Members P true mid as rest) :
      Members P true cs ((name, a) :: as) rest

/-! ## Texts -/

/-- A JSON text, what it means, and what stands behind it. -/
inductive Text : List Char → Meaning → List Char → Prop
  | blank {c : Char} {cs rest : List Char} {m : Meaning} (h : isBlankChar c) (more : Text cs m rest) :
    Text (c :: cs) m rest
  | null {rest : List Char} : Text ('n' :: 'u' :: 'l' :: 'l' :: rest) .null rest
  | yes {rest : List Char} : Text ('t' :: 'r' :: 'u' :: 'e' :: rest) (.bool true) rest
  | no {rest : List Char} : Text ('f' :: 'a' :: 'l' :: 's' :: 'e' :: rest) (.bool false) rest
  | natural {cs rest : List Char} {n : Numeral} (h : Digits cs n rest) :
    Text cs (.number (n.value? false)) rest
  | negative {cs rest : List Char} {n : Numeral} (h : Digits cs n rest) :
    Text ('-' :: cs) (.number (n.value? true)) rest
  | string {cs rest : List Char} {pieces : List Piece} (h : Content cs pieces rest) :
    Text ('"' :: cs) (.string (text? pieces)) rest
  | array {cs rest : List Char} {items : List Meaning} (h : Items Text false cs items rest) :
    Text ('[' :: cs) (.array items) rest
  | object {cs rest : List Char} {members : List (Option String × Meaning)}
      (h : Members Text false cs members rest) : Text ('\x7b' :: cs) (.object members) rest

/-- A text from its beginning to its end. -/
def Document (cs : List Char) (m : Meaning) : Prop := ∃ rest, Text cs m rest ∧ skipBlanks rest = []

/-! ## Where a text begins -/

theorem skipBlanks_cons {c : Char} (h : isBlankChar c) (cs : List Char) :
    skipBlanks (c :: cs) = skipBlanks cs := List.dropWhile_cons_of_pos h

theorem skipBlanks_of_not {c : Char} (h : isBlankChar c = false) (cs : List Char) :
    skipBlanks (c :: cs) = c :: cs := List.dropWhile_cons_of_neg (by simp [h])

theorem not_isBlankChar_of_skipBlanks {c : Char} {cs rest : List Char}
    (h : skipBlanks cs = c :: rest) : isBlankChar c = false := by
  have hhead := List.head?_dropWhile_not isBlankChar cs
  rw [show cs.dropWhile isBlankChar = c :: rest from h] at hhead
  simpa using hhead

theorem skipBlanks_skipBlanks (cs : List Char) : skipBlanks (skipBlanks cs) = skipBlanks cs := by
  cases h : skipBlanks cs with
  | nil => rfl
  | cons c rest => exact skipBlanks_of_not (not_isBlankChar_of_skipBlanks h) rest

theorem digitsOf_cons {d : Char} {cs : List Char} {ds : List Char} (h : digitsOf cs = d :: ds) :
    ∃ rest, cs = d :: rest ∧ d.isDigit := by
  unfold digitsOf at h
  cases cs with
  | nil => cases h
  | cons c rest =>
    rw [List.takeWhile_cons] at h
    split at h
    · next hd =>
      obtain ⟨rfl, -⟩ := List.cons.inj h
      exact ⟨rest, rfl, hd⟩
    · cases h

/-- A number begins with a digit. -/
theorem Digits.head {cs rest : List Char} {n : Numeral} (h : Digits cs n rest) :
    ∃ d more, cs = d :: more ∧ d.isDigit := by
  obtain ⟨hwhole, -, -⟩ := h
  rcases hwhole with hzero | ⟨d, more, hdigits, -⟩
  · exact ⟨_, (digitsOf_cons hzero).imp fun _ h => h⟩
  · exact ⟨_, (digitsOf_cons hdigits).imp fun _ h => h⟩

theorem isBlankChar_of_isDigit {d : Char} (h : d.isDigit) : isBlankChar d = false := by
  have hne (c : Char) (hc : c.isDigit = false) : d ≠ c := by
    rintro rfl
    rw [hc] at h
    cases h
  simp [isBlankChar, hne ' ' (by decide), hne '\n' (by decide), hne '\t' (by decide),
    hne '\r' (by decide)]

/-- Blanks in front of a text do not count. -/
theorem text_skipBlanks {cs rest : List Char} {m : Meaning} :
    Text (skipBlanks cs) m rest ↔ Text cs m rest := by
  induction cs with
  | nil => exact Iff.rfl
  | cons c cs ih =>
    cases hc : isBlankChar c with
    | true =>
      rw [skipBlanks_cons hc, ih]
      refine ⟨.blank hc, fun h => ?_⟩
      cases h with
      | blank _ more => exact more
      | natural h =>
        obtain ⟨d, more, heq, hd⟩ := h.head
        obtain ⟨rfl, -⟩ := List.cons.inj heq
        rw [isBlankChar_of_isDigit hd] at hc
        cases hc
      | _ => exact absurd hc (by decide)
    | false => rw [skipBlanks_of_not hc]

theorem name_skipBlanks {cs rest : List Char} {name : Option String} :
    Name (skipBlanks cs) name rest ↔ Name cs name rest := by
  constructor
  · rintro ⟨hquote, hcontent, hcolon⟩
    exact ⟨(skipBlanks_skipBlanks cs).symm.trans hquote, hcontent, hcolon⟩
  · rintro ⟨hquote, hcontent, hcolon⟩
    exact ⟨(skipBlanks_skipBlanks cs).trans hquote, hcontent, hcolon⟩

/-- What a text is that begins with a given sign. -/
def BySign (c : Char) (cs : List Char) (m : Meaning) (rest : List Char) : Prop :=
  if c = 'n' then cs = 'u' :: 'l' :: 'l' :: rest ∧ m = .null
  else if c = 't' then cs = 'r' :: 'u' :: 'e' :: rest ∧ m = .bool true
  else if c = 'f' then cs = 'a' :: 'l' :: 's' :: 'e' :: rest ∧ m = .bool false
  else if c = '-' then ∃ n, Digits cs n rest ∧ m = .number (n.value? true)
  else if c.isDigit then ∃ n, Digits (c :: cs) n rest ∧ m = .number (n.value? false)
  else if c = '"' then ∃ pieces, Content cs pieces rest ∧ m = .string (text? pieces)
  else if c = '[' then ∃ items, Items Text false cs items rest ∧ m = .array items
  else if c = '\x7b' then ∃ members, Members Text false cs members rest ∧ m = .object members
  else False

theorem ne_of_isDigit_char {d c : Char} (h : d.isDigit) (hc : c.isDigit = false) : d ≠ c := by
  rintro rfl
  rw [hc] at h
  cases h

/-- **A sign that is no blank tells which kind of text it begins.** -/
theorem text_cons_iff {c : Char} (hc : isBlankChar c = false) {cs rest : List Char} {m : Meaning} :
    Text (c :: cs) m rest ↔ BySign c cs m rest := by
  constructor
  · intro h
    cases h with
    | blank hblank _ => rw [hc] at hblank; cases hblank
    | null => exact ⟨rfl, rfl⟩
    | yes => exact ⟨rfl, rfl⟩
    | no => exact ⟨rfl, rfl⟩
    | natural h =>
      obtain ⟨d, more, heq, hd⟩ := h.head
      obtain ⟨rfl, rfl⟩ := List.cons.inj heq
      have hne {x : Char} (hx : x.isDigit = false) : c ≠ x := ne_of_isDigit_char hd hx
      rw [BySign, if_neg (hne (by decide)), if_neg (hne (by decide)), if_neg (hne (by decide)),
        if_neg (hne (by decide)), if_pos hd]
      exact ⟨_, h, rfl⟩
    | negative h => exact ⟨_, h, rfl⟩
    | string h => exact ⟨_, h, rfl⟩
    | array h => exact ⟨_, h, rfl⟩
    | object h => exact ⟨_, h, rfl⟩
  · intro h
    unfold BySign at h
    split at h
    · next hsign => obtain ⟨rfl, rfl⟩ := h; exact hsign ▸ .null
    split at h
    · next hsign => obtain ⟨rfl, rfl⟩ := h; exact hsign ▸ .yes
    split at h
    · next hsign => obtain ⟨rfl, rfl⟩ := h; exact hsign ▸ .no
    split at h
    · next hsign => obtain ⟨n, h, rfl⟩ := h; exact hsign ▸ .negative h
    split at h
    · obtain ⟨n, h, rfl⟩ := h; exact .natural h
    split at h
    · next hsign => obtain ⟨pieces, h, rfl⟩ := h; exact hsign ▸ .string h
    split at h
    · next hsign => obtain ⟨items, h, rfl⟩ := h; exact hsign ▸ .array h
    split at h
    · next hsign => obtain ⟨members, h, rfl⟩ := h; exact hsign ▸ .object h
    · exact h.elim

theorem text_iff_bySign {cs tail rest : List Char} {c : Char} (h : skipBlanks cs = c :: tail)
    {m : Meaning} : Text cs m rest ↔ BySign c tail m rest := by
  rw [← text_skipBlanks, h, text_cons_iff (not_isBlankChar_of_skipBlanks h)]

/-- No text begins with a sign that separates or closes. -/
theorem Text.head {cs rest tail : List Char} {m : Meaning} (h : Text cs m rest) {c : Char}
    (hcs : skipBlanks cs = c :: tail) : c ≠ ']' ∧ c ≠ ',' ∧ c ≠ '\x7d' := by
  rw [← text_skipBlanks, hcs, text_cons_iff (not_isBlankChar_of_skipBlanks hcs)] at h
  refine ⟨?_, ?_, ?_⟩ <;> rintro rfl <;> exact h

/-- There is no text without a sign. -/
theorem Text.ne_nil {cs rest : List Char} {m : Meaning} (h : Text cs m rest) :
    skipBlanks cs ≠ [] := by
  intro hnil
  rw [← text_skipBlanks, hnil] at h
  cases h with
  | natural h =>
    obtain ⟨d, more, heq, -⟩ := h.head
    cases heq

/-! ## Signs of meanings -/

section

variable {c : Char} {cs rest : List Char}

theorem bySign_null : BySign c cs .null rest ↔ c = 'n' ∧ cs = 'u' :: 'l' :: 'l' :: rest := by
  constructor
  · intro h
    unfold BySign at h
    split_ifs at h with hsign <;> simp only [and_false, exists_false] at h
    exact ⟨hsign, h.1⟩
  · rintro ⟨rfl, h⟩
    exact ⟨h, rfl⟩

theorem bySign_bool {b : Bool} : BySign c cs (.bool b) rest
    ↔ (c = 't' ∧ cs = 'r' :: 'u' :: 'e' :: rest ∧ b = true)
      ∨ (c = 'f' ∧ cs = 'a' :: 'l' :: 's' :: 'e' :: rest ∧ b = false) := by
  constructor
  · intro h
    unfold BySign at h
    split_ifs at h with _ htrue hfalse <;>
      simp only [and_false, exists_false, Meaning.bool.injEq] at h
    · exact .inl ⟨htrue, h⟩
    · exact .inr ⟨hfalse, h⟩
  · rintro (⟨rfl, h, rfl⟩ | ⟨rfl, h, rfl⟩)
    · exact ⟨h, rfl⟩
    · exact ⟨h, rfl⟩

theorem bySign_number {n : Option Number} : BySign c cs (.number n) rest
    ↔ (c = '-' ∧ ∃ digits, Digits cs digits rest ∧ digits.value? true = n)
      ∨ (c.isDigit ∧ ∃ digits, Digits (c :: cs) digits rest ∧ digits.value? false = n) := by
  constructor
  · intro h
    unfold BySign at h
    split_ifs at h with _ _ _ hminus hdigit <;>
      simp only [and_false, exists_false, Meaning.number.injEq] at h
    · obtain ⟨digits, hdigits, rfl⟩ := h
      exact .inl ⟨hminus, digits, hdigits, rfl⟩
    · obtain ⟨digits, hdigits, rfl⟩ := h
      exact .inr ⟨hdigit, digits, hdigits, rfl⟩
  · rintro (⟨rfl, digits, hdigits, rfl⟩ | ⟨hdigit, digits, hdigits, rfl⟩)
    · exact ⟨digits, hdigits, rfl⟩
    · have hne {x : Char} (hx : x.isDigit = false) : c ≠ x := ne_of_isDigit_char hdigit hx
      rw [BySign, if_neg (hne (by decide)), if_neg (hne (by decide)), if_neg (hne (by decide)),
        if_neg (hne (by decide)), if_pos hdigit]
      exact ⟨digits, hdigits, rfl⟩

theorem bySign_string {s : Option String} : BySign c cs (.string s) rest
    ↔ c = '"' ∧ ∃ pieces, Content cs pieces rest ∧ text? pieces = s := by
  constructor
  · intro h
    unfold BySign at h
    split_ifs at h with _ _ _ _ _ hquote <;>
      simp only [and_false, exists_false, Meaning.string.injEq] at h
    obtain ⟨pieces, hcontent, rfl⟩ := h
    exact ⟨hquote, pieces, hcontent, rfl⟩
  · rintro ⟨rfl, pieces, hcontent, rfl⟩
    exact ⟨pieces, hcontent, rfl⟩

theorem bySign_array {items : List Meaning} : BySign c cs (.array items) rest
    ↔ c = '[' ∧ Items Text false cs items rest := by
  constructor
  · intro h
    unfold BySign at h
    split_ifs at h with _ _ _ _ _ _ hsign <;>
      simp only [and_false, exists_false, Meaning.array.injEq] at h
    obtain ⟨_, hitems, rfl⟩ := h
    exact ⟨hsign, hitems⟩
  · rintro ⟨rfl, hitems⟩
    exact ⟨items, hitems, rfl⟩

theorem bySign_object {members : List (Option String × Meaning)} :
    BySign c cs (.object members) rest ↔ c = '\x7b' ∧ Members Text false cs members rest := by
  constructor
  · intro h
    unfold BySign at h
    split_ifs at h with _ _ _ _ _ _ _ hsign <;>
      simp only [and_false, exists_false, Meaning.object.injEq] at h
    obtain ⟨_, hmembers, rfl⟩ := h
    exact ⟨hsign, hmembers⟩
  · rintro ⟨rfl, hmembers⟩
    exact ⟨members, hmembers, rfl⟩

end

/-! ## Plain strings -/

/-- Characters that may stand for themselves do so. -/
theorem content_plain {cs : List Char} (h : cs.all isPlainChar) (rest : List Char) :
    Content (cs ++ '"' :: rest) (cs.map .char) rest := by
  induction cs with
  | nil => exact .close
  | cons c cs ih =>
    rw [List.all_cons, Bool.and_eq_true] at h
    exact .plain h.1 (ih h.2)

theorem text?_map_char (cs : List Char) : text? (cs.map .char) = some (String.ofList cs) := by
  have hcharacters : characters? (cs.map .char) = some cs := by
    induction cs with
    | nil => rfl
    | cons c cs ih => rw [List.map_cons, characters?, ih]; rfl
  rw [text?, hcharacters]
  rfl

/-! ## Where a text ends -/

theorem skipBlanks_length_le (cs : List Char) : (skipBlanks cs).length ≤ cs.length :=
  (List.dropWhile_sublist _).length_le

theorem length_of_skipBlanks {cs rest : List Char} {c : Char} (h : skipBlanks cs = c :: rest) :
    rest.length < cs.length := by
  have hle := skipBlanks_length_le cs
  rw [h, List.length_cons] at hle
  omega

theorem Content.length_lt {cs rest : List Char} {pieces : List Piece} (h : Content cs pieces rest) :
    rest.length < cs.length := by
  induction h with
  | close => exact Nat.lt_succ_self _
  | plain _ _ ih => exact Nat.lt_succ_of_lt ih
  | letter _ _ ih => exact Nat.lt_succ_of_lt (Nat.lt_succ_of_lt ih)
  | code _ _ ih => simp only [List.length_cons]; omega

theorem behindDigits_length_le (cs : List Char) : (behindDigits cs).length ≤ cs.length :=
  (List.dropWhile_sublist _).length_le

theorem Fraction.length_le {cs ds rest : List Char} (h : Fraction cs ds rest) :
    rest.length ≤ cs.length := by
  cases h with
  | absent => exact Nat.le_refl _
  | present => exact Nat.le_succ_of_le (behindDigits_length_le _)

theorem Sign.length_le {cs rest : List Char} {down : Bool} (h : Sign cs down rest) :
    rest.length ≤ cs.length := by
  cases h with
  | none => exact Nat.le_refl _
  | plus => exact Nat.le_succ _
  | minus => exact Nat.le_succ _

theorem Exponent.length_le {cs rest : List Char} {e : Option (Bool × List Char)}
    (h : Exponent cs e rest) : rest.length ≤ cs.length := by
  cases h with
  | absent => exact Nat.le_refl _
  | present _ hsign =>
    exact Nat.le_succ_of_le (Nat.le_trans (behindDigits_length_le _) hsign.length_le)

theorem Digits.length_lt {cs rest : List Char} {n : Numeral} (h : Digits cs n rest) :
    rest.length < cs.length := by
  obtain ⟨d, more, rfl, hd⟩ := h.head
  obtain ⟨-, hfraction, hexponent⟩ := h
  have hbehind : (behindDigits (d :: more)).length ≤ more.length := by
    rw [behindDigits, List.dropWhile_cons_of_pos hd]
    exact behindDigits_length_le more
  exact Nat.lt_succ_of_le
    (Nat.le_trans (Nat.le_trans hexponent.length_le hfraction.length_le) hbehind)

theorem Name.length_lt {cs rest : List Char} {name : Option String} (h : Name cs name rest) :
    rest.length < cs.length := by
  obtain ⟨hquote, hcontent, hcolon⟩ := h
  have := length_of_skipBlanks hquote
  have := hcontent.length_lt
  have := length_of_skipBlanks hcolon
  omega

theorem Items.length_lt {n : Nat}
    (ih : ∀ cs m rest, cs.length < n → Text cs m rest → rest.length < cs.length) {behind : Bool}
    {cs rest : List Char} {items : List Meaning} (h : Items Text behind cs items rest)
    (hn : cs.length < n) : rest.length < cs.length := by
  induction h with
  | close h => exact length_of_skipBlanks h
  | first item _ ihmore =>
    have := ih _ _ _ hn item
    have := ihmore (by omega)
    omega
  | comma h item _ ihmore =>
    have := length_of_skipBlanks h
    have := ih _ _ _ (by omega) item
    have := ihmore (by omega)
    omega

theorem Members.length_lt {n : Nat}
    (ih : ∀ cs m rest, cs.length < n → Text cs m rest → rest.length < cs.length) {behind : Bool}
    {cs rest : List Char} {members : List (Option String × Meaning)}
    (h : Members Text behind cs members rest) (hn : cs.length < n) : rest.length < cs.length := by
  induction h with
  | close h => exact length_of_skipBlanks h
  | first hname item _ ihmore =>
    have := hname.length_lt
    have := ih _ _ _ (by omega) item
    have := ihmore (by omega)
    omega
  | comma h hname item _ ihmore =>
    have := length_of_skipBlanks h
    have := hname.length_lt
    have := ih _ _ _ (by omega) item
    have := ihmore (by omega)
    omega

/-- **Every text takes something.** -/
theorem Text.length_lt {cs rest : List Char} {m : Meaning} (h : Text cs m rest) :
    rest.length < cs.length := by
  -- The items of a list are texts behind its bracket, so they are shorter.
  suffices key : ∀ n cs m rest, cs.length < n → Text cs m rest → rest.length < cs.length from
    key _ cs m rest (Nat.lt_succ_self _) h
  intro n
  induction n with
  | zero => exact fun cs _ _ hn => absurd hn (Nat.not_lt_zero _)
  | succ n ih =>
    intro cs m rest hn h
    cases h with
    | blank _ more => exact Nat.lt_succ_of_lt (ih _ _ _ (Nat.lt_of_succ_lt_succ hn) more)
    | null => simp only [List.length_cons]; omega
    | yes => simp only [List.length_cons]; omega
    | no => simp only [List.length_cons]; omega
    | natural h => exact h.length_lt
    | negative h => exact Nat.lt_succ_of_lt h.length_lt
    | string h => exact Nat.lt_succ_of_lt h.length_lt
    | array h => exact Nat.lt_succ_of_lt (h.length_lt ih (Nat.lt_of_succ_lt_succ hn))
    | object h => exact Nat.lt_succ_of_lt (h.length_lt ih (Nat.lt_of_succ_lt_succ hn))

/-! ## Texts mean one thing -/

theorem Content.unique {cs rest rest' : List Char} {pieces pieces' : List Piece}
    (h : Content cs pieces rest) (h' : Content cs pieces' rest') : pieces = pieces' ∧ rest = rest' := by
  have hslash : letterOf? 'u' = none := by decide
  induction h generalizing pieces' with
  | close =>
    cases h' with
    | close => exact ⟨rfl, rfl⟩
    | plain h => exact absurd h (by decide)
  | plain h _ ih =>
    cases h' with
    | close => exact absurd h (by decide)
    | plain _ more => obtain ⟨rfl, rfl⟩ := ih more; exact ⟨rfl, rfl⟩
    | letter => exact absurd h (by decide)
    | code => exact absurd h (by decide)
  | letter h _ ih =>
    cases h' with
    | plain h => exact absurd h (by decide)
    | letter h' more =>
      rw [h] at h'
      obtain rfl := Option.some.inj h'
      obtain ⟨rfl, rfl⟩ := ih more
      exact ⟨rfl, rfl⟩
    | code => rw [hslash] at h; cases h
  | code h _ ih =>
    cases h' with
    | plain h => exact absurd h (by decide)
    | letter h' => rw [hslash] at h'; cases h'
    | code h' more =>
      rw [h] at h'
      obtain rfl := Option.some.inj h'
      obtain ⟨rfl, rfl⟩ := ih more
      exact ⟨rfl, rfl⟩

theorem Fraction.unique {cs ds ds' rest rest' : List Char} (h : Fraction cs ds rest)
    (h' : Fraction cs ds' rest') : ds = ds' ∧ rest = rest' := by
  cases h with
  | absent h =>
    cases h' with
    | absent => exact ⟨rfl, rfl⟩
    | present => exact absurd rfl h
  | present =>
    cases h' with
    | absent h' => exact absurd rfl h'
    | present => exact ⟨rfl, rfl⟩

theorem Sign.unique {cs rest rest' : List Char} {down down' : Bool} (h : Sign cs down rest)
    (h' : Sign cs down' rest') : down = down' ∧ rest = rest' := by
  cases h with
  | none hplus hminus =>
    cases h' with
    | none => exact ⟨rfl, rfl⟩
    | plus => exact absurd rfl hplus
    | minus => exact absurd rfl hminus
  | plus =>
    cases h' with
    | none hplus _ => exact absurd rfl hplus
    | plus => exact ⟨rfl, rfl⟩
  | minus =>
    cases h' with
    | none _ hminus => exact absurd rfl hminus
    | minus => exact ⟨rfl, rfl⟩

theorem Exponent.unique {cs rest rest' : List Char} {e e' : Option (Bool × List Char)}
    (h : Exponent cs e rest) (h' : Exponent cs e' rest') : e = e' ∧ rest = rest' := by
  cases h with
  | absent hsmall hlarge =>
    cases h' with
    | absent => exact ⟨rfl, rfl⟩
    | present hletter => rcases hletter with rfl | rfl <;> contradiction
  | present hletter hsign =>
    cases h' with
    | absent hsmall hlarge => rcases hletter with rfl | rfl <;> contradiction
    | present _ hsign' => obtain ⟨rfl, rfl⟩ := hsign.unique hsign'; exact ⟨rfl, rfl⟩

theorem Digits.unique {cs rest rest' : List Char} {n n' : Numeral} (h : Digits cs n rest)
    (h' : Digits cs n' rest') : n = n' ∧ rest = rest' := by
  obtain ⟨-, hfraction, hexponent⟩ := h
  obtain ⟨-, hfraction', hexponent'⟩ := h'
  obtain ⟨rfl, rfl⟩ := hfraction.unique hfraction'
  obtain ⟨rfl, rfl⟩ := hexponent.unique hexponent'
  exact ⟨rfl, rfl⟩

theorem Name.unique {cs rest rest' : List Char} {name name' : Option String}
    (h : Name cs name rest) (h' : Name cs name' rest') : name = name' ∧ rest = rest' := by
  obtain ⟨hquote, hcontent, hcolon⟩ := h
  obtain ⟨hquote', hcontent', hcolon'⟩ := h'
  rw [hquote] at hquote'
  obtain rfl := (List.cons.inj hquote').2
  obtain ⟨rfl, rfl⟩ := hcontent.unique hcontent'
  rw [hcolon] at hcolon'
  exact ⟨rfl, (List.cons.inj hcolon').2⟩

/-- What a text means is not in doubt for shorter texts than `n`. -/
def UniqueBelow (n : Nat) : Prop :=
  ∀ cs m m' rest rest', cs.length < n → Text cs m rest → Text cs m' rest' → m = m' ∧ rest = rest'

theorem Items.unique {n : Nat} (ih : UniqueBelow n) {behind : Bool} {cs rest rest' : List Char}
    {items items' : List Meaning} (h : Items Text behind cs items rest)
    (h' : Items Text behind cs items' rest') (hn : cs.length < n) :
    items = items' ∧ rest = rest' := by
  induction h generalizing items' with
  | close h =>
    cases h' with
    | close h' =>
      rw [h] at h'
      exact ⟨rfl, (List.cons.inj h').2⟩
    | first item _ => exact absurd rfl (item.head h).1
    | comma h' _ _ =>
      rw [h] at h'
      exact absurd (List.cons.inj h').1 (by decide)
  | first item _ ihmore =>
    cases h' with
    | close h' => exact absurd rfl (item.head h').1
    | first item' more' =>
      obtain ⟨rfl, rfl⟩ := ih _ _ _ _ _ hn item item'
      obtain ⟨rfl, rfl⟩ := ihmore more' (Nat.lt_trans item.length_lt hn)
      exact ⟨rfl, rfl⟩
  | comma h item _ ihmore =>
    cases h' with
    | close h' =>
      rw [h] at h'
      exact absurd (List.cons.inj h').1 (by decide)
    | comma h' item' more' =>
      rw [h] at h'
      obtain rfl := (List.cons.inj h').2
      have hlt := Nat.lt_trans (length_of_skipBlanks h) hn
      obtain ⟨rfl, rfl⟩ := ih _ _ _ _ _ hlt item item'
      obtain ⟨rfl, rfl⟩ := ihmore more' (Nat.lt_trans item.length_lt hlt)
      exact ⟨rfl, rfl⟩

theorem Name.head {cs rest : List Char} {name : Option String} (h : Name cs name rest) :
    ∃ front, skipBlanks cs = '"' :: front := by
  obtain ⟨hquote, -, -⟩ := h
  exact ⟨_, hquote⟩

theorem Members.unique {n : Nat} (ih : UniqueBelow n) {behind : Bool} {cs rest rest' : List Char}
    {members members' : List (Option String × Meaning)} (h : Members Text behind cs members rest)
    (h' : Members Text behind cs members' rest') (hn : cs.length < n) :
    members = members' ∧ rest = rest' := by
  have hquote {cs front rest : List Char} {name : Option String} (hname : Name cs name rest)
      (h : skipBlanks cs = '\x7d' :: front) : False := by
    obtain ⟨front', hfront⟩ := hname.head
    rw [h] at hfront
    exact absurd (List.cons.inj hfront).1 (by decide)
  induction h generalizing members' with
  | close h =>
    cases h' with
    | close h' =>
      rw [h] at h'
      exact ⟨rfl, (List.cons.inj h').2⟩
    | first hname _ _ => exact (hquote hname h).elim
    | comma h' _ _ _ =>
      rw [h] at h'
      exact absurd (List.cons.inj h').1 (by decide)
  | first hname item _ ihmore =>
    cases h' with
    | close h' => exact (hquote hname h').elim
    | first hname' item' more' =>
      obtain ⟨rfl, rfl⟩ := hname.unique hname'
      have hlt := Nat.lt_trans hname.length_lt hn
      obtain ⟨rfl, rfl⟩ := ih _ _ _ _ _ hlt item item'
      obtain ⟨rfl, rfl⟩ := ihmore more' (Nat.lt_trans item.length_lt hlt)
      exact ⟨rfl, rfl⟩
  | comma h hname item _ ihmore =>
    cases h' with
    | close h' =>
      rw [h] at h'
      exact absurd (List.cons.inj h').1 (by decide)
    | comma h' hname' item' more' =>
      rw [h] at h'
      obtain rfl := (List.cons.inj h').2
      obtain ⟨rfl, rfl⟩ := hname.unique hname'
      have hlt := Nat.lt_trans hname.length_lt (Nat.lt_trans (length_of_skipBlanks h) hn)
      obtain ⟨rfl, rfl⟩ := ih _ _ _ _ _ hlt item item'
      obtain ⟨rfl, rfl⟩ := ihmore more' (Nat.lt_trans item.length_lt hlt)
      exact ⟨rfl, rfl⟩

theorem BySign.unique {n : Nat} (ih : UniqueBelow n) {c : Char} {cs rest rest' : List Char}
    {m m' : Meaning} (h : BySign c cs m rest) (h' : BySign c cs m' rest') (hn : cs.length < n) :
    m = m' ∧ rest = rest' := by
  unfold BySign at h h'
  split_ifs at h h'
  · obtain ⟨rfl, rfl⟩ := h
    obtain ⟨heq, rfl⟩ := h'
    exact ⟨rfl, by simpa using heq⟩
  · obtain ⟨rfl, rfl⟩ := h
    obtain ⟨heq, rfl⟩ := h'
    exact ⟨rfl, by simpa using heq⟩
  · obtain ⟨rfl, rfl⟩ := h
    obtain ⟨heq, rfl⟩ := h'
    exact ⟨rfl, by simpa using heq⟩
  · obtain ⟨n, h, rfl⟩ := h
    obtain ⟨n', h', rfl⟩ := h'
    obtain ⟨rfl, rfl⟩ := h.unique h'
    exact ⟨rfl, rfl⟩
  · obtain ⟨n, h, rfl⟩ := h
    obtain ⟨n', h', rfl⟩ := h'
    obtain ⟨rfl, rfl⟩ := h.unique h'
    exact ⟨rfl, rfl⟩
  · obtain ⟨pieces, h, rfl⟩ := h
    obtain ⟨pieces', h', rfl⟩ := h'
    obtain ⟨rfl, rfl⟩ := h.unique h'
    exact ⟨rfl, rfl⟩
  · obtain ⟨items, h, rfl⟩ := h
    obtain ⟨items', h', rfl⟩ := h'
    obtain ⟨rfl, rfl⟩ := h.unique ih h' hn
    exact ⟨rfl, rfl⟩
  · obtain ⟨members, h, rfl⟩ := h
    obtain ⟨members', h', rfl⟩ := h'
    obtain ⟨rfl, rfl⟩ := h.unique ih h' hn
    exact ⟨rfl, rfl⟩

/-- **What a text means and where it ends is never in doubt.** -/
theorem Text.unique {cs rest rest' : List Char} {m m' : Meaning} (h : Text cs m rest)
    (h' : Text cs m' rest') : m = m' ∧ rest = rest' := by
  suffices key : ∀ n, UniqueBelow n from key _ _ _ _ _ _ (Nat.lt_succ_self _) h h'
  intro n
  induction n with
  | zero => exact fun cs _ _ _ _ hn => absurd hn (Nat.not_lt_zero _)
  | succ n ih =>
    intro cs m m' rest rest' hn h h'
    rw [← text_skipBlanks] at h h'
    cases hcs : skipBlanks cs with
    | nil => exact absurd hcs (text_skipBlanks.1 h).ne_nil
    | cons c tail =>
      rw [hcs, text_cons_iff (not_isBlankChar_of_skipBlanks hcs)] at h h'
      have := length_of_skipBlanks hcs
      exact h.unique ih h' (by omega)

theorem Document.unique {cs : List Char} {m m' : Meaning} (h : Document cs m)
    (h' : Document cs m') : m = m' := by
  obtain ⟨_, h, -⟩ := h
  obtain ⟨_, h', -⟩ := h'
  exact (h.unique h').1

end MetaCache.Json
