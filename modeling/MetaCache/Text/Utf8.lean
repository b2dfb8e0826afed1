/-!
# Well-formed UTF-8

A character takes one to four bytes. The first byte tells how many, and narrows the range of the
second, so that every character has one form only and surrogates have none.
-/

namespace MetaCache.Text

/-- Whether a byte goes on with a character. -/
def isContinuation (b : UInt8) : Bool := 0x80 ≤ b && b ≤ 0xbf

/-- Whether `b` may follow `lead`. -/
def mayFollow (lead b : UInt8) : Bool :=
  if lead = 0xe0 then 0xa0 ≤ b && b ≤ 0xbf
  else if lead = 0xed then 0x80 ≤ b && b ≤ 0x9f
  else if lead = 0xf0 then 0x90 ≤ b && b ≤ 0xbf
  else if lead = 0xf4 then 0x80 ≤ b && b ≤ 0x8f
  else isContinuation b

/-- How many bytes the character ahead has; none if there is no well-formed one. -/
def charWidth? : List UInt8 → Option Nat
  | [] => none
  | lead :: rest =>
    if lead < 0x80 then some 1
    else
      match rest with
      | b :: rest =>
        if !mayFollow lead b then none
        else if 0xc2 ≤ lead && lead ≤ 0xdf then some 2
        else
          match rest with
          | c :: rest =>
            if !isContinuation c then none
            else if 0xe0 ≤ lead && lead ≤ 0xef then some 3
            else
              match rest with
              | d :: _ =>
                if isContinuation d && 0xf0 ≤ lead && lead ≤ 0xf4 then some 4 else none
              | [] => none
          | [] => none
      | [] => none

/-- The longest part that is well-formed, `skipped` bytes of the first character being behind. -/
def wellFormedPart : List UInt8 → Nat → List UInt8
  | [], _ => []
  | b :: rest, skipped + 1 => b :: wellFormedPart rest skipped
  | b :: rest, 0 =>
    match charWidth? (b :: rest) with
    | some width => b :: wellFormedPart rest (width - 1)
    | none => []

end MetaCache.Text
