import MetaCache.Json.Decode
import MetaCache.Proofs.Text.Bytes

/-!
# What readers make of texts

`Reads r text a` says that the reader `r` takes the whole text and ends with `a`, whatever comes
behind the text. The one exception is what could belong to a number: a text of digits ends where no
digit, point or exponent follows (`Apart`).

The statement is an equation, position included, so readers can be followed step by step by
rewriting. What holds of a reader of one item holds of the loops over many (`list_reads`,
`object_reads`).
-/

namespace MetaCache.Json

open MetaCache.Text

variable {α β σ : Type}

/-! ## Texts as bytes -/

theorem bytesOf_ofList (cs : List Char) : bytesOf (String.ofList cs) = utf8 cs := by
  simp [bytesOf, String.toUTF8, String.ofList, List.utf8Encode, utf8]

theorem bytesOf_eq_utf8 (text : String) : bytesOf text = utf8 text.toList := by
  rw [← bytesOf_ofList, String.ofList_toList]

/-! ## Positions -/

namespace Position

@[simp]
theorem afterAll_nil (p : Position) : p.afterAll [] = p := rfl

@[simp]
theorem afterAll_cons (p : Position) (b : UInt8) (bytes : List UInt8) :
    p.afterAll (b :: bytes) = (p.after b).afterAll bytes := rfl

@[simp]
theorem afterAll_append (p : Position) (bytes more : List UInt8) :
    p.afterAll (bytes ++ more) = (p.afterAll bytes).afterAll more :=
  List.foldl_append

end Position

/-! ## Steps of readers -/

namespace Reader

theorem bind_of_done {r : Reader α} {f : α → Reader β} {i i' : Input} {a : α}
    (h : r i = .done a i') : (r >>= f) i = f a i' := by
  rw [bind_apply, h]

theorem advance_bind (f : Unit → Reader β) (b : UInt8) (rest : List UInt8) (p : Position) :
    (advance >>= f) ⟨b :: rest, p⟩ = f () ⟨rest, p.after b⟩ := rfl

theorem peek_bind (f : Option UInt8 → Reader β) (i : Input) :
    (peek >>= f) i = f i.ahead.head? i := rfl

theorem next_bind (f : Option UInt8 → Reader β) (b : UInt8) (rest : List UInt8) (p : Position) :
    (next >>= f) ⟨b :: rest, p⟩ = f (some b) ⟨rest, p.after b⟩ := rfl

/-- Where no blank is ahead, the next sign is the next byte. -/
theorem nextSign_of_not_blank {b : UInt8} (h : isBlank b = false) (rest : List UInt8)
    (p : Position) : nextSign ⟨b :: rest, p⟩ = .done (some b) ⟨b :: rest, p⟩ := by
  simp [nextSign, bind_apply, takeWhile, peek, h]

theorem nextSign_bind {b : UInt8} (h : isBlank b = false) (f : Option UInt8 → Reader β)
    (rest : List UInt8) (p : Position) :
    (nextSign >>= f) ⟨b :: rest, p⟩ = f (some b) ⟨b :: rest, p⟩ :=
  bind_of_done (nextSign_of_not_blank h rest p)

theorem located_of_done {r : Reader α} {i i' : Input} {a : α} (h : r i = .done a i') :
    located r i = .done a i' := by
  simp [located, h]

theorem enclosed_of_done {inside : Reader α} {close : Reader Unit} {i i' i'' : Input} {a : α}
    (h : inside i = .done a i') (hc : close i' = .done () i'') :
    enclosed inside close i = .done a i'' := by
  simp [enclosed, h, hc]

theorem opening_of_done {levels : Nat} {inside : Nat → Reader α} {b : UInt8} {rest : List UInt8}
    {p : Position} {i' : Input} {a : α} (h : inside levels ⟨rest, p.after b⟩ = .done a i') :
    opening (levels + 1) inside ⟨b :: rest, p⟩ = .done a i' := h

end Reader

/-! ## Reading a text -/

/-- Whether a byte may go on with a number. -/
def continuesNumber (b : UInt8) : Bool := isDigit b || b = 0x2e || b = 0x65 || b = 0x45

/-- Nothing at the front goes on with a number. -/
def Apart (rest : List UInt8) : Prop := ∀ b ∈ rest.head?, continuesNumber b = false

theorem apart_nil : Apart [] := by simp [Apart]

theorem apart_cons {b : UInt8} {rest : List UInt8} (h : continuesNumber b = false) :
    Apart (b :: rest) := by simpa [Apart] using h

/-- The reader takes the bytes and ends with `a`, whatever stands apart behind them. -/
def Reads (r : Reader α) (bytes : List UInt8) (a : α) : Prop :=
  ∀ (rest : List UInt8) (p : Position), Apart rest →
    r ⟨bytes ++ rest, p⟩ = .done a ⟨rest, p.afterAll bytes⟩

namespace Reads

theorem pure (a : α) : Reads (Pure.pure a) [] a := fun _ _ _ => rfl

/-- One reader after another, if what the second one takes stands apart. -/
theorem bind {r : Reader α} {f : α → Reader β} {bytes more : List UInt8} {a : α} {b : β}
    (hr : Reads r bytes a) (hf : Reads (f a) more b)
    (happ : ∀ rest, Apart rest → Apart (more ++ rest)) : Reads (r >>= f) (bytes ++ more) b := by
  intro rest p hrest
  rw [List.append_assoc, Reader.bind_of_done (hr _ p (happ rest hrest)), hf _ _ hrest,
    Position.afterAll_append]

/-- What is done with the value read. -/
theorem map {r : Reader α} {bytes : List UInt8} {a : α} (hr : Reads r bytes a) (f : α → β) :
    Reads (do return f (← r)) bytes (f a) := by
  intro rest p hrest
  rw [Reader.bind_of_done (hr rest p hrest)]
  rfl

theorem located {r : Reader α} {bytes : List UInt8} {a : α} (hr : Reads r bytes a) :
    Reads (Reader.located r) bytes a := fun rest p hrest =>
  Reader.located_of_done (hr rest p hrest)

end Reads

end MetaCache.Json
