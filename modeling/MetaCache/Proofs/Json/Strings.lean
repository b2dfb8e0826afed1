import MetaCache.Proofs.Json.Reads

/-!
# Strings that were written read back

Bytes that need no escape go through as they are, and an escape gives the byte it stands for. So the
content of a written string reads as the bytes of its characters (`stringContent_written`), and
those are UTF-8.
-/

namespace MetaCache.Json

open MetaCache.Text

/-! ## Bytes that stand for themselves -/

/-- A byte that stands for itself inside a string. -/
def isPlain (b : UInt8) : Bool := 0x20 ≤ b && b ≠ 0x22 && b ≠ 0x5c

theorem stringContent_plain {b : UInt8} (h : isPlain b) (rest done : List UInt8) (p : Position) :
    stringContent (b :: rest) p done = stringContent rest (p.after b) (b :: done) := by
  simp only [isPlain, Bool.and_eq_true, decide_eq_true_eq] at h
  obtain ⟨⟨hlow, hquote⟩, hslash⟩ := h
  rw [stringContent.eq_def]
  simp only [if_neg hquote, if_neg hslash, if_neg (UInt8.not_lt.2 hlow)]

theorem stringContent_plain_append {bytes : List UInt8} (h : ∀ b ∈ bytes, isPlain b)
    (rest done : List UInt8) (p : Position) :
    stringContent (bytes ++ rest) p done
      = stringContent rest (p.afterAll bytes) (bytes.reverse ++ done) := by
  induction bytes generalizing p done with
  | nil => rfl
  | cons b bytes ih =>
    rw [List.cons_append, stringContent_plain (h b List.mem_cons_self),
      ih fun b hb => h b (List.mem_cons_of_mem _ hb)]
    simp

/-- The bytes of a character that is written as itself. -/
theorem isPlain_of_mem_utf8EncodeChar {c : Char} (hlow : 0x20 ≤ c.toNat) (hquote : c ≠ '"')
    (hslash : c ≠ '\\') {b : UInt8} (hb : b ∈ String.utf8EncodeChar c) : isPlain b := by
  rcases Nat.lt_or_ge c.toNat 0x80 with h | h
  · rw [utf8EncodeChar_of_lt h, List.mem_singleton] at hb
    subst hb
    have hne {d : Char} (hd : d.toNat < 0x80) (hcd : c ≠ d) :
        UInt8.ofNat c.toNat ≠ UInt8.ofNat d.toNat := by
      intro he
      apply hcd
      have hn := congrArg UInt8.toNat he
      rw [UInt8.toNat_ofNat', UInt8.toNat_ofNat'] at hn
      rw [← Char.ofNat_toNat c, ← Char.ofNat_toNat d]
      congr 1
      omega
    simp only [isPlain, Bool.and_eq_true, decide_eq_true_eq]
    refine ⟨⟨?_, hne (d := '"') (by decide) hquote⟩, hne (d := '\\') (by decide) hslash⟩
    rw [UInt8.le_iff_toNat_le, UInt8.toNat_ofNat']
    have : (0x20 : UInt8).toNat = 32 := rfl
    omega
  · have hge := le_of_mem_utf8EncodeChar h hb
    simp only [isPlain, Bool.and_eq_true, decide_eq_true_eq]
    refine ⟨⟨?_, ?_⟩, ?_⟩ <;> grind

/-! ## Escapes -/

theorem stringContent_letter {e b : UInt8} (h : letterEscape? e = some b)
    (rest done : List UInt8) (p : Position) :
    stringContent (0x5c :: e :: rest) p done
      = stringContent rest ((p.after 0x5c).after e) (b :: done) := by
  rw [stringContent.eq_def]
  simp [h]

/-- The escape of a control character by its code. -/
def codeEscape (n : Nat) : List UInt8 :=
  utf8 ['\\', 'u', '0', '0', hexChar ⟨n / 16 % 16, by omega⟩, hexChar ⟨n % 16, by omega⟩]

/-- Four digits give the code of a control character. -/
theorem codeUnit?_codeEscape : ∀ n < 0x20,
    codeUnit? 0x30 0x30 (UInt8.ofNat (hexChar ⟨n / 16 % 16, by omega⟩).toNat)
      (UInt8.ofNat (hexChar ⟨n % 16, by omega⟩).toNat) = some n := by
  decide

theorem codePointReversed_eq (n : Nat) :
    codePointReversed n = (String.utf8EncodeChar (Char.ofNat n)).reverse := by
  have h : (Char.ofNat n).toString.toUTF8.data.toList = utf8 [Char.ofNat n] :=
    bytesOf_ofList [Char.ofNat n]
  rw [codePointReversed, h, utf8_cons, utf8_nil, List.append_nil]

theorem stringContent_code {n : Nat} (h : n < 0x20) (rest done : List UInt8) (p : Position) :
    stringContent (codeEscape n ++ rest) p done
      = stringContent rest (p.afterAll (codeEscape n))
          ((String.utf8EncodeChar (Char.ofNat n)).reverse ++ done) := by
  have hd (d : Fin 16) : (hexChar d).toNat < 0x80 := by revert d; decide
  have htext : codeEscape n = [0x5c, 0x75, 0x30, 0x30,
      UInt8.ofNat (hexChar ⟨n / 16 % 16, by omega⟩).toNat,
      UInt8.ofNat (hexChar ⟨n % 16, by omega⟩).toNat] := by
    simp [codeEscape, utf8_cons_of_lt, hd]
  rw [htext, stringContent.eq_def]
  have hletter : letterEscape? 0x75 = none := by decide
  have hsecond : isSecondSurrogate n = false := by simp [isSecondSurrogate]; omega
  have hfirst : isFirstSurrogate n = false := by simp [isFirstSurrogate]; omega
  simp [codeUnit?_codeEscape n h, hletter, hsecond, hfirst, codePointReversed_eq]

/-- A character whose escape is one letter. -/
theorem stringContent_letterOf {c : Char} {b e : UInt8} {letter : Char}
    (htext : utf8 ['\\', letter] = [0x5c, e]) (he : letterEscape? e = some b)
    (hc : String.utf8EncodeChar c = [b]) (rest done : List UInt8) (p : Position) :
    stringContent (utf8 ['\\', letter] ++ rest) p done
      = stringContent rest (p.afterAll (utf8 ['\\', letter]))
          ((String.utf8EncodeChar c).reverse ++ done) := by
  rw [htext, hc]
  exact stringContent_letter he rest done p

/-- **A character that was written in a string reads as its bytes.** -/
theorem stringContent_escapeChar (c : Char) (rest done : List UInt8) (p : Position) :
    stringContent (utf8 (escapeChar c) ++ rest) p done
      = stringContent rest (p.afterAll (utf8 (escapeChar c)))
          ((String.utf8EncodeChar c).reverse ++ done) := by
  unfold escapeChar
  split
  · next h =>
    exact stringContent_letterOf (e := 0x22) (by decide) (by decide)
      (utf8EncodeChar_of_toNat (n := 0x22) (congrArg Char.toNat h) (by decide)) ..
  split
  · next h =>
    exact stringContent_letterOf (e := 0x5c) (by decide) (by decide)
      (utf8EncodeChar_of_toNat (n := 0x5c) (congrArg Char.toNat h) (by decide)) ..
  split
  · next h =>
    exact stringContent_letterOf (e := 0x62) (by decide) (by decide)
      (utf8EncodeChar_of_toNat h (by decide)) ..
  split
  · next h =>
    exact stringContent_letterOf (e := 0x74) (by decide) (by decide)
      (utf8EncodeChar_of_toNat h (by decide)) ..
  split
  · next h =>
    exact stringContent_letterOf (e := 0x6e) (by decide) (by decide)
      (utf8EncodeChar_of_toNat h (by decide)) ..
  split
  · next h =>
    exact stringContent_letterOf (e := 0x66) (by decide) (by decide)
      (utf8EncodeChar_of_toNat h (by decide)) ..
  split
  · next h =>
    exact stringContent_letterOf (e := 0x72) (by decide) (by decide)
      (utf8EncodeChar_of_toNat h (by decide)) ..
  split
  · next h =>
    have hcode := stringContent_code h rest done p
    rwa [Char.ofNat_toNat] at hcode
  · next hquote hslash _ _ _ _ _ hlow =>
    rw [utf8_cons, utf8_nil, List.append_nil]
    exact stringContent_plain_append (fun b hb =>
      isPlain_of_mem_utf8EncodeChar (Nat.le_of_not_lt hlow) hquote hslash hb) ..

/-! ## Strings -/

/-- The content of a written string reads as the bytes of its characters. -/
theorem stringContent_written (cs : List Char) (rest done : List UInt8) (p : Position) :
    stringContent (utf8 (cs.flatMap escapeChar) ++ 0x22 :: rest) p done
      = .done (done.reverse ++ utf8 cs)
          ⟨rest, p.afterAll (utf8 (cs.flatMap escapeChar) ++ [0x22])⟩ := by
  induction cs generalizing p done with
  | nil =>
    rw [List.flatMap_nil, utf8_nil, List.nil_append, stringContent.eq_def]
    simp
  | cons c cs ih =>
    rw [List.flatMap_cons, utf8_append, List.append_assoc, stringContent_escapeChar, ih]
    simp [utf8_cons]

/-- **A written string reads as that string**, once its opening quote is behind. -/
theorem string_written (s : String) (rest : List UInt8) (p : Position) :
    Reader.string ⟨utf8 (s.toList.flatMap escapeChar) ++ 0x22 :: rest, p⟩
      = .done s ⟨rest, p.afterAll (utf8 (s.toList.flatMap escapeChar) ++ [0x22])⟩ := by
  simp only [Reader.string, stringContent_written, List.reverse_nil, List.nil_append,
    fromUTF8?_utf8]

end MetaCache.Json
