/-!
# Texts as bytes

The bytes of a text in UTF-8. A character of ASCII is one byte below 0x80, and all bytes of any other
character are above, so the last byte of a text tells whether its last character is one of ASCII.
-/

namespace MetaCache.Text

/-- The bytes of characters. -/
def utf8 (cs : List Char) : List UInt8 := cs.flatMap String.utf8EncodeChar

@[simp]
theorem utf8_nil : utf8 [] = [] := rfl

theorem utf8_cons (c : Char) (cs : List Char) : utf8 (c :: cs) = String.utf8EncodeChar c ++ utf8 cs :=
  List.flatMap_cons

@[simp]
theorem utf8_append (cs ds : List Char) : utf8 (cs ++ ds) = utf8 cs ++ utf8 ds :=
  List.flatMap_append

theorem utf8EncodeChar_of_lt {c : Char} (h : c.toNat < 0x80) :
    String.utf8EncodeChar c = [UInt8.ofNat c.toNat] := by
  have hle : c.val.toNat ≤ 127 := Nat.le_of_lt_succ h
  unfold String.utf8EncodeChar
  rw [if_pos hle]
  rfl

/-- A character of ASCII, known by its number. -/
theorem utf8EncodeChar_of_toNat {c : Char} {n : Nat} (h : c.toNat = n) (hn : n < 0x80) :
    String.utf8EncodeChar c = [UInt8.ofNat n] := by
  subst h
  exact utf8EncodeChar_of_lt hn

/-- An ASCII character at the front is one byte. -/
theorem utf8_cons_of_lt {c : Char} (h : c.toNat < 0x80) (cs : List Char) :
    utf8 (c :: cs) = UInt8.ofNat c.toNat :: utf8 cs := by
  rw [utf8_cons, utf8EncodeChar_of_lt h, List.singleton_append]

/-- Characters of ASCII are one byte each. -/
theorem utf8_of_ascii {cs : List Char} (h : ∀ c ∈ cs, c.toNat < 0x80) :
    utf8 cs = cs.map fun c => UInt8.ofNat c.toNat := by
  induction cs with
  | nil => rfl
  | cons c cs ih =>
    rw [utf8_cons_of_lt (h c List.mem_cons_self), List.map_cons,
      ih fun d hd => h d (List.mem_cons_of_mem _ hd)]

/-- Bytes of characters beyond ASCII are far above those with a meaning of their own. -/
theorem le_of_mem_utf8EncodeChar {c : Char} (h : 0x80 ≤ c.toNat) {b : UInt8}
    (hb : b ∈ String.utf8EncodeChar c) : 0x80 ≤ b := by
  have hgt : ¬ c.val.toNat ≤ 127 := by
    have : c.toNat = c.val.toNat := rfl
    omega
  have hmod (n k : Nat) (hk : 128 ≤ k) (hn : n + k < 256) : 0x80 ≤ UInt8.ofNat (n + k) := by
    rw [UInt8.le_iff_toNat_le, UInt8.toNat_ofNat']
    have : (0x80 : UInt8).toNat = 128 := rfl
    omega
  unfold String.utf8EncodeChar at hb
  simp only [if_neg hgt] at hb
  split at hb
  · simp only [List.mem_cons, List.not_mem_nil, or_false] at hb
    rcases hb with rfl | rfl <;> exact hmod _ _ (by omega) (by omega)
  · split at hb
    · simp only [List.mem_cons, List.not_mem_nil, or_false] at hb
      rcases hb with rfl | rfl | rfl <;> exact hmod _ _ (by omega) (by omega)
    · simp only [List.mem_cons, List.not_mem_nil, or_false] at hb
      rcases hb with rfl | rfl | rfl | rfl <;> exact hmod _ _ (by omega) (by omega)

/-- The bytes of a string are that string. -/
theorem fromUTF8?_utf8 (s : String) : String.fromUTF8? ⟨(utf8 s.toList).toArray⟩ = some s := by
  have h : (⟨(utf8 s.toList).toArray⟩ : ByteArray) = s.toByteArray := by
    rw [← String.utf8Encode_toList]
    ext1
    simp [List.utf8Encode, utf8]
  have hvalid : (⟨(utf8 s.toList).toArray⟩ : ByteArray).IsValidUTF8 := h ▸ s.isValidUTF8
  rw [String.fromUTF8?, dif_pos hvalid]
  congr 1
  exact String.toByteArray_inj.1 h

/-- A text that bytes are decoded to has these bytes. -/
theorem utf8_of_fromUTF8? {bytes : List UInt8} {s : String}
    (h : String.fromUTF8? ⟨bytes.toArray⟩ = some s) : utf8 s.toList = bytes := by
  unfold String.fromUTF8? at h
  split at h
  · next hvalid =>
    have hs : s.toByteArray = ⟨bytes.toArray⟩ := congrArg String.toByteArray (Option.some.inj h.symm)
    have hencode : (utf8 s.toList).toByteArray = ⟨bytes.toArray⟩ := by
      rw [← hs, ← String.utf8Encode_toList]
      rfl
    have hdata := congrArg (fun a => a.data.toList) hencode
    simpa using hdata
  · cases h

/-- Where the last byte is one of ASCII, so is the last character. -/
theorem eq_append_of_utf8 {m : Char} (hm : m.toNat < 0x80) {text : List Char} {bytes : List UInt8}
    (h : utf8 text = bytes ++ [UInt8.ofNat m.toNat]) : ∃ front, text = front ++ [m] := by
  rcases List.eq_nil_or_concat text with rfl | ⟨front, c, hfront⟩
  · simp at h
  · rw [List.concat_eq_append] at hfront
    rw [hfront, utf8_append, utf8_cons, utf8_nil, List.append_nil] at h
    have hmem : UInt8.ofNat m.toNat ∈ String.utf8EncodeChar c := by
      have hlast := congrArg List.getLast? h
      rw [List.getLast?_append, List.getLast?_eq_some_getLast String.utf8EncodeChar_ne_nil,
        Option.some_or, List.getLast?_concat] at hlast
      rw [← Option.some.inj hlast]
      exact List.getLast_mem _
    rcases Nat.lt_or_ge c.toNat 0x80 with hc | hc
    · rw [utf8EncodeChar_of_lt hc, List.mem_singleton] at hmem
      have hbyte := congrArg UInt8.toNat hmem
      simp only [UInt8.toNat_ofNat'] at hbyte
      have hcm : c.toNat = m.toNat := by omega
      exact ⟨front, by rw [hfront, Char.toNat_inj.1 hcm]⟩
    · have hle := UInt8.le_iff_toNat_le.1 (le_of_mem_utf8EncodeChar hc hmem)
      have hvalue : (0x80 : UInt8).toNat = 128 := rfl
      simp only [UInt8.toNat_ofNat'] at hle
      omega

end MetaCache.Text
