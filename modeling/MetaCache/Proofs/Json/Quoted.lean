import MetaCache.Proofs.Json.Exact

/-!
# Strings are read exactly

A string is read from its content to its closing quote and ends with the characters that its pieces
stand for (`string_exact`). To skip it, the pieces need not stand for any (`skipString_exact`).

The reader resolves a pair of surrogates as soon as it meets the first one; the grammar lists single
code units and joins them afterwards (`characters?`). So the steps of the reader are cases of what
stands behind a backslash: a letter, a code unit of its own or a pair.
-/

namespace MetaCache.Json

open MetaCache.Text

/-! ## Escapes -/

theorem hexValue?_lt {c : Char} {d : Fin 16} (h : hexValue? c = some d) : c.toNat < 0x80 := by
  unfold hexValue? at h
  simp only at h
  split at h
  · omega
  · split at h
    · omega
    · split at h
      · omega
      · cases h

theorem toNat_charOfByte (b : UInt8) : (Char.ofNat b.toNat).toNat = b.toNat := by
  have hall : ∀ n < 256, (Char.ofNat n).toNat = n := by decide +kernel
  exact hall _ b.toNat_lt

theorem lt_of_hexValue? {b : UInt8} {d : Fin 16} (h : hexValue? (Char.ofNat b.toNat) = some d) :
    b < 0x80 := by
  have hlt := hexValue?_lt h
  rw [toNat_charOfByte] at hlt
  exact UInt8.lt_iff_toNat_lt.2 hlt

/-- A hexadecimal digit is known by its byte. -/
theorem hexValue?_sign (c : Char) : hexValue? (Char.ofNat (sign c).toNat) = hexValue? c := by
  rcases Nat.lt_or_ge c.toNat 0x80 with hc | hc
  · rw [sign_of_lt hc, toNat_ofNat_of_lt hc, Char.ofNat_toNat]
  · have hnone : hexValue? c = none := Option.eq_none_iff_forall_ne_some.2 fun d hd =>
      absurd (hexValue?_lt hd) (Nat.not_lt.2 hc)
    rw [hnone, Option.eq_none_iff_forall_ne_some]
    exact fun d hd => absurd (lt_of_hexValue? hd) (UInt8.not_lt.2 (le_sign hc))

theorem codeUnit?_sign (x y z w : Char) :
    codeUnit? (sign x) (sign y) (sign z) (sign w) = unitOf? x y z w := by
  simp only [codeUnit?, unitOf?, hexValue?_sign]

theorem unitOf?_lt {x y z w : Char} {n : Nat} (h : unitOf? x y z w = some n) :
    x.toNat < 0x80 ∧ y.toNat < 0x80 ∧ z.toNat < 0x80 ∧ w.toNat < 0x80 := by
  simp only [unitOf?, Option.bind_eq_bind, Option.bind_eq_some_iff] at h
  obtain ⟨a, ha, b, hb, c, hc, d, hd, -⟩ := h
  exact ⟨hexValue?_lt ha, hexValue?_lt hb, hexValue?_lt hc, hexValue?_lt hd⟩

/-- The bytes of a code unit's digits. -/
theorem utf8_unit {x y z w : Char} {n : Nat} (h : unitOf? x y z w = some n) (cs : List Char) :
    utf8 (x :: y :: z :: w :: cs) = sign x :: sign y :: sign z :: sign w :: utf8 cs := by
  obtain ⟨hx, hy, hz, hw⟩ := unitOf?_lt h
  rw [utf8_cons_of_lt hx, utf8_cons_of_lt hy, utf8_cons_of_lt hz, utf8_cons_of_lt hw,
    sign_of_lt hx, sign_of_lt hy, sign_of_lt hz, sign_of_lt hw]

theorem exists_cons_sign {cs : List Char} {b : UInt8} {bytes : List UInt8}
    (h : utf8 cs = b :: bytes) (hb : b < 0x80) :
    ∃ c rest, cs = c :: rest ∧ b = sign c ∧ bytes = utf8 rest := by
  obtain ⟨c, rest, rfl, hc, hrest⟩ := exists_cons_of_utf8 h hb
  refine ⟨c, rest, rfl, ?_, hrest⟩
  have hhead := head?_utf8_cons c rest
  rw [h] at hhead
  exact Option.some.inj hhead

/-- Four bytes that are a code unit are four digits. -/
theorem exists_unit_of_utf8 {cs : List Char} {b₁ b₂ b₃ b₄ : UInt8} {bytes : List UInt8} {n : Nat}
    (h : utf8 cs = b₁ :: b₂ :: b₃ :: b₄ :: bytes) (hn : codeUnit? b₁ b₂ b₃ b₄ = some n) :
    ∃ x y z w rest, cs = x :: y :: z :: w :: rest ∧ unitOf? x y z w = some n
      ∧ bytes = utf8 rest := by
  have hall := hn
  simp only [codeUnit?, Option.bind_eq_bind, Option.bind_eq_some_iff] at hall
  obtain ⟨_, h₁, _, h₂, _, h₃, _, h₄, -⟩ := hall
  obtain ⟨x, cs₁, rfl, rfl, hcs₁⟩ := exists_cons_sign h (lt_of_hexValue? h₁)
  obtain ⟨y, cs₂, rfl, rfl, hcs₂⟩ := exists_cons_sign hcs₁.symm (lt_of_hexValue? h₂)
  obtain ⟨z, cs₃, rfl, rfl, hcs₃⟩ := exists_cons_sign hcs₂.symm (lt_of_hexValue? h₃)
  obtain ⟨w, cs₄, rfl, rfl, hcs₄⟩ := exists_cons_sign hcs₃.symm (lt_of_hexValue? h₄)
  exact ⟨x, y, z, w, cs₄, rfl, by rw [← codeUnit?_sign, hn], hcs₄⟩

theorem letterOf?_lt {e c : Char} (h : letterOf? e = some c) : e.toNat < 0x80 ∧ c.toNat < 0x80 := by
  unfold letterOf? at h
  split_ifs at h with h₁ h₂ h₃ h₄ h₅ h₆ h₇ h₈ <;> cases h <;> subst_vars <;> decide

theorem letterEscape?_lt {e b : UInt8} (h : letterEscape? e = some b) : e < 0x80 := by
  unfold letterEscape? at h
  split_ifs at h <;> subst_vars <;> decide

/-- The escape of one letter is known by its byte. -/
theorem letterEscape?_sign (e : Char) : letterEscape? (sign e) = (letterOf? e).map sign := by
  rcases Nat.lt_or_ge e.toNat 0x80 with he | he
  · have hall : ∀ n < 0x80,
        letterEscape? (UInt8.ofNat n) = (letterOf? (Char.ofNat n)).map sign := by decide
    rw [sign_of_lt he, hall _ he, Char.ofNat_toNat]
  · have hnone : letterOf? e = none := Option.eq_none_iff_forall_ne_some.2 fun c hc =>
      absurd (letterOf?_lt hc).1 (Nat.not_lt.2 he)
    rw [hnone, Option.map_none, Option.eq_none_iff_forall_ne_some]
    exact fun b hb => absurd (letterEscape?_lt hb) (UInt8.not_lt.2 (le_sign he))

/-! ## Strings -/

/-- The bytes of a plain character are plain. -/
theorem isPlain_of_isPlainChar {c : Char} (h : isPlainChar c) {b : UInt8}
    (hb : b ∈ String.utf8EncodeChar c) : isPlain b := by
  simp only [isPlainChar, Bool.and_eq_true, decide_eq_true_eq] at h
  exact isPlain_of_mem_utf8EncodeChar h.1.1 h.1.2 h.2 hb

/-- How a sign goes on with the content of a string. -/
theorem content_cases (c : Char) : c = '"' ∨ c = '\\' ∨ c.toNat < 0x20 ∨ isPlainChar c := by
  by_cases hquote : c = '"'
  · exact .inl hquote
  by_cases hslash : c = '\\'
  · exact .inr (.inl hslash)
  rcases Nat.lt_or_ge c.toNat 0x20 with hlow | hlow
  · exact .inr (.inr (.inl hlow))
  · exact .inr (.inr (.inr (by simp [isPlainChar, hquote, hslash, hlow])))

/-- The bytes of a sign below the blank. -/
theorem sign_control {c : Char} (h : c.toNat < 0x20) :
    sign c ≠ 0x22 ∧ sign c ≠ 0x5c ∧ sign c < 0x20 := by
  have hlt : c.toNat < 0x80 := Nat.lt_trans h (by decide)
  have hall : ∀ n < 0x20, UInt8.ofNat n ≠ 0x22 ∧ UInt8.ofNat n ≠ 0x5c ∧ UInt8.ofNat n < 0x20 := by
    decide
  rw [sign_of_lt hlt]
  exact hall _ h

theorem stringContent_plainChar {c : Char} (h : isPlainChar c) (cs : List Char) (p : Position)
    (done : List UInt8) :
    stringContent (utf8 (c :: cs)) p done
      = stringContent (utf8 cs) (p.afterAll (String.utf8EncodeChar c))
          ((String.utf8EncodeChar c).reverse ++ done) := by
  rw [utf8_cons, stringContent_plain_append fun b hb => isPlain_of_isPlainChar h hb]

theorem skipContent_plain {b : UInt8} (h : isPlain b) (rest : List UInt8) (p : Position) :
    skipContent (b :: rest) p = skipContent rest (p.after b) := by
  simp only [isPlain, Bool.and_eq_true, decide_eq_true_eq] at h
  obtain ⟨⟨hlow, hquote⟩, hslash⟩ := h
  rw [skipContent.eq_def]
  simp only [if_neg hquote, if_neg hslash, if_neg (UInt8.not_lt.2 hlow)]

theorem skipContent_plain_append {bytes : List UInt8} (h : ∀ b ∈ bytes, isPlain b)
    (rest : List UInt8) (p : Position) :
    skipContent (bytes ++ rest) p = skipContent rest (p.afterAll bytes) := by
  induction bytes generalizing p with
  | nil => rfl
  | cons b bytes ih =>
    rw [List.cons_append, skipContent_plain (h b List.mem_cons_self),
      ih fun b hb => h b (List.mem_cons_of_mem _ hb), Position.afterAll_cons]

theorem skipContent_plainChar {c : Char} (h : isPlainChar c) (cs : List Char) (p : Position) :
    skipContent (utf8 (c :: cs)) p
      = skipContent (utf8 cs) (p.afterAll (String.utf8EncodeChar c)) := by
  rw [utf8_cons, skipContent_plain_append fun b hb => isPlain_of_isPlainChar h hb]

/-! ### Escapes by their bytes -/

/-- What stands behind a backslash in content that is read. -/
theorem stringContent_escape {tail done bytes : List UInt8} {p : Position} {i : Input}
    (h : stringContent (0x5c :: tail) p done = .done bytes i) :
    (∃ e b rest p', tail = e :: rest ∧ letterEscape? e = some b
        ∧ stringContent rest p' (b :: done) = .done bytes i)
      ∨ (∃ b₁ b₂ b₃ b₄ n rest p', tail = 0x75 :: b₁ :: b₂ :: b₃ :: b₄ :: rest
        ∧ codeUnit? b₁ b₂ b₃ b₄ = some n ∧ isSecondSurrogate n = false ∧ isFirstSurrogate n = false
        ∧ stringContent rest p' (codePointReversed n ++ done) = .done bytes i)
      ∨ ∃ b₁ b₂ b₃ b₄ n c₁ c₂ c₃ c₄ m rest p',
        tail = 0x75 :: b₁ :: b₂ :: b₃ :: b₄ :: 0x5c :: 0x75 :: c₁ :: c₂ :: c₃ :: c₄ :: rest
        ∧ codeUnit? b₁ b₂ b₃ b₄ = some n ∧ isSecondSurrogate n = false ∧ isFirstSurrogate n
        ∧ codeUnit? c₁ c₂ c₃ c₄ = some m ∧ isSecondSurrogate m
        ∧ stringContent rest p' (codePointReversed (joinSurrogates n m) ++ done) = .done bytes i := by
  rw [stringContent.eq_def] at h
  simp only [show (0x5c : UInt8) ≠ 0x22 by decide, if_false, if_true] at h
  split at h
  · cases h
  next e rest =>
  split at h
  · next b hb => exact .inl ⟨e, b, rest, _, rfl, hb, h⟩
  split at h
  case isFalse => cases h
  next he =>
  subst he
  split at h
  case h_2 => cases h
  next b₁ b₂ b₃ b₄ rest =>
  split at h
  · cases h
  next n hn =>
  split at h
  · cases h
  next hsecond =>
  split at h
  case isFalse hfirst =>
    exact .inr (.inl ⟨b₁, b₂, b₃, b₄, n, rest, _, rfl, hn, by simpa using hsecond,
      by simpa using hfirst, h⟩)
  next hfirst =>
  split at h
  · cases h
  next s rest =>
  split at h
  case isFalse => cases h
  next hs =>
  subst hs
  split at h
  · cases h
  next u rest =>
  split at h
  case isFalse => cases h
  next hu =>
  subst hu
  split at h
  case h_2 => cases h
  next c₁ c₂ c₃ c₄ rest =>
  split at h
  · cases h
  next m hm =>
  split at h
  · next hsecond' =>
    exact .inr (.inr ⟨b₁, b₂, b₃, b₄, n, c₁, c₂, c₃, c₄, m, rest, _, rfl, hn,
      by simpa using hsecond, hfirst, hm, hsecond', h⟩)
  · cases h

theorem letterEscape?_u : letterEscape? 0x75 = none := by decide

theorem stringContent_unit {b₁ b₂ b₃ b₄ : UInt8} {n : Nat} (h : codeUnit? b₁ b₂ b₃ b₄ = some n)
    (hsecond : isSecondSurrogate n = false) (hfirst : isFirstSurrogate n = false)
    (rest done : List UInt8) (p : Position) :
    stringContent (0x5c :: 0x75 :: b₁ :: b₂ :: b₃ :: b₄ :: rest) p done
      = stringContent rest (p.afterAll [0x5c, 0x75, b₁, b₂, b₃, b₄])
          (codePointReversed n ++ done) := by
  rw [stringContent.eq_def]
  simp [letterEscape?_u, h, hsecond, hfirst]

theorem stringContent_pair {b₁ b₂ b₃ b₄ c₁ c₂ c₃ c₄ : UInt8} {n m : Nat}
    (hn : codeUnit? b₁ b₂ b₃ b₄ = some n) (hsecond : isSecondSurrogate n = false)
    (hfirst : isFirstSurrogate n) (hm : codeUnit? c₁ c₂ c₃ c₄ = some m)
    (hsecond' : isSecondSurrogate m) (rest done : List UInt8) (p : Position) :
    stringContent
        (0x5c :: 0x75 :: b₁ :: b₂ :: b₃ :: b₄ :: 0x5c :: 0x75 :: c₁ :: c₂ :: c₃ :: c₄ :: rest) p done
      = stringContent rest
          (p.afterAll [0x5c, 0x75, b₁, b₂, b₃, b₄, 0x5c, 0x75, c₁, c₂, c₃, c₄])
          (codePointReversed (joinSurrogates n m) ++ done) := by
  rw [stringContent.eq_def]
  simp [letterEscape?_u, hn, hsecond, hfirst, hm, hsecond']

/-- What stands behind a backslash in content that is skipped. -/
theorem skipContent_escape {tail : List UInt8} {p : Position} {i : Input}
    (h : skipContent (0x5c :: tail) p = .done () i) :
    (∃ e b rest p', tail = e :: rest ∧ letterEscape? e = some b ∧ skipContent rest p' = .done () i)
      ∨ ∃ b₁ b₂ b₃ b₄ n rest p', tail = 0x75 :: b₁ :: b₂ :: b₃ :: b₄ :: rest
        ∧ codeUnit? b₁ b₂ b₃ b₄ = some n ∧ skipContent rest p' = .done () i := by
  rw [skipContent.eq_def] at h
  simp only [show (0x5c : UInt8) ≠ 0x22 by decide, if_false, if_true] at h
  split at h
  · cases h
  next e rest =>
  split at h
  · next hletter =>
    obtain ⟨b, hb⟩ := Option.isSome_iff_exists.1 hletter
    exact .inl ⟨e, b, rest, _, rfl, hb, h⟩
  split at h
  case isFalse => cases h
  next he =>
  subst he
  split at h
  case h_2 => cases h
  next b₁ b₂ b₃ b₄ rest =>
  split at h
  case isFalse => cases h
  next hcode =>
  obtain ⟨n, hn⟩ := Option.isSome_iff_exists.1 hcode
  exact .inr ⟨b₁, b₂, b₃, b₄, n, rest, _, rfl, hn, h⟩

theorem skipContent_letter {e b : UInt8} (h : letterEscape? e = some b) (rest : List UInt8)
    (p : Position) :
    skipContent (0x5c :: e :: rest) p = skipContent rest (p.afterAll [0x5c, e]) := by
  rw [skipContent.eq_def]
  simp [h]

theorem skipContent_unit {b₁ b₂ b₃ b₄ : UInt8} {n : Nat} (h : codeUnit? b₁ b₂ b₃ b₄ = some n)
    (rest : List UInt8) (p : Position) :
    skipContent (0x5c :: 0x75 :: b₁ :: b₂ :: b₃ :: b₄ :: rest) p
      = skipContent rest (p.afterAll [0x5c, 0x75, b₁, b₂, b₃, b₄]) := by
  rw [skipContent.eq_def]
  simp [letterEscape?_u, h]

/-! ### Content -/

theorem exists_letter_of_utf8 {cs : List Char} {e b : UInt8} {bytes : List UInt8}
    (h : utf8 cs = e :: bytes) (hb : letterEscape? e = some b) :
    ∃ e' c rest, cs = e' :: rest ∧ letterOf? e' = some c ∧ b = sign c ∧ bytes = utf8 rest := by
  obtain ⟨e', rest, rfl, rfl, hrest⟩ := exists_cons_sign h (letterEscape?_lt hb)
  rw [letterEscape?_sign, Option.map_eq_some_iff] at hb
  obtain ⟨c, hc, rfl⟩ := hb
  exact ⟨e', c, rest, rfl, hc, rfl, hrest⟩

theorem exists_escape_of_utf8 {k : Char} (hk : k.toNat < 0x80) {cs : List Char} {bytes : List UInt8}
    (h : utf8 cs = UInt8.ofNat k.toNat :: bytes) : ∃ rest, cs = k :: rest ∧ utf8 rest = bytes := by
  have hlt : UInt8.ofNat k.toNat < 0x80 := by
    rw [UInt8.lt_iff_toNat_lt, toNat_ofNat_of_lt hk]
    exact hk
  obtain ⟨c, rest, rfl, hc, hrest⟩ := exists_cons_sign h hlt
  obtain rfl := (sign_eq_iff hk).1 hc.symm
  exact ⟨rest, rfl, hrest.symm⟩

theorem characters?_unit {n : Nat} (hsecond : isSecondSurrogate n = false)
    (hfirst : isFirstSurrogate n = false) (pieces : List Piece) :
    characters? (.unit n :: pieces) = (characters? pieces).map (Char.ofNat n :: ·) := by
  rw [characters?.eq_def (.unit n :: pieces)]
  split <;> simp_all

theorem characters?_pair {n m : Nat} (hsecond : isSecondSurrogate n = false)
    (hfirst : isFirstSurrogate n) (hsecond' : isSecondSurrogate m) (pieces : List Piece) :
    characters? (.unit n :: .unit m :: pieces)
      = (characters? pieces).map (Char.ofNat (joinSurrogates n m) :: ·) := by
  rw [characters?]
  simp [hsecond, hfirst, hsecond']

theorem stringContent_sound {n : Nat} : ∀ {cs : List Char}, cs.length < n →
    ∀ {p : Position} {done bytes : List UInt8} {i : Input},
      stringContent (utf8 cs) p done = .done bytes i →
        ∃ pieces chars rest, Content cs pieces rest ∧ characters? pieces = some chars
          ∧ bytes = done.reverse ++ utf8 chars ∧ i.ahead = utf8 rest := by
  induction n with
  | zero => exact fun h => absurd h (Nat.not_lt_zero _)
  | succ n ih =>
    intro cs hn p done bytes i hdone
    cases cs with
    | nil => cases hdone
    | cons c cs =>
      rcases content_cases c with rfl | rfl | hlow | hplain
      · rw [utf8_cons_of_lt (by decide), stringContent.eq_def] at hdone
        cases hdone
        exact ⟨[], [], cs, .close, rfl, by simp, rfl⟩
      · rw [utf8_cons_of_lt (by decide)] at hdone
        rcases stringContent_escape hdone with
          ⟨e, b, rest, p', hcs, hb, hmore⟩ | ⟨b₁, b₂, b₃, b₄, k, rest, p', hcs, hk, hsecond, hfirst,
            hmore⟩ | ⟨b₁, b₂, b₃, b₄, k, c₁, c₂, c₃, c₄, m, rest, p', hcs, hk, hsecond, hfirst, hm,
            hsecond', hmore⟩
        · obtain ⟨e, c, cs, rfl, hc, rfl, rfl⟩ := exists_letter_of_utf8 hcs hb
          have hlt : cs.length < n := by simp only [List.length_cons] at hn; omega
          obtain ⟨pieces, chars, rest, hcontent, hchars, rfl, hrest⟩ := ih hlt hmore
          refine ⟨_, c :: chars, rest, .letter hc hcontent, by simp [characters?, hchars], ?_, hrest⟩
          simp [utf8_cons_of_lt (letterOf?_lt hc).2, sign_of_lt (letterOf?_lt hc).2]
        · obtain ⟨cs, rfl, hcs₁⟩ := exists_escape_of_utf8 (k := 'u') (by decide) hcs
          obtain ⟨x, y, z, w, cs, rfl, hunit, rfl⟩ := exists_unit_of_utf8 hcs₁ hk
          have hlt : cs.length < n := by simp only [List.length_cons] at hn; omega
          obtain ⟨pieces, chars, rest, hcontent, hchars, rfl, hrest⟩ := ih hlt hmore
          refine ⟨_, Char.ofNat k :: chars, rest, .code hunit hcontent, ?_, ?_, hrest⟩
          · rw [characters?_unit hsecond hfirst, hchars, Option.map_some]
          · simp [codePointReversed_eq, utf8_cons]
        · obtain ⟨cs, rfl, hcs₁⟩ := exists_escape_of_utf8 (k := 'u') (by decide) hcs
          obtain ⟨x, y, z, w, cs, rfl, hunit, hcs₂⟩ := exists_unit_of_utf8 hcs₁ hk
          obtain ⟨cs, rfl, hcs₃⟩ := exists_escape_of_utf8 (k := '\\') (by decide) hcs₂.symm
          obtain ⟨cs, rfl, hcs₄⟩ := exists_escape_of_utf8 (k := 'u') (by decide) hcs₃
          obtain ⟨x', y', z', w', cs, rfl, hunit', rfl⟩ := exists_unit_of_utf8 hcs₄ hm
          have hlt : cs.length < n := by simp only [List.length_cons] at hn; omega
          obtain ⟨pieces, chars, rest, hcontent, hchars, hbytes, hrest⟩ := ih hlt hmore
          refine ⟨_, Char.ofNat (joinSurrogates k m) :: chars, rest,
            .code hunit (.code hunit' hcontent), ?_, hbytes.trans ?_, hrest⟩
          · rw [characters?_pair hsecond hfirst hsecond', hchars, Option.map_some]
          · simp [codePointReversed_eq, utf8_cons]
      · obtain ⟨hquote, hslash, hcontrol⟩ := sign_control hlow
        obtain ⟨more, hbytes⟩ := List.head?_eq_some_iff.1 (head?_utf8_cons c cs)
        rw [hbytes, stringContent.eq_def] at hdone
        simp only [if_neg hquote, if_neg hslash, if_pos hcontrol] at hdone
        cases hdone
      · rw [stringContent_plainChar hplain] at hdone
        obtain ⟨pieces, chars, rest, hcontent, hchars, rfl, hrest⟩ :=
          ih (Nat.lt_of_succ_lt_succ hn) hdone
        refine ⟨_, c :: chars, rest, .plain hplain hcontent, by simp [characters?, hchars], ?_, hrest⟩
        simp [utf8_cons]

/-- Content of these pieces reads as their characters. -/
def ReadsPieces (pieces : List Piece) : Prop :=
  ∀ cs chars rest, Content cs pieces rest → characters? pieces = some chars →
    ∀ (p : Position) (done : List UInt8), ∃ p',
      stringContent (utf8 cs) p done = .done (done.reverse ++ utf8 chars) ⟨utf8 rest, p'⟩

theorem ReadsPieces.unit {n : Nat} {pieces : List Piece} (hsecond : isSecondSurrogate n = false)
    (hfirst : isFirstSurrogate n = false) (h : ReadsPieces pieces) :
    ReadsPieces (.unit n :: pieces) := by
  intro cs chars rest hcontent hchars p done
  rw [characters?_unit hsecond hfirst, Option.map_eq_some_iff] at hchars
  obtain ⟨chars, hchars, rfl⟩ := hchars
  cases hcontent with
  | code hn more =>
    rw [utf8_cons_of_lt (by decide), utf8_cons_of_lt (by decide), utf8_unit hn]
    rw [← codeUnit?_sign] at hn
    obtain ⟨p', hread⟩ := h _ _ _ more hchars _ _
    refine ⟨p', (stringContent_unit hn hsecond hfirst _ _ _).trans ?_⟩
    rw [hread]
    simp [codePointReversed_eq, utf8_cons]

theorem ReadsPieces.pair {n m : Nat} {pieces : List Piece} (hsecond : isSecondSurrogate n = false)
    (hfirst : isFirstSurrogate n) (hsecond' : isSecondSurrogate m) (h : ReadsPieces pieces) :
    ReadsPieces (.unit n :: .unit m :: pieces) := by
  intro cs chars rest hcontent hchars p done
  rw [characters?_pair hsecond hfirst hsecond', Option.map_eq_some_iff] at hchars
  obtain ⟨chars, hchars, rfl⟩ := hchars
  cases hcontent with
  | code hn more =>
    cases more with
    | code hm more =>
      rw [utf8_cons_of_lt (by decide), utf8_cons_of_lt (by decide), utf8_unit hn,
        utf8_cons_of_lt (by decide), utf8_cons_of_lt (by decide), utf8_unit hm]
      rw [← codeUnit?_sign] at hn hm
      obtain ⟨p', hread⟩ := h _ _ _ more hchars _ _
      refine ⟨p', (stringContent_pair hn hsecond hfirst hm hsecond' _ _ _).trans ?_⟩
      rw [hread]
      simp [codePointReversed_eq, utf8_cons]

/-- A character stands for itself, or its letter stands behind a backslash. -/
theorem ReadsPieces.char {c : Char} {pieces : List Piece} (h : ReadsPieces pieces) :
    ReadsPieces (.char c :: pieces) := by
  intro cs chars rest hcontent hchars p done
  rw [characters?, Option.map_eq_some_iff] at hchars
  obtain ⟨chars, hchars, rfl⟩ := hchars
  cases hcontent with
  | plain hplain more =>
    rw [stringContent_plainChar hplain]
    obtain ⟨p', hread⟩ := h _ _ _ more hchars (p.afterAll (String.utf8EncodeChar c))
      ((String.utf8EncodeChar c).reverse ++ done)
    exact ⟨p', by rw [hread]; simp [utf8_cons]⟩
  | @letter e _ cs _ _ hletter more =>
    obtain ⟨he, hc⟩ := letterOf?_lt hletter
    have hescape : letterEscape? (sign e) = some (sign c) := by
      rw [letterEscape?_sign, hletter, Option.map_some]
    obtain ⟨p', hread⟩ := h _ _ _ more hchars ((p.after 0x5c).after (sign e)) (sign c :: done)
    refine ⟨p', ?_⟩
    rw [utf8_cons_of_lt (by decide), utf8_cons_of_lt he, ← sign_of_lt he]
    rw [show UInt8.ofNat '\\'.toNat = 0x5c from rfl, stringContent_letter hescape, hread]
    simp [utf8_cons_of_lt hc, sign_of_lt hc]

theorem ReadsPieces.nil : ReadsPieces [] := by
  intro cs chars rest hcontent hchars p done
  cases hcontent
  cases hchars
  refine ⟨p.after 0x22, ?_⟩
  rw [utf8_cons_of_lt (by decide), stringContent.eq_def]
  simp

theorem stringContent_complete (pieces : List Piece) : ReadsPieces pieces := by
  -- The cases are those of `characters?`; where it is `none`, there is nothing to read.
  induction pieces using characters?.induct with
  | case1 => exact .nil
  | case2 c pieces ih => exact ih.char
  | case3 n m pieces hsecond =>
    intro cs chars rest _ hchars
    rw [characters?, if_pos hsecond] at hchars
    cases hchars
  | case4 n m pieces hsecond hfirst hsecond' ih =>
    exact ih.pair (Bool.eq_false_iff.2 hsecond) hfirst hsecond'
  | case5 n m pieces hsecond hfirst hsecond' =>
    intro cs chars rest _ hchars
    rw [characters?, if_neg hsecond, if_pos hfirst, if_neg hsecond'] at hchars
    cases hchars
  | case6 n m pieces hsecond hfirst ih =>
    exact ih.unit (by simpa using hsecond) (by simpa using hfirst)
  | case7 n pieces hrest hsurrogate =>
    intro cs chars rest _ hchars
    rw [characters?, if_pos hsurrogate] at hchars
    · cases hchars
    · exact hrest
  | case8 n pieces hrest hsurrogate ih =>
    simp only [Bool.or_eq_true, not_or, Bool.not_eq_true] at hsurrogate
    exact ih.unit hsurrogate.1 hsurrogate.2

/-- **A string is read from its content.** -/
theorem string_exact (cs : List Char) :
    Exact Reader.string cs fun s rest => ∃ pieces, Content cs pieces rest ∧ text? pieces = some s where
  sound {p s i} hdone := by
    rw [Reader.string] at hdone
    split at hdone
    · cases hdone
    · next bytes after hread =>
      obtain ⟨pieces, chars, rest, hcontent, hchars, rfl, hrest⟩ :=
        stringContent_sound (Nat.lt_succ_self _) hread
      rw [List.reverse_nil, List.nil_append, ← String.toList_ofList (l := chars), fromUTF8?_utf8] at hdone
      cases hdone
      exact ⟨rest, hrest, pieces, hcontent, by rw [text?, hchars, Option.map_some]⟩
  complete := by
    rintro s rest ⟨pieces, hcontent, htext⟩ p
    rw [text?, Option.map_eq_some_iff] at htext
    obtain ⟨chars, hchars, rfl⟩ := htext
    obtain ⟨p', hread⟩ := stringContent_complete pieces _ _ _ hcontent hchars p []
    refine ⟨p', ?_⟩
    have hutf8 := fromUTF8?_utf8 (String.ofList chars)
    rw [String.toList_ofList] at hutf8
    simp only [Reader.string, hread, List.reverse_nil, List.nil_append, hutf8]

/-! ## Skipped strings -/

theorem skipContent_sound {n : Nat} : ∀ {cs : List Char}, cs.length < n →
    ∀ {p : Position} {i : Input}, skipContent (utf8 cs) p = .done () i →
      ∃ pieces rest, Content cs pieces rest ∧ i.ahead = utf8 rest := by
  induction n with
  | zero => exact fun h => absurd h (Nat.not_lt_zero _)
  | succ n ih =>
    intro cs hn p i hdone
    cases cs with
    | nil => cases hdone
    | cons c cs =>
      rcases content_cases c with rfl | rfl | hlow | hplain
      · rw [utf8_cons_of_lt (by decide), skipContent.eq_def] at hdone
        cases hdone
        exact ⟨[], cs, .close, rfl⟩
      · rw [utf8_cons_of_lt (by decide)] at hdone
        rcases skipContent_escape hdone with
          ⟨e, b, rest, p', hcs, hb, hmore⟩ | ⟨b₁, b₂, b₃, b₄, k, rest, p', hcs, hk, hmore⟩
        · obtain ⟨e, c, cs, rfl, hc, rfl, rfl⟩ := exists_letter_of_utf8 hcs hb
          have hlt : cs.length < n := by simp only [List.length_cons] at hn; omega
          obtain ⟨pieces, rest, hcontent, hrest⟩ := ih hlt hmore
          exact ⟨_, rest, .letter hc hcontent, hrest⟩
        · obtain ⟨cs, rfl, hcs₁⟩ := exists_escape_of_utf8 (k := 'u') (by decide) hcs
          obtain ⟨x, y, z, w, cs, rfl, hunit, rfl⟩ := exists_unit_of_utf8 hcs₁ hk
          have hlt : cs.length < n := by simp only [List.length_cons] at hn; omega
          obtain ⟨pieces, rest, hcontent, hrest⟩ := ih hlt hmore
          exact ⟨_, rest, .code hunit hcontent, hrest⟩
      · obtain ⟨hquote, hslash, hcontrol⟩ := sign_control hlow
        obtain ⟨more, hbytes⟩ := List.head?_eq_some_iff.1 (head?_utf8_cons c cs)
        rw [hbytes, skipContent.eq_def] at hdone
        simp only [if_neg hquote, if_neg hslash, if_pos hcontrol] at hdone
        cases hdone
      · rw [skipContent_plainChar hplain] at hdone
        obtain ⟨pieces, rest, hcontent, hrest⟩ := ih (Nat.lt_of_succ_lt_succ hn) hdone
        exact ⟨_, rest, .plain hplain hcontent, hrest⟩

theorem skipContent_complete {cs rest : List Char} {pieces : List Piece}
    (h : Content cs pieces rest) (p : Position) :
    ∃ p', skipContent (utf8 cs) p = .done () ⟨utf8 rest, p'⟩ := by
  induction h generalizing p with
  | close =>
    refine ⟨p.after 0x22, ?_⟩
    rw [utf8_cons_of_lt (by decide), skipContent.eq_def]
    simp
  | plain hplain _ ih =>
    rw [skipContent_plainChar hplain]
    exact ih _
  | letter hletter _ ih =>
    have hescape := letterEscape?_sign _ ▸ congrArg (Option.map sign) hletter
    obtain ⟨p', hread⟩ := ih _
    refine ⟨p', ?_⟩
    rw [utf8_cons_of_lt (by decide), utf8_cons_of_lt (letterOf?_lt hletter).1,
      ← sign_of_lt (letterOf?_lt hletter).1]
    exact (skipContent_letter hescape _ _).trans hread
  | code hn _ ih =>
    rw [utf8_cons_of_lt (by decide), utf8_cons_of_lt (by decide), utf8_unit hn]
    rw [← codeUnit?_sign] at hn
    obtain ⟨p', hread⟩ := ih _
    exact ⟨p', (skipContent_unit hn _ _).trans hread⟩

/-- A string is skipped whatever its pieces stand for. -/
theorem skipString_exact (cs : List Char) :
    Exact Reader.skipString cs fun _ rest => ∃ pieces, Content cs pieces rest where
  sound hdone :=
    have ⟨pieces, rest, hcontent, hrest⟩ := skipContent_sound (Nat.lt_succ_self _) hdone
    ⟨rest, hrest, pieces, hcontent⟩
  complete := fun ⟨_, hcontent⟩ p => skipContent_complete hcontent p

end MetaCache.Json
