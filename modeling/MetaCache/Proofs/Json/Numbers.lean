import MetaCache.Proofs.Json.Reads

/-!
# Whole numbers that were written read back

Decimal digits of a number in 64 bits are all taken up by the significand (`absorb_utf8`), so where
neither a point nor an exponent follows, a whole number reads as itself (`number_natural`,
`number_negative`).
-/

namespace MetaCache.Json

open MetaCache.Text

/-! ## Digits -/

theorem toNat_of_isDigit {c : Char} (h : c.isDigit) : 0x30 ≤ c.toNat ∧ c.toNat ≤ 0x39 := by
  simp only [Char.isDigit, Bool.and_eq_true, decide_eq_true_eq] at h
  exact h

/-- The byte of a digit. -/
theorem utf8_digit_cons {c : Char} (h : c.isDigit) (cs : List Char) :
    utf8 (c :: cs) = UInt8.ofNat c.toNat :: utf8 cs :=
  utf8_cons_of_lt (by have := toNat_of_isDigit h; omega) cs

theorem toNat_digitByte {c : Char} (h : c.isDigit) : (UInt8.ofNat c.toNat).toNat = c.toNat := by
  have := toNat_of_isDigit h
  rw [UInt8.toNat_ofNat']
  omega

theorem isDigit_digitByte {c : Char} (h : c.isDigit) : isDigit (UInt8.ofNat c.toNat) := by
  have hc := toNat_of_isDigit h
  have h0 : (0x30 : UInt8).toNat = 0x30 := rfl
  have h9 : (0x39 : UInt8).toNat = 0x39 := rfl
  simp only [isDigit, Bool.and_eq_true, decide_eq_true_eq, UInt8.le_iff_toNat_le,
    toNat_digitByte h]
  omega

theorem isDigit_of_mem_utf8 {cs : List Char} (h : ∀ c ∈ cs, c.isDigit) :
    ∀ b ∈ utf8 cs, isDigit b := by
  induction cs with
  | nil => simp
  | cons c cs ih =>
    rw [utf8_digit_cons (h c List.mem_cons_self)]
    intro b hb
    rcases List.mem_cons.1 hb with rfl | hb
    · exact isDigit_digitByte (h c List.mem_cons_self)
    · exact ih (fun d hd => h d (List.mem_cons_of_mem _ hd)) b hb

theorem le_ofDigitChars (cs : List Char) (n : Nat) : n ≤ Nat.ofDigitChars 10 cs n := by
  induction cs generalizing n with
  | nil => simp
  | cons c cs ih =>
    rw [Nat.ofDigitChars_cons]
    exact Nat.le_trans (by omega) (ih _)

/-- Digits are taken up as long as their number is within the limit. -/
theorem absorb_utf8 {cs : List Char} (h : ∀ c ∈ cs, c.isDigit) {n : Nat}
    (hlimit : Nat.ofDigitChars 10 cs n ≤ significandLimit) :
    absorb n (utf8 cs) = (Nat.ofDigitChars 10 cs n, cs.length) := by
  induction cs generalizing n with
  | nil => simp [absorb]
  | cons c cs ih =>
    have hc := h c List.mem_cons_self
    have hval : n * 10 + digitValue (UInt8.ofNat c.toNat) = 10 * n + (c.toNat - '0'.toNat) := by
      rw [digitValue, toNat_digitByte hc, Nat.mul_comm]
      rfl
    rw [Nat.ofDigitChars_cons] at hlimit ⊢
    rw [utf8_digit_cons hc, absorb, hval]
    have hmore := Nat.le_trans (le_ofDigitChars cs _) hlimit
    simp only [if_pos hmore, ih (fun d hd => h d (List.mem_cons_of_mem _ hd)) hlimit,
      List.length_cons]

theorem isDigit_toDigits {n : Nat} : ∀ c ∈ Nat.toDigits 10 n, c.isDigit := fun _ hc =>
  Nat.isDigit_of_mem_toDigits (by decide) (by decide) hc

theorem length_utf8_digits {cs : List Char} (h : ∀ c ∈ cs, c.isDigit) :
    (utf8 cs).length = cs.length := by
  induction cs with
  | nil => rfl
  | cons c cs ih =>
    rw [utf8_digit_cons (h c List.mem_cons_self), List.length_cons, List.length_cons,
      ih fun d hd => h d (List.mem_cons_of_mem _ hd)]

/-- The first digit of a number above zero is not zero. -/
theorem head?_toDigits {n : Nat} (h : 0 < n) : (Nat.toDigits 10 n).head? ≠ some '0' := by
  induction n using Nat.strongRecOn with
  | ind n ih =>
    rcases Nat.lt_or_ge n 10 with hlt | hge
    · rw [Nat.toDigits_of_lt_base hlt]
      have : ∀ k < 10, 0 < k → k.digitChar ≠ '0' := by decide
      simpa using this n hlt h
    · rw [Nat.toDigits_of_base_le (by decide) hge, List.head?_append]
      cases hd : (Nat.toDigits 10 (n / 10)).head? with
      | none => exact absurd (List.head?_eq_none_iff.1 hd) Nat.toDigits_ne_nil
      | some c =>
        have hc := ih (n / 10) (by omega) (by omega)
        rw [hd] at hc
        simpa using hc

/-! ## Numbers -/

namespace Reader

theorem takeWhile_bind_of_append {β : Type} {p : UInt8 → Bool} {taken rest : List UInt8}
    (htaken : ∀ b ∈ taken, p b) (hrest : ∀ b ∈ rest.head?, p b = false)
    (f : List UInt8 → Reader β) (q : Position) :
    (takeWhile p >>= f) ⟨taken ++ rest, q⟩ = f taken ⟨rest, q.afterAll taken⟩ := by
  have h : (taken ++ rest).takeWhile p = taken ∧ (taken ++ rest).dropWhile p = rest := by
    rw [List.takeWhile_append_of_pos htaken, List.dropWhile_append_of_pos htaken]
    cases rest with
    | nil => simp
    | cons b rest => simp [hrest b rfl]
  simp only [bind_apply, takeWhile, h.1, h.2]

/-- Apart from points and exponents a significand without surplus is a whole number. -/
theorem fraction_of_apart {negative : Bool} {significand : Nat} {n : Number}
    (hn : wholeNumber negative significand = some n) {rest : List UInt8} (hrest : Apart rest)
    (p : Position) : fraction negative significand 0 ⟨rest, p⟩ = .done n ⟨rest, p⟩ := by
  rw [fraction, peek_bind]
  cases rest with
  | nil => simp [hn, pure_apply]
  | cons b rest =>
    have hb := hrest b rfl
    simp only [continuesNumber, Bool.or_eq_false_iff, decide_eq_false_iff_not] at hb
    simp only [List.head?_cons, if_true, hn]
    refine congrFun (?_ : _ = pure n) _
    split
    · next he => exact absurd (Option.some.inj he) hb.1.1.2
    · next he => exact absurd (Option.some.inj he) hb.1.2
    · next he => exact absurd (Option.some.inj he) hb.2
    · rfl

theorem number_digits {negative : Bool} {m : Nat} {n : Number} (hm : m ≤ significandLimit)
    (hn : wholeNumber negative m = some n) {rest : List UInt8} (hrest : Apart rest)
    (p : Position) :
    number negative ⟨utf8 (Nat.toDigits 10 m) ++ rest, p⟩
      = .done n ⟨rest, p.afterAll (utf8 (Nat.toDigits 10 m))⟩ := by
  have hdigit : ∀ b ∈ rest.head?, isDigit b = false := by
    intro b hb
    have := hrest b hb
    simp only [continuesNumber, Bool.or_eq_false_iff] at this
    exact this.1.1.1
  rw [number]
  rcases Nat.eq_zero_or_pos m with rfl | hpos
  · rw [Nat.toDigits_zero]
    show (peek >>= _) ⟨0x30 :: rest, p⟩ = _
    rw [peek_bind]
    simp only [List.head?_cons, if_pos]
    rw [advance_bind, peek_bind]
    cases rest with
    | nil => exact fraction_of_apart hn hrest _
    | cons b rest =>
      simp only [List.head?_cons, hdigit b rfl, Bool.false_eq_true, if_false]
      exact fraction_of_apart hn hrest _
  · obtain ⟨c, cs, hcs⟩ := List.exists_cons_of_ne_nil (Nat.toDigits_ne_nil (n := m) (b := 10))
    have hall := isDigit_toDigits (n := m)
    have hc : c.isDigit := hall c (hcs ▸ List.mem_cons_self)
    have hzero : UInt8.ofNat c.toNat ≠ 0x30 := by
      intro he
      have hne : c ≠ '0' := fun h => head?_toDigits hpos (by rw [hcs, h]; rfl)
      have hn := congrArg UInt8.toNat he
      rw [toNat_digitByte hc] at hn
      exact hne (by rw [← Char.ofNat_toNat c, hn]; rfl)
    have hhead : (utf8 (Nat.toDigits 10 m) ++ rest).head? = some (UInt8.ofNat c.toNat) := by
      rw [hcs, utf8_digit_cons hc]; rfl
    rw [peek_bind]
    simp only [hhead, if_neg hzero, isDigit_digitByte hc, if_true]
    rw [takeWhile_bind_of_append (isDigit_of_mem_utf8 hall) hdigit,
      absorb_utf8 hall (by rwa [Nat.ofDigitChars_ten_toDigits])]
    simp only [Nat.ofDigitChars_ten_toDigits, length_utf8_digits hall, Nat.sub_self]
    exact fraction_of_apart hn hrest _

end Reader

/-! ## Whole numbers -/

theorem writeInt_natCast (m : Nat) : writeInt m = Nat.toDigits 10 m := by
  simp [writeInt]

theorem writeInt_neg {m : Nat} (h : 0 < m) : writeInt (-m) = '-' :: Nat.toDigits 10 m := by
  rw [writeInt, if_pos (by omega), Int.natAbs_neg, Int.natAbs_natCast, Nat.toList_repr]

/-- A number from 0 on reads as itself. -/
theorem number_natural {m : Nat} (fits : -0x8000000000000000 ≤ (m : Int) ∧
    (m : Int) < 0x10000000000000000) :
    Reads (Reader.number false) (utf8 (Nat.toDigits 10 m)) (.integer m fits) := by
  intro rest p hrest
  refine Reader.number_digits ?_ ?_ hrest p
  · show m ≤ 0xffffffffffffffff
    omega
  · rw [wholeNumber, if_neg Bool.false_ne_true, Number.ofNat?, dif_pos (by omega)]

/-- Behind its sign a number below 0 reads as itself. -/
theorem number_negative {m : Nat} (h : 0 < m) (fits : -0x8000000000000000 ≤ -(m : Int) ∧
    -(m : Int) < 0x10000000000000000) :
    Reads (Reader.number true) (utf8 (Nat.toDigits 10 m)) (.integer (-m) fits) := by
  intro rest p hrest
  refine Reader.number_digits ?_ ?_ hrest p
  · show m ≤ 0xffffffffffffffff
    omega
  · rw [wholeNumber, if_pos rfl, dif_pos ⟨h, by omega⟩]

/-- The first byte of a number from 0 on is a digit. -/
theorem utf8_toDigits (m : Nat) :
    ∃ b more, utf8 (Nat.toDigits 10 m) = b :: more ∧ isDigit b := by
  obtain ⟨c, cs, hcs⟩ := List.exists_cons_of_ne_nil (Nat.toDigits_ne_nil (n := m) (b := 10))
  have hc : c.isDigit := isDigit_toDigits (n := m) c (hcs ▸ List.mem_cons_self)
  exact ⟨_, _, by rw [hcs, utf8_digit_cons hc], isDigit_digitByte hc⟩

end MetaCache.Json
