import MetaCache.Number.Binary64
import Mathlib.Tactic.Ring
import Mathlib.Algebra.Order.Ring.Nat

/-!
# Rounding does not pass a double

A rounded result lies on the same side of every double as the exact one: whatever is a significand
of at most 53 bits at some binary place is neither exceeded from below nor undercut from above
(`le_units_of_nearest?`, `units_le_of_nearest?`). This is all that estimates of doubles need.
-/

namespace MetaCache.Number

/-! ## Rounded quotients -/

theorem le_divHalfEven {num den k : Nat} (hden : 0 < den) (h : k * den ≤ num) :
    k ≤ divHalfEven num den := by
  have hk := (Nat.le_div_iff_mul_le hden).2 h
  unfold divHalfEven
  dsimp only
  split
  · exact hk
  · split
    · omega
    · split <;> omega

theorem divHalfEven_le {num den k : Nat} (hden : 0 < den) (h : num ≤ k * den) :
    divHalfEven num den ≤ k := by
  have hle : num / den ≤ k := Nat.div_le_of_le_mul (by rwa [Nat.mul_comm] at h)
  have hsplit := Nat.div_add_mod num den
  rcases Nat.lt_or_ge (num / den) k with hlt | hge
  · unfold divHalfEven
    dsimp only
    split
    · exact hle
    · split
      · exact hlt
      · split <;> omega
  · -- The quotient is whole, so there is nothing to round.
    have heq : num / den = k := Nat.le_antisymm hle hge
    have hmod : num % den = 0 := by
      rw [heq, Nat.mul_comm] at hsplit
      omega
    unfold divHalfEven
    simp only [hmod, Nat.mul_zero, if_pos hden, heq, Nat.le_refl]

namespace Magnitude

/-- The power is kept as a variable, lest anything computes it. -/
theorem unitDen_eq : ∃ p, unitDen = 2 ^ p ∧ p = 1074 := by
  have h : ∀ n, ∃ p, 1 <<< n = 2 ^ p ∧ p = n := fun n => ⟨n, Nat.one_shiftLeft n, rfl⟩
  exact h 1074

theorem unitDen_pos : 0 < unitDen := by
  obtain ⟨p, hp, -⟩ := unitDen_eq
  rw [hp]
  exact Nat.two_pow_pos p

/-! ## The place of rounding -/

section

variable {num den : Nat}

/-- The exact result is below 53 bits at the place of rounding. -/
theorem num_lt_place (hden : 0 < den) :
    num * unitDen < 2 ^ 53 * (den * 2 ^ roundingPlace num den) := by
  have hlog := Nat.lt_log2_self (n := num * unitDen / den)
  have hplace : (num * unitDen / den).log2 + 1 ≤ 53 + roundingPlace num den := by
    rw [roundingPlace]
    omega
  have hlt := Nat.lt_of_lt_of_le hlog (Nat.pow_le_pow_right Nat.two_pos hplace)
  rw [Nat.div_lt_iff_lt_mul hden, Nat.pow_add] at hlt
  calc num * unitDen < 2 ^ 53 * 2 ^ roundingPlace num den * den := hlt
    _ = 2 ^ 53 * (den * 2 ^ roundingPlace num den) := by ring

/-- Above the first place it is not below 52 bits. -/
theorem place_le_num (hden : 0 < den) (hplace : 0 < roundingPlace num den) :
    2 ^ 52 * (den * 2 ^ roundingPlace num den) ≤ num * unitDen := by
  have hlog : (num * unitDen / den).log2 = 52 + roundingPlace num den := by
    rw [roundingPlace] at hplace ⊢
    omega
  have hne : num * unitDen / den ≠ 0 := by
    intro h
    rw [h, Nat.log2_zero] at hlog
    omega
  have hle := Nat.log2_self_le hne
  rw [hlog, Nat.le_div_iff_mul_le hden, Nat.pow_add] at hle
  calc 2 ^ 52 * (den * 2 ^ roundingPlace num den)
      = 2 ^ 52 * 2 ^ roundingPlace num den * den := by ring
    _ ≤ num * unitDen := hle

/-- The significand of a rounded result, up to a carry. -/
def rounded (num den : Nat) : Nat := divHalfEven (num * unitDen) (den <<< roundingPlace num den)

theorem place_pos (hden : 0 < den) : 0 < den <<< roundingPlace num den := by
  rw [Nat.shiftLeft_eq]
  exact Nat.mul_pos hden (Nat.two_pow_pos _)

theorem rounded_le (hden : 0 < den) : rounded num den ≤ 2 ^ 53 := by
  refine divHalfEven_le (place_pos hden) ?_
  rw [Nat.shiftLeft_eq]
  exact Nat.le_of_lt (num_lt_place hden)

theorem le_rounded (hden : 0 < den) (hplace : 0 < roundingPlace num den) :
    2 ^ 52 ≤ rounded num den := by
  refine le_divHalfEven (place_pos hden) ?_
  rw [Nat.shiftLeft_eq]
  exact place_le_num hden hplace

end

/-! ## The value of a rounded result -/

theorem units_of_parts {m : Magnitude} {scale significand : Nat} (hlow : leadingBit ≤ significand)
    (hhigh : significand < 2 * leadingBit) (h : m.index = scale * leadingBit + significand) :
    m.units = significand * 2 ^ scale := by
  have hdiv : m.index / leadingBit = scale + 1 := by
    rw [h]
    exact Nat.div_eq_of_lt_le (by rw [Nat.add_mul, Nat.one_mul]; omega)
      (by rw [Nat.add_mul, Nat.add_mul, Nat.one_mul]; omega)
  have hmod : m.index % leadingBit = significand - leadingBit := by
    have hsplit := Nat.div_add_mod m.index leadingBit
    rw [hdiv, Nat.mul_add, Nat.mul_one, Nat.mul_comm leadingBit scale] at hsplit
    omega
  have hnot : ¬ m.index < leadingBit := by
    rw [h]
    omega
  rw [units, Magnitude.scale, hdiv, Magnitude.significand, if_neg hnot, hmod, Nat.shiftLeft_eq,
    Nat.add_sub_cancel, Nat.add_sub_cancel' hlow]

/-- A significand of at most 53 bits and a place number the magnitude of their value. A carry into
the 54th bit goes to the next place. -/
theorem units_of_index {m : Magnitude} {place q : Nat} (h : m.index = place * leadingBit + q)
    (hle : q ≤ 2 ^ 53) (hge : 0 < place → 2 ^ 52 ≤ q) : m.units = q * 2 ^ place := by
  have hbit : leadingBit = 2 ^ 52 := by decide
  have hbit' : 2 ^ 53 = 2 * leadingBit := by decide
  rcases Nat.lt_or_ge q leadingBit with hlow | hlow
  · have hplace : place = 0 := by omega
    subst hplace
    rw [Nat.zero_mul, Nat.zero_add] at h
    rw [units, significand, scale, h, if_pos hlow, Nat.div_eq_of_lt hlow, Nat.shiftLeft_eq]
  · rcases Nat.lt_or_ge q (2 * leadingBit) with hhigh | hhigh
    · exact units_of_parts hlow hhigh h
    · have hq : q = 2 * leadingBit := Nat.le_antisymm (hbit' ▸ hle) hhigh
      have hcarry : m.index = (place + 1) * leadingBit + leadingBit := by
        rw [h, hq]
        ring
      rw [units_of_parts (Nat.le_refl leadingBit) (by decide) hcarry, hq, Nat.pow_succ]
      ring

theorem units_of_nearest? {num den : Nat} {m : Magnitude} (hden : 0 < den)
    (h : nearest? num den = some m) : m.units = rounded num den * 2 ^ roundingPlace num den := by
  simp only [nearest?] at h
  split at h
  · cases h
    exact units_of_index rfl (rounded_le hden) (le_rounded hden)
  · cases h

/-! ## Doubles on either side -/

/-- The value, in units, of a significand of at most 53 bits at some place. -/
def IsDouble (u : Nat) : Prop := ∃ significand place, significand ≤ 2 ^ 53 ∧ u = significand * 2 ^ place

variable {num den : Nat} {m : Magnitude} {u : Nat}

/-- A double not above the exact result is not above the rounded one. -/
theorem le_units_of_nearest? (hden : 0 < den) (h : nearest? num den = some m) (hu : IsDouble u)
    (hle : u * den ≤ num * unitDen) : u ≤ m.units := by
  obtain ⟨significand, place, hsignificand, rfl⟩ := hu
  rw [units_of_nearest? hden h]
  rcases Nat.lt_or_ge place (roundingPlace num den) with hcoarse | hfine
  · -- The double is at most 52 bits at the place of rounding.
    calc significand * 2 ^ place ≤ 2 ^ 53 * 2 ^ place := Nat.mul_le_mul_right _ hsignificand
      _ = 2 ^ 52 * 2 ^ (place + 1) := by ring
      _ ≤ 2 ^ 52 * 2 ^ roundingPlace num den :=
        Nat.mul_le_mul_left _ (Nat.pow_le_pow_right Nat.two_pos hcoarse)
      _ ≤ rounded num den * 2 ^ roundingPlace num den :=
        Nat.mul_le_mul_right _ (le_rounded hden (Nat.zero_lt_of_lt hcoarse))
  · -- The double is a multiple of the place of rounding.
    obtain ⟨k, rfl⟩ := Nat.exists_eq_add_of_le hfine
    have hk : significand * 2 ^ k ≤ rounded num den := by
      refine le_divHalfEven (place_pos hden) (Nat.le_trans (Nat.le_of_eq ?_) hle)
      rw [Nat.shiftLeft_eq]
      ring
    calc significand * 2 ^ (roundingPlace num den + k)
        = significand * 2 ^ k * 2 ^ roundingPlace num den := by ring
      _ ≤ rounded num den * 2 ^ roundingPlace num den := Nat.mul_le_mul_right _ hk

/-- A double not below the exact result is not below the rounded one. -/
theorem units_le_of_nearest? (hden : 0 < den) (h : nearest? num den = some m) (hu : IsDouble u)
    (hle : num * unitDen ≤ u * den) : m.units ≤ u := by
  obtain ⟨significand, place, hsignificand, rfl⟩ := hu
  rw [units_of_nearest? hden h]
  rcases Nat.lt_or_ge place (roundingPlace num den) with hcoarse | hfine
  · have hbound : significand * 2 ^ place ≤ 2 ^ 52 * 2 ^ roundingPlace num den := by
      calc significand * 2 ^ place ≤ 2 ^ 53 * 2 ^ place := Nat.mul_le_mul_right _ hsignificand
        _ = 2 ^ 52 * 2 ^ (place + 1) := by ring
        _ ≤ 2 ^ 52 * 2 ^ roundingPlace num den :=
          Nat.mul_le_mul_left _ (Nat.pow_le_pow_right Nat.two_pos hcoarse)
    have hrounded : rounded num den ≤ 2 ^ 52 := by
      refine divHalfEven_le (place_pos hden) (Nat.le_trans hle ?_)
      rw [Nat.shiftLeft_eq]
      calc significand * 2 ^ place * den ≤ 2 ^ 52 * 2 ^ roundingPlace num den * den :=
            Nat.mul_le_mul_right _ hbound
        _ = 2 ^ 52 * (den * 2 ^ roundingPlace num den) := by ring
    -- The exact result is no less than 52 bits, so the double is exactly that much.
    have hexact : 2 ^ 52 * 2 ^ roundingPlace num den * den ≤ significand * 2 ^ place * den := by
      calc 2 ^ 52 * 2 ^ roundingPlace num den * den
          = 2 ^ 52 * (den * 2 ^ roundingPlace num den) := by ring
        _ ≤ num * unitDen := place_le_num hden (Nat.zero_lt_of_lt hcoarse)
        _ ≤ significand * 2 ^ place * den := hle
    calc rounded num den * 2 ^ roundingPlace num den
        ≤ 2 ^ 52 * 2 ^ roundingPlace num den := Nat.mul_le_mul_right _ hrounded
      _ ≤ significand * 2 ^ place := Nat.le_of_mul_le_mul_right hexact hden
  · obtain ⟨k, rfl⟩ := Nat.exists_eq_add_of_le hfine
    have hk : rounded num den ≤ significand * 2 ^ k := by
      refine divHalfEven_le (place_pos hden) (Nat.le_trans hle (Nat.le_of_eq ?_))
      rw [Nat.shiftLeft_eq]
      ring
    calc rounded num den * 2 ^ roundingPlace num den
        ≤ significand * 2 ^ k * 2 ^ roundingPlace num den := Nat.mul_le_mul_right _ hk
      _ = significand * 2 ^ (roundingPlace num den + k) := by ring

/-- Rounding leaves a double as it is. -/
theorem units_eq_of_nearest? (hden : 0 < den) (h : nearest? num den = some m) (hu : IsDouble u)
    (heq : num * unitDen = u * den) : m.units = u :=
  Nat.le_antisymm (units_le_of_nearest? hden h hu (Nat.le_of_eq heq))
    (le_units_of_nearest? hden h hu (Nat.le_of_eq heq.symm))

theorem isDouble_units (m : Magnitude) : IsDouble m.units := by
  refine ⟨m.significand, m.scale, ?_, Nat.shiftLeft_eq ..⟩
  have hmod := Nat.mod_lt m.index (show 0 < leadingBit by decide)
  have hbit : 2 ^ 53 = leadingBit + leadingBit := by decide
  rw [significand]
  split <;> omega

/-- Results far below the largest double are never too large. -/
theorem exists_nearest? (hden : 0 < den) (h : num < 2 ^ 128 * den) :
    ∃ m, nearest? num den = some m := by
  obtain ⟨p, hunit, hp⟩ := unitDen_eq
  have hquotient : num * unitDen / den < 2 ^ (128 + p) := by
    rw [Nat.div_lt_iff_lt_mul hden, Nat.pow_add, ← hunit]
    calc num * unitDen < 2 ^ 128 * den * unitDen := Nat.mul_lt_mul_of_pos_right h unitDen_pos
      _ = 2 ^ 128 * unitDen * den := by ring
  have hplace : roundingPlace num den ≤ 1149 := by
    rw [roundingPlace]
    rcases Nat.eq_zero_or_pos (num * unitDen / den) with hzero | hpos
    · rw [hzero, Nat.log2_zero]
      omega
    · have hlog := (Nat.log2_lt (Nat.ne_of_gt hpos)).2 hquotient
      omega
  have hfinite : roundingPlace num den * leadingBit + rounded num den < infinityIndex := by
    have hq := (rounded_le hden : rounded num den ≤ _)
    rw [infinityIndex, show leadingBit = 4503599627370496 from rfl]
    omega
  exact ⟨_, by simp only [nearest?]; exact dif_pos hfinite⟩

end Magnitude

end MetaCache.Number
