import MetaCache.Normalizer
import MetaCache.Proofs.Instant
import MetaCache.Proofs.Number.Rounding

/-!
# Lifetimes lie in the window of the jitter

The factor that a draw stands for lies between three quarters and five quarters, and rounding does
not leave that window (`jitter?_bounds`). A lifetime of whole seconds is a double as long as 53 bits
hold it, and its products with the ends of the window are doubles up to `2 ^ 50` seconds. Longer
lifetimes end at the last instant anyway. So an expiry is between three quarters and five quarters
of the lifetime away (`expiry_bounds`).
-/

namespace MetaCache.Normalizer

open MetaCache.Number Magnitude

theorem isDouble_mul_unitDen {k : Nat} (h : k ≤ 2 ^ 53) : IsDouble (k * unitDen) := by
  obtain ⟨p, hp, -⟩ := unitDen_eq
  exact ⟨k, p, h, by rw [hp]⟩

/-- Quarters of small numbers are doubles. -/
theorem isDouble_quarters {k : Nat} (h : k ≤ 2 ^ 53) :
    ∃ u, IsDouble u ∧ 4 * u = k * unitDen := by
  obtain ⟨p, hp, hplace⟩ := unitDen_eq
  refine ⟨k * 2 ^ (p - 2), ⟨k, p - 2, h, rfl⟩, ?_⟩
  have hsplit : 2 ^ p = 4 * 2 ^ (p - 2) := by
    rw [← Nat.pow_add 2 2, Nat.add_sub_cancel' (by omega)]
  rw [hp, hsplit]
  ring

/-- **The factor lies between three quarters and five quarters.** -/
theorem jitter?_bounds (draw : UInt64) :
    ∃ y, jitter? draw = some y ∧ 3 * unitDen ≤ 4 * y.units ∧ 4 * y.units ≤ 5 * unitDen := by
  have hdraw := draw.toNat_lt
  have hpart : draw.toNat / 0x1000 < 0x10000000000000 := by omega
  obtain ⟨y, hy⟩ : ∃ y, jitter? draw = some y := exists_nearest? (by decide) (by omega)
  obtain ⟨low, hlow, hlow'⟩ := isDouble_quarters (k := 3) (by decide)
  obtain ⟨high, hhigh, hhigh'⟩ := isDouble_quarters (k := 5) (by decide)
  refine ⟨y, hy, ?_, ?_⟩
  · rw [← hlow']
    refine Nat.mul_le_mul_left 4 (le_units_of_nearest? (by decide) hy hlow ?_)
    rw [Nat.add_mul]
    omega
  · rw [← hhigh']
    refine Nat.mul_le_mul_left 4 (units_le_of_nearest? (by decide) hy hhigh ?_)
    have hmul := Nat.mul_le_mul_right unitDen (Nat.le_of_lt hpart)
    rw [Nat.add_mul]
    omega

variable {n : Normalizer} {T : Nat}

/-- The binds are written out: to see through them by computation is to compute the sum. -/
theorem seconds?_eq (n : Normalizer) :
    n.seconds? = (ofNat? (n.lifetime / nanosPerSecond)).bind fun whole =>
      (nearest? (n.lifetime % nanosPerSecond) nanosPerSecond).bind fun part => whole.add? part := rfl

/-- The seconds of a lifetime, which are rounded only past 53 bits. -/
theorem seconds?_bounds (hlifetime : n.lifetime = T * nanosPerSecond) (hT : T < UInt64.size) :
    ∃ x, n.seconds? = some x ∧ (T ≤ 2 ^ 53 → x.units = T * unitDen)
      ∧ (2 ^ 53 ≤ T → 2 ^ 53 * unitDen ≤ x.units) := by
  have hsize : UInt64.size = 2 ^ 64 := rfl
  have hpart : nearest? (n.lifetime % nanosPerSecond) nanosPerSecond = some zero := by
    rw [hlifetime, Nat.mul_mod_left]
    decide
  have hwhole : n.lifetime / nanosPerSecond = T := by
    rw [hlifetime, Nat.mul_div_cancel _ (by decide)]
  obtain ⟨whole, hw⟩ : ∃ whole, ofNat? T = some whole := exists_nearest? Nat.one_pos (by omega)
  have hhigh : whole.units ≤ 2 ^ 64 * unitDen := by
    obtain ⟨p, hp, -⟩ := unitDen_eq
    refine units_le_of_nearest? Nat.one_pos hw ⟨1, 64 + p, by decide, ?_⟩ ?_
    · rw [hp, Nat.pow_add, Nat.one_mul]
    · rw [Nat.mul_one]
      exact Nat.mul_le_mul_right _ (by omega)
  obtain ⟨x, hx⟩ : ∃ x, whole.add? zero = some x := by
    refine exists_nearest? unitDen_pos ?_
    have hunits : zero.units = 0 := by decide
    rw [hunits, Nat.add_zero]
    exact Nat.lt_of_le_of_lt hhigh (Nat.mul_lt_mul_of_pos_right (by decide) unitDen_pos)
  have hsame : x.units = whole.units := by
    refine units_eq_of_nearest? unitDen_pos hx (isDouble_units whole) ?_
    rw [show zero.units = 0 by decide, Nat.add_zero]
  refine ⟨x, ?_, fun hsmall => ?_, fun hlarge => ?_⟩
  · rw [seconds?_eq, hwhole, hw, hpart, Option.bind_some, Option.bind_some]
    exact hx
  · rw [hsame]
    exact units_eq_of_nearest? Nat.one_pos hw (isDouble_mul_unitDen hsmall) (Nat.mul_one _).symm
  · rw [hsame]
    refine le_units_of_nearest? Nat.one_pos hw (isDouble_mul_unitDen (Nat.le_refl _)) ?_
    rw [Nat.mul_one]
    exact Nat.mul_le_mul_right _ hlarge

/-! ## The jittered lifetime -/

theorem jitteredLifetime?_eq (n : Normalizer) (draw : UInt64) :
    n.jitteredLifetime? draw = n.seconds?.bind fun x => (jitter? draw).bind fun y =>
      (x.mul? y).bind fun product => some (product.timesRounded nanosPerSecond) := rfl

/-- What a bound on the product says about the nanoseconds. -/
theorem le_timesRounded {m : Magnitude} {k : Nat} (h : 3 * k * unitDen ≤ 4 * m.units) :
    750000000 * k ≤ m.timesRounded nanosPerSecond := by
  refine le_divHalfEven unitDen_pos ?_
  rw [show nanosPerSecond = 4 * 250000000 from rfl]
  calc 750000000 * k * unitDen = 250000000 * (3 * k * unitDen) := by ring
    _ ≤ 250000000 * (4 * m.units) := Nat.mul_le_mul_left _ h
    _ = m.units * (4 * 250000000) := by ring

theorem timesRounded_le {m : Magnitude} {k : Nat} (h : 4 * m.units ≤ 5 * k * unitDen) :
    m.timesRounded nanosPerSecond ≤ 1250000000 * k := by
  refine divHalfEven_le unitDen_pos ?_
  rw [show nanosPerSecond = 4 * 250000000 from rfl]
  calc m.units * (4 * 250000000) = 250000000 * (4 * m.units) := by ring
    _ ≤ 250000000 * (5 * k * unitDen) := Nat.mul_le_mul_left _ h
    _ = 1250000000 * k * unitDen := by ring

/-- A product with the factor is at least three quarters of a number that it multiplies. -/
theorem le_product {x y product : Magnitude} {k : Nat} (hk : 3 * k ≤ 2 ^ 53)
    (hx : k * unitDen ≤ x.units) (hy : 3 * unitDen ≤ 4 * y.units)
    (hproduct : x.mul? y = some product) : 3 * k * unitDen ≤ 4 * product.units := by
  obtain ⟨u, hu, hu'⟩ := isDouble_quarters hk
  rw [← hu']
  refine Nat.mul_le_mul_left 4 (le_units_of_nearest? (Nat.mul_pos unitDen_pos unitDen_pos) hproduct
    hu (Nat.le_of_mul_le_mul_left ?_ (by decide : 0 < 4)))
  calc 4 * (u * (unitDen * unitDen)) = 4 * u * (unitDen * unitDen) := by ring
    _ = k * unitDen * (3 * unitDen) * unitDen := by rw [hu']; ring
    _ ≤ x.units * (4 * y.units) * unitDen :=
      Nat.mul_le_mul_right _ (Nat.mul_le_mul hx hy)
    _ = 4 * (x.units * y.units * unitDen) := by ring

theorem product_le {x y product : Magnitude} {k : Nat} (hk : 5 * k ≤ 2 ^ 53)
    (hx : x.units ≤ k * unitDen) (hy : 4 * y.units ≤ 5 * unitDen)
    (hproduct : x.mul? y = some product) : 4 * product.units ≤ 5 * k * unitDen := by
  obtain ⟨u, hu, hu'⟩ := isDouble_quarters hk
  rw [← hu']
  refine Nat.mul_le_mul_left 4 (units_le_of_nearest? (Nat.mul_pos unitDen_pos unitDen_pos) hproduct
    hu (Nat.le_of_mul_le_mul_left ?_ (by decide : 0 < 4)))
  calc 4 * (x.units * y.units * unitDen) = x.units * (4 * y.units) * unitDen := by ring
    _ ≤ k * unitDen * (5 * unitDen) * unitDen := Nat.mul_le_mul_right _ (Nat.mul_le_mul hx hy)
    _ = 4 * u * (unitDen * unitDen) := by rw [hu']; ring
    _ = 4 * (u * (unitDen * unitDen)) := by ring

/-- Up to `2 ^ 50` seconds the lifetime stays in the window. -/
theorem jitteredLifetime?_bounds (hlifetime : n.lifetime = T * nanosPerSecond) (hT : T ≤ 2 ^ 50)
    (draw : UInt64) : ∃ lifetime, n.jitteredLifetime? draw = some lifetime
      ∧ 750000000 * T ≤ lifetime ∧ lifetime ≤ 1250000000 * T := by
  obtain ⟨x, hx, hunits, -⟩ := seconds?_bounds hlifetime
    (Nat.lt_of_le_of_lt hT (by decide))
  obtain ⟨y, hy, hlow, hhigh⟩ := jitter?_bounds draw
  have hx' := hunits (Nat.le_trans hT (by decide))
  obtain ⟨product, hproduct⟩ : ∃ product, x.mul? y = some product := by
    refine exists_nearest? (Nat.mul_pos unitDen_pos unitDen_pos) ?_
    have hfactor : y.units ≤ 5 * unitDen := Nat.le_trans (Nat.le_mul_of_pos_left _ (by decide)) hhigh
    calc x.units * y.units ≤ T * unitDen * (5 * unitDen) :=
          Nat.mul_le_mul (Nat.le_of_eq hx') hfactor
      _ = 5 * T * (unitDen * unitDen) := by ring
      _ < 2 ^ 128 * (unitDen * unitDen) :=
        Nat.mul_lt_mul_of_pos_right (by omega) (Nat.mul_pos unitDen_pos unitDen_pos)
  refine ⟨product.timesRounded nanosPerSecond, ?_, ?_, ?_⟩
  · rw [jitteredLifetime?_eq, hx, hy, Option.bind_some, Option.bind_some, hproduct,
      Option.bind_some]
  · exact le_timesRounded (le_product (by omega) (Nat.le_of_eq hx'.symm) hlow hproduct)
  · exact timesRounded_le (product_le (by omega) (Nat.le_of_eq hx') hhigh hproduct)

/-- Past that it is longer than the calendar, if there is one at all. -/
theorem lifetime_of_large (hlifetime : n.lifetime = T * nanosPerSecond) (hT : 2 ^ 50 ≤ T)
    (hsize : T < UInt64.size) (draw : UInt64) :
    ∀ lifetime ∈ n.jitteredLifetime? draw, 750000000 * 2 ^ 50 ≤ lifetime := by
  obtain ⟨x, hx, hsmall, hlarge⟩ := seconds?_bounds hlifetime hsize
  obtain ⟨y, hy, hlow, -⟩ := jitter?_bounds draw
  have hx' : 2 ^ 50 * unitDen ≤ x.units := by
    rcases Nat.le_total T (2 ^ 53) with h | h
    · rw [hsmall h]
      exact Nat.mul_le_mul_right _ hT
    · exact Nat.le_trans (Nat.mul_le_mul_right _ (by decide)) (hlarge h)
  intro lifetime h
  rw [jitteredLifetime?_eq, hx, hy, Option.bind_some, Option.bind_some] at h
  obtain ⟨product, hproduct, hlifetime⟩ := Option.bind_eq_some_iff.1 h
  cases hlifetime
  exact le_timesRounded (le_product (by decide) hx' hlow hproduct)

/-! ## The expiry -/

/-- The calendar is not as long as three quarters of `2 ^ 50` seconds. -/
theorem plus_of_large (now : Timestamp) {lifetime : Nat} (h : 750000000 * 2 ^ 50 ≤ lifetime) :
    now.plus lifetime = .last :=
  now.plus_of_long (Nat.le_trans (by decide) h)

/-- Lifetimes of `2 ^ 50` seconds and more never end. -/
theorem expiry_of_large (hlifetime : n.lifetime = T * nanosPerSecond) (hT : 2 ^ 50 ≤ T)
    (hsize : T < UInt64.size) (now : Timestamp) (draw : UInt64) : n.expiry now draw = .last := by
  rw [expiry]
  cases hsome : n.jitteredLifetime? draw with
  | none => rw [Option.elim_none]
  | some lifetime =>
    rw [Option.elim_some, plus_of_large now (lifetime_of_large hlifetime hT hsize draw _ hsome)]

/-- **An expiry is between three quarters and five quarters of the lifetime away.** -/
theorem expiry_eq_plus (hlifetime : n.lifetime = T * nanosPerSecond) (hT : T < UInt64.size)
    (now : Timestamp) (draw : UInt64) :
    ∃ lifetime, 750000000 * T ≤ lifetime ∧ lifetime ≤ 1250000000 * T
      ∧ n.expiry now draw = now.plus lifetime := by
  rcases Nat.le_total T (2 ^ 50) with hsmall | hlarge
  · obtain ⟨lifetime, hsome, hlow, hhigh⟩ := jitteredLifetime?_bounds hlifetime hsmall draw
    refine ⟨lifetime, hlow, hhigh, ?_⟩
    rw [expiry, hsome, Option.elim_some]
  · refine ⟨750000000 * T, Nat.le_refl _, Nat.mul_le_mul_right T (by decide), ?_⟩
    rw [expiry_of_large hlifetime hlarge hT, plus_of_large now (Nat.mul_le_mul_left _ hlarge)]

/-- What is normalized outside of leap seconds expires outside of them. -/
theorem isLeap_expiry (n : Normalizer) {now : Timestamp} (hnow : now.isLeap = false)
    (draw : UInt64) : (n.expiry now draw).isLeap = false := by
  rw [expiry]
  cases n.jitteredLifetime? draw with
  | none => exact Timestamp.isLeap_last
  | some lifetime => exact (Timestamp.plus_of_ordinary hnow lifetime).1

/-- Outside of leap seconds the window is one of nanoseconds. -/
theorem expiry_bounds (hlifetime : n.lifetime = T * nanosPerSecond) (hT : T < UInt64.size)
    {now : Timestamp} (hnow : now.isLeap = false) (draw : UInt64) :
    min (now.nanos + (750000000 * T : Nat)) Timestamp.last.nanos ≤ (n.expiry now draw).nanos
      ∧ (n.expiry now draw).nanos
        ≤ min (now.nanos + (1250000000 * T : Nat)) Timestamp.last.nanos := by
  obtain ⟨lifetime, hlow, hhigh, hexpiry⟩ := expiry_eq_plus hlifetime hT now draw
  rw [hexpiry, (Timestamp.plus_of_ordinary hnow lifetime).2]
  omega

end MetaCache.Normalizer
