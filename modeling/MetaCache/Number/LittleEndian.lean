/-!
# Numbers as bytes

A number as a fixed count of bytes, least significant first. Negative numbers are stored as what is
missing to the next power of 256. Numbers in range are read back as they were written
(`natural_naturalBytes`, `signed_signedBytes`).
-/

namespace MetaCache.Number

/-- How many numbers can be told apart by `width` bytes. -/
def capacity : Nat → Nat
  | 0 => 1
  | width + 1 => 256 * capacity width

theorem capacity_pos (width : Nat) : 0 < capacity width := by
  induction width with
  | zero => decide
  | succ width ih => simp only [capacity]; omega

/-- The lowest `width` bytes of `n`. -/
def naturalBytes : Nat → Nat → List UInt8
  | 0, _ => []
  | width + 1, n => UInt8.ofNat n :: naturalBytes width (n / 256)

/-- The number that bytes stand for. -/
def natural : List UInt8 → Nat
  | [] => 0
  | b :: rest => b.toNat + 256 * natural rest

@[simp]
theorem naturalBytes_length (width n : Nat) : (naturalBytes width n).length = width := by
  induction width generalizing n with
  | zero => rfl
  | succ width ih => simp [naturalBytes, ih]

theorem natural_naturalBytes_mod (width n : Nat) :
    natural (naturalBytes width n) = n % capacity width := by
  induction width generalizing n with
  | zero => simp [naturalBytes, natural, capacity, Nat.mod_one]
  | succ width ih =>
    have hb : (UInt8.ofNat n).toNat = n % 256 := by simp
    rw [naturalBytes, natural, hb, ih, capacity, Nat.mod_mul]

/-- A number that fits reads back. -/
theorem natural_naturalBytes {width n : Nat} (h : n < capacity width) :
    natural (naturalBytes width n) = n := by
  rw [natural_naturalBytes_mod, Nat.mod_eq_of_lt h]

/-- An integer in `width` bytes. -/
def signedBytes (width : Nat) (n : Int) : List UInt8 :=
  naturalBytes width (n % capacity width).toNat

/-- The integer that bytes stand for: the upper half of the range is negative. -/
def signed (bytes : List UInt8) : Int :=
  (natural bytes : Int).bmod (capacity bytes.length)

@[simp]
theorem signedBytes_length (width : Nat) (n : Int) : (signedBytes width n).length = width :=
  naturalBytes_length _ _

/-- An integer that fits reads back. -/
theorem signed_signedBytes {width : Nat} {n : Int}
    (low : -(capacity width : Int) ≤ 2 * n) (high : 2 * n < capacity width) :
    signed (signedBytes width n) = n := by
  have hpos := capacity_pos width
  have hmod : 0 ≤ n % (capacity width : Int) := Int.emod_nonneg _ (by omega)
  have hlt : (n % (capacity width : Int)).toNat < capacity width := by
    have := Int.emod_lt_of_pos n (b := (capacity width : Int)) (by omega)
    omega
  unfold signed
  rw [signedBytes_length, signedBytes, natural_naturalBytes hlt, Int.toNat_of_nonneg hmod,
    Int.emod_bmod]
  exact Int.bmod_eq_of_le_mul_two (by rw [Int.mul_comm]; exact low) (by rw [Int.mul_comm]; exact high)

end MetaCache.Number
