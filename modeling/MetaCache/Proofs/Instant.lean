import Mathlib.Order.Defs.LinearOrder
import MetaCache.Instant

/-!
# Timestamps by their nanoseconds

Outside of leap seconds a timestamp is the number of its nanoseconds: numbers compare as timestamps
do (`lt_iff_nanos`), and adding a duration adds to the number (`plus_of_ordinary`). In a leap second
this fails: its nanoseconds come again in the second behind it. What adding does there is told by
`plus_cases`.

Milliseconds are read back rounded down (`floorMillis_of_ordinary`), a leap second as the second
behind it (`floorMillis_of_leap`).
-/

namespace MetaCache

@[simp]
theorem Instant.isLeap_eq_false (t : Instant) : t.isLeap = false :=
  decide_eq_false (Nat.not_le.2 t.ordinary)

@[simp]
theorem Instant.toTimestamp_last : last.toTimestamp = .last := rfl

namespace Timestamp

variable {t other : Timestamp}

theorem isLeap_eq_false_iff : t.isLeap = false ↔ t.nano < 1000000000 := by
  rw [isLeap, decide_eq_false_iff_not, Nat.not_le]
  rfl

theorem nanos_eq (t : Timestamp) : t.nanos = t.second * 1000000000 + t.nano := rfl

@[simp]
theorem isLeap_last : last.isLeap = false := rfl

theorem nanos_last : last.nanos = 8210266876800 * 1000000000 - 1 := by decide

/-! ## Order -/

theorem lt_iff_nanos (ht : t.isLeap = false) (hother : other.isLeap = false) :
    t < other ↔ t.nanos < other.nanos := by
  rw [isLeap_eq_false_iff] at ht hother
  rw [lt_def, nanos_eq, nanos_eq]
  omega

/-- The seconds come first, then the nanoseconds in them. -/
instance : LinearOrder Timestamp where
  le_refl t := le_def.2 (.inr ⟨rfl, Nat.le_refl _⟩)
  le_trans _ _ _ h h' := by
    rw [le_def] at h h' ⊢
    omega
  lt_iff_le_not_ge _ _ := by
    rw [lt_def, le_def, le_def]
    omega
  le_antisymm t other h h' := by
    rw [le_def] at h h'
    exact Timestamp.ext (by omega) (by omega)
  le_total _ _ := by
    rw [le_def, le_def]
    omega
  toDecidableLE := inferInstance
  toDecidableEq := inferInstance
  toDecidableLT := inferInstance

/-- Only the leap second at its end is past the calendar. -/
theorem le_last_iff : t ≤ last ↔ t.nanos ≤ last.nanos := by
  have hlate := t.notLater
  have hin := t.inSecond
  rw [le_def, nanos_last, nanos_eq]
  show t.second < 8210266876799 ∨ t.second = 8210266876799 ∧ t.nano ≤ 999999999 ↔ _
  omega

theorem le_last_of_ordinary (h : t.isLeap = false) : t ≤ last := by
  have hlate := t.notLater
  rw [isLeap_eq_false_iff] at h
  rw [le_last_iff, nanos_last, nanos_eq]
  omega

/-! ## Durations -/

/-- The nanoseconds since the epoch, those of a leap second taken for those of the second before
it. -/
def earlyNanos (t : Timestamp) : Int := t.second * 1000000000 + (t.nano % 1000000000 : Nat)

theorem earlyNanos_of_ordinary (h : t.isLeap = false) : t.earlyNanos = t.nanos := by
  rw [isLeap_eq_false_iff] at h
  rw [earlyNanos, Nat.mod_eq_of_lt h, nanos_eq]

theorem behind_spec (t : Timestamp) (nanos : Nat) :
    (t.behind nanos).isLeap = false
      ∧ (t.behind nanos).nanos = min (t.second * 1000000000 + nanos) last.nanos := by
  rw [behind, nanos_last]
  split
  · next hbefore =>
    refine ⟨isLeap_eq_false_iff.2 (Nat.mod_lt _ (by decide)), ?_⟩
    rw [nanos_eq]
    simp only [nanosPerSecond] at hbefore ⊢
    omega
  · next hpast =>
    refine ⟨isLeap_last, ?_⟩
    rw [nanos_last]
    simp only [nanosPerSecond] at hpast
    omega

/-- **What adding does**: it stays in the leap second that it began in, or it ends as if it had begun
a second earlier. -/
theorem plus_cases (t : Timestamp) (nanos : Nat) :
    (t.isLeap ∧ t.nano + nanos < 2000000000 ∧ (t.plus nanos).second = t.second
        ∧ (t.plus nanos).nano = t.nano + nanos)
      ∨ ((t.isLeap → 2000000000 ≤ t.nano + nanos) ∧ (t.plus nanos).isLeap = false
        ∧ (t.plus nanos).nanos = min (t.earlyNanos + nanos) last.nanos) := by
  by_cases hstays : t.isLeap ∧ t.nano + nanos < 2 * nanosPerSecond
  · left
    rw [plus, dif_pos hstays]
    exact ⟨hstays.1, hstays.2, rfl, rfl⟩
  · right
    refine ⟨fun hleap => Nat.not_lt.1 fun hlt => hstays ⟨hleap, hlt⟩, ?_⟩
    obtain ⟨hordinary, hnanos⟩ := t.behind_spec (t.nano % nanosPerSecond + nanos)
    rw [plus, dif_neg hstays]
    refine ⟨hordinary, ?_⟩
    rw [hnanos, earlyNanos, Int.natCast_add, Int.add_assoc]
    rfl

theorem plus_of_ordinary (h : t.isLeap = false) (nanos : Nat) :
    (t.plus nanos).isLeap = false ∧ (t.plus nanos).nanos = min (t.nanos + nanos) last.nanos := by
  rcases t.plus_cases nanos with ⟨hleap, -⟩ | ⟨-, hordinary, hnanos⟩
  · rw [h] at hleap
    cases hleap
  · rw [earlyNanos_of_ordinary h] at hnanos
    exact ⟨hordinary, hnanos⟩

/-- Nothing is as far from anything else as the calendar is long. -/
theorem plus_of_long (t : Timestamp) {nanos : Nat}
    (h : (8210266876800 + 8334601228800) * nanosPerSecond ≤ nanos) : t.plus nanos = last := by
  have hlow := t.notEarlier
  simp only [nanosPerSecond] at h
  rw [plus, dif_neg, behind, dif_neg] <;> simp only [nanosPerSecond] <;> omega

theorem ofParts?_eq_some {second : Int} {nano : Nat} (h : ofParts? second nano = some t) :
    t.second = second ∧ t.nano = nano := by
  unfold ofParts? at h
  split at h
  · cases h
    exact ⟨rfl, rfl⟩
  · cases h

theorem ofParts?_isSome_iff {second : Int} {nano : Nat} :
    (ofParts? second nano).isSome ↔ (-8334601228800 ≤ second ∧ second < 8210266876800)
      ∧ (nano < 1000000000 ∨ nano < 2000000000 ∧ second % 60 = 59) := by
  unfold ofParts?
  split <;> simp_all

/-- What milliseconds stand for is in no leap second. -/
theorem nanos_of_ofMillis? {millis : Int} (h : ofMillis? millis = some t) :
    t.isLeap = false ∧ t.nanos = millis * 1000000 := by
  obtain ⟨hsecond, hnano⟩ := ofParts?_eq_some h
  simp only [nanosPerMilli] at hnano
  rw [isLeap_eq_false_iff, nanos_eq]
  omega

theorem ofMillis?_isSome_iff {millis : Int} :
    (ofMillis? millis).isSome ↔ -8334601228800000 ≤ millis ∧ millis < 8210266876800000 := by
  rw [ofMillis?, ofParts?_isSome_iff]
  simp only [nanosPerMilli]
  omega

theorem millis_eq (t : Timestamp) : t.millis = t.nanos / 1000000 := by
  rw [millis, nanos_eq]
  simp only [nanosPerMilli]
  omega

/-- Milliseconds stand for a timestamp again, unless it is past the last one. -/
theorem ofMillis?_millis (h : t ≤ last) : ofMillis? t.millis = some t.floorMillis := by
  have hlow := t.notEarlier
  rw [le_last_iff, nanos_last] at h
  have hsome : (ofMillis? t.millis).isSome := by
    rw [ofMillis?_isSome_iff, millis_eq]
    rw [nanos_eq] at h ⊢
    omega
  obtain ⟨floor, hfloor⟩ := Option.isSome_iff_exists.1 hsome
  rw [floorMillis, hfloor, Option.getD_some]

theorem ofMillis?_millis_of_late (h : last < t) : ofMillis? t.millis = none := by
  rw [← Option.not_isSome_iff_eq_none, ofMillis?_isSome_iff, millis_eq]
  rw [← not_le, le_last_iff, nanos_last] at h
  omega

/-- **What is left of a timestamp in milliseconds**: its nanoseconds rounded down, in no leap
second. -/
theorem floorMillis_spec (h : t ≤ last) :
    t.floorMillis.isLeap = false ∧ t.floorMillis.nanos = t.nanos / 1000000 * 1000000 := by
  rw [← millis_eq]
  exact nanos_of_ofMillis? (ofMillis?_millis h)

/-- Less than a millisecond is lost. -/
theorem floorMillis_bounds (h : t ≤ last) :
    t.nanos - nanosPerMilli < t.floorMillis.nanos ∧ t.floorMillis.nanos ≤ t.nanos := by
  have hnanos := (floorMillis_spec h).2
  simp only [nanosPerMilli]
  omega

end Timestamp

end MetaCache
