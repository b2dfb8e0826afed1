/-!
# Points in time

A timestamp is a second, counted from the epoch, and the nanoseconds in it. Leap seconds have no
number of their own. One may follow the last second of any minute, and then the nanoseconds of that
second are counted on. So timestamps are compared by their seconds first: whatever is in a leap
second comes before the second behind it.

An *instant* is a timestamp outside of leap seconds. Clocks show no others.

Adding to a timestamp stops at the last instant. Milliseconds are counted without leap seconds: a
leap second has the same ones as the second behind it.
-/

namespace MetaCache

/-- The length of a second. -/
def nanosPerSecond : Nat := 1000000000

/-- The length of a millisecond. -/
def nanosPerMilli : Nat := 1000000

/-- A point in time within the years of the calendar. -/
@[ext]
structure Timestamp where
  /-- Seconds since the epoch, without leap seconds. -/
  second : Int
  nano : Nat
  notEarlier : -8334601228800 ≤ second
  notLater : second < 8210266876800
  /-- Only the last second of a minute is followed by a leap second. -/
  inSecond : nano < 1000000000 ∨ nano < 2000000000 ∧ second % 60 = 59
  deriving DecidableEq, Repr

namespace Timestamp

/-- The last timestamp that is in no leap second. -/
def last : Timestamp := ⟨8210266876799, 999999999, by decide, by decide, by decide⟩

def epoch : Timestamp := ⟨0, 0, by decide, by decide, by decide⟩

instance : Inhabited Timestamp := ⟨epoch⟩

/-- Whether a timestamp is in a leap second. -/
def isLeap (t : Timestamp) : Bool := nanosPerSecond ≤ t.nano

/-- Nanoseconds since the epoch. Those of a leap second come again in the second behind it. -/
def nanos (t : Timestamp) : Int := t.second * (nanosPerSecond : Int) + t.nano

/-- The timestamp with this second and these nanoseconds, if there is one. -/
def ofParts? (second : Int) (nano : Nat) : Option Timestamp :=
  if h : (-8334601228800 ≤ second ∧ second < 8210266876800)
      ∧ (nano < 1000000000 ∨ nano < 2000000000 ∧ second % 60 = 59) then
    some ⟨second, nano, h.1.1, h.1.2, h.2⟩
  else none

/-! ## Order -/

instance : LT Timestamp :=
  ⟨fun t other => t.second < other.second ∨ t.second = other.second ∧ t.nano < other.nano⟩

instance : LE Timestamp :=
  ⟨fun t other => t.second < other.second ∨ t.second = other.second ∧ t.nano ≤ other.nano⟩

theorem lt_def {t other : Timestamp} :
    t < other ↔ t.second < other.second ∨ t.second = other.second ∧ t.nano < other.nano := Iff.rfl

theorem le_def {t other : Timestamp} :
    t ≤ other ↔ t.second < other.second ∨ t.second = other.second ∧ t.nano ≤ other.nano := Iff.rfl

instance (t other : Timestamp) : Decidable (t < other) := decidable_of_iff' _ lt_def

instance (t other : Timestamp) : Decidable (t ≤ other) := decidable_of_iff' _ le_def

/-- Whether `t` lies after `other`. -/
def isAfter (t other : Timestamp) : Bool := other < t

/-! ## Durations -/

/-- The timestamp that many nanoseconds behind the beginning of its second, or the last one. Leap
seconds on the way are not counted. -/
def behind (t : Timestamp) (nanos : Nat) : Timestamp :=
  if h : t.second + (nanos / nanosPerSecond : Nat) < 8210266876800 then
    { second := t.second + (nanos / nanosPerSecond : Nat)
      nano := nanos % nanosPerSecond
      notEarlier := Int.le_trans t.notEarlier (Int.le_add_of_nonneg_right (Int.natCast_nonneg _))
      notLater := h
      inSecond := .inl (Nat.mod_lt _ (by decide)) }
  else last

/-- The timestamp a duration later, or the last one. A leap second is a second for durations that
begin in it, and nothing for those that begin before it. -/
def plus (t : Timestamp) (nanos : Nat) : Timestamp :=
  if h : t.isLeap ∧ t.nano + nanos < 2 * nanosPerSecond then
    { t with
      nano := t.nano + nanos
      inSecond := by
        have hleap : nanosPerSecond ≤ t.nano := of_decide_eq_true h.1
        have hin := t.inSecond
        simp only [nanosPerSecond] at h hleap
        omega }
  else t.behind (t.nano % nanosPerSecond + nanos)

/-! ## Milliseconds -/

/-- Whole milliseconds since the epoch, rounded down also before it. -/
def millis (t : Timestamp) : Int := t.second * 1000 + (t.nano / nanosPerMilli : Nat)

/-- The timestamp that many milliseconds from the epoch, if there is one. It is in no leap
second. -/
def ofMillis? (millis : Int) : Option Timestamp :=
  ofParts? (millis / 1000) ((millis % 1000).toNat * nanosPerMilli)

/-- The timestamp that the whole milliseconds stand for. Outside of leap seconds this is the
timestamp rounded down; a leap second becomes the second behind it. Only the very last leap second
has none behind it. -/
def floorMillis (t : Timestamp) : Timestamp := (ofMillis? t.millis).getD t

end Timestamp

/-- What a clock shows: a timestamp in no leap second. -/
structure Instant extends Timestamp where
  ordinary : nano < 1000000000
  deriving DecidableEq, Repr

namespace Instant

instance : Coe Instant Timestamp := ⟨toTimestamp⟩

def last : Instant := ⟨.last, by decide⟩

def epoch : Instant := ⟨.epoch, by decide⟩

instance : Inhabited Instant := ⟨epoch⟩

/-- The instant that many nanoseconds from the epoch, if there is one. -/
def ofNanos? (nanos : Int) : Option Instant :=
  if h : -8334601228800 ≤ nanos / (nanosPerSecond : Int)
      ∧ nanos / (nanosPerSecond : Int) < 8210266876800 then
    have hnano : (nanos % (nanosPerSecond : Int)).toNat < 1000000000 := by
      simp only [nanosPerSecond]
      omega
    some ⟨⟨_, _, h.1, h.2, .inl hnano⟩, hnano⟩
  else none

end Instant

end MetaCache
