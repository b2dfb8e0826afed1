/-!
# Labels in ASCII letters

A label with other characters is written in ASCII: first the characters that are ASCII, then the
places and code points of the others, in increasing order of code points. Each of them is a distance
from the one before, counted in places and code points alike, and a distance is a number whose
digits have thresholds that adapt to the distances before.

Reading gives up where no label can have been written.
-/

namespace MetaCache.Url.Punycode

/-- The letter of a digit below 36. -/
def digitChar (d : Nat) : Char :=
  if d < 26 then Char.ofNat (0x61 + d) else Char.ofNat (0x30 + (d - 26))

/-- The digit of a letter. -/
def digitValue? (c : Char) : Option Nat :=
  let n := c.toNat
  if 0x61 ≤ n ∧ n ≤ 0x7a then some (n - 0x61)
  else if 0x41 ≤ n ∧ n ≤ 0x5a then some (n - 0x41)
  else if 0x30 ≤ n ∧ n ≤ 0x39 then some (n - 0x30 + 26)
  else none

/-- The threshold of the digit at place `k`, which counts by 36. -/
def threshold (k bias : Nat) : Nat :=
  if k ≤ bias then 1 else if bias + 26 ≤ k then 26 else k - bias

theorem threshold_pos (k bias : Nat) : 1 ≤ threshold k bias := by
  unfold threshold
  repeat' split
  all_goals omega

theorem threshold_le (k bias : Nat) : threshold k bias ≤ 26 := by
  unfold threshold
  repeat' split
  all_goals omega

/-- Divides by 35 until 455 is reached, counting by 36. -/
def shrink (delta k : Nat) : Nat × Nat :=
  if 455 < delta then shrink (delta / 35) (k + 36) else (delta, k)
termination_by delta
decreasing_by omega

/-- The bias after a distance; the first one counts far less. -/
def adapt (delta count : Nat) (first : Bool) : Nat :=
  let delta := if first then delta / 700 else delta / 2
  let (rest, k) := shrink (delta + delta / count) 0
  k + 36 * rest / (rest + 38)

/-! ## Writing -/

/-- The digits of a distance from place `k` on. -/
def writeDistance (bias k q : Nat) : List Char :=
  let t := threshold k bias
  if q < t then [digitChar q]
  else digitChar (t + (q - t) % (36 - t)) :: writeDistance bias (k + 36) ((q - t) / (36 - t))
termination_by q
decreasing_by
  have := threshold_pos k bias
  have := threshold_le k bias
  calc (q - threshold k bias) / (36 - threshold k bias)
      ≤ q - threshold k bias := Nat.div_le_self _ _
    _ < q := by omega

/-- What has been written, the distance since, the bias, and how many characters are written. -/
structure Writing where
  out : List Char
  delta : Nat
  bias : Nat
  count : Nat

/-- Passes one character while the code point `m` is written; `basic` characters are ASCII. -/
def Writing.pass (w : Writing) (basic m : Nat) (n : Nat) : Writing :=
  if n < m then { w with delta := w.delta + 1 }
  else if n = m then
    { out := w.out ++ writeDistance w.bias 36 w.delta
      delta := 0
      bias := adapt w.delta (w.count + 1) (w.count = basic)
      count := w.count + 1 }
  else w

/-- Writes all places of the given code points, which come in increasing order; `n` is next. -/
def writeAll (label : List Nat) (basic : Nat) : List Nat → Nat → Writing → Writing
  | [], _, w => w
  | m :: rest, n, w =>
    let w := { w with delta := w.delta + (m - n) * (w.count + 1) }
    let w := label.foldl (fun w c => w.pass basic m c) w
    writeAll label basic rest (m + 1) { w with delta := w.delta + 1 }

/-- A label in ASCII, without the mark that tells so. -/
def write (label : List Char) : List Char :=
  let codes := label.map Char.toNat
  let ascii := label.filter (·.toNat < 0x80)
  let others := ((codes.filter (0x80 ≤ ·)).mergeSort).eraseDups
  let start : Writing := ⟨[], 0, 72, ascii.length⟩
  ascii ++ (if ascii.isEmpty then [] else ['-'])
    ++ (writeAll codes ascii.length others 0x80 start).out

/-! ## Reading -/

/-- A distance from place `k` on, and the rest. -/
def readDistance (bias : Nat) : List Char → Nat → Nat → Nat → Option (Nat × List Char)
  | [], _, _, _ => none
  | c :: rest, k, weight, sum =>
    match digitValue? c with
    | none => none
    | some d =>
      let sum := sum + d * weight
      let t := threshold k bias
      if d < t then some (sum, rest) else readDistance bias rest (k + 36) (weight * (36 - t)) sum

/-- Puts the characters of at most `rounds` distances into their places. -/
def readAll : Nat → Nat → Nat → Nat → List Char → List Char → Option (List Char)
  | _, _, _, _, out, [] => some out
  | 0, _, _, _, _, _ :: _ => none
  | rounds + 1, bias, n, i, out, digits => do
    let (j, rest) ← readDistance bias digits 36 1 i
    let count := out.length + 1
    let m := n + j / count
    let place := j % count
    if m.isValidChar then
      readAll rounds (adapt (j - i) count (i = 0)) m (place + 1) (out.insertIdx place (Char.ofNat m))
        rest
    else none

/-- The label that was written in ASCII. A minus sign with nothing before it is no separator, and no
digit either. -/
def read? (written : List Char) : Option (List Char) :=
  let behind := (written.reverse.takeWhile (· ≠ '-')).reverse
  let before := written.take (written.length - behind.length - 1)
  if before.isEmpty && written.contains '-' then none
  else readAll (behind.length + 1) 72 0x80 0 before behind

end MetaCache.Url.Punycode
