import MetaCache.Text.Hex

/-!
# Charts of characters

What is known of characters is written in charts. A chart is a text of entries with blanks between
them, and an entry is a row of hexadecimal numbers with other signs between: `41..5A` is a row of
two numbers, `C5=41+30A` one of three.

A set of characters is a chart whose entries are runs of code points, each with its first and its
last one. A character is in the set when it is in one of the runs.
-/

namespace MetaCache.Text

/-- What is read of a chart: whole entries, the numbers of the entry at hand, and the number at
hand. -/
structure ChartReading where
  entries : Array (Array Nat)
  row : Array Nat
  number : Option Nat

namespace ChartReading

def start : ChartReading := ⟨#[], #[], none⟩

/-- Ends the number at hand. -/
def endNumber (r : ChartReading) : ChartReading :=
  match r.number with
  | some n => { r with row := r.row.push n, number := none }
  | none => r

/-- Ends the entry at hand. -/
def endEntry (r : ChartReading) : ChartReading :=
  let r := r.endNumber
  if r.row.isEmpty then r else { r with entries := r.entries.push r.row, row := #[] }

def step (r : ChartReading) (c : Char) : ChartReading :=
  match hexValue? c with
  | some d => { r with number := some (r.number.getD 0 * 16 + d.val) }
  | none => if c.isWhitespace then r.endEntry else r.endNumber

end ChartReading

/-- The entries of a chart. -/
def readChart (text : String) : Array (Array Nat) :=
  (text.toList.foldl ChartReading.step .start).endEntry.entries

/-- A set of characters: runs of code points, ends included. -/
structure CodeSet where
  runs : Array (Nat × Nat)

namespace CodeSet

/-- The set that a chart shows. A row of one number is a run of one. -/
def ofChart (text : String) : CodeSet :=
  ⟨(readChart text).map fun row => (row.getD 0 0, row.getD 1 (row.getD 0 0))⟩

def contains (s : CodeSet) (n : Nat) : Bool := s.runs.any fun run => run.1 ≤ n && n ≤ run.2

end CodeSet

end MetaCache.Text
