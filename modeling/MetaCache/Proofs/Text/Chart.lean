import MetaCache.Text.Chart

/-!
# Charts row by row

A chart is the list of its rows, and the first of them is known when the text behind it has not been
looked at (`readChart_toList`). So what all rows of a long chart have in common can be computed.
-/

namespace MetaCache.Text

/-- A text that was written out is the list of its characters. -/
theorem toList_of_eq_ofList {text : String} {cs : List Char} (h : text = String.ofList cs) :
    text.toList = cs := by
  rw [h, String.toList_ofList]

/-- The row that is read when an entry ends, if there is any. -/
def closedRow (row : List Nat) : List (List Nat) := if row.isEmpty then [] else [row]

/-- The rows of a text; of the first one `row` and `number` are behind. -/
def rowsOf : List Nat → Option Nat → List Char → List (List Nat)
  | row, number, [] => closedRow (row ++ number.toList)
  | row, number, c :: cs =>
    match hexValue? c with
    | some d => rowsOf row (some (number.getD 0 * 16 + d.val)) cs
    | none =>
      if c.isWhitespace then closedRow (row ++ number.toList) ++ rowsOf [] none cs
      else rowsOf (row ++ number.toList) none cs

namespace ChartReading

theorem endNumber_eq (r : ChartReading) :
    r.endNumber.entries = r.entries ∧ r.endNumber.number = none
      ∧ r.endNumber.row.toList = r.row.toList ++ r.number.toList := by
  obtain ⟨entries, row, number⟩ := r
  cases number <;> simp [endNumber]

theorem endEntry_eq (r : ChartReading) :
    r.endEntry.row = #[] ∧ r.endEntry.number = none
      ∧ r.endEntry.entries.toList
        = r.entries.toList ++ (closedRow (r.row.toList ++ r.number.toList)).map List.toArray := by
  obtain ⟨hentries, hnumber, hrow⟩ := r.endNumber_eq
  rw [← hrow, ← hentries]
  unfold endEntry closedRow
  generalize r.endNumber = ended at hnumber
  obtain ⟨entries, ⟨row⟩, number⟩ := ended
  cases row <;> simp_all

/-- The rows behind are the entries, and those ahead are rows of the text. -/
theorem foldl_step (cs : List Char) (r : ChartReading) :
    (cs.foldl step r).endEntry.entries.toList
      = r.entries.toList ++ (rowsOf r.row.toList r.number cs).map List.toArray := by
  induction cs generalizing r with
  | nil => exact (r.endEntry_eq).2.2
  | cons c cs ih =>
    rw [List.foldl_cons, ih, rowsOf, step]
    cases hexValue? c with
    | some d => rfl
    | none =>
      dsimp only
      split
      · obtain ⟨hrow, hnumber, hentries⟩ := r.endEntry_eq
        rw [hrow, hnumber, hentries, List.map_append, List.append_assoc]
      · obtain ⟨hentries, hnumber, hrow⟩ := r.endNumber_eq
        rw [hentries, hnumber, hrow]

end ChartReading

/-- **The entries of a chart are its rows.** -/
theorem readChart_toList (text : String) :
    (readChart text).toList = (rowsOf [] none text.toList).map List.toArray := by
  rw [readChart, ChartReading.foldl_step]
  rfl

variable {α : Type} {f : Array Nat → α} {p : α → Bool} {text : String}

theorem mem_chart {a : α} :
    a ∈ (readChart text).map f ↔ ∃ row ∈ rowsOf [] none text.toList, f row.toArray = a := by
  rw [← Array.mem_toList_iff, Array.toList_map, readChart_toList]
  simp

/-- What can be computed of all rows. -/
theorem forall_mem_chart
    (h : (rowsOf [] none text.toList).all (fun row => p (f row.toArray)) = true) :
    ∀ a ∈ (readChart text).map f, p a := by
  intro a ha
  obtain ⟨row, hrow, rfl⟩ := mem_chart.1 ha
  exact List.all_eq_true.1 h row hrow

/-- What can be computed of some row. -/
theorem exists_mem_chart
    (h : (rowsOf [] none text.toList).any (fun row => p (f row.toArray)) = true) :
    ∃ a ∈ (readChart text).map f, p a := by
  obtain ⟨row, hrow, hp⟩ := List.any_eq_true.1 h
  exact ⟨_, mem_chart.2 ⟨row, hrow, rfl⟩, hp⟩

end MetaCache.Text
