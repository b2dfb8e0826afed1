import MetaCache.Proofs.Text.Chart
import MetaCache.Proofs.Text.Composition
import MetaCache.Url.Label

/-!
# Folded texts have no capital letters

Capital letters stand for small ones in domains. This holds of those of ASCII by definition, but
characters beyond ASCII stand for others as well, and when a text is composed its characters are
taken apart first. The charts show that no capital letter comes of that: every character with a
capital letter among its parts stands for others (`expansion_of_hidesCapital`), no character stands
for such a one (`plain_of_foldBeyond`), and no capital letter is composed of others
(`composites_plain`).
-/

namespace MetaCache.Text

/-! ## Characters with a capital letter in them -/

def isCapital (n : Nat) : Bool := 0x41 ≤ n && n ≤ 0x5a

/-- Runs of characters with steps, and characters besides, among which are all that have a capital
letter as a part. -/
def capitalRuns : List (Nat × Nat × Nat) :=
  [(0xc0, 0xd6, 1), (0xd8, 0xde, 1), (0x100, 0x12e, 2), (0x139, 0x13d, 2), (0x141, 0x147, 2),
    (0x14a, 0x176, 2), (0x179, 0x17d, 2), (0x1a0, 0x1a4, 2), (0x1cd, 0x1db, 2), (0x1de, 0x1ee, 2),
    (0x1f8, 0x21e, 2), (0x222, 0x232, 2), (0x1e00, 0x1e94, 2), (0x1ea0, 0x1efe, 2)]

def capitalsBesides : List Nat := [0x134, 0x136, 0x178, 0x1af, 0x1f4]

/-- A capital letter with a dot, which stands for two characters. -/
def dottedCapital : Nat := 0x130

/-- Whether a character may have a capital letter among its parts. All of those are in two
blocks. -/
def hidesCapital (n : Nat) : Bool :=
  (0xc0 ≤ n && n ≤ 0x232 || 0x1e00 ≤ n && n ≤ 0x1efe)
    && (capitalRuns.any (fun (first, last, step) => first ≤ n && n ≤ last && (n - first) % step = 0)
      || capitalsBesides.contains n || n = dottedCapital)

/-- Neither a capital letter nor anything with one in it. -/
def isPlain (n : Nat) : Bool := !isCapital n && !hidesCapital n

theorem isCapital_of_isPlain {n : Nat} (h : isPlain n) : isCapital n = false := by
  simp [isPlain] at h
  exact h.1

theorem not_isCapital_of_le {n : Nat} (h : 0x80 ≤ n) : isCapital n = false := by
  simp [isCapital]
  omega

/-! ## Charts -/

set_option maxRecDepth 100000 in
/-- What is composed is beyond ASCII, and its parts are plain if it is plain itself. -/
theorem composites_plain : ∀ entry ∈ composites,
    (0x80 ≤ entry.1 && !isCapital entry.2.2 && (isPlain entry.2.1 || !isPlain entry.1)) = true := by
  refine forall_mem_chart ?_
  rw [toList_of_eq_ofList rfl]
  decide +kernel

end MetaCache.Text

namespace MetaCache.Url

open MetaCache.Text

set_option maxRecDepth 100000 in
theorem shifts_plain : ∀ s ∈ shifts, (List.range (s.last - s.first + 1)).all fun i =>
    i % s.step ≠ 0 || isPlain (s.counterpart + i) := by
  refine forall_mem_chart ?_
  rw [toList_of_eq_ofList rfl]
  decide +kernel

set_option maxRecDepth 100000 in
theorem counterparts_plain : ∀ entry ∈ counterparts, entry.2.toList.all isPlain := by
  refine forall_mem_chart ?_
  rw [toList_of_eq_ofList rfl]
  decide +kernel

set_option maxRecDepth 100000 in
theorem expansions_plain : ∀ entry ∈ expansions, entry.2.toList.all isPlain := by
  refine forall_mem_chart ?_
  rw [toList_of_eq_ofList rfl]
  decide +kernel

set_option maxRecDepth 100000 in
/-- The runs with capital letters in them are runs of characters that stand for others. -/
theorem exists_shift : ∀ run ∈ capitalRuns, ∃ s ∈ shifts,
    decide ((s.first, s.last, s.step) = run) = true := by
  intro run hrun
  refine exists_mem_chart ?_
  rw [toList_of_eq_ofList rfl]
  revert run
  decide +kernel

set_option maxRecDepth 100000 in
theorem exists_counterpart : ∀ n ∈ capitalsBesides, ∃ entry ∈ counterparts,
    decide (entry.1 ≤ n ∧ n < entry.1 + entry.2.size) = true := by
  intro n hn
  refine exists_mem_chart ?_
  rw [toList_of_eq_ofList rfl]
  revert n
  decide +kernel

set_option maxRecDepth 100000 in
theorem exists_expansion : ∃ entry ∈ expansions, decide (entry.1 = dottedCapital) = true := by
  refine exists_mem_chart ?_
  rw [toList_of_eq_ofList rfl]
  decide +kernel

/-! ## Characters that stand for others -/

theorem plain_of_has {s : Shift} (hs : s ∈ shifts) {n : Nat} (hn : s.has n) :
    isPlain (s.apply n) := by
  simp only [Shift.has, Bool.and_eq_true, decide_eq_true_eq] at hn
  have hrun := List.all_eq_true.1 (shifts_plain s hs) (n - s.first) (List.mem_range.2 (by omega))
  rw [hn.2] at hrun
  exact hrun

theorem plain_of_counterpart? {n m : Nat} (h : counterpart? n = some m) : isPlain m := by
  unfold counterpart? at h
  rcases Option.or_eq_some_iff.1 h with hshift | ⟨-, hrow⟩
  · obtain ⟨s, hs, rfl⟩ := Option.map_eq_some_iff.1 hshift
    exact plain_of_has (Array.mem_of_find?_eq_some hs) (Array.find?_some (p := (Shift.has · n)) hs)
  · obtain ⟨row, hrow, hm⟩ := Option.bind_eq_some_iff.1 hrow
    exact List.all_eq_true.1 (counterparts_plain row (Array.mem_of_find?_eq_some hrow)) m
      (Array.mem_toList_iff.2 (Array.mem_of_getElem? hm))

theorem counterpart?_of_has {s : Shift} (hs : s ∈ shifts) {n : Nat} (hn : s.has n) :
    counterpart? n ≠ none := by
  intro h
  obtain ⟨hshift, -⟩ := Option.or_eq_none_iff.1 h
  exact Array.find?_eq_none.1 (Option.map_eq_none_iff.1 hshift) s hs hn

theorem counterpart?_of_row {entry : Nat × Array Nat} (hentry : entry ∈ counterparts) {n : Nat}
    (hn : entry.1 ≤ n ∧ n < entry.1 + entry.2.size) : counterpart? n ≠ none := by
  intro h
  obtain ⟨-, hrow⟩ := Option.or_eq_none_iff.1 h
  cases hfind : counterparts.find? fun row => row.1 ≤ n && n < row.1 + row.2.size with
  | none => exact Array.find?_eq_none.1 hfind entry hentry (by simpa using hn)
  | some found =>
    have hfound := Array.find?_some hfind
    simp only [Bool.and_eq_true, decide_eq_true_eq] at hfound
    rw [hfind, Option.bind_some, Array.getElem?_eq_none_iff] at hrow
    omega

/-- **No character with a capital letter in it stands for itself.** -/
theorem expansion_of_hidesCapital {n : Nat} (h : hidesCapital n) (hnone : counterpart? n = none) :
    expansions.find? (·.1 = n) ≠ none := by
  simp only [hidesCapital, Bool.and_eq_true, Bool.or_eq_true, decide_eq_true_eq] at h
  rcases h.2 with (hrun | hbesides) | rfl
  · obtain ⟨⟨first, last, step⟩, hmem, hn⟩ := List.any_eq_true.1 hrun
    obtain ⟨s, hs, hsame⟩ := exists_shift _ hmem
    simp only [decide_eq_true_eq, Prod.mk.injEq] at hsame
    obtain ⟨rfl, rfl, rfl⟩ := hsame
    exact absurd hnone (counterpart?_of_has hs hn)
  · obtain ⟨entry, hentry, hn⟩ := exists_counterpart n (List.contains_iff_mem.1 hbesides)
    exact absurd hnone (counterpart?_of_row hentry (of_decide_eq_true hn))
  · obtain ⟨entry, hentry, hn⟩ := exists_expansion
    exact fun hfind => Array.find?_eq_none.1 hfind entry hentry hn

/-- **What characters beyond ASCII stand for is plain.** -/
theorem plain_of_foldBeyond {n : Nat} (hn : 0x80 ≤ n) {row : List Nat}
    (h : foldBeyond n = some row) : ∀ m ∈ row, isPlain m := by
  unfold foldBeyond at h
  by_cases hignored : ignored.contains n
  · rw [if_pos hignored] at h
    cases h
    simp
  · rw [if_neg hignored] at h
    rcases Option.or_eq_some_iff.1 h with hone | ⟨hnone, h⟩
    · obtain ⟨m, hm, rfl⟩ := Option.map_eq_some_iff.1 hone
      simpa using plain_of_counterpart? hm
    · rcases Option.or_eq_some_iff.1 h with hmany | ⟨hexpansion, h⟩
      · obtain ⟨entry, hentry, rfl⟩ := Option.map_eq_some_iff.1 hmany
        exact List.all_eq_true.1 (expansions_plain entry (Array.mem_of_find?_eq_some hentry))
      · -- A character that stands for itself.
        have hhides : hidesCapital n = false := Bool.eq_false_iff.2 fun hhides =>
          expansion_of_hidesCapital hhides (Option.map_eq_none_iff.1 hnone)
            (Option.map_eq_none_iff.1 hexpansion)
        have hcapital := not_isCapital_of_le hn
        by_cases hadmitted : isAdmitted n
        · rw [if_pos hadmitted] at h
          cases h
          simp [isPlain, hhides, hcapital]
        · rw [if_neg hadmitted] at h
          cases h

theorem isPlain_toLower {c : Char} (hc : c.toNat < 0x80) : isPlain c.toLower.toNat := by
  have hall : ∀ n < 0x80, isPlain (Char.ofNat n).toLower.toNat := by decide +kernel
  rw [← Char.ofNat_toNat c]
  exact hall _ hc

theorem plain_of_fold {c : Char} {row : List Nat} (h : fold c = some row) :
    ∀ m ∈ row, isPlain m := by
  unfold fold at h
  by_cases hc : c.toNat < 0x80
  · rw [if_pos hc] at h
    cases h
    simpa using isPlain_toLower hc
  · rw [if_neg hc] at h
    exact plain_of_foldBeyond (Nat.le_of_not_lt hc) h

/-! ## Folded texts -/

theorem toLower_ofNat {n : Nat} (h : isCapital n = false) :
    (Char.ofNat n).toLower = Char.ofNat n := by
  refine dif_neg fun hupper => ?_
  have hfirst : 0x41 ≤ (Char.ofNat n).toNat := UInt32.le_iff_toNat_le.1 hupper.1
  have hlast : (Char.ofNat n).toNat ≤ 0x5a := UInt32.le_iff_toNat_le.1 hupper.2
  by_cases hvalid : n.isValidChar
  · have hsame : (Char.ofNat n).toNat = n := congrArg Char.toNat (dif_pos hvalid)
    rw [hsame] at hfirst hlast
    simp [isCapital] at h
    omega
  · have hnull : (Char.ofNat n).toNat = 0 := congrArg Char.toNat (dif_neg hvalid)
    omega

/-- What is found in one of the results was found for something. -/
theorem mem_of_mapM {α β : Type} {f : α → Option β} {xs : List α} {ys : List β}
    (h : xs.mapM f = some ys) {y : β} (hy : y ∈ ys) : ∃ x ∈ xs, f x = some y := by
  induction xs generalizing ys with
  | nil =>
    cases h
    cases hy
  | cons x xs ih =>
    rw [List.mapM_cons] at h
    obtain ⟨first, hfirst, h⟩ := Option.bind_eq_some_iff.1 h
    obtain ⟨others, hothers, h⟩ := Option.bind_eq_some_iff.1 h
    cases h
    rcases List.mem_cons.1 hy with rfl | hy
    · exact ⟨x, List.mem_cons_self, hfirst⟩
    · obtain ⟨x, hx, hfound⟩ := ih hothers hy
      exact ⟨x, List.mem_cons_of_mem _ hx, hfound⟩

theorem firstSyllable_le {a b syllable : Nat} (h : Hangul.unite? a b = some syllable) :
    Hangul.firstSyllable ≤ syllable := by
  unfold Hangul.unite? at h
  split at h
  · rw [← Option.some.inj h]
    exact Nat.le_add_right _ _
  · split at h
    · next htail =>
      rw [← Option.some.inj h]
      exact Nat.le_add_right_of_le htail.1
    · cases h

theorem firstLead_le {n : Nat} {letters : List Nat} (h : Hangul.parts? n = some letters) :
    ∀ m ∈ letters, Hangul.firstLead ≤ m := by
  have hvowel (k : Nat) : Hangul.firstLead ≤ Hangul.firstVowel + k :=
    Nat.le_trans (by decide : Hangul.firstLead ≤ Hangul.firstVowel) (Nat.le_add_right _ _)
  have htail (k : Nat) : Hangul.firstLead ≤ Hangul.noTail + k :=
    Nat.le_trans (by decide : Hangul.firstLead ≤ Hangul.noTail) (Nat.le_add_right _ _)
  unfold Hangul.parts? at h
  simp only at h
  split at h
  · rw [← Option.some.inj h]
    split
    · simp [hvowel]
    · simp [hvowel, htail]
  · cases h

theorem not_isCapital_of_unite? {a b both : Nat} (h : unite? a b = some both) :
    isCapital both = false := by
  refine not_isCapital_of_le ?_
  unfold unite? at h
  split at h
  · cases h
  · split at h
    · next syllable hsyllable =>
      rw [← Option.some.inj h]
      exact Nat.le_trans (by decide) (firstSyllable_le hsyllable)
    · obtain ⟨entry, hentry, rfl⟩ := Option.map_eq_some_iff.1 h
      have hplain := composites_plain entry (Array.mem_of_find?_eq_some hentry)
      simp only [Bool.and_eq_true, decide_eq_true_eq] at hplain
      exact hplain.1.1

theorem not_isCapital_of_mem_partsOf {depth n : Nat} (h : isPlain n) :
    ∀ m ∈ partsOf depth n, isCapital m = false := by
  induction depth generalizing n with
  | zero => simpa [partsOf] using isCapital_of_isPlain h
  | succ depth ih =>
    rw [partsOf]
    cases hfind : composites.find? (·.1 = n) with
    | none => simpa using isCapital_of_isPlain h
    | some entry =>
      obtain rfl : entry.1 = n := by simpa using Array.find?_some hfind
      have hplain := composites_plain entry (Array.mem_of_find?_eq_some hfind)
      simp only [h, Bool.not_true, Bool.or_false, Bool.and_eq_true, Bool.not_eq_true'] at hplain
      intro m hm
      rcases List.mem_append.1 hm with hm | hm
      · exact ih hplain.2 m hm
      · rw [List.mem_singleton.1 hm]
        exact hplain.1.2

theorem not_isCapital_of_mem_parts {n : Nat} (h : isPlain n) :
    ∀ m ∈ parts n, isCapital m = false := by
  unfold parts
  split
  · simpa using isCapital_of_isPlain h
  · split
    · next letters hletters =>
      intro m hm
      exact not_isCapital_of_le (Nat.le_trans (by decide) (firstLead_le hletters m hm))
    · exact not_isCapital_of_mem_partsOf h

/-- **A folded text has no capital letters.** -/
theorem toLower_of_foldText? {text folded : List Char} (h : foldText? text = some folded) {c : Char}
    (hc : c ∈ folded) : c.toLower = c := by
  obtain ⟨counterparts, hmap, rfl⟩ := Option.map_eq_some_iff.1 h
  obtain ⟨n, hn, rfl⟩ := List.mem_map.1 hc
  have hcapital : isCapital n = false := by
    -- Folding leaves no capitals, and neither taking apart nor putting together makes any.
    refine composed_forall (P := (isCapital · = false)) not_isCapital_of_unite? ?_ n hn
    intro m hm
    obtain ⟨row, hrow, hm⟩ := List.mem_flatten.1 hm
    obtain ⟨c, -, hfold⟩ := mem_of_mapM hmap hrow
    exact not_isCapital_of_mem_parts (plain_of_fold hfold m hm)
  exact toLower_ofNat hcapital

/-- **A text in ASCII without capital letters is folded.** -/
theorem foldText?_of_lower {text : List Char} (h : ∀ c ∈ text, c.toNat < 0x80 ∧ c.toLower = c) :
    foldText? text = some text := by
  have hmap : text.mapM fold = some (text.map fun c => [c.toNat]) := by
    induction text with
    | nil => rfl
    | cons c text ih =>
      obtain ⟨hc, htext⟩ := List.forall_mem_cons.1 h
      simp [fold_eq_self hc.1 hc.2, ih htext]
  have hflat : (text.map fun c => [c.toNat]).flatten = text.map Char.toNat := by
    rw [← List.flatMap_def, ← List.map_eq_flatMap]
  unfold foldText?
  rw [hmap, Option.map_some, hflat, composed_of_forall]
  · simp [Function.comp_def]
  · simpa using fun c hc => (h c hc).1

end MetaCache.Url
