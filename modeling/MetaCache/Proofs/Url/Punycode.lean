import MetaCache.Url.Punycode
import Mathlib.Data.List.TakeWhile
import Mathlib.Tactic.Ring

/-!
# What is written of a label is read back

A label that was written in ASCII is read as that label (`read?_write`). A distance is read back from
its digits (`readDistance_writeDistance`). Reader and writer both keep the last distance that was
settled: the reader as a code point and a place, the writer as what has been passed since. While the
writer goes over the label, the reader has in its hands what the writer has passed of it so far
(`Passing`): smaller code points everywhere, and the code point at hand in front of the writer.
-/

namespace MetaCache.Url.Punycode

/-! ## Digits -/

theorem digitValue?_digitChar {d : Nat} (h : d < 36) : digitValue? (digitChar d) = some d := by
  revert d
  decide

/-- Whether a character is what some digit is written as. -/
def IsDigit (c : Char) : Prop := ∃ d < 36, digitChar d = c

/-! ## Distances -/

/-- What a digit that is not the last one can be. -/
theorem digit_lt {t : Nat} (ht : t ≤ 26) (q : Nat) : t + (q - t) % (36 - t) < 36 := by
  have := Nat.mod_lt (q - t) (show 0 < 36 - t by omega)
  omega

theorem ne_nil_of_writeDistance (bias k q : Nat) : writeDistance bias k q ≠ [] := by
  unfold writeDistance
  simp only
  split <;> simp

theorem mem_writeDistance {bias k q : Nat} {c : Char} (h : c ∈ writeDistance bias k q) :
    IsDigit c := by
  induction k, q using writeDistance.induct bias with
  | case1 k q t hq =>
    rw [writeDistance, if_pos hq] at h
    have := threshold_le k bias
    exact ⟨q, by omega, (List.mem_singleton.1 h).symm⟩
  | case2 k q t hq ih =>
    rw [writeDistance, if_neg hq] at h
    rcases List.mem_cons.1 h with rfl | h
    · exact ⟨_, digit_lt (threshold_le k bias) q, rfl⟩
    · exact ih h

/-- **A distance is read back, whatever stands behind it.** -/
theorem readDistance_writeDistance (bias k q weight sum : Nat) (rest : List Char) :
    readDistance bias (writeDistance bias k q ++ rest) k weight sum
      = some (sum + q * weight, rest) := by
  induction k, q using writeDistance.induct bias generalizing weight sum with
  | case1 k q t hq =>
    have ht : t ≤ 26 := threshold_le k bias
    rw [writeDistance, if_pos hq, List.singleton_append, readDistance,
      digitValue?_digitChar (by omega)]
    simp only
    rw [if_pos hq]
  | case2 k q t hq ih =>
    have ht : t ≤ 26 := threshold_le k bias
    rw [writeDistance, if_neg hq, List.cons_append, readDistance,
      digitValue?_digitChar (digit_lt ht q)]
    simp only
    rw [if_neg (Nat.not_lt.2 (Nat.le_add_right t _)), ih]
    -- The digit and what it leaves are the parts of a division.
    have hparts : (q - t) % (36 - t) + (q - t) / (36 - t) * (36 - t) = q - t := Nat.mod_add_div' _ _
    have hsum : (t + (q - t) % (36 - t)) * weight
        + (q - t) / (36 - t) * (weight * (36 - t)) = q * weight := by
      calc (t + (q - t) % (36 - t)) * weight + (q - t) / (36 - t) * (weight * (36 - t))
          = (t + ((q - t) % (36 - t) + (q - t) / (36 - t) * (36 - t))) * weight := by ring
        _ = q * weight := by rw [hparts, Nat.add_sub_cancel' (Nat.le_of_not_lt hq)]
    rw [Nat.add_assoc]
    exact congrArg (fun total => some (sum + total, rest)) hsum

/-! ## Reading one distance -/

theorem readAll_writeDistance {rounds bias n i delta m place : Nat} {out rest : List Char}
    (hplace : i + delta = (m - n) * (out.length + 1) + place) (hle : place ≤ out.length)
    (hn : n ≤ m) (hm : m.isValidChar) :
    readAll (rounds + 1) bias n i out (writeDistance bias 36 delta ++ rest)
      = readAll rounds (adapt delta (out.length + 1) (i = 0)) m (place + 1)
          (out.insertIdx place (Char.ofNat m)) rest := by
  have hdigits : writeDistance bias 36 delta ++ rest ≠ [] := by
    simp [ne_nil_of_writeDistance]
  have hdiv : (i + delta) / (out.length + 1) = m - n := by
    rw [hplace, Nat.add_comm, Nat.add_mul_div_right _ _ (Nat.succ_pos _),
      Nat.div_eq_of_lt (Nat.lt_succ_of_le hle), Nat.zero_add]
  have hmod : (i + delta) % (out.length + 1) = place := by
    rw [hplace, Nat.add_comm, Nat.add_mul_mod_self_right, Nat.mod_eq_of_lt (Nat.lt_succ_of_le hle)]
  have hdistance := readDistance_writeDistance bias 36 delta 1 i rest
  obtain ⟨c, digits, hcons⟩ := List.exists_cons_of_ne_nil hdigits
  rw [hcons] at hdistance ⊢
  rw [readAll.eq_3 _ _ _ _ _ _ (by simp), hdistance, Nat.mul_one]
  simp only [Option.bind_eq_bind, Option.bind_some, hdiv, hmod, Nat.add_sub_cancel' hn, if_pos hm,
    Nat.add_sub_cancel_left]

/-! ## Writer and reader -/

namespace Writing

variable (w : Writing) (basic : Nat) {m n : Nat}

theorem pass_of_lt (h : n < m) : w.pass basic m n = { w with delta := w.delta + 1 } := if_pos h

theorem pass_self (m : Nat) :
    w.pass basic m m = ⟨w.out ++ writeDistance w.bias 36 w.delta, 0,
      adapt w.delta (w.count + 1) (w.count = basic), w.count + 1⟩ := by
  unfold pass
  rw [if_neg (Nat.lt_irrefl m), if_pos rfl]

theorem pass_of_gt (h : m < n) : w.pass basic m n = w := by
  unfold pass
  rw [if_neg (Nat.lt_asymm h), if_neg (Nat.ne_of_gt h)]

end Writing

/-- Behind what has been written so far the reader is at the code point `n` and the place `i`, and
has `out` in its hands. At first it has `front`. -/
structure Tracks (front : List Char) (w : Writing) (n i : Nat) (out : List Char) : Prop where
  digits : ∀ c ∈ w.out, IsDigit c
  count : w.count = out.length
  /-- Both know whether a distance is the first one. -/
  isFirst : i = 0 ↔ w.count = front.length
  reads : ∃ rounds ≤ w.out.length, ∀ more rest,
    readAll (more + rounds) 72 0x80 0 front (w.out ++ rest) = readAll more w.bias n i out rest

namespace Tracks

variable {front out : List Char} {w : Writing} {n i : Nat}

theorem start (front : List Char) : Tracks front ⟨[], 0, 72, front.length⟩ 0x80 0 front where
  digits := by simp
  count := rfl
  isFirst := by simp
  reads := ⟨0, Nat.le_refl _, fun more rest => rfl⟩

theorem withDelta (h : Tracks front w n i out) (delta : Nat) :
    Tracks front { w with delta } n i out := ⟨h.digits, h.count, h.isFirst, h.reads⟩

/-- Where the writer writes a character, the reader puts it. -/
theorem pass (h : Tracks front w n i out) {m place : Nat}
    (hplace : i + w.delta = (m - n) * (out.length + 1) + place) (hle : place ≤ out.length)
    (hn : n ≤ m) (hm : m.isValidChar) (hfront : front.length ≤ out.length) :
    Tracks front (w.pass front.length m m) m (place + 1)
      (out.insertIdx place (Char.ofNat m)) := by
  rw [w.pass_self]
  refine ⟨?_, ?_, ?_, ?_⟩
  · intro c hc
    rcases List.mem_append.1 hc with hc | hc
    · exact h.digits c hc
    · exact mem_writeDistance hc
  · rw [List.length_insertIdx, if_pos hle, h.count]
  · have := h.count
    simp only [Nat.add_eq_zero_iff, Nat.one_ne_zero, and_false, false_iff]
    omega
  · obtain ⟨rounds, hrounds, hreads⟩ := h.reads
    refine ⟨rounds + 1, ?_, fun more rest => ?_⟩
    · have := List.length_pos_iff.2 (ne_nil_of_writeDistance w.bias 36 w.delta)
      simp only [List.length_append]
      omega
    · have hfirst : decide (i = 0) = decide (w.count = front.length) := decide_eq_decide.2 h.isFirst
      rw [Nat.add_comm rounds, ← Nat.add_assoc, List.append_assoc, hreads,
        readAll_writeDistance hplace hle hn hm, hfirst, h.count]

end Tracks

/-! ## Going over the label -/

theorem insertIdx_length_append {α : Type} (before behind : List α) (a : α) :
    (before ++ behind).insertIdx before.length a = before ++ a :: behind := by
  induction before with
  | nil => rfl
  | cons b before ih =>
    rw [List.cons_append, List.length_cons, List.insertIdx_succ_cons, ih, List.cons_append]

/-- What is in place when `done` of a label is passed with the code point `m`, and `ahead` is
not. -/
def placed (m : Nat) (done ahead : List Char) : List Char :=
  done.filter (·.toNat ≤ m) ++ ahead.filter (·.toNat < m)

/-- While the code point `m` is written, `done` has been passed of the label, and the reader has what
is in place. What the writer has passed since the last distance is how far the reader has to go. -/
def Passing (front : List Char) (m : Nat) (w : Writing) (done ahead : List Char) : Prop :=
  ∃ n i, n ≤ m ∧ Tracks front w n i (placed m done ahead)
    ∧ front.length ≤ (placed m done ahead).length
    ∧ i + w.delta
      = (m - n) * ((placed m done ahead).length + 1) + (done.filter (·.toNat ≤ m)).length

namespace Passing

variable {front done ahead label : List Char} {m next : Nat} {w : Writing} {c : Char}

/-- **Passing one character keeps writer and reader together.** -/
theorem step (h : Passing front m w done (c :: ahead)) :
    Passing front m (w.pass front.length m c.toNat) (done ++ [c]) ahead := by
  obtain ⟨n, i, hn, htracks, hfront, hdelta⟩ := h
  rcases Nat.lt_trichotomy c.toNat m with hc | hc | hc
  · -- It is in place already and is counted.
    have hsame : placed m (done ++ [c]) ahead = placed m done (c :: ahead) := by
      simp [placed, hc, Nat.le_of_lt hc]
    rw [w.pass_of_lt _ hc]
    refine ⟨n, i, hn, ?_, ?_, ?_⟩
    · rw [hsame]
      exact htracks.withDelta _
    · rwa [hsame]
    · rw [hsame, List.filter_append, List.length_append, ← Nat.add_assoc, ← Nat.add_assoc, hdelta]
      simp [Nat.le_of_lt hc]
  · -- It is written.
    have hout : placed m done (c :: ahead)
        = done.filter (·.toNat ≤ m) ++ ahead.filter (·.toNat < m) := by
      simp [placed, hc]
    have hplaced : placed m (done ++ [c]) ahead
        = (placed m done (c :: ahead)).insertIdx (done.filter (·.toNat ≤ m)).length
            (Char.ofNat m) := by
      rw [hout, insertIdx_length_append, ← hc, Char.ofNat_toNat]
      simp [placed]
    have hvalid : m.isValidChar := hc ▸ c.valid
    have hle : (done.filter (·.toNat ≤ m)).length ≤ (placed m done (c :: ahead)).length := by
      simp [hout]
    rw [hc]
    refine ⟨m, (done.filter (·.toNat ≤ m)).length + 1, Nat.le_refl m, ?_, ?_, ?_⟩
    · rw [hplaced]
      exact htracks.pass hdelta hle hn hvalid hfront
    · rw [hplaced, List.length_insertIdx, if_pos hle]
      exact Nat.le_succ_of_le hfront
    · simp [Writing.pass_self, hc]
  · -- It comes later.
    have hsame : placed m (done ++ [c]) ahead = placed m done (c :: ahead) := by
      simp [placed, Nat.not_le.2 hc, Nat.not_lt.2 (Nat.le_of_lt hc)]
    rw [w.pass_of_gt _ hc]
    refine ⟨n, i, hn, ?_, ?_, ?_⟩
    · rwa [hsame]
    · rwa [hsame]
    · rw [hsame, hdelta]
      simp [Nat.not_le.2 hc]

theorem foldl (h : Passing front m w done ahead) :
    Passing front m ((ahead.map Char.toNat).foldl (fun w c => w.pass front.length m c) w)
      (done ++ ahead) [] := by
  induction ahead generalizing w done with
  | nil => simpa using h
  | cons c ahead ih =>
    rw [List.map_cons, List.foldl_cons, ← List.singleton_append, ← List.append_assoc]
    exact ih h.step

/-- Code points that the label does not have are passed at once. -/
theorem advance (h : Passing front next w [] label) (hnext : next ≤ m)
    (hlabel : ∀ c ∈ label, next ≤ c.toNat → m ≤ c.toNat) :
    Passing front m { w with delta := w.delta + (m - next) * (w.count + 1) } [] label := by
  obtain ⟨n, i, hn, htracks, hfront, hdelta⟩ := h
  have hsame : placed m [] label = placed next [] label := by
    simp only [placed, List.filter_nil, List.nil_append]
    refine List.filter_congr fun c hc => ?_
    have := hlabel c hc
    simp only [decide_eq_decide]
    omega
  refine ⟨n, i, Nat.le_trans hn hnext, ?_, ?_, ?_⟩
  · rw [hsame]
    exact htracks.withDelta _
  · rwa [hsame]
  · rw [hsame, ← Nat.add_assoc, hdelta, htracks.count]
    have hparts : m - n = next - n + (m - next) := by omega
    rw [hparts, Nat.add_mul]
    simp

/-- At the end of the label the next code point comes. -/
theorem finish (h : Passing front m w label []) :
    Passing front (m + 1) { w with delta := w.delta + 1 } [] label := by
  obtain ⟨n, i, hn, htracks, hfront, hdelta⟩ := h
  have hsame : placed (m + 1) [] label = placed m label [] := by
    simp only [placed, List.filter_nil, List.nil_append, List.append_nil, Nat.lt_succ_iff]
  refine ⟨n, i, Nat.le_succ_of_le hn, ?_, ?_, ?_⟩
  · rw [hsame]
    exact htracks.withDelta _
  · rwa [hsame]
  · have hlength : (label.filter (·.toNat ≤ m)).length = (placed m label []).length := by
      simp [placed]
    rw [hsame, ← Nat.add_assoc, hdelta, hlength, Nat.succ_sub hn, Nat.succ_mul]
    simp [Nat.add_assoc]

/-- **Writing all code points of a label keeps writer and reader together.** -/
theorem writeAll (h : Passing front next w [] label) {others : List Nat}
    (hsorted : others.Pairwise (· < ·)) (hnext : ∀ m ∈ others, next ≤ m)
    (hlabel : ∀ c ∈ label, next ≤ c.toNat → c.toNat ∈ others) :
    ∃ last, Passing front last (writeAll (label.map Char.toNat) front.length others next w) [] label
      ∧ ∀ c ∈ label, c.toNat < last := by
  induction others generalizing next w with
  | nil =>
    refine ⟨next, h, fun c hc => Nat.lt_of_not_le fun hle => ?_⟩
    exact absurd (hlabel c hc hle) List.not_mem_nil
  | cons m others ih =>
    obtain ⟨hm, hsorted⟩ := List.pairwise_cons.1 hsorted
    refine ih (h.advance (hnext m List.mem_cons_self) fun c hc hle => ?_).foldl.finish hsorted
      (fun m' hm' => hm m' hm') fun c hc hle => ?_
    · rcases List.mem_cons.1 (hlabel c hc hle) with heq | hmem
      · exact Nat.le_of_eq heq.symm
      · exact Nat.le_of_lt (hm _ hmem)
    · have hmem := hlabel c hc (Nat.le_trans (hnext m List.mem_cons_self) (Nat.le_of_succ_le hle))
      exact (List.mem_cons.1 hmem).resolve_left (Nat.ne_of_gt hle)

end Passing

/-! ## Whole labels -/

/-- Without repetitions a sorted list has each number before greater ones. -/
theorem pairwise_eraseDups {ns : List Nat} (h : ns.Pairwise (· ≤ ·)) :
    ns.eraseDups.Pairwise (· < ·) := by
  induction hlength : ns.length using Nat.strongRecOn generalizing ns with
  | ind length ih =>
    cases ns with
    | nil => exact .nil
    | cons n ns =>
      obtain ⟨hn, hns⟩ := List.pairwise_cons.1 h
      rw [List.eraseDups_cons, List.pairwise_cons]
      refine ⟨fun m hm => ?_, ?_⟩
      · obtain ⟨hmem, hne⟩ := List.mem_filter.1 (List.mem_eraseDups.1 hm)
        have hne : m ≠ n := by simpa using hne
        exact Nat.lt_of_le_of_ne (hn m hmem) hne.symm
      · refine ih _ ?_ (hns.filter _) rfl
        have := List.length_filter_le (fun m => !m == n) ns
        simp only [List.length_cons] at hlength
        omega

/-- The characters of a label that are ASCII. -/
def front (label : List Char) : List Char := label.filter (·.toNat < 0x80)

/-- The code points of the others, in order. -/
def others (label : List Char) : List Nat :=
  (((label.map Char.toNat).filter (0x80 ≤ ·)).mergeSort).eraseDups

/-- The writer behind all of a label. -/
def written (label : List Char) : Writing :=
  writeAll (label.map Char.toNat) (front label).length (others label) 0x80
    ⟨[], 0, 72, (front label).length⟩

theorem write_eq (label : List Char) :
    write label
      = front label ++ (if (front label).isEmpty then [] else ['-']) ++ (written label).out := rfl

theorem mem_others {label : List Char} {m : Nat} :
    m ∈ others label ↔ (∃ c ∈ label, c.toNat = m) ∧ 0x80 ≤ m := by
  simp only [others, List.mem_eraseDups, List.mem_mergeSort, List.mem_filter, List.mem_map,
    decide_eq_true_eq]

/-- Behind all of a label the reader has the label. -/
theorem exists_tracks (label : List Char) :
    ∃ n i, Tracks (front label) (written label) n i label := by
  have hstart : Passing (front label) 0x80 ⟨[], 0, 72, (front label).length⟩ [] label :=
    ⟨0x80, 0, Nat.le_refl _, .start (front label), Nat.le_refl _, by simp⟩
  have hsorted : (others label).Pairwise (· < ·) := by
    refine pairwise_eraseDups ?_
    have hsorted := @List.pairwise_mergeSort Nat (fun a b => a ≤ b)
      (by simpa using fun a b c => Nat.le_trans) (by simpa using Nat.le_total)
      ((label.map Char.toNat).filter (0x80 ≤ ·))
    simpa using hsorted
  obtain ⟨last, ⟨n, i, -, htracks, -, -⟩, hlast⟩ := hstart.writeAll hsorted
    (fun m hm => (mem_others.1 hm).2) fun c hc hle => mem_others.2 ⟨⟨c, hc, rfl⟩, hle⟩
  have hall : placed last [] label = label := by
    simpa [placed, List.filter_eq_self] using hlast
  rw [hall] at htracks
  exact ⟨n, i, htracks⟩

theorem IsDigit.ne_minus {c : Char} (h : IsDigit c) : c ≠ '-' := by
  obtain ⟨d, hd, rfl⟩ := h
  revert d
  decide

/-- What a label is written with. -/
theorem mem_write {label : List Char} {c : Char} (h : c ∈ write label) :
    c ∈ front label ∨ c = '-' ∨ IsDigit c := by
  obtain ⟨n, i, htracks⟩ := exists_tracks label
  rw [write_eq] at h
  rcases List.mem_append.1 h with h | h
  · rcases List.mem_append.1 h with h | h
    · exact .inl h
    · split at h
      · cases h
      · exact .inr (.inl (List.mem_singleton.1 h))
  · exact .inr (.inr (htracks.digits c h))

theorem takeEnd_of_notMem {digits : List Char} (h : '-' ∉ digits) :
    digits.reverse.takeWhile (· ≠ '-') = digits.reverse := by
  refine List.takeWhile_eq_self_iff.2 fun c hc => decide_eq_true ?_
  rintro rfl
  exact h (List.mem_reverse.1 hc)

/-- Without a minus sign there are only digits. -/
theorem read?_of_notMem {digits : List Char} (h : '-' ∉ digits) :
    read? digits = readAll (digits.length + 1) 72 0x80 0 [] digits := by
  unfold read?
  simp only [takeEnd_of_notMem h, List.reverse_reverse]
  rw [if_neg]
  · simp
  · simpa using h

/-- Digits stand behind the last minus sign. -/
theorem read?_minus {before digits : List Char} (hbefore : before ≠ []) (h : '-' ∉ digits) :
    read? (before ++ '-' :: digits) = readAll (digits.length + 1) 72 0x80 0 before digits := by
  have hbehind : (before ++ '-' :: digits).reverse.takeWhile (· ≠ '-') = digits.reverse := by
    rw [List.reverse_append, List.reverse_cons, List.append_assoc,
      List.takeWhile_append_of_pos (List.takeWhile_eq_self_iff.1 (takeEnd_of_notMem h)),
      List.singleton_append, List.takeWhile_cons_of_neg (by decide), List.append_nil]
  have hlength : (before ++ '-' :: digits).length - digits.length - 1 = before.length := by
    rw [List.length_append, List.length_cons]
    omega
  unfold read?
  simp only [hbehind, List.reverse_reverse, hlength, List.take_left]
  rw [if_neg]
  simp [hbefore]

/-- **A label is read back from what is written of it.** -/
theorem read?_write (label : List Char) : read? (write label) = some label := by
  obtain ⟨n, i, htracks⟩ := exists_tracks label
  obtain ⟨rounds, hrounds, hreads⟩ := htracks.reads
  have hread : readAll ((written label).out.length + 1) 72 0x80 0 (front label) (written label).out
      = some label := by
    obtain ⟨more, hmore⟩ := Nat.exists_eq_add_of_le' (Nat.le_succ_of_le hrounds)
    have hall := hreads more []
    rw [List.append_nil, ← hmore] at hall
    rw [hall]
    cases more <;> rfl
  have hminus : '-' ∉ (written label).out := fun h => (htracks.digits _ h).ne_minus rfl
  rw [write_eq]
  by_cases hempty : front label = []
  · rw [hempty] at hread ⊢
    exact (read?_of_notMem hminus).trans hread
  · rw [if_neg (by simpa using hempty), List.append_assoc, List.singleton_append]
    exact (read?_minus hempty hminus).trans hread

end MetaCache.Url.Punycode
