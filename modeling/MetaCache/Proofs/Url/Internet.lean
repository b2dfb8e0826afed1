import MetaCache.Proofs.Url.Joining
import Mathlib.Algebra.Order.Ring.Nat

/-!
# Numeric addresses are read back

An IPv4 address is written as four decimal numbers, and is read from them (`readIpv4_ipv4Chars`). An
IPv6 address is written as eight pieces, of which a run of zeros may be left out, and is read from
them (`readIpv6_ipv6Chars`): what is left out is what is missing to eight pieces.
-/

namespace MetaCache.Url

open MetaCache.Number MetaCache.Text

/-! ## Parts -/

/-- **A text that parts were joined to is cut into these parts.** -/
theorem splitAt_intercalate {separator : Char} {parts : List (List Char)} (hne : parts ≠ [])
    (h : ∀ part ∈ parts, separator ∉ part) :
    splitAt separator ([separator].intercalate parts) = parts := by
  induction parts with
  | nil => exact absurd rfl hne
  | cons part parts ih =>
    obtain ⟨hpart, hparts⟩ := List.forall_mem_cons.1 h
    rcases parts with - | ⟨next, parts⟩
    · rw [List.intercalate_singleton, splitAt_of_notMem hpart]
    · rw [List.intercalate_cons_cons, List.append_assoc, List.singleton_append,
        splitAt_append_cons, splitAt_of_notMem hpart, ih (List.cons_ne_nil _ _) hparts,
        List.singleton_append]

theorem mem_intercalate {separator c : Char} {parts : List (List Char)}
    (h : c ∈ [separator].intercalate parts) : c = separator ∨ ∃ part ∈ parts, c ∈ part := by
  induction parts with
  | nil => simp at h
  | cons part parts ih =>
    rcases parts with - | ⟨next, parts⟩
    · rw [List.intercalate_singleton] at h
      exact .inr ⟨part, List.mem_cons_self, h⟩
    · rw [List.intercalate_cons_cons, List.append_assoc, List.mem_append, List.mem_append,
        List.mem_singleton] at h
      rcases h with h | h | h
      · exact .inr ⟨part, List.mem_cons_self, h⟩
      · exact .inl h
      · rcases ih h with h | ⟨other, hother, h⟩
        · exact .inl h
        · exact .inr ⟨other, List.mem_cons_of_mem _ hother, h⟩

/-! ## Digits -/

theorem mem_toDigits {base n : Nat} (hbase : 1 < base) {c : Char} (h : c ∈ Nat.toDigits base n) :
    ∃ d < base, d.digitChar = c := by
  induction n using Nat.strongRecOn with
  | ind n ih =>
    rcases Nat.lt_or_ge n base with hlt | hge
    · rw [Nat.toDigits_of_lt_base hlt, List.mem_singleton] at h
      exact ⟨n, hlt, h.symm⟩
    · rw [Nat.toDigits_of_base_le hbase hge, List.mem_append, List.mem_singleton] at h
      rcases h with h | h
      · exact ih (n / base) (Nat.div_lt_self (by omega) hbase) h
      · exact ⟨n % base, Nat.mod_lt _ (by omega), h.symm⟩

theorem hexValue?_digitChar {d : Nat} (h : d < 16) : hexValue? d.digitChar = some ⟨d, h⟩ := by
  have hall : ∀ d : Fin 16, hexValue? d.val.digitChar = some d := by decide
  exact hall ⟨d, h⟩

theorem numberOfBase?_append_singleton (base : Nat) (cs : List Char) (c : Char) :
    numberOfBase? base (cs ++ [c]) = (numberOfBase? base cs).bind fun n =>
      (hexValue? c).bind fun d => if d.val < base then some (n * base + d.val) else none := by
  unfold numberOfBase?
  rw [List.foldlM_append]
  simp

/-- **A number is read back from its digits.** -/
theorem numberOfBase?_toDigits {base : Nat} (hbase : 1 < base) (hle : base ≤ 16) (n : Nat) :
    numberOfBase? base (Nat.toDigits base n) = some n := by
  induction n using Nat.strongRecOn with
  | ind n ih =>
    rcases Nat.lt_or_ge n base with hlt | hge
    · rw [Nat.toDigits_of_lt_base hlt]
      simp [numberOfBase?, hexValue?_digitChar (Nat.lt_of_lt_of_le hlt hle), hlt]
    · have hmod : n % base < base := Nat.mod_lt _ (by omega)
      rw [Nat.toDigits_of_base_le hbase hge, numberOfBase?_append_singleton,
        ih (n / base) (Nat.div_lt_self (by omega) hbase)]
      simp [hexValue?_digitChar (Nat.lt_of_lt_of_le hmod hle), hmod, Nat.div_add_mod']

/-- So many digits have so many numbers. -/
theorem numberOfBase?_lt {base : Nat} {cs : List Char} {n : Nat}
    (h : numberOfBase? base cs = some n) : n < base ^ cs.length := by
  induction cs using List.reverseRecOn generalizing n with
  | nil =>
    cases h
    simp
  | append_singleton cs c ih =>
    rw [numberOfBase?_append_singleton] at h
    obtain ⟨front, hfront, h⟩ := Option.bind_eq_some_iff.1 h
    obtain ⟨d, -, h⟩ := Option.bind_eq_some_iff.1 h
    by_cases hd : d.val < base
    · rw [if_pos hd] at h
      cases h
      calc front * base + d.val < (front + 1) * base := by rw [Nat.succ_mul]; omega
        _ ≤ base ^ cs.length * base := Nat.mul_le_mul_right _ (ih hfront)
        _ = base ^ (cs ++ [c]).length := by
          rw [List.length_append, List.length_singleton, Nat.pow_succ]
    · rw [if_neg hd] at h
      cases h

/-! ## IPv4 -/

theorem ipv4Number?_toDigits {n : Nat} (h : n < 256) :
    ipv4Number? (Nat.toDigits 10 n) = some n := by
  have hall : ∀ n < 256, ipv4Number? (Nat.toDigits 10 n) = some n := by decide +kernel
  exact hall n h

/-- The numbers of an IPv4 address. -/
def ipv4Numbers (address : Nat) : List Nat :=
  (naturalBytes 4 address).reverse.map UInt8.toNat

theorem ipv4Chars_eq (address : Nat) :
    ipv4Chars address = ['.'].intercalate ((ipv4Numbers address).map (Nat.toDigits 10)) := by
  rw [ipv4Chars, ipv4Numbers, List.map_map]
  simp [Nat.toList_repr, Function.comp_def]

theorem lt_of_mem_ipv4Numbers {address n : Nat} (h : n ∈ ipv4Numbers address) : n < 256 := by
  obtain ⟨b, -, rfl⟩ := List.mem_map.1 h
  exact b.toNat_lt

theorem dot_notMem_toDigits (n : Nat) : '.' ∉ Nat.toDigits 10 n := by
  intro h
  obtain ⟨d, hd, heq⟩ := mem_toDigits (by decide) h
  revert d
  decide

theorem labels_ipv4Chars (address : Nat) :
    labels (ipv4Chars address) = (ipv4Numbers address).map (Nat.toDigits 10) := by
  have hne : (ipv4Numbers address).map (Nat.toDigits 10) ≠ [] := by
    simp [ipv4Numbers, naturalBytes]
  have hsplit : splitAt '.' (ipv4Chars address) = (ipv4Numbers address).map (Nat.toDigits 10) := by
    rw [ipv4Chars_eq]
    refine splitAt_intercalate hne fun part hpart => ?_
    obtain ⟨n, -, rfl⟩ := List.mem_map.1 hpart
    exact dot_notMem_toDigits n
  unfold labels
  rw [hsplit]
  simp [ipv4Numbers, naturalBytes, Nat.toDigits_ne_nil]

theorem ipv4Chars_ne_nil (address : Nat) : ipv4Chars address ≠ [] := by
  simp [ipv4Chars, naturalBytes, List.intercalate]

theorem endsInNumber_ipv4Chars (address : Nat) : endsInNumber (ipv4Chars address) := by
  obtain ⟨last, hlast⟩ : ∃ last, (ipv4Numbers address).getLast? = some last := by
    simp [ipv4Numbers, naturalBytes]
  obtain ⟨c, digits, hdigits⟩ :=
    List.exists_cons_of_ne_nil (Nat.toDigits_ne_nil (n := last) (b := 10))
  have hall : (c :: digits).all Char.isDigit := by
    rw [← hdigits]
    exact List.all_eq_true.2 fun c hc => Nat.isDigit_of_mem_toDigits (by decide) (by decide) hc
  unfold endsInNumber
  rw [labels_ipv4Chars, List.getLast?_map, hlast, Option.map_some, hdigits]
  simp [hall]

theorem ipv4OfNumbers?_ipv4Numbers {address : Nat} (h : address < capacity 4) :
    ipv4OfNumbers? (ipv4Numbers address) = some address := by
  have hnatural := natural_naturalBytes h
  simp [ipv4Numbers, naturalBytes, natural, ipv4OfNumbers?, capacity] at hnatural ⊢
  omega

/-- **An IPv4 address is read back from its text.** -/
theorem readIpv4_ipv4Chars {address : Nat} (h : address < capacity 4) :
    readIpv4 (ipv4Chars address) = .ok address := by
  have hnumbers {ns : List Nat} (hns : ∀ n ∈ ns, n < 256) :
      (ns.map (Nat.toDigits 10)).mapM ipv4Number? = some ns := by
    induction ns with
    | nil => rfl
    | cons n ns ih =>
      obtain ⟨hn, hns⟩ := List.forall_mem_cons.1 hns
      rw [List.map_cons, List.mapM_cons, ipv4Number?_toDigits hn, ih hns]
      rfl
  unfold readIpv4
  rw [labels_ipv4Chars, hnumbers fun n hn => lt_of_mem_ipv4Numbers hn]
  simp only [ipv4OfNumbers?_ipv4Numbers h]

theorem lt_of_readIpv4 {host : List Char} {address : Nat} (h : readIpv4 host = .ok address) :
    address < capacity 4 := by
  unfold readIpv4 at h
  split at h
  · cases h
  · next numbers hnumbers =>
    cases hfound : ipv4OfNumbers? numbers with
    | none => rw [hfound] at h; cases h
    | some found =>
      rw [hfound] at h
      cases h
      unfold ipv4OfNumbers? at hfound
      split at hfound
      · cases hfound
      · next last hlast =>
        simp only [Option.ite_none_left_eq_some, not_or, Bool.not_eq_true, List.any_eq_false,
          decide_eq_true_eq, Option.some.injEq] at hfound
        obtain ⟨⟨hlength, hlast, hbytes⟩, rfl⟩ := hfound
        generalize numbers.dropLast = front at hlength hlast hbytes ⊢
        rcases front with - | ⟨a, - | ⟨b, - | ⟨c, - | ⟨d, front⟩⟩⟩⟩ <;>
          simp [capacity] at hlength hlast hbytes ⊢ <;> omega

/-! ## Pieces of IPv6 -/

/-- A piece has 16 bits. -/
def pieceLimit : Nat := 65536

theorem notMem_hexDigits {c : Char} (hc : ∀ d < 16, d.digitChar ≠ c) (n : Nat) :
    c ∉ hexDigits n := by
  intro h
  obtain ⟨d, hd, heq⟩ := mem_toDigits (by decide) h
  exact hc d hd heq

theorem hexDigits_ne_nil (n : Nat) : hexDigits n ≠ [] := Nat.toDigits_ne_nil

theorem piece?_hexDigits {n : Nat} (h : n < pieceLimit) : piece? (hexDigits n) = some n := by
  have hlength : (hexDigits n).length ≤ 4 :=
    (Nat.length_toDigits_le_iff (by decide) (by decide)).2 h
  unfold piece?
  rw [if_neg (by simpa [hexDigits_ne_nil] using hlength)]
  exact numberOfBase?_toDigits (by decide) (by decide) n

theorem lt_of_piece? {cs : List Char} {n : Nat} (h : piece? cs = some n) : n < pieceLimit := by
  unfold piece? at h
  split at h
  · cases h
  · next hlength =>
    simp only [Bool.or_eq_true, decide_eq_true_eq, not_or, Nat.not_lt] at hlength
    exact Nat.lt_of_lt_of_le (numberOfBase?_lt h) (Nat.pow_le_pow_right (by decide) hlength.2)

theorem lt_of_byte? {cs : List Char} {n : Nat} (h : byte? cs = some n) : n < 256 := by
  unfold byte? at h
  split at h
  · cases h
  · cases h
    decide
  · cases h
  · simpa using (Option.filter_eq_some_iff.1 h).2

theorem lt_of_dottedPieces? {cs : List Char} {pieces : List Nat}
    (h : dottedPieces? cs = some pieces) : ∀ n ∈ pieces, n < pieceLimit := by
  unfold dottedPieces? at h
  split at h
  · obtain ⟨a, ha, h⟩ := Option.bind_eq_some_iff.1 h
    obtain ⟨b, hb, h⟩ := Option.bind_eq_some_iff.1 h
    obtain ⟨c, hc, h⟩ := Option.bind_eq_some_iff.1 h
    obtain ⟨d, hd, h⟩ := Option.bind_eq_some_iff.1 h
    cases h
    have := lt_of_byte? ha
    have := lt_of_byte? hb
    have := lt_of_byte? hc
    have := lt_of_byte? hd
    simp only [List.mem_cons, List.not_mem_nil, or_false, pieceLimit]
    omega
  · cases h

theorem lt_of_sidePieces? {isLast : Bool} {parts : List (List Char)} {pieces : List Nat}
    (h : sidePieces? isLast parts = some pieces) : ∀ n ∈ pieces, n < pieceLimit := by
  induction parts generalizing pieces with
  | nil =>
    cases h
    simp
  | cons part parts ih =>
    rcases parts with - | ⟨next, parts⟩
    · unfold sidePieces? at h
      split at h
      · exact lt_of_dottedPieces? h
      · obtain ⟨piece, hpiece, rfl⟩ := Option.map_eq_some_iff.1 h
        simpa using lt_of_piece? hpiece
    · rw [sidePieces?.eq_3 _ _ _ (by simp)] at h
      obtain ⟨piece, hpiece, h⟩ := Option.bind_eq_some_iff.1 h
      obtain ⟨others, hothers, h⟩ := Option.bind_eq_some_iff.1 h
      cases h
      exact List.forall_mem_cons.2 ⟨lt_of_piece? hpiece, ih hothers⟩

/-- An address has eight pieces of 16 bits. -/
theorem of_readIpv6 {cs : List Char} {pieces : List Nat} (h : readIpv6 cs = .ok pieces) :
    pieces.length = 8 ∧ ∀ n ∈ pieces, n < pieceLimit := by
  unfold readIpv6 at h
  simp only at h
  split at h
  · next found hfound =>
    cases h
    split at hfound
    · obtain ⟨hside, hlength⟩ := Option.filter_eq_some_iff.1 hfound
      exact ⟨of_decide_eq_true hlength, lt_of_sidePieces? hside⟩
    · cases hfound
    · obtain ⟨left, hleft, hfound⟩ := Option.bind_eq_some_iff.1 hfound
      obtain ⟨right, hright, hfound⟩ := Option.bind_eq_some_iff.1 hfound
      split at hfound
      · next hlength =>
        cases hfound
        refine ⟨by simp; omega, fun n hn => ?_⟩
        simp only [List.mem_append, List.mem_replicate] at hn
        rcases hn with (hn | ⟨-, rfl⟩) | hn
        · exact lt_of_sidePieces? hleft n hn
        · decide
        · exact lt_of_sidePieces? hright n hn
      · cases hfound
  · cases h

/-! ## The run that is left out -/

theorem eq_replicate_append_drop {n : Nat} {pieces : List Nat} (h : n ≤ zeroRun pieces) :
    pieces = List.replicate n 0 ++ pieces.drop n := by
  induction n generalizing pieces with
  | zero => rfl
  | succ n ih =>
    cases pieces with
    | nil => simp [zeroRun] at h
    | cons piece pieces =>
      by_cases hpiece : piece = 0
      · subst hpiece
        have hrun : n ≤ zeroRun pieces := by simpa [zeroRun] using h
        rw [List.replicate_succ, List.cons_append, List.drop_succ_cons, ← ih hrun]
      · simp [zeroRun, hpiece] at h

theorem longestRun_le (pieces : List Nat) :
    (longestRun pieces).2 ≤ zeroRun (pieces.drop (longestRun pieces).1) := by
  have hfold (starts : List Nat) {best : Nat × Nat}
      (hbest : best.2 ≤ zeroRun (pieces.drop best.1)) :
      let best := starts.foldl (fun best start =>
        let run := zeroRun (pieces.drop start)
        if best.2 < run then (start, run) else best) best
      best.2 ≤ zeroRun (pieces.drop best.1) := by
    induction starts generalizing best with
    | nil => exact hbest
    | cons start starts ih =>
      rw [List.foldl_cons]
      refine ih ?_
      dsimp only
      split
      · exact Nat.le_refl _
      · exact hbest
  exact hfold _ (Nat.zero_le _)

/-- **The pieces are those before the run, zeros, and those behind it.** -/
theorem eq_around_longestRun (pieces : List Nat) :
    pieces = pieces.take (longestRun pieces).1 ++ List.replicate (longestRun pieces).2 0
      ++ pieces.drop ((longestRun pieces).1 + (longestRun pieces).2) := by
  have hrun := eq_replicate_append_drop (longestRun_le pieces)
  rw [List.drop_drop] at hrun
  rw [List.append_assoc, ← hrun, List.take_append_drop]

/-! ## IPv6 -/

/-- The text of the pieces on one side. -/
def sideChars (pieces : List Nat) : List Char := [':'].intercalate (pieces.map hexDigits)

theorem splitAt_sideChars {pieces : List Nat} (h : pieces ≠ []) :
    splitAt ':' (sideChars pieces) = pieces.map hexDigits := by
  refine splitAt_intercalate (by simpa using h) fun part hpart => ?_
  obtain ⟨n, -, rfl⟩ := List.mem_map.1 hpart
  exact notMem_hexDigits (by decide) n

theorem sidePieces?_hexDigits {isLast : Bool} {pieces : List Nat}
    (h : ∀ n ∈ pieces, n < pieceLimit) :
    sidePieces? isLast (pieces.map hexDigits) = some pieces := by
  induction pieces with
  | nil => rfl
  | cons n pieces ih =>
    obtain ⟨hn, hpieces⟩ := List.forall_mem_cons.1 h
    rcases pieces with - | ⟨next, pieces⟩
    · have hdot : (hexDigits n).contains '.' = false := by
        simpa using notMem_hexDigits (by decide) n
      simp [sidePieces?, hdot, piece?_hexDigits hn, - List.contains_eq_mem]
    · rw [List.map_cons, List.map_cons, sidePieces?.eq_3 _ _ _ (by simp), ← List.map_cons,
        piece?_hexDigits hn, ih hpieces]
      rfl

theorem splitAtGap_of_head? {parts : List (List Char)} (hne : parts ≠ [])
    (h : parts.head? ≠ some []) :
    splitAtGap parts
      = (parts.takeWhile (!·.isEmpty),
          match parts.dropWhile (!·.isEmpty) with
          | [] :: rest => some rest
          | _ => none) := by
  rcases parts with - | ⟨- | ⟨c, cs⟩, parts⟩
  · exact absurd rfl hne
  · exact absurd rfl h
  · rfl

theorem isEmpty_hexDigits (pieces : List Nat) :
    ∀ part ∈ pieces.map hexDigits, (!part.isEmpty) = true := by
  intro part hpart
  obtain ⟨n, -, rfl⟩ := List.mem_map.1 hpart
  simp [hexDigits_ne_nil]

/-- Without a gap all parts are on one side. -/
theorem splitAtGap_sideChars {pieces : List Nat} (h : pieces ≠ []) :
    splitAtGap (splitAt ':' (sideChars pieces)) = (pieces.map hexDigits, none) := by
  have hparts := isEmpty_hexDigits pieces
  rw [splitAt_sideChars h, splitAtGap_of_head? (by simpa using h) (by simp [hexDigits_ne_nil]),
    List.takeWhile_eq_self_iff.2 hparts, List.dropWhile_eq_nil_iff.2 hparts]

/-- A pair of colons is the gap between both sides. -/
theorem splitAtGap_colons (before behind : List Nat) :
    splitAtGap (splitAt ':' (sideChars before ++ [':', ':'] ++ sideChars behind))
      = (before.map hexDigits, some (splitAt ':' (sideChars behind))) := by
  have hsplit : splitAt ':' (sideChars before ++ [':', ':'] ++ sideChars behind)
      = splitAt ':' (sideChars before) ++ [] :: splitAt ':' (sideChars behind) := by
    rw [List.append_assoc, List.cons_append, splitAt_append_cons, List.singleton_append]
    exact congrArg (_ ++ ·) (splitAt_append_cons ':' [] (sideChars behind))
  rw [hsplit]
  rcases before with - | ⟨n, before⟩
  · rfl
  · have hparts := isEmpty_hexDigits (n :: before)
    rw [splitAt_sideChars (List.cons_ne_nil _ _), splitAtGap_of_head? (by simp)
      (by simp [hexDigits_ne_nil]), List.takeWhile_append_of_pos hparts,
      List.dropWhile_append_of_pos hparts]
    simp

/-- A side without a piece is one part without a character. -/
theorem parts_sideChars (pieces : List Nat) :
    (if splitAt ':' (sideChars pieces) = [[]] then [] else splitAt ':' (sideChars pieces))
      = pieces.map hexDigits := by
  rcases pieces with - | ⟨n, pieces⟩
  · rfl
  · rw [splitAt_sideChars (List.cons_ne_nil _ _), if_neg]
    simp [hexDigits_ne_nil]

theorem readIpv6_of_gap (before behind : List Nat) (hlength : before.length + behind.length < 8)
    (hbefore : ∀ n ∈ before, n < pieceLimit) (hbehind : ∀ n ∈ behind, n < pieceLimit) :
    readIpv6 (sideChars before ++ [':', ':'] ++ sideChars behind)
      = .ok (before ++ List.replicate (8 - (before.length + behind.length)) 0 ++ behind) := by
  have hparts := parts_sideChars behind
  have hgap := splitAtGap_colons before behind
  obtain ⟨part, parts, hcons⟩ := List.exists_cons_of_ne_nil (splitAt_ne_nil ':' (sideChars behind))
  unfold readIpv6
  rw [hcons] at hgap hparts
  simp only [hgap, hparts, sidePieces?_hexDigits hbefore, sidePieces?_hexDigits hbehind,
    Option.bind_eq_bind, Option.bind_some, if_pos hlength]

/-- **An IPv6 address is read back from its text.** -/
theorem readIpv6_ipv6Chars {pieces : List Nat} (hlength : pieces.length = 8)
    (h : ∀ n ∈ pieces, n < pieceLimit) : readIpv6 (ipv6Chars pieces) = .ok pieces := by
  have hne : pieces ≠ [] := by
    rintro rfl
    cases hlength
  have hpieces := eq_around_longestRun pieces
  unfold ipv6Chars
  generalize longestRun pieces = found at hpieces ⊢
  obtain ⟨start, run⟩ := found
  dsimp only at hpieces ⊢
  by_cases hrun : run < 2
  · -- A zero that stands alone is written like any other piece.
    rw [if_pos hrun]
    have hread : readIpv6 (sideChars pieces) = .ok pieces := by
      unfold readIpv6
      simp [splitAtGap_sideChars hne, sidePieces?_hexDigits h, Option.filter, hlength]
    exact hread
  · -- The gap stands for as many pieces as are missing, and these are the zeros.
    rw [if_neg hrun]
    have hcount := congrArg List.length hpieces
    simp only [List.length_append, List.length_replicate, hlength] at hcount
    have hmissing :
        8 - ((pieces.take start).length + (pieces.drop (start + run)).length) = run := by omega
    have hread := readIpv6_of_gap (pieces.take start) (pieces.drop (start + run)) (by omega)
      (fun n hn => h n (List.mem_of_mem_take hn)) fun n hn => h n (List.mem_of_mem_drop hn)
    rw [hmissing, ← hpieces] at hread
    exact hread

end MetaCache.Url
