import MetaCache.Proofs.Text.Bytes
import MetaCache.Proofs.Text.Composition
import MetaCache.Url.Address

/-!
# No host ends with a margin

Control characters and blanks do not count at the end of an address, but they do where something
stands behind them. There they are part of the host or the port, and then there is no address: a
port is a number, an IPv6 address ends with a bracket, and a domain keeps its last character through
decoding, folding and composing, up to the check for characters that are forbidden in domains.
-/

namespace MetaCache.Url

open MetaCache.Text

theorem ne_of_isMargin {m c : Char} (hm : isMargin m) (hc : 0x20 < c.toNat) : m ≠ c := by
  rintro rfl
  simp only [isMargin, decide_eq_true_eq] at hm
  omega

theorem lt_of_isMargin {m : Char} (hm : isMargin m) : m.toNat < 0x30 := by
  simp only [isMargin, decide_eq_true_eq] at hm
  omega

theorem hexValue?_margin {m : Char} (hm : isMargin m) : hexValue? m = none := by
  have := lt_of_isMargin hm
  unfold hexValue?
  rw [dif_neg (by omega), dif_neg (by omega), dif_neg (by omega)]

/-- What is taken from the end of a text goes on to its last character. -/
theorem takeEnd_append {p : Char → Bool} {m : Char} (hm : p m) (cs : List Char) :
    ((cs ++ [m]).reverse.takeWhile p).reverse = (cs.reverse.takeWhile p).reverse ++ [m] := by
  simp [hm]

/-! ## Domains -/

theorem decode_of_ne {c : Char} (h : c ≠ '%') (rest : List Char) :
    decode (c :: rest) = String.utf8EncodeChar c ++ decode rest := by
  rw [decode.eq_def]
  split
  · next heq => cases heq
  · next heq => exact absurd (List.cons.inj heq).1 h
  · next heq => cases heq; rfl

/-- A margin at the end is not taken for a digit of the character before it. -/
theorem decode_append_margin {m : Char} (hm : isMargin m) (cs : List Char) :
    decode (cs ++ [m]) = decode cs ++ [UInt8.ofNat m.toNat] := by
  have hbyte : String.utf8EncodeChar m = [UInt8.ofNat m.toNat] :=
    utf8EncodeChar_of_lt (Nat.lt_trans (lt_of_isMargin hm) (by decide))
  have hpercent : m ≠ '%' := ne_of_isMargin hm (by decide)
  have hsign : String.utf8EncodeChar '%' = [0x25] := rfl
  -- The cases are those of `decode`. Only in the last one may the margin come into play, where a
  -- percent sign stands before less than two characters.
  induction cs using decode.induct with
  | case1 => simp [decode, hbyte]
  | case2 a b rest high low hhigh hlow ih => simp [decode, hhigh, hlow, ih]
  | case3 a b rest hdigits ih =>
    simp only [List.cons_append] at ih ⊢
    simp [decode, ih]
  | case4 c rest hfew ih =>
    by_cases hc : c = '%'
    · subst hc
      rcases rest with - | ⟨a, - | ⟨b, rest⟩⟩
      · simp [decode, hbyte]
      · simp_all [decode, hexValue?_margin hm]
      · exact absurd rfl (hfew a b rest rfl)
    · rw [List.cons_append, decode_of_ne hc, decode_of_ne hc, ih, List.append_assoc]

/-- Bytes that end with one of ASCII are a text that ends with its character. -/
theorem textOf?_append {m : Char} (hm : m.toNat < 0x80) {bytes : List UInt8} {text : List Char}
    (h : Host.textOf? (bytes ++ [UInt8.ofNat m.toNat]) = some text) :
    ∃ front, text = front ++ [m] := by
  obtain ⟨s, hs, rfl⟩ := Option.map_eq_some_iff.1 h
  exact eq_append_of_utf8 hm (utf8_of_fromUTF8? hs)

theorem toLower_margin {m : Char} (hm : isMargin m) : m.toLower = m := by
  have hlow := lt_of_isMargin hm
  unfold Char.toLower
  rw [dif_neg fun h => ?_]
  have : ('A' : Char).val.toNat ≤ m.val.toNat := UInt32.le_iff_toNat_le.1 h.1
  have : ('A' : Char).val.toNat = 0x41 := rfl
  have : m.toNat = m.val.toNat := rfl
  omega

theorem foldText?_append {m : Char} (hm : isMargin m) {front folded : List Char}
    (h : foldText? (front ++ [m]) = some folded) : ∃ front', folded = front' ++ [m] := by
  have hlow := lt_of_isMargin hm
  have hfold : fold m = some [m.toNat] := fold_eq_self (by omega) (toLower_margin hm)
  obtain ⟨counterparts, hmap, rfl⟩ := Option.map_eq_some_iff.1 h
  rw [List.mapM_append] at hmap
  obtain ⟨firsts, -, hmap⟩ := Option.bind_eq_some_iff.1 hmap
  simp only [List.mapM_cons, List.mapM_nil, hfold, Option.pure_def, Option.bind_eq_bind,
    Option.bind_some, Option.some.injEq] at hmap
  rw [← hmap, List.flatten_append, List.flatten_singleton, composed_append (by omega)]
  exact ⟨_, by rw [List.map_append, List.map_singleton, Char.ofNat_toNat]⟩

/-- The last part keeps the last character. -/
theorem splitAt_append {separator m : Char} (hm : m ≠ separator) (cs : List Char) :
    ∃ parts part, splitAt separator (cs ++ [m]) = parts ++ [part ++ [m]] := by
  induction cs with
  | nil => exact ⟨[], [], by simp [splitAt, hm]⟩
  | cons c cs ih =>
    obtain ⟨parts, part, ih⟩ := ih
    by_cases hc : c = separator
    · exact ⟨[] :: parts, part, by simp [splitAt, hc, ih]⟩
    · cases parts with
      | nil => exact ⟨[], c :: part, by simp [splitAt, hc, ih]⟩
      | cons first parts => exact ⟨(c :: first) :: parts, part, by simp [splitAt, hc, ih]⟩

theorem digitValue?_margin {m : Char} (hm : isMargin m) : Punycode.digitValue? m = none := by
  have := lt_of_isMargin hm
  unfold Punycode.digitValue?
  simp only
  rw [if_neg (by omega), if_neg (by omega), if_neg (by omega)]

/-- What is no digit is not read as a part of a distance. -/
theorem readDistance_append {m : Char} (hm : Punycode.digitValue? m = none) {bias : Nat}
    {digits rest : List Char} {k weight sum j : Nat}
    (h : Punycode.readDistance bias (digits ++ [m]) k weight sum = some (j, rest)) :
    ∃ digits', rest = digits' ++ [m] := by
  induction digits generalizing k weight sum with
  | nil => simp [Punycode.readDistance, hm] at h
  | cons c digits ih =>
    rw [List.cons_append, Punycode.readDistance] at h
    split at h
    · cases h
    · simp only at h
      split at h
      · cases h
        exact ⟨digits, rfl⟩
      · exact ih h

theorem readAll_append {m : Char} (hm : Punycode.digitValue? m = none) (rounds bias n i : Nat)
    (out digits : List Char) : Punycode.readAll rounds bias n i out (digits ++ [m]) = none := by
  induction rounds generalizing bias n i out digits with
  | zero => cases digits <;> rfl
  | succ rounds ih =>
    obtain ⟨c, rest, hcons⟩ : ∃ c rest, digits ++ [m] = c :: rest := by cases digits <;> simp
    rw [hcons, Punycode.readAll.eq_3 _ _ _ _ _ _ (by simp), ← hcons, Option.bind_eq_bind,
      Option.bind_eq_none_iff]
    rintro ⟨j, rest⟩ hdistance
    obtain ⟨digits', rfl⟩ := readDistance_append hm hdistance
    simp only
    split
    · exact ih ..
    · rfl

theorem read?_append {m : Char} (hm : isMargin m) (written : List Char) :
    Punycode.read? (written ++ [m]) = none := by
  have hbehind := takeEnd_append (p := (· ≠ '-')) (decide_eq_true (ne_of_isMargin hm (by decide)))
    written
  unfold Punycode.read?
  simp only [hbehind]
  split
  · rfl
  · exact readAll_append (digitValue?_margin hm) ..

/-- The text of a label with a margin at its end is the label itself, if it has one. -/
theorem text?_append {m : Char} (hm : isMargin m) {label text : List Char}
    (h : Label.text? (label ++ [m]) = some text) : text = label ++ [m] := by
  have hminus : m ≠ '-' := ne_of_isMargin hm (by decide)
  unfold Label.text? at h
  split at h
  · next hmark =>
    obtain ⟨written, hwritten⟩ := List.isPrefixOf_iff_prefix.1 hmark
    -- The mark ends with a minus sign, so the margin stands behind it.
    rcases List.eq_nil_or_concat written with rfl | ⟨front, c, rfl⟩
    · have hlast := congrArg List.getLast? hwritten
      rw [List.append_nil, List.getLast?_concat] at hlast
      exact absurd (Option.some.inj hlast).symm hminus
    · rw [List.concat_eq_append, ← List.append_assoc] at hwritten
      obtain rfl : c = m := (List.cons.inj (List.append_inj_right' hwritten rfl)).1
      rw [← hwritten, List.append_assoc, List.drop_left] at h
      simp only [read?_append hm] at h
      split at h <;> cases h
  · split at h
    · exact (Option.some.inj h).symm
    · cases h

theorem isForbidden_margin {m : Char} (hm : isMargin m) : isForbidden m := by
  unfold isMargin at hm
  simp [isForbidden, hm]

theorem mapM_append_singleton {α β : Type} {f : α → Option β} {xs : List α} {x : α} {ys : List β}
    (h : (xs ++ [x]).mapM f = some ys) : ∃ y, f x = some y ∧ y ∈ ys := by
  rw [List.mapM_append] at h
  obtain ⟨firsts, -, h⟩ := Option.bind_eq_some_iff.1 h
  obtain ⟨lasts, hlasts, h⟩ := Option.bind_eq_some_iff.1 h
  rw [List.mapM_cons] at hlasts
  obtain ⟨y, hy, hlasts⟩ := Option.bind_eq_some_iff.1 hlasts
  simp only [List.mapM_nil, Option.pure_def, Option.bind_eq_bind, Option.bind_some,
    Option.some.injEq] at hlasts h
  exact ⟨y, hy, by rw [← h, ← hlasts]; simp⟩

/-- A domain does not end with a margin, in whatever way it is written. -/
theorem domainToAscii?_margin {m : Char} (hm : isMargin m) (cs : List Char) :
    Host.domainToAscii? (cs ++ [m]) = none := by
  refine Option.map_eq_none_iff.2 (Option.eq_none_iff_forall_ne_some.2 fun texts h => ?_)
  unfold Host.labelTexts? at h
  rw [decode_append_margin hm] at h
  obtain ⟨text, htext, h⟩ := Option.bind_eq_some_iff.1 h
  obtain ⟨front, rfl⟩ := textOf?_append (Nat.lt_trans (lt_of_isMargin hm) (by decide)) htext
  obtain ⟨folded, hfolded, h⟩ := Option.bind_eq_some_iff.1 h
  obtain ⟨front', rfl⟩ := foldText?_append hm hfolded
  have hdot : m ≠ '.' := ne_of_isMargin hm (by decide)
  obtain ⟨labels, label, hsplit⟩ := splitAt_append hdot front'
  rw [hsplit] at h
  obtain ⟨texts', htexts, h⟩ := Option.bind_eq_some_iff.1 h
  obtain ⟨last, hlast, hmem⟩ := mapM_append_singleton htexts
  have hforbidden : texts'.any (·.any isForbidden) = true := by
    refine List.any_eq_true.2 ⟨last, hmem, List.any_eq_true.2 ⟨m, ?_, isForbidden_margin hm⟩⟩
    rw [text?_append hm hlast]
    simp
  rw [if_pos hforbidden] at h
  cases h

/-! ## Hosts and ports -/

theorem host_read_margin {m : Char} (hm : isMargin m) (cs : List Char) (host : Host) :
    Host.read (cs ++ [m]) ≠ .ok host := by
  intro h
  unfold Host.read at h
  split at h
  · have hbracket : Host.insideBrackets? (cs ++ [m]) = none := by
      unfold Host.insideBrackets?
      rw [List.getLast?_concat, if_neg]
      intro hlast
      exact ne_of_isMargin hm (by decide) (Option.some.inj hlast)
    simp_all
  · rw [domainToAscii?_margin hm] at h
    cases h

/-- Behind a host there is nothing, or a colon. -/
theorem drop_hostLength (inside : Bool) (cs : List Char) :
    cs.drop (hostLength inside cs) = [] ∨ ∃ rest, cs.drop (hostLength inside cs) = ':' :: rest := by
  induction cs generalizing inside with
  | nil => exact .inl rfl
  | cons c cs ih =>
    unfold hostLength
    split
    · next h =>
      simp only [Bool.and_eq_true, decide_eq_true_eq] at h
      exact .inr ⟨cs, by rw [List.drop_zero, h.1]⟩
    · rw [List.drop_succ_cons]
      exact ih _

theorem readPort_margin {m : Char} (hm : isMargin m) {cs : List Char} (hmem : m ∈ cs)
    (port : Option Nat) : readPort (':' :: cs) ≠ .ok port := by
  have hdigit : m.isDigit = false := by
    have hlow := lt_of_isMargin hm
    refine Bool.eq_false_iff.2 fun h => ?_
    simp only [Char.isDigit, Bool.and_eq_true, decide_eq_true_eq] at h
    have : ('0' : Char).val.toNat ≤ m.val.toNat := UInt32.le_iff_toNat_le.1 h.1
    have : ('0' : Char).val.toNat = 0x30 := rfl
    have : m.toNat = m.val.toNat := rfl
    omega
  have hall : cs.all Char.isDigit = false := List.all_eq_false.2 ⟨m, hmem, by simp [hdigit]⟩
  unfold readPort
  simp [hall]

/-- The parts of an authority are read on their own: the user in front, then the host and the
port. -/
theorem readAuthority_ok {authority : List Char} {a : Authority}
    (h : readAuthority authority = .ok a) :
    hostLength false (splitUserinfo authority).2 ≠ 0
      ∧ Host.read ((splitUserinfo authority).2.take (hostLength false (splitUserinfo authority).2))
        = .ok a.host
      ∧ readPort ((splitUserinfo authority).2.drop (hostLength false (splitUserinfo authority).2))
        = .ok a.port
      ∧ a.userinfo = ((splitUserinfo authority).1.map readUserinfo).getD ⟨[], none⟩ := by
  unfold readAuthority at h
  simp only at h
  generalize (splitUserinfo authority).2 = hostPort at h ⊢
  split at h
  · cases h
  · next hlength =>
    cases hhost : Host.read (hostPort.take (hostLength false hostPort)) with
    | error e => rw [hhost] at h; cases h
    | ok host =>
      cases hport : readPort (hostPort.drop (hostLength false hostPort)) with
      | error e => rw [hhost, hport] at h; cases h
      | ok port =>
        rw [hhost, hport] at h
        cases h
        exact ⟨hlength, rfl, rfl, rfl⟩

theorem splitUserinfo_append {m : Char} (hm : isMargin m) (cs : List Char) :
    ∃ front, (splitUserinfo (cs ++ [m])).2 = front ++ [m] := by
  have hbehind := takeEnd_append (p := (· ≠ '@')) (decide_eq_true (ne_of_isMargin hm (by decide))) cs
  unfold splitUserinfo
  simp only [hbehind]
  split
  · exact ⟨cs, rfl⟩
  · exact ⟨_, rfl⟩

/-- **There is no authority that ends with a margin.** -/
theorem readAuthority_margin {m : Char} (hm : isMargin m) (cs : List Char) (a : Authority) :
    readAuthority (cs ++ [m]) ≠ .ok a := by
  intro h
  obtain ⟨-, hhost, hport, -⟩ := readAuthority_ok h
  obtain ⟨front, hfront⟩ := splitUserinfo_append hm cs
  rw [hfront] at hhost hport
  rcases drop_hostLength false (front ++ [m]) with hdrop | ⟨rest, hdrop⟩
  · -- The host takes all.
    rw [List.take_of_length_le (List.drop_eq_nil_iff.1 hdrop)] at hhost
    exact host_read_margin hm _ _ hhost
  · have hmem : m ∈ rest := by
      have hlast : m ∈ ':' :: rest := by
        refine List.mem_of_getLast? ?_
        rw [← hdrop, List.getLast?_drop, if_neg, List.getLast?_concat]
        intro hle
        rw [List.drop_eq_nil_iff.2 hle] at hdrop
        cases hdrop
      exact (List.mem_cons.1 hlast).resolve_left (ne_of_isMargin hm (by decide))
    rw [hdrop] at hport
    exact readPort_margin hm hmem _ hport

end MetaCache.Url
