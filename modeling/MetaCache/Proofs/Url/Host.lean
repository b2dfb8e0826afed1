import MetaCache.Proofs.Url.Folding
import MetaCache.Proofs.Url.Internet
import MetaCache.Proofs.Url.Punycode

/-!
# A host is read back from its text

The text of a host that was read leads back to that host, if it is read at all
(`Host.WasRead.read_chars`). Folding changes nothing in the text of a domain, as no capital letters
are left in it, and each label in ASCII leads back to the text that it was written for
(`Label.text?_ascii`).
-/

namespace MetaCache.Url

open MetaCache.Number MetaCache.Text

/-! ## Characters of hosts -/

/-- Whether a character stays as it is where hosts are read: one of ASCII, no capital letter, and
none that is forbidden in domains. -/
def isSettled (c : Char) : Bool := c.toNat < 0x80 && c.toLower = c && !isForbidden c

theorem isSettled_iff {c : Char} :
    isSettled c ↔ c.toNat < 0x80 ∧ c.toLower = c ∧ isForbidden c = false := by
  simp [isSettled, and_assoc]

theorem isSettled_digitChar {d : Nat} (h : d < 16) : isSettled d.digitChar := by
  revert d
  decide

theorem Punycode.IsDigit.isSettled {c : Char} (h : Punycode.IsDigit c) : isSettled c := by
  obtain ⟨d, hd, rfl⟩ := h
  revert d
  decide

theorem Punycode.IsDigit.ne_dot {c : Char} (h : Punycode.IsDigit c) : c ≠ '.' := by
  obtain ⟨d, hd, rfl⟩ := h
  revert d
  decide

theorem ne_of_isSettled {c d : Char} (hc : isSettled c) (hd : isSettled d = false) : c ≠ d := by
  rintro rfl
  rw [hc] at hd
  cases hd

theorem isMargin_of_isSettled {c : Char} (hc : isSettled c) : isMargin c = false := by
  refine Bool.eq_false_iff.2 fun hmargin => ?_
  have hforbidden := isForbidden_margin hmargin
  rw [(isSettled_iff.1 hc).2.2] at hforbidden
  cases hforbidden

theorem map_of_mapM {α β : Type} {f : α → Option β} {g : β → α} {xs : List α} {ys : List β}
    (h : xs.mapM f = some ys) (hback : ∀ x ∈ xs, ∀ y, f x = some y → g y = x) : ys.map g = xs := by
  induction xs generalizing ys with
  | nil =>
    cases h
    rfl
  | cons x xs ih =>
    rw [List.mapM_cons] at h
    obtain ⟨y, hy, h⟩ := Option.bind_eq_some_iff.1 h
    obtain ⟨others, hothers, h⟩ := Option.bind_eq_some_iff.1 h
    cases h
    rw [List.map_cons, hback x List.mem_cons_self y hy,
      ih hothers fun x hx => hback x (List.mem_cons_of_mem _ hx)]

/-! ## Labels -/

namespace Label

variable {label text : List Char}

theorem isAscii_iff : isAscii text ↔ ∀ c ∈ text, c.toNat < 0x80 := by
  simp [isAscii]

/-- What a label that stands for another text is known to stand for. -/
theorem of_text?_of_mark (hmark : punycodeMark.isPrefixOf label) (h : text? label = some text) :
    Punycode.read? (label.drop punycodeMark.length) = some text
      ∧ isAscii text = false ∧ foldText? text = some text ∧ '.' ∉ text := by
  unfold text? at h
  rw [if_pos hmark] at h
  simp only [Option.ite_none_left_eq_some] at h
  obtain ⟨-, h⟩ := h
  obtain ⟨found, hfound, h⟩ := Option.bind_eq_some_iff.1 h
  simp only [Option.ite_none_left_eq_some, Option.ite_none_right_eq_some, Bool.or_eq_true, not_or,
    decide_eq_true_eq, Decidable.not_not, Bool.not_eq_true, Option.some.injEq] at h
  obtain ⟨⟨⟨hascii, hfold⟩, hany⟩, -, rfl⟩ := h
  refine ⟨hfound, hascii, hfold, fun hdot => ?_⟩
  simpa using List.any_eq_false.1 hany _ hdot

/-- Any other label stands for itself. -/
theorem of_text?_of_not_mark (hmark : punycodeMark.isPrefixOf label = false)
    (h : text? label = some text) : text = label := by
  unfold text? at h
  rw [if_neg (by simp [hmark])] at h
  split at h
  · exact (Option.some.inj h).symm
  · cases h

/-- **The ASCII form of a text stands for that text.** -/
theorem text?_ascii (h : text? label = some text) {found : List Char}
    (hfound : text? (ascii text) = some found) : found = text := by
  by_cases hascii : isAscii text
  · have hmark : punycodeMark.isPrefixOf label = false := by
      refine Bool.eq_false_iff.2 fun hmark => ?_
      rw [(of_text?_of_mark hmark h).2.1] at hascii
      cases hascii
    obtain rfl := of_text?_of_not_mark hmark h
    rw [ascii, if_pos hascii, h] at hfound
    exact (Option.some.inj hfound).symm
  · rw [ascii, if_neg hascii] at hfound
    have hmark : punycodeMark.isPrefixOf (punycodeMark ++ Punycode.write text) :=
      List.isPrefixOf_iff_prefix.2 (List.prefix_append _ _)
    have hread := (of_text?_of_mark hmark hfound).1
    rw [List.drop_left, Punycode.read?_write] at hread
    exact (Option.some.inj hread).symm

/-- A number stands for itself. -/
theorem ascii_of_digits (hlabel : ∀ c ∈ label, ∃ d < 10, d.digitChar = c)
    (h : text? label = some text) : ascii text = label := by
  have hmark : punycodeMark.isPrefixOf label = false := by
    refine Bool.eq_false_iff.2 fun hmark => ?_
    obtain ⟨rest, rfl⟩ := List.isPrefixOf_iff_prefix.1 hmark
    obtain ⟨d, hd, heq⟩ := hlabel 'x' List.mem_cons_self
    revert d
    decide
  have hascii : isAscii label := by
    have hall : ∀ d < 10, d.digitChar.toNat < 0x80 := by decide
    refine isAscii_iff.2 fun c hc => ?_
    obtain ⟨d, hd, rfl⟩ := hlabel c hc
    exact hall d hd
  rw [of_text?_of_not_mark hmark h, ascii, if_pos hascii]

/-- The text of a label that has been folded is folded. -/
theorem toLower_of_text? (hlabel : ∀ c ∈ label, c.toLower = c) (h : text? label = some text) :
    ∀ c ∈ text, c.toLower = c := by
  by_cases hmark : punycodeMark.isPrefixOf label
  · exact fun c hc => toLower_of_foldText? (of_text?_of_mark hmark h).2.2.1 hc
  · rwa [of_text?_of_not_mark (Bool.eq_false_iff.2 hmark) h]

theorem dot_notMem_of_text? (hlabel : '.' ∉ label) (h : text? label = some text) : '.' ∉ text := by
  by_cases hmark : punycodeMark.isPrefixOf label
  · exact (of_text?_of_mark hmark h).2.2.2
  · rwa [of_text?_of_not_mark (Bool.eq_false_iff.2 hmark) h]

/-- The characters of the ASCII form are those of the text, and signs of the form. -/
theorem forall_ascii {P : Char → Prop} (hmark : ∀ c ∈ punycodeMark, P c)
    (hdigit : ∀ c, Punycode.IsDigit c → P c) (htext : ∀ c ∈ text, c.toNat < 0x80 → P c) :
    ∀ c ∈ ascii text, P c := by
  intro c hc
  unfold ascii at hc
  split at hc
  · next hascii => exact htext c hc (isAscii_iff.1 hascii c hc)
  · rcases List.mem_append.1 hc with hc | hc
    · exact hmark c hc
    · rcases Punycode.mem_write hc with hc | rfl | hc
      · obtain ⟨hc, hlow⟩ := List.mem_filter.1 hc
        exact htext c hc (of_decide_eq_true hlow)
      · exact hmark '-' (by decide)
      · exact hdigit c hc

end Label

/-! ## Domains -/

theorem notMem_of_mem_splitAt {separator : Char} {cs part : List Char}
    (h : part ∈ splitAt separator cs) : separator ∉ part := by
  induction cs generalizing part with
  | nil =>
    obtain rfl := List.mem_singleton.1 h
    exact List.not_mem_nil
  | cons c cs ih =>
    by_cases hc : c = separator
    · rw [splitAt, if_pos hc] at h
      rcases List.mem_cons.1 h with rfl | h
      · exact List.not_mem_nil
      · exact ih h
    · obtain ⟨first, parts, hparts⟩ := List.exists_cons_of_ne_nil (splitAt_ne_nil separator cs)
      simp only [splitAt, if_neg hc, hparts] at h
      rw [hparts] at ih
      rcases List.mem_cons.1 h with rfl | h
      · exact List.not_mem_cons_of_ne_of_not_mem (Ne.symm hc) (ih List.mem_cons_self)
      · exact ih (List.mem_cons_of_mem _ h)

theorem mem_of_mem_splitAt {separator c : Char} {cs part : List Char}
    (h : part ∈ splitAt separator cs) (hc : c ∈ part) : c ∈ cs := by
  induction cs generalizing part with
  | nil =>
    obtain rfl := List.mem_singleton.1 h
    exact hc
  | cons d cs ih =>
    by_cases hd : d = separator
    · rw [splitAt, if_pos hd] at h
      rcases List.mem_cons.1 h with rfl | h
      · cases hc
      · exact List.mem_cons_of_mem _ (ih h hc)
    · obtain ⟨first, parts, hparts⟩ := List.exists_cons_of_ne_nil (splitAt_ne_nil separator cs)
      simp only [splitAt, if_neg hd, hparts] at h
      rw [hparts] at ih
      rcases List.mem_cons.1 h with rfl | h
      · rcases List.mem_cons.1 hc with rfl | hc
        · exact List.mem_cons_self
        · exact List.mem_cons_of_mem _ (ih List.mem_cons_self hc)
      · exact List.mem_cons_of_mem _ (ih (List.mem_cons_of_mem _ h) hc)

/-- A text without percent signs is decoded to its own bytes. -/
theorem decode_of_notMem {cs : List Char} (h : '%' ∉ cs) : decode cs = utf8 cs := by
  induction cs with
  | nil => rfl
  | cons c cs ih =>
    rw [List.mem_cons, not_or] at h
    rw [decode_of_ne (Ne.symm h.1), ih h.2, utf8_cons]

theorem textOf?_utf8 (cs : List Char) : Host.textOf? (utf8 cs) = some cs := by
  have h := fromUTF8?_utf8 (String.ofList cs)
  rw [String.toList_ofList] at h
  rw [Host.textOf?, h, Option.map_some, String.toList_ofList]

namespace Host

/-- The texts of the labels of a domain. -/
structure AreTexts (texts : List (List Char)) : Prop where
  ne_nil : texts ≠ []
  settled : ∀ text ∈ texts, ∀ c ∈ text, c.toNat < 0x80 → isSettled c
  noDot : ∀ text ∈ texts, '.' ∉ text
  reads : ∀ text ∈ texts, ∀ found, Label.text? (Label.ascii text) = some found → found = text

theorem areTexts_of_labelTexts? {cs : List Char} {texts : List (List Char)}
    (h : labelTexts? cs = some texts) : AreTexts texts := by
  unfold labelTexts? at h
  obtain ⟨text, -, h⟩ := Option.bind_eq_some_iff.1 h
  obtain ⟨folded, hfolded, h⟩ := Option.bind_eq_some_iff.1 h
  obtain ⟨found, hfound, h⟩ := Option.bind_eq_some_iff.1 h
  simp only [Option.ite_none_left_eq_some, Option.some.injEq] at h
  obtain ⟨hforbidden, -, rfl⟩ := h
  refine ⟨?ne_nil, ?settled, ?noDot, ?reads⟩
  case ne_nil =>
    obtain ⟨label, labels, hcons⟩ := List.exists_cons_of_ne_nil (splitAt_ne_nil '.' folded)
    rw [hcons, List.mapM_cons] at hfound
    obtain ⟨first, -, hfound⟩ := Option.bind_eq_some_iff.1 hfound
    obtain ⟨others, -, hfound⟩ := Option.bind_eq_some_iff.1 hfound
    cases hfound
    exact List.cons_ne_nil _ _
  case settled =>
    intro text htext c hc hlow
    obtain ⟨label, hlabel, htext?⟩ := mem_of_mapM hfound htext
    have hlower := Label.toLower_of_text?
      (fun c hc => toLower_of_foldText? hfolded (mem_of_mem_splitAt hlabel hc)) htext? c hc
    refine isSettled_iff.2 ⟨hlow, hlower, Bool.eq_false_iff.2 fun hbad => hforbidden ?_⟩
    exact List.any_eq_true.2 ⟨text, htext, List.any_eq_true.2 ⟨c, hc, hbad⟩⟩
  case noDot =>
    intro text htext
    obtain ⟨label, hlabel, htext?⟩ := mem_of_mapM hfound htext
    exact Label.dot_notMem_of_text? (notMem_of_mem_splitAt hlabel) htext?
  case reads =>
    intro text htext found' hfound'
    obtain ⟨label, hlabel, htext?⟩ := mem_of_mapM hfound htext
    exact Label.text?_ascii htext? hfound'

/-- **A text in ASCII whose labels lead back to themselves is a domain as it is, or none.** -/
theorem domainToAscii?_of_isSettled {labels : List (List Char)} (hne : labels ≠ [])
    (hsettled : ∀ label ∈ labels, ∀ c ∈ label, isSettled c) (hdot : ∀ label ∈ labels, '.' ∉ label)
    (hreads : ∀ label ∈ labels, ∀ text, Label.text? label = some text → Label.ascii text = label)
    {name : List Char} (h : domainToAscii? (['.'].intercalate labels) = some name) :
    name = ['.'].intercalate labels := by
  have hall : ∀ c ∈ ['.'].intercalate labels, isSettled c := by
    intro c hc
    rcases mem_intercalate hc with rfl | ⟨label, hlabel, hc⟩
    · decide
    · exact hsettled label hlabel c hc
  obtain ⟨texts, htexts, rfl⟩ := Option.map_eq_some_iff.1 h
  unfold labelTexts? at htexts
  rw [decode_of_notMem fun hmem => ne_of_isSettled (hall _ hmem) (by decide) rfl, textOf?_utf8,
    Option.bind_eq_bind, Option.bind_some,
    foldText?_of_lower fun c hc => (isSettled_iff.1 (hall c hc)).imp_right And.left,
    Option.bind_eq_bind, Option.bind_some, splitAt_intercalate hne hdot] at htexts
  obtain ⟨found, hfound, htexts⟩ := Option.bind_eq_some_iff.1 htexts
  simp only [Option.ite_none_left_eq_some, Option.some.injEq] at htexts
  obtain ⟨-, -, rfl⟩ := htexts
  rw [map_of_mapM hfound hreads]

/-! ## Hosts -/

/-- The name of a domain with these labels. -/
def nameOf (texts : List (List Char)) : List Char := ['.'].intercalate (texts.map Label.ascii)

/-- What a host is that was read. -/
inductive WasRead : Host → Prop
  | domain {texts : List (List Char)} (htexts : AreTexts texts) (hname : nameOf texts ≠ [])
      (hnumber : endsInNumber (nameOf texts) = false) : WasRead (.domain (nameOf texts))
  | ipv4 {address : Nat} (haddress : address < capacity 4) : WasRead (.ipv4 address)
  | ipv6 {pieces : List Nat} (hlength : pieces.length = 8)
      (hpieces : ∀ n ∈ pieces, n < pieceLimit) : WasRead (.ipv6 pieces)

theorem wasRead_of_read {cs : List Char} {host : Host} (h : read cs = .ok host) : WasRead host := by
  unfold read at h
  split at h
  · split at h
    · next inside _ =>
      cases hread : readIpv6 inside with
      | error e => rw [hread] at h; cases h
      | ok pieces =>
        rw [hread] at h
        cases h
        obtain ⟨hlength, hpieces⟩ := of_readIpv6 hread
        exact .ipv6 hlength hpieces
    · cases h
  · split at h
    · cases h
    · cases h
    · next name hname hdomain =>
      obtain ⟨texts, htexts, rfl⟩ := Option.map_eq_some_iff.1 hdomain
      split at h
      · next hnumber =>
        cases hread : readIpv4 (nameOf texts) with
        | error e =>
          unfold nameOf at hread
          rw [hread] at h
          cases h
        | ok address =>
          have haddress := lt_of_readIpv4 hread
          unfold nameOf at hread
          rw [hread] at h
          cases h
          exact .ipv4 haddress
      · next hnumber =>
        cases h
        exact .domain (areTexts_of_labelTexts? htexts) hname (Bool.eq_false_iff.2 hnumber)

theorem isSettled_punycodeMark {c : Char} (h : c ∈ Label.punycodeMark) : isSettled c ∧ c ≠ '.' := by
  have hall : Label.punycodeMark.all (fun c => isSettled c && c ≠ '.') := by decide
  simpa using List.all_eq_true.1 hall c h

theorem isSettled_ascii {texts : List (List Char)} (h : AreTexts texts) {text : List Char}
    (htext : text ∈ texts) : ∀ c ∈ Label.ascii text, isSettled c :=
  Label.forall_ascii (fun _ hc => (isSettled_punycodeMark hc).1) (fun _ hc => hc.isSettled)
    (h.settled text htext)

theorem dot_notMem_ascii {texts : List (List Char)} (h : AreTexts texts) {text : List Char}
    (htext : text ∈ texts) : '.' ∉ Label.ascii text := by
  refine fun hdot => Label.forall_ascii (P := (· ≠ '.')) (fun _ hc => (isSettled_punycodeMark hc).2)
    (fun _ hc => hc.ne_dot) ?_ _ hdot rfl
  rintro c hc - rfl
  exact h.noDot text htext hc

theorem isSettled_nameOf {texts : List (List Char)} (h : AreTexts texts) :
    ∀ c ∈ nameOf texts, isSettled c := by
  intro c hc
  rcases mem_intercalate hc with rfl | ⟨label, hlabel, hc⟩
  · decide
  · obtain ⟨text, htext, rfl⟩ := List.mem_map.1 hlabel
    exact isSettled_ascii h htext c hc

theorem isSettled_ipv4Chars (address : Nat) : ∀ c ∈ ipv4Chars address, isSettled c := by
  intro c hc
  rw [ipv4Chars_eq] at hc
  rcases mem_intercalate hc with rfl | ⟨part, hpart, hc⟩
  · decide
  · obtain ⟨n, -, rfl⟩ := List.mem_map.1 hpart
    obtain ⟨d, hd, rfl⟩ := mem_toDigits (by decide) hc
    exact isSettled_digitChar (Nat.lt_trans hd (by decide))

theorem domainToAscii?_nameOf {texts : List (List Char)} (h : AreTexts texts) {name : List Char}
    (hname : domainToAscii? (nameOf texts) = some name) : name = nameOf texts := by
  refine domainToAscii?_of_isSettled (by simpa using h.ne_nil) ?_ ?_ ?_ hname
  · intro label hlabel
    obtain ⟨text, htext, rfl⟩ := List.mem_map.1 hlabel
    exact isSettled_ascii h htext
  · intro label hlabel
    obtain ⟨text, htext, rfl⟩ := List.mem_map.1 hlabel
    exact dot_notMem_ascii h htext
  · intro label hlabel other hother
    obtain ⟨text, htext, rfl⟩ := List.mem_map.1 hlabel
    rw [h.reads text htext other hother]

theorem domainToAscii?_ipv4Chars {address : Nat} {name : List Char}
    (h : domainToAscii? (ipv4Chars address) = some name) : name = ipv4Chars address := by
  have hparts : ∀ label ∈ (ipv4Numbers address).map (Nat.toDigits 10),
      ∀ c ∈ label, ∃ d < 10, d.digitChar = c := by
    intro label hlabel c hc
    obtain ⟨n, -, rfl⟩ := List.mem_map.1 hlabel
    exact mem_toDigits (by decide) hc
  rw [ipv4Chars_eq] at h ⊢
  refine domainToAscii?_of_isSettled (by simp [ipv4Numbers, naturalBytes]) ?_ ?_ ?_ h
  · intro label hlabel c hc
    obtain ⟨d, hd, rfl⟩ := hparts label hlabel c hc
    exact isSettled_digitChar (Nat.lt_trans hd (by decide))
  · intro label hlabel hdot
    obtain ⟨d, hd, heq⟩ := hparts label hlabel '.' hdot
    revert d
    decide
  · intro label hlabel text htext
    exact Label.ascii_of_digits (hparts label hlabel) htext

/-- A text that is a domain as it is, or none, is read as that domain or as its number. -/
theorem read_of_isSettled {cs : List Char} (h : ∀ c ∈ cs, isSettled c)
    (hsame : ∀ name, domainToAscii? cs = some name → name = cs) {found : Host}
    (hfound : read cs = .ok found) :
    (if endsInNumber cs then (readIpv4 cs).map ipv4 else .ok (.domain cs)) = .ok found := by
  unfold read at hfound
  split at hfound
  · exact absurd (h '[' List.mem_cons_self) (by decide)
  · split at hfound
    · cases hfound
    · cases hfound
    · next name _ hname => rwa [hsame name hname] at hfound

/-- **The text of a host that was read leads back to this host, or to none.** -/
theorem WasRead.read_chars {host found : Host} (h : WasRead host)
    (hfound : read host.chars = .ok found) : found = host := by
  cases h with
  | domain htexts _ hnumber =>
    have hread := read_of_isSettled (isSettled_nameOf htexts)
      (fun _ hname => domainToAscii?_nameOf htexts hname) hfound
    rw [if_neg (Bool.eq_false_iff.1 hnumber)] at hread
    exact (Except.ok.inj hread).symm
  | @ipv4 address haddress =>
    have hread := read_of_isSettled (isSettled_ipv4Chars address)
      (fun _ hname => domainToAscii?_ipv4Chars hname) hfound
    rw [if_pos (endsInNumber_ipv4Chars address), readIpv4_ipv4Chars haddress] at hread
    exact (Except.ok.inj hread).symm
  | @ipv6 pieces hlength hpieces =>
    have hinside :
        insideBrackets? ('[' :: (ipv6Chars pieces ++ [']'])) = some (ipv6Chars pieces) := by
      unfold insideBrackets?
      rw [← List.cons_append, List.getLast?_concat, if_pos rfl]
      simp
    unfold read chars at hfound
    simp only [List.cons_append, hinside, readIpv6_ipv6Chars hlength hpieces] at hfound
    cases hfound
    rfl

/-! ## Hosts in authorities -/

/-- Whether a character of an authority goes with the host: it ends neither the user nor the
authority, and is no margin. -/
def isHostSign (c : Char) : Bool := c ≠ '@' && !endsAuthority true c && !isMargin c

theorem isHostSign_of_isSettled {c : Char} (hc : isSettled c) : isHostSign c := by
  have hslash := ne_of_isSettled (d := '/') hc (by decide)
  have hquestion := ne_of_isSettled (d := '?') hc (by decide)
  have hhash := ne_of_isSettled (d := '#') hc (by decide)
  have hbackslash := ne_of_isSettled (d := '\\') hc (by decide)
  have hat := ne_of_isSettled (d := '@') hc (by decide)
  simp [isHostSign, endsAuthority, isMargin_of_isSettled hc, hslash, hquestion, hhash, hbackslash,
    hat]

theorem mem_ipv6Chars {pieces : List Nat} {c : Char} (h : c ∈ ipv6Chars pieces) :
    c = ':' ∨ isSettled c := by
  have hside {pieces : List Nat} (h : c ∈ sideChars pieces) : c = ':' ∨ isSettled c := by
    rcases mem_intercalate h with h | ⟨part, hpart, h⟩
    · exact .inl h
    · obtain ⟨n, -, rfl⟩ := List.mem_map.1 hpart
      obtain ⟨d, hd, rfl⟩ := mem_toDigits (by decide) h
      exact .inr (isSettled_digitChar hd)
  unfold ipv6Chars at h
  simp only at h
  split at h
  · exact hside h
  · rcases List.mem_append.1 h with h | h
    · rcases List.mem_append.1 h with h | h
      · exact hside h
      · exact .inl (by simpa using h)
    · exact hside h

/-- How far a host without colons and brackets goes. -/
theorem hostLength_append {cs : List Char} (h : ∀ c ∈ cs, isSettled c) (rest : List Char) :
    hostLength false (cs ++ rest) = cs.length + hostLength false rest := by
  induction cs with
  | nil => simp
  | cons c cs ih =>
    obtain ⟨hc, hcs⟩ := List.forall_mem_cons.1 h
    have hcolon := ne_of_isSettled (d := ':') hc (by decide)
    have hbracket := ne_of_isSettled (d := '[') hc (by decide)
    simp [hostLength, hcolon, hbracket, ih hcs]
    omega

/-- Inside brackets colons do not end a host. -/
theorem hostLength_inside {cs : List Char} (h : ']' ∉ cs) (rest : List Char) :
    hostLength true (cs ++ ']' :: rest) = cs.length + 1 + hostLength false rest := by
  induction cs with
  | nil => simp [hostLength, Nat.add_comm]
  | cons c cs ih =>
    rw [List.mem_cons, not_or] at h
    simp [hostLength, Ne.symm h.1, ih h.2]
    omega

namespace WasRead

variable {host : Host}

theorem isHostSign (h : WasRead host) : ∀ c ∈ host.chars, isHostSign c := by
  cases h with
  | domain htexts => exact fun c hc => isHostSign_of_isSettled (isSettled_nameOf htexts c hc)
  | ipv4 => exact fun c hc => isHostSign_of_isSettled (isSettled_ipv4Chars _ c hc)
  | ipv6 =>
    intro c hc
    rcases List.mem_append.1 hc with hc | hc
    · rcases List.mem_cons.1 hc with rfl | hc
      · decide
      · rcases mem_ipv6Chars hc with rfl | hc
        · decide
        · exact isHostSign_of_isSettled hc
    · rw [List.mem_singleton.1 hc]
      decide

theorem chars_ne_nil (h : WasRead host) : host.chars ≠ [] := by
  cases h with
  | domain htexts hname => exact hname
  | ipv4 => exact ipv4Chars_ne_nil _
  | ipv6 => exact List.cons_ne_nil _ _

/-- A host ends where its port begins. -/
theorem hostLength_chars (h : WasRead host) (rest : List Char) :
    hostLength false (host.chars ++ rest) = host.chars.length + hostLength false rest := by
  cases h with
  | domain htexts => exact hostLength_append (isSettled_nameOf htexts) rest
  | ipv4 => exact hostLength_append (isSettled_ipv4Chars _) rest
  | @ipv6 pieces =>
    have hbracket : ']' ∉ ipv6Chars pieces := by
      intro hmem
      rcases mem_ipv6Chars hmem with heq | hsettled
      · cases heq
      · exact ne_of_isSettled hsettled (by decide) rfl
    have hinside := hostLength_inside hbracket rest
    simp only [chars, List.cons_append, List.append_assoc, hostLength]
    simp
    omega

end WasRead

end Host

end MetaCache.Url
