import MetaCache.Proofs.Json.Decoding
import MetaCache.Proofs.Remote.Paths
import MetaCache.Proofs.Store.Codec

/-!
# How guids are spelled

A guid is spelled by 32 hexadecimal digits in either case: alone, in groups with hyphens between
them, or so and between braces or behind `urn:uuid:`, whose letters may be in either case as well
(`Spells`). Nothing else spells a guid (`ofText?_eq_some_iff`). The digits tell which guid it is,
whatever the form and the case (`HasDigits.eq_iff`).
-/

namespace MetaCache

open MetaCache.Text

/-! ## Digits in either case -/

/-- The character is one of those from `low` to `high`. -/
def IsBetween (low high c : Char) : Prop := low.toNat ≤ c.toNat ∧ c.toNat ≤ high.toNat

instance (low high : Char) : DecidablePred (IsBetween low high) := fun c =>
  inferInstanceAs (Decidable (low.toNat ≤ c.toNat ∧ c.toNat ≤ high.toNat))

/-- A hexadecimal digit in either case. -/
def IsHexDigit (c : Char) : Prop :=
  IsBetween '0' '9' c ∨ IsBetween 'a' 'f' c ∨ IsBetween 'A' 'F' c

instance : DecidablePred IsHexDigit := fun c =>
  inferInstanceAs (Decidable (IsBetween '0' '9' c ∨ IsBetween 'a' 'f' c ∨ IsBetween 'A' 'F' c))

namespace Text

theorem toLower_of_le {c : Char} (h : 0x80 ≤ c.toNat) : c.toLower = c := by
  refine dif_neg fun hupper => ?_
  have hle : c.val.toNat ≤ 0x5a := UInt32.le_iff_toNat_le.1 hupper.2
  exact absurd (Nat.le_trans h hle) (by decide)

theorem not_isHexDigit_of_le {c : Char} (h : 0x80 ≤ c.toNat) : ¬ IsHexDigit c := by
  have hgt {k : Char} (hk : k.toNat < 0x80) : ¬ c.toNat ≤ k.toNat := fun hle =>
    absurd (Nat.le_trans h hle) (Nat.not_le.2 hk)
  rintro (⟨-, hle⟩ | ⟨-, hle⟩ | ⟨-, hle⟩) <;> exact hgt (by decide) hle

theorem hexChar_ne_of_le {c : Char} (h : 0x80 ≤ c.toNat) (d : Fin 16) : c ≠ hexChar d := fun heq =>
  absurd (heq ▸ h) (Nat.not_le.2 (hexChar_ascii d))

/-- **A digit is known by its lowercase letter.** -/
theorem hexValue?_eq_some_iff {c : Char} {d : Fin 16} :
    hexValue? c = some d ↔ c.toLower = hexChar d := by
  rcases Nat.lt_or_ge c.toNat 0x80 with hc | hc
  · have hall : ∀ n < 0x80, ∀ d,
        hexValue? (Char.ofNat n) = some d ↔ (Char.ofNat n).toLower = hexChar d := by
      decide +kernel
    rw [← Char.ofNat_toNat c]
    exact hall _ hc d
  · rw [toLower_of_le hc]
    exact iff_of_false (fun h => absurd (Json.hexValue?_lt h) (Nat.not_lt.2 hc))
      (hexChar_ne_of_le hc d)

theorem isHexDigit_iff {c : Char} : IsHexDigit c ↔ ∃ d, c.toLower = hexChar d := by
  rcases Nat.lt_or_ge c.toNat 0x80 with hc | hc
  · have hall : ∀ n < 0x80, IsHexDigit (Char.ofNat n)
        ↔ ∃ d, (Char.ofNat n).toLower = hexChar d := by decide +kernel
    rw [← Char.ofNat_toNat c]
    exact hall _ hc
  · rw [toLower_of_le hc]
    exact iff_of_false (not_isHexDigit_of_le hc) fun ⟨d, hd⟩ => hexChar_ne_of_le hc d hd

theorem hexChar_injective : Function.Injective hexChar := by
  intro d e h
  have hread := hexValue?_hexChar d
  rw [h, hexValue?_hexChar] at hread
  exact (Option.some.inj hread).symm

end Text

/-! ## Places of spellings -/

namespace Spelling

/-- Writes characters into the places of digits, hyphens into the others. -/
def place : Spelling → List Char → List Char
  | [], _ => []
  | .digit :: slots, c :: cs => c :: place slots cs
  | .digit :: slots, [] => place slots []
  | .hyphen :: slots, cs => '-' :: place slots cs

theorem fill_eq_place : ∀ (slots : Spelling) (digits : List (Fin 16)),
    slots.fill digits = slots.place (digits.map hexChar)
  | [], _ => rfl
  | .digit :: slots, d :: digits => by rw [fill, List.map_cons, place, fill_eq_place slots digits]
  | .digit :: slots, [] => by rw [fill, List.map_nil, place, fill_eq_place slots []]; rfl
  | .hyphen :: slots, digits => by rw [fill, place, fill_eq_place slots digits]

/-- A group of digits takes as many characters. -/
theorem place_group {n : Nat} {cs : List Char} (h : n ≤ cs.length) (slots : Spelling) :
    place (List.replicate n .digit ++ slots) cs = cs.take n ++ place slots (cs.drop n) := by
  induction n generalizing cs with
  | zero => rfl
  | succ n ih =>
    cases cs with
    | nil => simp at h
    | cons c cs =>
      have hn : n ≤ cs.length := by simpa using h
      rw [List.replicate_succ, List.cons_append, place, ih hn]
      rfl

/-- What is written into the places is read from them. -/
theorem read_place : ∀ {slots : Spelling} {cs : List Char} {digits : List (Fin 16)},
    cs.map Char.toLower = digits.map hexChar → digits.length = slots.count .digit →
    slots.read (slots.place cs) = some digits
  | [], _, digits, _, hlength => by
    rw [List.eq_nil_of_length_eq_zero hlength]
    rfl
  | .digit :: slots, _, [], _, hlength => by simp at hlength
  | .digit :: slots, [], _ :: _, h, _ => by simp at h
  | .digit :: slots, c :: cs, d :: digits, h, hlength => by
    obtain ⟨hc, hcs⟩ := List.cons.inj h
    have hlength' : digits.length = slots.count .digit := by simpa using hlength
    simp [place, read, hexValue?_eq_some_iff.2 hc, read_place hcs hlength']
  | .hyphen :: slots, cs, digits, h, hlength => by
    have hlength' : digits.length = slots.count .digit := by simpa using hlength
    simp [place, read, read_place h hlength']

/-- Only what is written into the places is read from them. -/
theorem exists_place_of_read : ∀ {slots : Spelling} {chars : List Char} {digits : List (Fin 16)},
    slots.read chars = some digits →
    ∃ cs, cs.map Char.toLower = digits.map hexChar ∧ chars = slots.place cs
  | [], [], _, h => by
    cases h
    exact ⟨[], rfl, rfl⟩
  | [], _ :: _, _, h => by cases h
  | .digit :: _, [], _, h => by cases h
  | .hyphen :: _, [], _, h => by cases h
  | .digit :: slots, c :: chars, digits, h => by
    simp only [read, Option.bind_eq_bind, Option.bind_eq_some_iff, Option.pure_def,
      Option.some.injEq] at h
    obtain ⟨d, hd, rest, hrest, rfl⟩ := h
    obtain ⟨cs, hcs, rfl⟩ := exists_place_of_read hrest
    exact ⟨c :: cs, congrArg₂ _ (hexValue?_eq_some_iff.1 hd) hcs, rfl⟩
  | .hyphen :: slots, c :: chars, digits, h => by
    rw [read] at h
    split at h
    · next hc =>
      obtain ⟨cs, hcs, rfl⟩ := exists_place_of_read h
      exact ⟨cs, hcs, hc ▸ rfl⟩
    · cases h

end Spelling

/-! ## Forms -/

namespace Guid

/-- The characters are the digits of a guid in either case. -/
def HasDigits (g : Guid) (digits : List Char) : Prop :=
  digits.map Char.toLower = g.digits.map hexChar

/-- Digits in groups with hyphens between them. -/
def hyphenate (digits : List Char) : List Char :=
  digits.take 8 ++ '-' :: ((digits.drop 8).take 4 ++ '-' :: ((digits.drop 12).take 4 ++
    '-' :: ((digits.drop 16).take 4 ++ '-' :: digits.drop 20)))

/-- What a text is that spells a guid by some digits. -/
inductive Spells (digits : List Char) : List Char → Prop
  | simple : Spells digits digits
  | hyphenated : Spells digits (hyphenate digits)
  | braced : Spells digits ('\x7b' :: hyphenate digits ++ ['\x7d'])
  | urn {lead : List Char} (h : lead.map Char.toLower = urnLead) :
    Spells digits (lead ++ hyphenate digits)

theorem place_simple {digits : List Char} (h : digits.length = 32) :
    Spelling.simple.place digits = digits := by
  have hplaces : Spelling.simple = List.replicate 32 .digit ++ [] := rfl
  rw [hplaces, Spelling.place_group (by omega), ← h, List.take_length]
  exact List.append_nil digits

theorem place_hyphenated {digits : List Char} (h : digits.length = 32) :
    Spelling.hyphenated.place digits = hyphenate digits := by
  have hplaces : Spelling.hyphenated = List.replicate 8 .digit ++ .hyphen ::
      (List.replicate 4 .digit ++ .hyphen :: (List.replicate 4 .digit ++ .hyphen ::
        (List.replicate 4 .digit ++ .hyphen :: List.replicate 12 .digit))) := rfl
  have hlast : Spelling.place (List.replicate 12 .digit) (digits.drop 20) = digits.drop 20 := by
    have hrest : 12 ≤ (digits.drop 20).length := by simp [h]
    have hgroup := Spelling.place_group hrest []
    rwa [List.take_of_length_le (by simp [h]), List.append_nil, Spelling.place,
      List.append_nil] at hgroup
  simp (disch := simp [h]) only [hplaces, Spelling.place_group, Spelling.place, List.drop_drop,
    hyphenate, Nat.reduceAdd, hlast]

theorem HasDigits.length {g : Guid} {digits : List Char} (h : g.HasDigits digits) :
    digits.length = 32 := by
  have hlength := congrArg List.length h
  rwa [List.length_map, List.length_map, g.size] at hlength

/-- What the digits of some places spell. -/
theorem bareDigits?_eq_some_iff {places : Spelling} (h : places.count .digit = 32)
    {chars : List Char} {g : Guid} :
    bareDigits? places chars = some g
      ↔ ∃ digits, g.HasDigits digits ∧ chars = places.place digits := by
  constructor
  · intro hg
    unfold bareDigits? at hg
    split at hg
    · next ds hread =>
      rw [dif_pos h] at hg
      obtain rfl := Option.some.inj hg
      exact Spelling.exists_place_of_read hread
    · cases hg
  · rintro ⟨digits, hdigits, rfl⟩
    have hread := Spelling.read_place hdigits (g.size.trans h.symm)
    unfold bareDigits?
    split
    · next ds hds =>
      obtain rfl := Option.some.inj (hread.symm.trans hds)
      rw [dif_pos h]
    · next hnone =>
      rw [hread] at hnone
      cases hnone

theorem bareDigits?_simple {chars : List Char} {g : Guid} :
    bareDigits? Spelling.simple chars = some g ↔ g.HasDigits chars := by
  rw [bareDigits?_eq_some_iff (by decide)]
  constructor
  · rintro ⟨digits, hdigits, rfl⟩
    rwa [place_simple hdigits.length]
  · intro h
    exact ⟨chars, h, (place_simple h.length).symm⟩

theorem bareDigits?_hyphenated {chars : List Char} {g : Guid} :
    bareDigits? Spelling.hyphenated chars = some g
      ↔ ∃ digits, g.HasDigits digits ∧ chars = hyphenate digits := by
  rw [bareDigits?_eq_some_iff (by decide)]
  refine exists_congr fun digits => and_congr_right fun hdigits => ?_
  rw [place_hyphenated hdigits.length]

theorem length_hyphenate {digits : List Char} (h : digits.length = 32) :
    (hyphenate digits).length = 36 := by
  simp [hyphenate, h]

theorem bareDigits?_simple_of_length {chars : List Char} (h : chars.length ≠ 32) :
    bareDigits? Spelling.simple chars = none :=
  Option.eq_none_iff_forall_ne_some.2 fun _ hg => h (bareDigits?_simple.1 hg).length

theorem bareDigits?_hyphenated_of_length {chars : List Char} (h : chars.length ≠ 36) :
    bareDigits? Spelling.hyphenated chars = none := by
  refine Option.eq_none_iff_forall_ne_some.2 fun g hg => ?_
  obtain ⟨digits, hdigits, rfl⟩ := bareDigits?_hyphenated.1 hg
  exact h (length_hyphenate hdigits.length)

/-- What begins a urn does not begin with a brace. -/
theorem head?_ne_of_urnLead {lead : List Char} (h : lead.map Char.toLower = urnLead)
    (more : List Char) : (lead ++ more).head? ≠ some '\x7b' := by
  cases lead with
  | nil => cases h
  | cons c lead =>
    intro hc
    rw [List.cons_append, List.head?_cons, Option.some.injEq] at hc
    subst hc
    exact absurd (List.cons.inj h).1 (by decide)

theorem ofChars?_of_spells {g : Guid} {digits chars : List Char} (hdigits : g.HasDigits digits)
    (h : Spells digits chars) : ofChars? chars = some g := by
  have hlength := length_hyphenate hdigits.length
  have hhyphenated : bareDigits? Spelling.hyphenated (hyphenate digits) = some g :=
    bareDigits?_hyphenated.2 ⟨digits, hdigits, rfl⟩
  unfold ofChars?
  cases h with
  | simple => simp only [bareDigits?_simple.2 hdigits]
  | hyphenated =>
    rw [bareDigits?_simple_of_length (hlength ▸ by decide), hhyphenated]
  | braced =>
    have hlong : ('\x7b' :: hyphenate digits ++ ['\x7d']).length = 38 := by simp [hlength]
    rw [bareDigits?_simple_of_length (hlong ▸ by decide),
      bareDigits?_hyphenated_of_length (hlong ▸ by decide)]
    dsimp only
    rw [if_pos ⟨rfl, List.getLast?_concat⟩, List.cons_append, List.drop_one, List.tail_cons,
      List.dropLast_concat, hhyphenated]
  | @urn lead hlead =>
    have hsize : lead.length = urnLead.length := by simpa using congrArg List.length hlead
    have hlong : (lead ++ hyphenate digits).length = 45 := by
      rw [List.length_append, hlength, hsize]
      rfl
    rw [bareDigits?_simple_of_length (hlong ▸ by decide),
      bareDigits?_hyphenated_of_length (hlong ▸ by decide)]
    dsimp only
    rw [if_neg fun hbraces => head?_ne_of_urnLead hlead _ hbraces.1, List.take_left' hsize,
      if_pos hlead, List.drop_left' hsize, hhyphenated]

theorem spells_of_ofChars? {g : Guid} {chars : List Char} (h : ofChars? chars = some g) :
    ∃ digits, g.HasDigits digits ∧ Spells digits chars := by
  unfold ofChars? at h
  split at h
  · next g' hsimple =>
    cases h
    exact ⟨chars, bareDigits?_simple.1 hsimple, .simple⟩
  split at h
  · next g' hhyphenated =>
    cases h
    obtain ⟨digits, hdigits, rfl⟩ := bareDigits?_hyphenated.1 hhyphenated
    exact ⟨digits, hdigits, .hyphenated⟩
  split at h
  · next hbraces =>
    obtain ⟨digits, hdigits, hinside⟩ := bareDigits?_hyphenated.1 h
    refine ⟨digits, hdigits, ?_⟩
    obtain ⟨inside, rfl⟩ := List.head?_eq_some_iff.1 hbraces.1
    rw [List.drop_one, List.tail_cons] at hinside
    rcases List.eq_nil_or_concat inside with rfl | ⟨front, last, rfl⟩
    · exact absurd (congrArg List.length hinside) (by simp [length_hyphenate hdigits.length])
    · rw [List.concat_eq_append] at hinside hbraces ⊢
      rw [List.dropLast_concat] at hinside
      rw [← List.cons_append, List.getLast?_concat] at hbraces
      rw [hinside, Option.some.inj hbraces.2]
      exact .braced
  split at h
  · next hlead =>
    obtain ⟨digits, hdigits, hrest⟩ := bareDigits?_hyphenated.1 h
    refine ⟨digits, hdigits, ?_⟩
    rw [← List.take_append_drop urnLead.length chars, hrest]
    exact .urn hlead
  · cases h

/-- **The forms are all that spells a guid.** -/
theorem ofText?_eq_some_iff {raw : String} {g : Guid} :
    ofText? raw = some g ↔ ∃ digits, g.HasDigits digits ∧ Spells digits raw.toList :=
  ⟨spells_of_ofChars?, fun ⟨_, hdigits, h⟩ => ofChars?_of_spells hdigits h⟩

/-! ## Digits of guids -/

/-- As many hexadecimal digits as a guid has. -/
structure IsDigits (digits : List Char) : Prop where
  size : digits.length = 32
  hex : ∀ c ∈ digits, IsHexDigit c

instance (digits : List Char) : Decidable (IsDigits digits) :=
  decidable_of_iff (digits.length = 32 ∧ digits.all fun c => decide (IsHexDigit c))
    ⟨fun ⟨size, hex⟩ => ⟨size, by simpa using hex⟩, fun h => ⟨h.size, by simpa using h.hex⟩⟩

theorem HasDigits.isDigits {g : Guid} {digits : List Char} (h : g.HasDigits digits) :
    IsDigits digits where
  size := h.length
  hex c hc := by
    have hmem : c.toLower ∈ digits.map Char.toLower := List.mem_map_of_mem hc
    rw [HasDigits] at h
    rw [h, List.mem_map] at hmem
    obtain ⟨d, -, hd⟩ := hmem
    exact isHexDigit_iff.2 ⟨d, hd.symm⟩

theorem exists_map_hexChar {digits : List Char} (h : ∀ c ∈ digits, IsHexDigit c) :
    ∃ ds : List (Fin 16), digits.map Char.toLower = ds.map hexChar := by
  induction digits with
  | nil => exact ⟨[], rfl⟩
  | cons c digits ih =>
    obtain ⟨d, hd⟩ := isHexDigit_iff.1 (h c List.mem_cons_self)
    obtain ⟨ds, hds⟩ := ih fun c hc => h c (List.mem_cons_of_mem _ hc)
    exact ⟨d :: ds, congrArg₂ _ hd hds⟩

/-- Digits are those of a guid. -/
theorem IsDigits.exists_hasDigits {digits : List Char} (h : IsDigits digits) :
    ∃ g : Guid, g.HasDigits digits := by
  obtain ⟨ds, hds⟩ := exists_map_hexChar h.hex
  refine ⟨⟨ds, ?_⟩, hds⟩
  rw [← h.size, ← List.length_map hexChar, ← hds, List.length_map]

/-- A guid is known by its digits, whatever their case. -/
theorem HasDigits.eq_iff {g g' : Guid} {digits digits' : List Char} (h : g.HasDigits digits)
    (h' : g'.HasDigits digits') : g = g' ↔ digits.map Char.toLower = digits'.map Char.toLower := by
  rw [HasDigits] at h h'
  rw [h, h', (List.map_injective_iff.2 hexChar_injective).eq_iff]
  cases g
  cases g'
  simp

/-- The canonical text has the digits in lowercase, in groups. -/
theorem HasDigits.text {g : Guid} {digits : List Char} (h : g.HasDigits digits) :
    g.text.toList = hyphenate (digits.map Char.toLower) := by
  have hlength : (digits.map Char.toLower).length = 32 := by rw [List.length_map, h.length]
  rw [Guid.text, String.toList_ofList, chars, Spelling.fill_eq_place, ← h, place_hyphenated hlength]

end Guid

end MetaCache
