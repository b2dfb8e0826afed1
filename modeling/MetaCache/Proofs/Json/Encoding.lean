import MetaCache.Json.Decode
import MetaCache.Proofs.Json.Quoted
import Mathlib.Data.List.TakeWhile

/-!
# Strings are read from texts only

Readers look at bytes one by one, and outside of strings every byte they take is one of ASCII.
Inside a string others pass unseen; only what the string stands for is checked in the end. That is
enough: an escape is ASCII, what it stands for is a character, and between escapes the string stands
for its own bytes. So where a string is read, its bytes are UTF-8 (`text_takesText`).
-/

namespace MetaCache

open MetaCache.Text

/-! ## Characters inside bytes -/

namespace Text

/-- The bytes are those of characters. -/
def IsUtf8 (bytes : List UInt8) : Prop := ∃ cs, bytes = utf8 cs

theorem isUtf8_utf8 (cs : List Char) : IsUtf8 (utf8 cs) := ⟨cs, rfl⟩

theorem IsUtf8.append {front rest : List UInt8} (h : IsUtf8 front) (hrest : IsUtf8 rest) :
    IsUtf8 (front ++ rest) := by
  obtain ⟨cs, rfl⟩ := h
  obtain ⟨ds, rfl⟩ := hrest
  exact ⟨cs ++ ds, (utf8_append cs ds).symm⟩

theorem singleton_eq_utf8EncodeChar {b : UInt8} (h : b < 0x80) :
    [b] = String.utf8EncodeChar (Char.ofNat b.toNat) := by
  rw [utf8EncodeChar_of_toNat (Json.toNat_charOfByte b) (UInt8.lt_iff_toNat_lt.1 h),
    UInt8.ofNat_toNat]

theorem isUtf8_of_ascii {bytes : List UInt8} (h : ∀ b ∈ bytes, b < 0x80) : IsUtf8 bytes := by
  induction bytes with
  | nil => exact isUtf8_utf8 []
  | cons b bytes ih =>
    obtain ⟨cs, hcs⟩ := ih fun b hb => h b (List.mem_cons_of_mem _ hb)
    refine ⟨Char.ofNat b.toNat :: cs, ?_⟩
    rw [utf8_cons, ← singleton_eq_utf8EncodeChar (h b List.mem_cons_self), hcs]
    rfl

/-- The first character is known by the bytes. -/
theorem eq_of_utf8EncodeChar_append {c d : Char} {rest more : List UInt8}
    (h : String.utf8EncodeChar c ++ rest = String.utf8EncodeChar d ++ more) :
    c = d ∧ rest = more := by
  have hbytes := congrArg List.toByteArray h
  rw [List.toByteArray_append, List.toByteArray_append] at hbytes
  have hread : some c = some d := by
    rw [← ByteArray.utf8DecodeChar?_utf8EncodeChar_append (b := rest.toByteArray), hbytes,
      ByteArray.utf8DecodeChar?_utf8EncodeChar_append]
  obtain rfl := Option.some.inj hread
  exact ⟨rfl, List.append_cancel_left h⟩

/-- No character begins inside another one. -/
theorem ne_utf8EncodeChar_inside {c d : Char} {b e : UInt8} {front more rest behind : List UInt8}
    (hd : String.utf8EncodeChar d = b :: front ++ e :: more) :
    String.utf8EncodeChar c ++ rest ≠ e :: more ++ behind := by
  intro hc
  have hinside : ¬ e.IsUTF8FirstByte := by
    have hlt : front.length + 1 < (String.utf8EncodeChar d).length := by
      rw [hd]
      simp
    have he : (String.utf8EncodeChar d)[front.length + 1] = e := by simp [hd]
    rw [← he, UInt8.isUTF8FirstByte_getElem_utf8EncodeChar]
    exact Nat.succ_ne_zero _
  have hpos : 0 < (String.utf8EncodeChar c).length := by simp [c.utf8Size_pos]
  have hfirst : (String.utf8EncodeChar c)[0] = e := by
    have hhead := congrArg List.head? hc
    obtain ⟨k, ks, hks⟩ := List.exists_cons_of_ne_nil (String.utf8EncodeChar_ne_nil (c := c))
    simp only [hks, List.cons_append, List.head?_cons, Option.some.injEq] at hhead
    simp [hks, hhead]
  exact hinside (hfirst ▸ UInt8.isUTF8FirstByte_getElem_zero_utf8EncodeChar)

/-- **Where the bytes of a character stand in a text, a text stands before and behind them.** -/
theorem exists_around_of_utf8 {c : Char} {rest : List UInt8} :
    ∀ {cs : List Char} {front : List UInt8}, utf8 cs = front ++ (String.utf8EncodeChar c ++ rest) →
      IsUtf8 front ∧ IsUtf8 rest
  | [], front, h => by
    have hnil := (List.append_eq_nil_iff.1 (List.append_eq_nil_iff.1 h.symm).2).1
    exact absurd hnil String.utf8EncodeChar_ne_nil
  | d :: cs, [], h => by
    rw [utf8_cons, List.nil_append] at h
    exact ⟨isUtf8_utf8 [], cs, (eq_of_utf8EncodeChar_append h).2.symm⟩
  | d :: cs, b :: front, h => by
    rw [utf8_cons] at h
    rcases List.append_eq_append_iff.1 h with ⟨more, hfront, hcs⟩ | ⟨more, hd, hrest⟩
    · obtain ⟨hmore, hbehind⟩ := exists_around_of_utf8 hcs
      rw [hfront]
      exact ⟨.append ⟨[d], by simp [utf8_cons]⟩ hmore, hbehind⟩
    · cases more with
      | nil =>
        rw [List.append_nil] at hd
        have hbehind : utf8 cs = [] ++ (String.utf8EncodeChar c ++ rest) := hrest.symm
        exact ⟨⟨[d], by simp [utf8_cons, hd]⟩, (exists_around_of_utf8 hbehind).2⟩
      | cons e more => exact absurd hrest (ne_utf8EncodeChar_inside hd)

theorem IsUtf8.around {c : Char} {front rest : List UInt8}
    (h : IsUtf8 (front ++ (String.utf8EncodeChar c ++ rest))) : IsUtf8 front ∧ IsUtf8 rest := by
  obtain ⟨cs, hcs⟩ := h
  exact exists_around_of_utf8 hcs.symm

end Text

namespace Json

/-! ## Strings -/

/-- What a string stands for is UTF-8 behind the same bytes as the string itself. -/
def StandsFor (taken more : List UInt8) : Prop :=
  ∀ front, IsUtf8 (front ++ more) → IsUtf8 (front ++ taken)

namespace StandsFor

theorem close : StandsFor [0x22] [] := fun front h => by
  rw [List.append_nil] at h
  exact h.append (isUtf8_of_ascii (List.forall_mem_singleton.2 (by decide)))

/-- A byte that stands for itself. -/
theorem plain {b : UInt8} {taken more : List UInt8} (h : StandsFor taken more) :
    StandsFor (b :: taken) (b :: more) := fun front hmore => by
  rw [List.append_cons] at hmore ⊢
  exact h _ hmore

/-- An escape that stands for a character. -/
theorem escape {c : Char} {escaped taken more : List UInt8} (hescaped : ∀ b ∈ escaped, b < 0x80)
    (h : StandsFor taken more) : StandsFor (escaped ++ taken) (String.utf8EncodeChar c ++ more) :=
  fun front hmore => by
    obtain ⟨hfront, hrest⟩ := hmore.around
    exact hfront.append ((isUtf8_of_ascii hescaped).append (h [] hrest))

end StandsFor

theorem lt_of_letterEscape? {e b : UInt8} (h : letterEscape? e = some b) : b < 0x80 := by
  unfold letterEscape? at h
  split_ifs at h <;> cases h <;> decide

theorem codeUnit?_ascii {b₁ b₂ b₃ b₄ : UInt8} {n : Nat} (h : codeUnit? b₁ b₂ b₃ b₄ = some n) :
    b₁ < 0x80 ∧ b₂ < 0x80 ∧ b₃ < 0x80 ∧ b₄ < 0x80 := by
  simp only [codeUnit?, Option.bind_eq_bind, Option.bind_eq_some_iff] at h
  obtain ⟨_, h₁, _, h₂, _, h₃, _, h₄, -⟩ := h
  exact ⟨lt_of_hexValue? h₁, lt_of_hexValue? h₂, lt_of_hexValue? h₃, lt_of_hexValue? h₄⟩

theorem stringContent_standsFor {n : Nat} : ∀ {bytes : List UInt8}, bytes.length < n →
    ∀ {p : Position} {done result : List UInt8} {i : Input},
      stringContent bytes p done = .done result i → ∃ taken more, bytes = taken ++ i.ahead
        ∧ result = done.reverse ++ more ∧ StandsFor taken more := by
  induction n with
  | zero => exact fun h => absurd h (Nat.not_lt_zero _)
  | succ n ih =>
    intro bytes hn p done result i hdone
    cases bytes with
    | nil => cases hdone
    | cons b tail =>
      by_cases hslash : b = 0x5c
      · subst hslash
        rcases stringContent_escape hdone with
          ⟨e, b, rest, p', rfl, hb, hmore⟩ | ⟨b₁, b₂, b₃, b₄, k, rest, p', rfl, hk, -, -, hmore⟩
            | ⟨b₁, b₂, b₃, b₄, k, c₁, c₂, c₃, c₄, m, rest, p', rfl, hk, -, -, hm, -, hmore⟩
        · have hlt : rest.length < n := by simp only [List.length_cons] at hn; omega
          obtain ⟨taken, more, hrest, hresult, h⟩ := ih hlt hmore
          refine ⟨[0x5c, e] ++ taken, String.utf8EncodeChar (Char.ofNat b.toNat) ++ more, ?_, ?_,
            h.escape (by simpa using letterEscape?_lt hb)⟩
          · rw [hrest, List.append_assoc]
            rfl
          · rw [hresult, ← singleton_eq_utf8EncodeChar (lt_of_letterEscape? hb)]
            simp
        · have hlt : rest.length < n := by simp only [List.length_cons] at hn; omega
          obtain ⟨taken, more, hrest, hresult, h⟩ := ih hlt hmore
          refine ⟨[0x5c, 0x75, b₁, b₂, b₃, b₄] ++ taken,
            String.utf8EncodeChar (Char.ofNat k) ++ more, ?_, ?_,
            h.escape (by simpa using codeUnit?_ascii hk)⟩
          · rw [hrest, List.append_assoc]
            rfl
          · rw [hresult, codePointReversed_eq]
            simp
        · have hlt : rest.length < n := by simp only [List.length_cons] at hn; omega
          obtain ⟨taken, more, hrest, hresult, h⟩ := ih hlt hmore
          obtain ⟨h₁, h₂, h₃, h₄⟩ := codeUnit?_ascii hk
          refine ⟨[0x5c, 0x75, b₁, b₂, b₃, b₄, 0x5c, 0x75, c₁, c₂, c₃, c₄] ++ taken,
            String.utf8EncodeChar (Char.ofNat (joinSurrogates k m)) ++ more, ?_, ?_,
            h.escape (by simpa [h₁, h₂, h₃, h₄] using codeUnit?_ascii hm)⟩
          · rw [hrest, List.append_assoc]
            rfl
          · rw [hresult, codePointReversed_eq]
            simp
      rw [stringContent.eq_def] at hdone
      simp only [if_neg hslash] at hdone
      split at hdone
      · next hquote =>
        cases hdone
        exact ⟨[b], [], rfl, (List.append_nil _).symm, hquote ▸ .close⟩
      split at hdone
      · cases hdone
      · obtain ⟨taken, more, rfl, rfl, h⟩ := ih (Nat.lt_of_succ_lt_succ hn) hdone
        exact ⟨b :: taken, b :: more, rfl, by simp, h.plain⟩

/-! ## Readers -/

namespace Reader

variable {α β : Type}

/-- What the reader takes is UTF-8. -/
def TakesText (r : Reader α) : Prop :=
  ∀ {i : Input} {a : α} {mid : Input}, r i = .done a mid →
    ∃ taken, IsUtf8 taken ∧ i.ahead = taken ++ mid.ahead

namespace TakesText

theorem pure (a : α) : TakesText (Pure.pure a) := fun h => by
  cases h
  exact ⟨[], isUtf8_utf8 [], rfl⟩

theorem bind {r : Reader α} {f : α → Reader β} (hr : TakesText r) (hf : ∀ a, TakesText (f a)) :
    TakesText (r >>= f) := fun h => by
  rw [bind_apply] at h
  split at h
  · next a mid hread =>
    obtain ⟨taken, htaken, heq⟩ := hr hread
    obtain ⟨more, hmore, hrest⟩ := hf a h
    exact ⟨taken ++ more, htaken.append hmore, by rw [heq, hrest, List.append_assoc]⟩
  · cases h

theorem mismatch (what : Mismatch) : TakesText (Reader.mismatch (α := α) what) := fun h => by
  cases h

end TakesText

/-- Where there is no blank ahead any more, nothing else is taken. -/
theorem nextSign_eq (i : Input) : nextSign i = .done (i.ahead.dropWhile isBlank).head?
    ⟨i.ahead.dropWhile isBlank, i.position.afterAll (i.ahead.takeWhile isBlank)⟩ := rfl

theorem isUtf8_blanks (bytes : List UInt8) : IsUtf8 (bytes.takeWhile isBlank) :=
  isUtf8_of_ascii fun b hb => by
    have hblank := List.mem_takeWhile_imp hb
    simp only [isBlank, Bool.or_eq_true, decide_eq_true_eq] at hblank
    rcases hblank with ((rfl | rfl) | rfl) | rfl <;> decide

theorem startOfValue_ahead {i mid : Input} {b : UInt8} (h : startOfValue i = .done b mid) :
    ∃ blanks tail, IsUtf8 blanks ∧ i.ahead = blanks ++ b :: tail ∧ mid.ahead = b :: tail := by
  rw [startOfValue, bind_apply, nextSign_eq] at h
  cases hahead : i.ahead.dropWhile isBlank with
  | nil =>
    rw [hahead] at h
    cases h
  | cons b' tail =>
    rw [hahead] at h
    cases h
    refine ⟨i.ahead.takeWhile isBlank, tail, isUtf8_blanks _, ?_, rfl⟩
    rw [← hahead, List.takeWhile_append_dropWhile]

/-- Where a document ends, only blanks are left. -/
theorem isUtf8_of_finish {i mid : Input} (h : finish i = .done () mid) : IsUtf8 i.ahead := by
  rw [finish, bind_apply, nextSign_eq] at h
  cases hahead : i.ahead.dropWhile isBlank with
  | nil =>
    rw [← List.takeWhile_append_dropWhile (p := isBlank) (l := i.ahead), hahead, List.append_nil]
    exact isUtf8_blanks _
  | cons b tail =>
    rw [hahead] at h
    cases h

theorem string_takesText : TakesText string := fun {i s mid} h => by
  rw [string] at h
  split at h
  · cases h
  · next bytes after hread =>
    obtain ⟨taken, more, heq, rfl, hstands⟩ := stringContent_standsFor (Nat.lt_succ_self _) hread
    split at h
    · next hs =>
      cases h
      exact ⟨taken, hstands [] ⟨s.toList, (utf8_of_fromUTF8? hs).symm⟩, heq⟩
    · cases h

/-- **A string is read from a text only.** -/
theorem text_takesText (expected : String) : TakesText (text expected) := by
  refine fun {i s after} h => ?_
  rw [text, bind_apply] at h
  split at h
  case h_2 => cases h
  next b mid hstart =>
  obtain ⟨blanks, tail, hblanks, hahead, hmid⟩ := startOfValue_ahead hstart
  split at h
  · next hquote =>
    obtain ⟨ahead, position⟩ := mid
    obtain rfl : ahead = b :: tail := hmid
    rw [advance_bind] at h
    obtain ⟨taken, htaken, htail⟩ := string_takesText h
    have hquoted : IsUtf8 [b] :=
      isUtf8_of_ascii (List.forall_mem_singleton.2 (hquote ▸ by decide))
    refine ⟨blanks ++ [b] ++ taken, (hblanks.append hquoted).append htaken, ?_⟩
    rw [hahead, show tail = taken ++ after.ahead from htail]
    simp
  · exact (Yields.unexpected (P := fun _ => False) _ _ _ _ h).elim

end Reader

/-- A document of which only text is read is a text. -/
theorem exists_text_of_readDocument {α : Type} {r : Reader α} (hr : r.TakesText)
    {bytes : List UInt8} {a : α} (h : readDocument r bytes = .ok a) :
    ∃ text : String, bytes = bytesOf text := by
  have hutf8 : IsUtf8 bytes := by
    simp only [readDocument] at h
    split at h
    case h_2 => cases h
    next hdone =>
    rw [Reader.bind_apply] at hdone
    split at hdone
    case h_2 => cases hdone
    next mid hread =>
    rw [Reader.bind_apply] at hdone
    split at hdone
    case h_2 => cases hdone
    next hfinish =>
    obtain ⟨taken, htaken, hahead⟩ := hr hread
    rw [show bytes = taken ++ mid.ahead from hahead]
    exact htaken.append (Reader.isUtf8_of_finish hfinish)
  obtain ⟨cs, rfl⟩ := hutf8
  exact ⟨String.ofList cs, (bytesOf_ofList cs).symm⟩

end Json

end MetaCache
