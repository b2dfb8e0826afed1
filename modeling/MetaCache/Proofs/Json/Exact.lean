import MetaCache.Proofs.Json.Grammar
import MetaCache.Proofs.Json.Nesting

/-!
# Readers that end well exactly where they should

`Exact r cs R` says about the reader `r` and a text `cs` in UTF-8 that `r` ends well exactly as `R`
says, with which value and in front of which rest. Such statements are put together as readers are:
one reader after another, a case for each sign that may be next, a loop for each list.

All signs that readers look for are characters of ASCII, which are one byte. So a reader that looks
at bytes can be followed character by character (`sign_eq_iff`).
-/

namespace MetaCache.Json

open MetaCache.Text

variable {α β : Type}

/-! ## First bytes -/

/-- The first byte of a character. -/
def sign (c : Char) : UInt8 := (String.utf8EncodeChar c).head String.utf8EncodeChar_ne_nil

theorem sign_of_lt {c : Char} (h : c.toNat < 0x80) : sign c = UInt8.ofNat c.toNat := by
  simp only [sign, utf8EncodeChar_of_lt h, List.head_cons]

theorem le_sign {c : Char} (h : 0x80 ≤ c.toNat) : 0x80 ≤ sign c :=
  le_of_mem_utf8EncodeChar h (List.head_mem _)

theorem head?_utf8_cons (c : Char) (cs : List Char) : (utf8 (c :: cs)).head? = some (sign c) := by
  rw [utf8_cons, List.head?_append, List.head?_eq_some_head String.utf8EncodeChar_ne_nil]
  rfl

theorem toNat_ofNat_of_lt {n : Nat} (h : n < 0x80) : (UInt8.ofNat n).toNat = n := by
  rw [UInt8.toNat_ofNat']
  omega

/-- **A sign of ASCII is the first byte of no other character.** -/
theorem sign_eq_iff {k : Char} (hk : k.toNat < 0x80) {c : Char} :
    sign c = UInt8.ofNat k.toNat ↔ c = k := by
  constructor
  · intro h
    rcases Nat.lt_or_ge c.toNat 0x80 with hc | hc
    · have htoNat := congrArg UInt8.toNat (sign_of_lt hc ▸ h)
      rw [toNat_ofNat_of_lt hc, toNat_ofNat_of_lt hk] at htoNat
      exact Char.toNat_inj.1 htoNat
    · have hle := UInt8.le_iff_toNat_le.1 (h ▸ le_sign hc)
      rw [toNat_ofNat_of_lt hk] at hle
      exact absurd hk (Nat.not_lt.2 hle)
  · rintro rfl
    exact sign_of_lt hk

/-- A text that begins with a byte of ASCII begins with its character. -/
theorem exists_cons_of_utf8 {cs : List Char} {b : UInt8} {bytes : List UInt8}
    (h : utf8 cs = b :: bytes) (hb : b < 0x80) :
    ∃ c rest, cs = c :: rest ∧ b = UInt8.ofNat c.toNat ∧ bytes = utf8 rest := by
  cases cs with
  | nil => cases h
  | cons c rest =>
    have hsign : sign c = b := by
      have hhead := head?_utf8_cons c rest
      rw [h] at hhead
      exact (Option.some.inj hhead).symm
    rcases Nat.lt_or_ge c.toNat 0x80 with hc | hc
    · rw [utf8_cons_of_lt hc] at h
      obtain ⟨rfl, rfl⟩ := List.cons.inj h
      exact ⟨c, rest, rfl, rfl, rfl⟩
    · exact absurd hb (UInt8.not_lt.2 (hsign ▸ le_sign hc))

/-- A test of bytes that only those of ASCII pass is a test of characters. -/
theorem test_sign {p : UInt8 → Bool} {q : Char → Bool}
    (hsmall : ∀ n < 0x80, p (UInt8.ofNat n) = q (Char.ofNat n))
    (hp : ∀ b, 0x80 ≤ b → p b = false) (hq : ∀ c : Char, 0x80 ≤ c.toNat → q c = false) (c : Char) :
    p (sign c) = q c := by
  rcases Nat.lt_or_ge c.toNat 0x80 with hc | hc
  · rw [sign_of_lt hc, hsmall _ hc, Char.ofNat_toNat]
  · rw [hp _ (le_sign hc), hq c hc]

theorem isDigit_sign (c : Char) : isDigit (sign c) = c.isDigit := by
  refine test_sign (by decide) (fun b hb => ?_) (fun c hc => ?_) c
  · rw [Bool.eq_false_iff]
    intro h
    simp only [isDigit, Bool.and_eq_true, decide_eq_true_eq] at h
    exact absurd (UInt8.le_trans hb h.2) (by decide)
  · rw [Bool.eq_false_iff]
    intro h
    simp only [Char.isDigit, Bool.and_eq_true, decide_eq_true_eq] at h
    have hle : c.val.toNat ≤ 0x39 := UInt32.le_iff_toNat_le.1 h.2
    have : c.toNat = c.val.toNat := rfl
    omega

theorem isBlank_sign (c : Char) : isBlank (sign c) = isBlankChar c := by
  refine test_sign (by decide) (fun b hb => ?_) (fun c hc => ?_) c
  · have hne (k : UInt8) (hk : k < 0x80) : b ≠ k := fun heq =>
      absurd hk (UInt8.not_lt.2 (heq ▸ hb))
    simp [isBlank, hne 0x20 (by decide), hne 0x0a (by decide), hne 0x09 (by decide),
      hne 0x0d (by decide)]
  · have hne (k : Char) (hk : k.toNat < 0x80) : c ≠ k := fun heq =>
      absurd hk (Nat.not_lt.2 (heq ▸ hc))
    simp [isBlankChar, hne ' ' (by decide), hne '\n' (by decide), hne '\t' (by decide),
      hne '\r' (by decide)]

/-- What is taken of the bytes is what is taken of the characters. -/
theorem takeWhile_utf8 {p : UInt8 → Bool} {q : Char → Bool} (hpq : ∀ c, p (sign c) = q c)
    (hq : ∀ c, q c → c.toNat < 0x80) (cs : List Char) :
    (utf8 cs).takeWhile p = utf8 (cs.takeWhile q) ∧ (utf8 cs).dropWhile p = utf8 (cs.dropWhile q) := by
  induction cs with
  | nil => exact ⟨rfl, rfl⟩
  | cons c cs ih =>
    cases hc : q c with
    | true =>
      have hlt := hq c hc
      have hp : p (UInt8.ofNat c.toNat) = true := by rw [← sign_of_lt hlt, hpq, hc]
      rw [utf8_cons_of_lt hlt, List.takeWhile_cons_of_pos hp, List.dropWhile_cons_of_pos hp,
        List.takeWhile_cons_of_pos hc, List.dropWhile_cons_of_pos hc, utf8_cons_of_lt hlt, ih.1, ih.2]
      exact ⟨rfl, rfl⟩
    | false =>
      obtain ⟨b, bytes, hbytes⟩ : ∃ b bytes, utf8 (c :: cs) = b :: bytes :=
        ⟨_, _, (List.head?_eq_some_iff.1 (head?_utf8_cons c cs)).choose_spec⟩
      have hb : ¬ p b := by
        have hhead := head?_utf8_cons c cs
        rw [hbytes] at hhead
        rw [Option.some.inj hhead, hpq, hc]
        exact Bool.false_ne_true
      rw [List.takeWhile_cons_of_neg (by simp [hc]), List.dropWhile_cons_of_neg (by simp [hc]),
        hbytes, List.takeWhile_cons_of_neg hb, List.dropWhile_cons_of_neg hb]
      exact ⟨rfl, rfl⟩

theorem length_le_length_utf8 (cs : List Char) : cs.length ≤ (utf8 cs).length := by
  induction cs with
  | nil => exact Nat.le_refl _
  | cons c cs ih =>
    have := List.length_pos_iff.2 (String.utf8EncodeChar_ne_nil (c := c))
    rw [utf8_cons, List.length_append, List.length_cons]
    omega

/-! ## Exact readers -/

/-- On the text `cs` the reader ends well exactly as `R` says. -/
structure Exact (r : Reader α) (cs : List Char) (R : α → List Char → Prop) : Prop where
  sound : ∀ {p : Position} {a : α} {i : Input}, r ⟨utf8 cs, p⟩ = .done a i →
    ∃ rest, i.ahead = utf8 rest ∧ R a rest
  complete : ∀ {a : α} {rest : List Char}, R a rest → ∀ p : Position,
    ∃ p' : Position, r ⟨utf8 cs, p⟩ = .done a ⟨utf8 rest, p'⟩

namespace Exact

variable {r : Reader α} {cs : List Char} {R : α → List Char → Prop}

theorem congr {R' : α → List Char → Prop} (h : Exact r cs R) (hR : ∀ a rest, R a rest ↔ R' a rest) :
    Exact r cs R' where
  sound hdone :=
    have ⟨rest, hrest, ha⟩ := h.sound hdone
    ⟨rest, hrest, (hR _ _).1 ha⟩
  complete ha := h.complete ((hR _ _).2 ha)

/-- A reader that is another one from a later place on. -/
theorem later {r' : Reader α} {cs' : List Char} (h : Exact r' cs' R)
    (heq : ∀ p, ∃ p', r ⟨utf8 cs, p⟩ = r' ⟨utf8 cs', p'⟩) : Exact r cs R where
  sound {p} _ _ hdone := by
    obtain ⟨p', heq⟩ := heq p
    rw [heq] at hdone
    exact h.sound hdone
  complete ha p := by
    obtain ⟨p', heq⟩ := heq p
    rw [heq]
    exact h.complete ha p'

protected theorem pure (a : α) (cs : List Char) :
    Exact (pure a) cs fun b rest => b = a ∧ rest = cs where
  sound hdone := by cases hdone; exact ⟨cs, rfl, rfl, rfl⟩
  complete := by rintro _ _ ⟨rfl, rfl⟩ p; exact ⟨p, rfl⟩

/-- One reader after another. -/
theorem bind {f : α → Reader β} {S : α → List Char → β → List Char → Prop} (hr : Exact r cs R)
    (hf : ∀ a mid, R a mid → Exact (f a) mid (S a mid)) :
    Exact (r >>= f) cs fun b rest => ∃ a mid, R a mid ∧ S a mid b rest where
  sound {p b i} hdone := by
    rw [Reader.bind_apply] at hdone
    split at hdone
    · next a mid hread =>
      obtain ⟨rest, hrest, ha⟩ := hr.sound hread
      obtain ⟨ahead, position⟩ := mid
      obtain rfl : ahead = utf8 rest := hrest
      obtain ⟨rest', hrest', hb⟩ := (hf a rest ha).sound hdone
      exact ⟨rest', hrest', a, rest, ha, hb⟩
    · cases hdone
  complete := by
    rintro b rest ⟨a, mid, ha, hb⟩ p
    obtain ⟨p', hread⟩ := hr.complete ha p
    rw [Reader.bind_of_done hread]
    exact (hf a mid ha).complete hb p'

/-- What is done with the value read. -/
theorem map (hr : Exact r cs R) (f : α → β) :
    Exact (do return f (← r)) cs fun b rest => ∃ a, R a rest ∧ b = f a :=
  (hr.bind fun a mid _ => .pure (f a) mid).congr fun _ rest =>
    ⟨fun ⟨a, _, ha, hb, hmid⟩ => ⟨a, hmid ▸ ha, hb⟩, fun ⟨a, ha, hb⟩ => ⟨a, rest, ha, hb, rfl⟩⟩

/-- A reader that does not end well on the text. -/
theorem fails (h : ∀ p a i, r ⟨utf8 cs, p⟩ ≠ .done a i) : Exact r cs fun _ _ => False where
  sound hdone := (h _ _ _ hdone).elim
  complete h := h.elim

/-- A reader that never ends well. -/
theorem never (h : Yields r fun _ => False) (cs : List Char) : Exact r cs fun _ _ => False :=
  fails fun _ _ _ hdone => (h _ _ _ hdone).elim

/-- A reader by cases. -/
theorem ite {c : Prop} [Decidable c] {r' : Reader α} (ht : c → Exact r cs R)
    (he : ¬ c → Exact r' cs R) : Exact (if c then r else r') cs R := by
  split
  · next h => exact ht h
  · next h => exact he h

theorem located (h : Exact r cs R) : Exact (Reader.located r) cs R where
  sound {p a i} hdone := by
    rw [Reader.located] at hdone
    split at hdone
    · next hread => cases hdone; exact h.sound hread
    · cases hdone
  complete ha p := by
    obtain ⟨p', hread⟩ := h.complete ha p
    exact ⟨p', Reader.located_of_done hread⟩

/-- What stands between brackets. -/
theorem enclosed {close : Reader Unit} {S : List Char → List Char → Prop} (h : Exact r cs R)
    (hclose : ∀ a mid, R a mid → Exact close mid fun _ rest => S mid rest) :
    Exact (Reader.enclosed r close) cs fun a rest => ∃ mid, R a mid ∧ S mid rest where
  sound {p a i} hdone := by
    rw [Reader.enclosed] at hdone
    split at hdone
    · next a' mid hread =>
      obtain ⟨rest, hrest, ha⟩ := h.sound hread
      obtain ⟨ahead, position⟩ := mid
      obtain rfl : ahead = utf8 rest := hrest
      split at hdone
      · next hclosed =>
        cases hdone
        obtain ⟨rest', hrest', hs⟩ := (hclose _ _ ha).sound hclosed
        exact ⟨rest', hrest', rest, ha, hs⟩
      · cases hdone
    · split at hdone <;> cases hdone
  complete := by
    rintro a rest ⟨mid, ha, hs⟩ p
    obtain ⟨p', hread⟩ := h.complete ha p
    obtain ⟨p'', hclosed⟩ := (hclose a mid ha).complete (a := ()) hs p'
    exact ⟨p'', Reader.enclosed_of_done hread hclosed⟩

/-! ### Signs -/

theorem advance {c : Char} (hc : c.toNat < 0x80) {f : Unit → Reader α}
    (h : Exact (f ()) cs R) : Exact (Reader.advance >>= f) (c :: cs) R :=
  h.later fun p => ⟨_, by rw [utf8_cons_of_lt hc]; exact Reader.advance_bind f _ _ p⟩

/-- The next byte is looked at. -/
theorem peek {f : Option UInt8 → Reader α} (h : Exact (f (cs.head?.map sign)) cs R) :
    Exact (Reader.peek >>= f) cs R :=
  h.later fun p => ⟨p, by
    rw [Reader.peek_bind]
    cases cs with
    | nil => rfl
    | cons c cs =>
      show f (utf8 (c :: cs)).head? _ = _
      rw [head?_utf8_cons]
      rfl⟩

/-- The next character is taken. -/
theorem next {c : Char} (hc : c.toNat < 0x80) {f : Option UInt8 → Reader α}
    (h : Exact (f (some (sign c))) cs R) : Exact (Reader.next >>= f) (c :: cs) R :=
  h.later fun p => ⟨_, by rw [utf8_cons_of_lt hc, sign_of_lt hc]; exact Reader.next_bind f _ _ p⟩

/-- A reader that does not go on behind the next byte. -/
theorem next_never {c : Char} {f : Option UInt8 → Reader α}
    (h : Yields (f (some (sign c))) fun _ => False) (cs : List Char) :
    Exact (Reader.next >>= f) (c :: cs) fun _ _ => False :=
  fails fun p a i hdone => by
    obtain ⟨bytes, hbytes⟩ := List.head?_eq_some_iff.1 (head?_utf8_cons c cs)
    rw [hbytes, Reader.next_bind] at hdone
    exact h _ _ _ hdone

theorem nextSign_utf8 (cs : List Char) (p : Position) :
    ∃ p', Reader.nextSign ⟨utf8 cs, p⟩
      = .done ((skipBlanks cs).head?.map sign) ⟨utf8 (skipBlanks cs), p'⟩ := by
  have hlt : ∀ c, isBlankChar c → c.toNat < 0x80 := by
    intro c hc
    have hcases : c = ' ' ∨ c = '\n' ∨ c = '\t' ∨ c = '\r' := by
      simpa [isBlankChar, or_assoc] using hc
    rcases hcases with rfl | rfl | rfl | rfl <;> decide
  obtain ⟨-, hdrop⟩ := takeWhile_utf8 isBlank_sign hlt cs
  refine ⟨p.afterAll ((utf8 cs).takeWhile isBlank), ?_⟩
  have hhead : (utf8 (skipBlanks cs)).head? = (skipBlanks cs).head?.map sign := by
    cases skipBlanks cs with
    | nil => rfl
    | cons c rest => rw [head?_utf8_cons]; rfl
  rw [← hhead, skipBlanks, ← hdrop]
  rfl

/-- Blanks are skipped, and the sign behind them is looked at. -/
theorem nextSign {f : Option UInt8 → Reader α} (hnone : skipBlanks cs = [] → Exact (f none) [] R)
    (hsome : ∀ c tail, skipBlanks cs = c :: tail → Exact (f (some (sign c))) (c :: tail) R) :
    Exact (Reader.nextSign >>= f) cs R := by
  have h : Exact (f ((skipBlanks cs).head?.map sign)) (skipBlanks cs) R := by
    cases hcs : skipBlanks cs with
    | nil => exact hnone hcs
    | cons c tail => exact hsome c tail hcs
  refine h.later fun p => ?_
  obtain ⟨p', hread⟩ := nextSign_utf8 cs p
  exact ⟨p', Reader.bind_of_done hread⟩

/-- Whether a sign is a given one of ASCII. -/
theorem ifSign (k : Char) {b : UInt8} (hk : k.toNat < 0x80 ∧ UInt8.ofNat k.toNat = b) {c : Char}
    {r' : Reader α} (ht : c = k → Exact r cs R) (he : c ≠ k → Exact r' cs R) :
    Exact (if sign c = b then r else r') cs R := by
  obtain ⟨hlt, rfl⟩ := hk
  exact .ite (fun h => ht ((sign_eq_iff hlt).1 h)) fun h => he fun heq => h ((sign_eq_iff hlt).2 heq)

end Exact

/-! ## Words -/

/-- The bytes of letters. -/
def bytesOfLetters (letters : List Char) : List UInt8 := letters.map fun c => UInt8.ofNat c.toNat

theorem word_cons (k : Char) (letters : List Char) :
    Reader.word (bytesOfLetters (k :: letters)) = Reader.next >>= fun b =>
      match b with
      | none => Reader.failHere .endOfValue
      | some b =>
        if b = UInt8.ofNat k.toNat then Reader.word (bytesOfLetters letters)
        else Reader.failHere .expectedWord := rfl

theorem word_exact (letters : List Char) (h : letters.all (·.toNat < 0x80)) (cs : List Char) :
    Exact (Reader.word (bytesOfLetters letters)) cs fun _ rest => cs = letters ++ rest := by
  induction letters generalizing cs with
  | nil => exact (Exact.pure () cs).congr fun _ rest => by simp [eq_comm]
  | cons k letters ih =>
    rw [List.all_cons, Bool.and_eq_true, decide_eq_true_eq] at h
    obtain ⟨hk, hletters⟩ := h
    have hmore := ih hletters
    cases cs with
    | nil =>
      refine (Exact.fails fun p a i hdone => ?_).congr fun _ rest => by simp
      cases hdone
    | cons c cs =>
      by_cases hc : c = k
      · subst hc
        refine ((hmore cs).later fun p => ⟨p.after (UInt8.ofNat c.toNat), ?_⟩).congr
          fun _ rest => by simp
        rw [utf8_cons_of_lt hk, word_cons, Reader.next_bind]
        simp only [if_true]
      · refine (Exact.fails fun p a i hdone => ?_).congr fun _ rest => by simp [hc]
        obtain ⟨bytes, hbytes⟩ := List.head?_eq_some_iff.1 (head?_utf8_cons c cs)
        rw [hbytes] at hdone
        have hne : sign c ≠ UInt8.ofNat k.toNat := fun heq => hc ((sign_eq_iff hk).1 heq)
        rw [word_cons, Reader.next_bind] at hdone
        simp only [if_neg hne] at hdone
        cases hdone

/-! ## Marks -/

namespace Reader

/-- A reader that takes one mark and refuses anything else. -/
theorem mark_exact (k : Char) {b : UInt8} (hk : k.toNat < 0x80 ∧ UInt8.ofNat k.toNat = b)
    {missing : Reader Unit} {other : UInt8 → Reader Unit} (hmissing : Yields missing fun _ => False)
    (hother : ∀ b, Yields (other b) fun _ => False) (cs : List Char) :
    Exact (do
      match ← nextSign with
      | none => missing
      | some c => if c = b then advance else other c) cs fun _ rest => skipBlanks cs = k :: rest := by
  refine .nextSign (fun hcs => ?_) (fun c tail hcs => .ifSign k hk (fun hc => ?_) (fun hc => ?_))
  · exact (Exact.never hmissing _).congr fun _ _ => by simp [hcs]
  · subst hc
    have htaken : Exact Reader.advance (c :: tail) fun _ rest => rest = tail :=
      ((Exact.pure () tail).later fun p =>
        ⟨_, by rw [utf8_cons_of_lt hk.1]; rfl⟩).congr fun _ _ => by simp
    exact htaken.congr fun _ rest => by rw [hcs]; simp [eq_comm]
  · exact (Exact.never (hother _) _).congr fun _ _ => by simp [hcs, hc]

theorem colon_exact (cs : List Char) : Exact colon cs fun _ rest => skipBlanks cs = ':' :: rest :=
  mark_exact ':' (by decide) (.failNext _) (fun _ => .failNext _) cs

theorem closeList_exact (cs : List Char) :
    Exact closeList cs fun _ rest => skipBlanks cs = ']' :: rest := by
  refine mark_exact ']' (by decide) (.failNext _) (fun b => ?_) cs
  split
  · refine .after _ fun _ => .after _ fun b => ?_
    cases b with
    | none => exact .failNext _
    | some b =>
      simp only
      split
      · exact .failNext _
      · exact .failNext _
  · exact .failNext _

theorem closeObject_exact (cs : List Char) :
    Exact closeObject cs fun _ rest => skipBlanks cs = '\x7d' :: rest := by
  refine mark_exact '\x7d' (by decide) (.failNext _) (fun b => ?_) cs
  split
  · exact .failNext _
  · exact .failNext _

end Reader

end MetaCache.Json
