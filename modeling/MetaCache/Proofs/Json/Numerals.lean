import MetaCache.Proofs.Json.Exact

/-!
# Numbers are read exactly

A number is read as long as there is anything that belongs to it: digits, a point with digits, a
letter with a sign and digits (`number_exact`). Skipping takes the same characters whatever the size
of the number (`skipNumber_exact`), and both readers look at the same signs in the same order. So
what the signs ahead say about the grammar is stated once, with a parameter for what comes of the
number (`behindWhole_exact`, `behindZero_exact`).
-/

namespace MetaCache.Json

open MetaCache.Text MetaCache.Number

/-! ## Signs and digits -/

theorem exists_cons_of_sign {k : Char} (hk : k.toNat < 0x80) {cs : List Char}
    (h : cs.head?.map sign = some (UInt8.ofNat k.toNat)) : ∃ tail, cs = k :: tail := by
  cases cs with
  | nil => cases h
  | cons c tail =>
    obtain rfl := (sign_eq_iff hk).1 (Option.some.inj h)
    exact ⟨tail, rfl⟩

theorem head?_ne_of_sign {k : Char} (hk : k.toNat < 0x80) {cs : List Char}
    (h : cs.head?.map sign ≠ some (UInt8.ofNat k.toNat)) : cs.head? ≠ some k := by
  intro hhead
  rw [hhead, Option.map_some, sign_of_lt hk] at h
  exact h rfl

theorem isDigit_lt {c : Char} (h : c.isDigit) : c.toNat < 0x80 := by
  have := (toNat_of_isDigit h).2
  omega

theorem takeWhile_digits (cs : List Char) :
    (utf8 cs).takeWhile isDigit = utf8 (digitsOf cs)
      ∧ (utf8 cs).dropWhile isDigit = utf8 (behindDigits cs) :=
  takeWhile_utf8 isDigit_sign (fun _ => isDigit_lt) cs

theorem isDigit_of_mem_digitsOf {cs : List Char} : ∀ c ∈ digitsOf cs, c.isDigit := fun c hc =>
  List.all_eq_true.1 List.all_takeWhile c hc

/-- All digits ahead are taken. -/
theorem Exact.takeDigits {α : Type} {f : List UInt8 → Reader α} {cs : List Char}
    {R : α → List Char → Prop} (h : Exact (f (utf8 (digitsOf cs))) (behindDigits cs) R) :
    Exact (Reader.takeWhile isDigit >>= f) cs R :=
  h.later fun p => ⟨p.afterAll ((utf8 cs).takeWhile isDigit), by
    rw [← (takeWhile_digits cs).1, ← (takeWhile_digits cs).2]
    rfl⟩

namespace Reader

/-- A number, unless it is past the largest double. -/
def inRange : Option Number → Reader Number
  | some n => pure n
  | none => failHere .numberOutOfRange

/-- The equation is between functions: applied ones, the kernel would start to compute. -/
theorem double_eq_fun : double = fun negative significand shift =>
    match scale significand shift with
    | some x => pure (.float ⟨negative, x⟩)
    | none => failHere .numberOutOfRange := by
  delta double
  exact Eq.refl _

theorem double_eq (negative : Bool) (significand : Nat) (shift : Int) :
    double negative significand shift
      = inRange (Numeral.double? negative significand shift) := by
  simp only [double_eq_fun, Numeral.double?]
  generalize scale significand shift = x
  cases x with
  | none => rfl
  | some x => rfl
theorem inRange_exact (n : Option Number) (cs : List Char) :
    Exact (inRange n) cs fun num rest => n = some num ∧ rest = cs := by
  cases n with
  | none => exact (Exact.never (.failHere _) cs).congr fun _ _ => by simp
  | some n => exact (Exact.pure n cs).congr fun _ _ => by simp [eq_comm]

theorem sign_exact (cs : List Char) :
    Exact (do
      match ← peek with
      | some 0x2b => advance; pure false
      | some 0x2d => advance; pure true
      | _ => pure false : Reader Bool) cs fun down rest => Sign cs down rest := by
  refine .peek ?_
  split
  · next h =>
    obtain ⟨cs, rfl⟩ := exists_cons_of_sign (k := '+') (by decide) h
    refine (Exact.advance (by decide) (.pure false cs)).congr fun down rest => ?_
    refine ⟨?_, fun h => Sign.plus.unique h |>.imp Eq.symm Eq.symm⟩
    rintro ⟨rfl, rfl⟩
    exact .plus
  · next h =>
    obtain ⟨cs, rfl⟩ := exists_cons_of_sign (k := '-') (by decide) h
    refine (Exact.advance (by decide) (.pure true cs)).congr fun down rest => ?_
    refine ⟨?_, fun h => Sign.minus.unique h |>.imp Eq.symm Eq.symm⟩
    rintro ⟨rfl, rfl⟩
    exact .minus
  · next hplus hminus =>
    have hnone : Sign cs false cs :=
      .none (head?_ne_of_sign (k := '+') (by decide) hplus)
        (head?_ne_of_sign (k := '-') (by decide) hminus)
    refine (Exact.pure false cs).congr fun down rest => ?_
    refine ⟨?_, fun h => hnone.unique h |>.imp Eq.symm Eq.symm⟩
    rintro ⟨rfl, rfl⟩
    exact hnone

/-- The digits of an exponent and what they make of the significand. -/
theorem raised_exact (negative : Bool) (significand : Nat) (shift : Int) (down : Bool)
    (cs : List Char) :
    Exact (fun i =>
      let digits := i.ahead.takeWhile isDigit
      match exponentOverrun? 0 digits with
      | some read =>
        if significand ≠ 0 ∧ !down then
          let p := i.position.afterAll read
          .failed ⟨.malformed .numberOutOfRange, some p⟩ ⟨i.ahead.drop read.length, p⟩
        else
          .done (.float ⟨negative, .zero⟩)
            ⟨i.ahead.dropWhile isDigit, i.position.afterAll digits⟩
      | none =>
        let amount : Int := digitsValue digits
        double negative significand (if down then shift - amount else shift + amount)
          ⟨i.ahead.dropWhile isDigit, i.position.afterAll digits⟩) cs fun num rest =>
      Numeral.raised? negative significand shift down (utf8 (digitsOf cs)) = some num
        ∧ rest = behindDigits cs := by
  obtain ⟨htake, hdrop⟩ := takeWhile_digits cs
  cases hover : exponentOverrun? 0 (utf8 (digitsOf cs)) with
  | none =>
    rw [Numeral.raised?, hover, if_neg (by simp)]
    refine (inRange_exact _ (behindDigits cs)).later fun p => ?_
    simp only [htake, hdrop, hover, double_eq]
    exact ⟨_, rfl⟩
  | some read =>
    rw [Numeral.raised?, hover, if_pos (by simp)]
    by_cases hlarge : significand ≠ 0 ∧ !down
    · rw [if_pos hlarge]
      refine (Exact.fails fun p num i hdone => ?_).congr fun _ _ => by simp
      simp only [htake, hover, if_pos hlarge] at hdone
      cases hdone
    · rw [if_neg hlarge]
      refine (inRange_exact (some (.float ⟨negative, .zero⟩)) (behindDigits cs)).later fun p => ?_
      simp only [htake, hdrop, hover, if_neg hlarge]
      exact ⟨_, rfl⟩

theorem digitsOf_eq_nil_iff {cs : List Char} :
    digitsOf cs = [] ↔ ∀ c ∈ cs.head?, c.isDigit = false := by
  cases cs with
  | nil => simp [digitsOf]
  | cons c cs => cases hc : c.isDigit <;> simp [digitsOf, hc]

theorem exponent_exact (negative : Bool) (significand : Nat) (shift : Int) {c : Char}
    (hc : c = 'e' ∨ c = 'E') (cs : List Char) :
    Exact (exponent negative significand shift) (c :: cs) fun num rest =>
      ∃ down digits, Exponent (c :: cs) (some (down, digits)) rest
        ∧ Numeral.raised? negative significand shift down (utf8 digits) = some num := by
  refine .advance (by rcases hc with rfl | rfl <;> decide) ?_
  refine ((sign_exact cs).bind (S := fun down mid num rest => digitsOf mid ≠ []
    ∧ Numeral.raised? negative significand shift down (utf8 (digitsOf mid)) = some num
    ∧ rest = behindDigits mid) fun down mid hsign => .peek ?_).congr fun num rest => ?_
  · cases mid with
    | nil => exact (Exact.never (.failHere _) []).congr fun _ _ => by simp [digitsOf]
    | cons d mid =>
      refine .ite (fun hd => ?_) (fun hd => ?_)
      · rw [isDigit_sign] at hd
        have hne : digitsOf (d :: mid) ≠ [] := by simp [digitsOf_eq_nil_iff, hd]
        exact (raised_exact negative significand shift down (d :: mid)).congr fun _ _ =>
          (and_iff_right hne).symm
      · rw [isDigit_sign] at hd
        have hnil : digitsOf (d :: mid) = [] := by simp [digitsOf_eq_nil_iff, hd]
        exact (Exact.never (.after _ fun _ => .failHere _) _).congr fun _ _ => by simp [hnil]
  · constructor
    · rintro ⟨down, mid, hsign, hdigits, hraised, rfl⟩
      exact ⟨down, _, .present hc hsign hdigits, hraised⟩
    · rintro ⟨down, digits, hexponent, hraised⟩
      cases hexponent with
      | present _ hsign hdigits => exact ⟨down, _, hsign, hdigits, hraised, rfl⟩

end Reader

namespace Numeral

theorem valueFrom?_some (negative : Bool) (significand surplus : Nat) (fraction : List Char)
    (down : Bool) (digits : List Char) :
    valueFrom? negative significand surplus fraction (some (down, digits))
      = raised? negative (absorb significand (utf8 fraction)).1
          ((surplus : Int) - (absorb significand (utf8 fraction)).2) down (utf8 digits) := by
  rw [valueFrom?, if_neg (by simp)]

theorem valueFrom?_none {negative : Bool} {significand surplus : Nat} {fraction : List Char}
    (h : fraction ≠ [] ∨ surplus ≠ 0) :
    valueFrom? negative significand surplus fraction none
      = double? negative (absorb significand (utf8 fraction)).1
          ((surplus : Int) - (absorb significand (utf8 fraction)).2) := by
  rw [valueFrom?, if_neg (by rintro ⟨hfraction, -, hsurplus⟩; exact h.elim (· hfraction) (· hsurplus))]

theorem valueFrom?_whole (negative : Bool) (significand : Nat) :
    valueFrom? negative significand 0 [] none = wholeNumber negative significand := by
  rw [valueFrom?, if_pos ⟨rfl, rfl, rfl⟩]

end Numeral

namespace Reader

/-- Behind a fraction an exponent may stand. -/
theorem power_exact (negative : Bool) (significand surplus : Nat) (fraction : List Char) {c : Char}
    (hc : c = 'e' ∨ c = 'E') (cs : List Char) :
    Exact (exponent negative (absorb significand (utf8 fraction)).1
        ((surplus : Int) - (absorb significand (utf8 fraction)).2)) (c :: cs) fun num rest =>
      ∃ power, Exponent (c :: cs) power rest
        ∧ Numeral.valueFrom? negative significand surplus fraction power = some num := by
  refine (exponent_exact _ _ _ hc cs).congr fun num rest => ?_
  constructor
  · rintro ⟨down, digits, hexponent, hvalue⟩
    exact ⟨_, hexponent, by rw [Numeral.valueFrom?_some, hvalue]⟩
  · rintro ⟨power, hexponent, hvalue⟩
    cases hexponent with
    | absent hsmall hlarge => rcases hc with rfl | rfl <;> contradiction
    | present hletter hsign hdigits =>
      rw [Numeral.valueFrom?_some] at hvalue
      exact ⟨_, _, .present hletter hsign hdigits, hvalue⟩

/-! ### Readers behind the whole part -/

section

variable {α : Type} {cs rest : List Char} {a : α}

theorem exists_exponent_of_absent {N : Option (Bool × List Char) → α → Prop}
    (hsmall : cs.head? ≠ some 'e') (hlarge : cs.head? ≠ some 'E') :
    (∃ power, Exponent cs power rest ∧ N power a) ↔ N none a ∧ rest = cs := by
  constructor
  · rintro ⟨power, hexponent, hvalue⟩
    obtain ⟨rfl, rfl⟩ := hexponent.unique (.absent hsmall hlarge)
    exact ⟨hvalue, rfl⟩
  · rintro ⟨hvalue, rfl⟩
    exact ⟨none, .absent hsmall hlarge, hvalue⟩

theorem exists_fraction_of_absent {N : List Char → Option (Bool × List Char) → α → Prop}
    (h : cs.head? ≠ some '.') :
    (∃ fraction mid power, Fraction cs fraction mid ∧ Exponent mid power rest ∧ N fraction power a)
      ↔ ∃ power, Exponent cs power rest ∧ N [] power a := by
  constructor
  · rintro ⟨fraction, mid, power, hfraction, hexponent, hvalue⟩
    obtain ⟨rfl, rfl⟩ := hfraction.unique (.absent h)
    exact ⟨power, hexponent, hvalue⟩
  · rintro ⟨power, hexponent, hvalue⟩
    exact ⟨[], cs, power, .absent h, hexponent, hvalue⟩

theorem exists_fraction_of_point {N : List Char → Option (Bool × List Char) → α → Prop} :
    (∃ fraction mid power, Fraction ('.' :: cs) fraction mid ∧ Exponent mid power rest
        ∧ N fraction power a)
      ↔ digitsOf cs ≠ []
        ∧ ∃ power, Exponent (behindDigits cs) power rest ∧ N (digitsOf cs) power a := by
  constructor
  · rintro ⟨_, _, power, hfraction, hexponent, hvalue⟩
    cases hfraction with
    | absent h => exact absurd rfl h
    | present hdigits => exact ⟨hdigits, power, hexponent, hvalue⟩
  · rintro ⟨hdigits, power, hexponent, hvalue⟩
    exact ⟨_, _, power, .present hdigits, hexponent, hvalue⟩

variable {whenPoint whenPower otherwise : Reader α}

/-- An exponent or none: `N` says what comes of the number with it. -/
theorem behindPoint_exact {N : Option (Bool × List Char) → α → Prop}
    (hpower : ∀ c tail, c = 'e' ∨ c = 'E' → cs = c :: tail →
      Exact whenPower cs fun a rest => ∃ power, Exponent cs power rest ∧ N power a)
    (hother : Exact otherwise cs fun a rest => N none a ∧ rest = cs) :
    Exact (do
      match ← peek with
      | some 0x65 | some 0x45 => whenPower
      | _ => otherwise) cs fun a rest => ∃ power, Exponent cs power rest ∧ N power a := by
  refine .peek ?_
  split
  · next h =>
    obtain ⟨tail, hcs⟩ := exists_cons_of_sign (k := 'e') (by decide) h
    exact hpower _ tail (.inl rfl) hcs
  · next h =>
    obtain ⟨tail, hcs⟩ := exists_cons_of_sign (k := 'E') (by decide) h
    exact hpower _ tail (.inr rfl) hcs
  · next hsmall hlarge =>
    exact hother.congr fun _ _ =>
      (exists_exponent_of_absent (head?_ne_of_sign (k := 'e') (by decide) hsmall)
        (head?_ne_of_sign (k := 'E') (by decide) hlarge)).symm

/-- A fraction or none and an exponent or none: `N` says what comes of the number with them. -/
theorem behindWhole_exact {N : List Char → Option (Bool × List Char) → α → Prop}
    (hpoint : ∀ tail, cs = '.' :: tail → Exact whenPoint cs fun a rest => digitsOf tail ≠ []
      ∧ ∃ power, Exponent (behindDigits tail) power rest ∧ N (digitsOf tail) power a)
    (hpower : ∀ c tail, c = 'e' ∨ c = 'E' → cs = c :: tail →
      Exact whenPower cs fun a rest => ∃ power, Exponent cs power rest ∧ N [] power a)
    (hother : Exact otherwise cs fun a rest => N [] none a ∧ rest = cs) :
    Exact (do
      match ← peek with
      | some 0x2e => whenPoint
      | some 0x65 | some 0x45 => whenPower
      | _ => otherwise) cs fun a rest =>
        ∃ fraction mid power, Fraction cs fraction mid ∧ Exponent mid power rest
          ∧ N fraction power a := by
  refine .peek ?_
  split
  · next h =>
    obtain ⟨tail, rfl⟩ := exists_cons_of_sign (k := '.') (by decide) h
    exact (hpoint tail rfl).congr fun _ _ => exists_fraction_of_point.symm
  · next h =>
    obtain ⟨tail, rfl⟩ := exists_cons_of_sign (k := 'e') (by decide) h
    exact (hpower _ tail (.inl rfl) rfl).congr fun _ _ =>
      (exists_fraction_of_absent (by simp)).symm
  · next h =>
    obtain ⟨tail, rfl⟩ := exists_cons_of_sign (k := 'E') (by decide) h
    exact (hpower _ tail (.inr rfl) rfl).congr fun _ _ =>
      (exists_fraction_of_absent (by simp)).symm
  · next hpoint hsmall hlarge =>
    refine hother.congr fun _ _ => ?_
    rw [exists_fraction_of_absent (head?_ne_of_sign (k := '.') (by decide) hpoint),
      exists_exponent_of_absent (head?_ne_of_sign (k := 'e') (by decide) hsmall)
        (head?_ne_of_sign (k := 'E') (by decide) hlarge)]

end

theorem utf8_digitsOf_isEmpty (cs : List Char) :
    (utf8 (digitsOf cs)).isEmpty = true ↔ digitsOf cs = [] := by
  rw [List.isEmpty_iff, ← List.length_eq_zero_iff, length_utf8_digits isDigit_of_mem_digitsOf,
    List.length_eq_zero_iff]

/-- The digits behind a point. -/
theorem pointDigits_exact {α : Type} {missing : Reader α} {f : List UInt8 → Reader α} {cs : List Char}
    {R : α → List Char → Prop} (hmissing : Yields missing fun _ => False)
    (h : digitsOf cs ≠ [] → Exact (f (utf8 (digitsOf cs))) (behindDigits cs) R) :
    Exact (do
      advance
      let digits ← takeWhile isDigit
      if digits.isEmpty then missing else f digits) ('.' :: cs) fun a rest =>
        digitsOf cs ≠ [] ∧ R a rest := by
  refine .advance (by decide) (.takeDigits (.ite (fun hempty => ?_) (fun hempty => ?_)))
  · rw [utf8_digitsOf_isEmpty] at hempty
    exact (Exact.never hmissing _).congr fun _ _ => by simp [hempty]
  · rw [utf8_digitsOf_isEmpty] at hempty
    exact (h hempty).congr fun _ _ => (and_iff_right hempty).symm

/-- What stands behind the whole part, read with a significand and a surplus of digits. -/
theorem fraction_exact (negative : Bool) (significand surplus : Nat) (cs : List Char) :
    Exact (fraction negative significand surplus) cs fun num rest =>
      ∃ digits mid power, Fraction cs digits mid ∧ Exponent mid power rest
        ∧ Numeral.valueFrom? negative significand surplus digits power = some num := by
  refine behindWhole_exact (fun tail hcs => ?_) (fun c tail hc hcs => ?_) ?_
  · subst hcs
    refine pointDigits_exact (.after _ fun b => ?_) fun hdigits => ?_
    · cases b with
      | none => exact .failHere _
      | some b => exact .failNext _
    · refine behindPoint_exact (fun c tail hc hmid => ?_) ?_
      · rw [hmid]
        exact power_exact negative significand surplus _ hc tail
      · rw [Numeral.valueFrom?_none (.inl hdigits), double_eq]
        exact inRange_exact _ _
  · subst hcs
    have h := power_exact negative significand surplus [] hc tail
    simpa [absorb] using h
  · refine .ite (fun hsurplus => ?_) (fun hsurplus => ?_)
    · subst hsurplus
      rw [Numeral.valueFrom?_whole]
      exact inRange_exact _ _
    · rw [Numeral.valueFrom?_none (.inr hsurplus)]
      have h := inRange_exact (Numeral.double? negative significand surplus) cs
      rw [← double_eq] at h
      simpa [absorb] using h

theorem isWhole_cons {d : Char} {cs : List Char} (hd : d.isDigit) (hzero : d ≠ '0') :
    IsWhole (digitsOf (d :: cs)) :=
  .inr ⟨d, digitsOf cs, List.takeWhile_cons_of_pos hd, hzero⟩

theorem digitsOf_zero {cs : List Char} (h : digitsOf cs = []) :
    digitsOf ('0' :: cs) = ['0'] ∧ behindDigits ('0' :: cs) = cs := by
  have hhead := digitsOf_eq_nil_iff.1 h
  have hbehind : behindDigits cs = cs := by
    cases cs with
    | nil => rfl
    | cons c cs => exact List.dropWhile_cons_of_neg (by simp [hhead c rfl])
  constructor
  · show List.takeWhile Char.isDigit ('0' :: cs) = _
    rw [List.takeWhile_cons_of_pos (by decide)]
    exact congrArg _ h
  · show List.dropWhile Char.isDigit ('0' :: cs) = _
    rw [List.dropWhile_cons_of_pos (by decide)]
    exact hbehind

/-- Behind the zero of a whole part stands no digit. -/
theorem digitsOf_eq_nil_of_isWhole {cs : List Char} (h : IsWhole (digitsOf ('0' :: cs))) :
    digitsOf cs = [] := by
  have hcons : digitsOf ('0' :: cs) = '0' :: digitsOf cs := List.takeWhile_cons_of_pos (by decide)
  rw [hcons] at h
  rcases h with h | ⟨d, more, h, hd⟩
  · exact (List.cons.inj h).2
  · exact absurd (List.cons.inj h).1.symm hd

section

variable {α : Type} {cs rest : List Char} {a : α} {N : Numeral → α → Prop}

theorem exists_digits_zero (h : digitsOf cs = []) :
    (∃ n, Digits ('0' :: cs) n rest ∧ N n a)
      ↔ ∃ fraction mid power, Fraction cs fraction mid ∧ Exponent mid power rest
        ∧ N ⟨['0'], fraction, power⟩ a := by
  obtain ⟨hwhole, hbehind⟩ := digitsOf_zero h
  constructor
  · rintro ⟨n, ⟨-, hfraction, hexponent⟩, hvalue⟩
    rw [hbehind] at hfraction
    rw [hwhole] at hvalue
    exact ⟨_, _, _, hfraction, hexponent, hvalue⟩
  · rintro ⟨fraction, mid, power, hfraction, hexponent, hvalue⟩
    rw [← hbehind] at hfraction
    rw [← hwhole] at hvalue
    exact ⟨_, .mk (.inl hwhole) hfraction hexponent, hvalue⟩

theorem exists_digits_cons {d : Char} (hd : d.isDigit) (hzero : d ≠ '0') :
    (∃ n, Digits (d :: cs) n rest ∧ N n a)
      ↔ ∃ fraction mid power, Fraction (behindDigits (d :: cs)) fraction mid
        ∧ Exponent mid power rest ∧ N ⟨digitsOf (d :: cs), fraction, power⟩ a := by
  constructor
  · rintro ⟨n, ⟨-, hfraction, hexponent⟩, hvalue⟩
    exact ⟨_, _, _, hfraction, hexponent, hvalue⟩
  · rintro ⟨fraction, mid, power, hfraction, hexponent, hvalue⟩
    exact ⟨_, .mk (isWhole_cons hd hzero) hfraction hexponent, hvalue⟩

/-- Behind a zero at the front no digit may stand. -/
theorem behindZero_exact {refused r : Reader α} (hrefused : Yields refused fun _ => False)
    (h : Exact r cs fun a rest => ∃ fraction mid power, Fraction cs fraction mid
      ∧ Exponent mid power rest ∧ N ⟨['0'], fraction, power⟩ a) :
    Exact (do
      match ← peek with
      | some d => if isDigit d then refused else r
      | none => r) cs fun a rest => ∃ n, Digits ('0' :: cs) n rest ∧ N n a := by
  refine .peek ?_
  cases cs with
  | nil => exact h.congr fun _ _ => (exists_digits_zero rfl).symm
  | cons d cs =>
    refine .ite (fun hd => ?_) (fun hd => ?_)
    · refine (Exact.never hrefused _).congr fun _ _ => ⟨False.elim, ?_⟩
      rintro ⟨n, ⟨hwhole, -, -⟩, -⟩
      rw [isDigit_sign] at hd
      have hnil := digitsOf_eq_nil_iff.1 (digitsOf_eq_nil_of_isWhole hwhole) d rfl
      rw [hd] at hnil
      cases hnil
    · rw [isDigit_sign] at hd
      have hnil : digitsOf (d :: cs) = [] :=
        digitsOf_eq_nil_iff.2 fun c hc => by cases hc; simpa using hd
      exact h.congr fun _ _ => (exists_digits_zero hnil).symm

end

/-- **A number is read as long as anything belongs to it.** -/
theorem number_exact (negative : Bool) (cs : List Char) :
    Exact (number negative) cs fun num rest =>
      ∃ n, Digits cs n rest ∧ n.value? negative = some num := by
  refine .peek ?_
  cases cs with
  | nil =>
    refine (Exact.never (.failHere _) _).congr fun _ _ => ⟨False.elim, ?_⟩
    rintro ⟨n, hdigits, -⟩
    obtain ⟨d, more, h, -⟩ := hdigits.head
    cases h
  | cons c cs =>
    refine .ite (fun hzero => ?_) (fun hzero => .ite (fun hdigit => ?_) (fun hdigit => ?_))
    · obtain rfl := (sign_eq_iff (k := '0') (by decide)).1 hzero
      exact .advance (by decide) (behindZero_exact (.failNext _) (fraction_exact negative 0 0 cs))
    · rw [isDigit_sign] at hdigit
      have hne : c ≠ '0' := by
        rintro rfl
        exact hzero (sign_of_lt (by decide))
      refine .takeDigits (Exact.congr ?_ fun _ _ => (exists_digits_cons hdigit hne).symm)
      simp only [Numeral.value?, ← length_utf8_digits isDigit_of_mem_digitsOf]
      exact fraction_exact _ _ _ _
    · rw [isDigit_sign] at hdigit
      refine (Exact.never (.after _ fun _ => .failHere _) _).congr fun _ _ => ⟨False.elim, ?_⟩
      rintro ⟨n, hdigits, -⟩
      obtain ⟨d, more, heq, hd⟩ := hdigits.head
      cases heq
      exact hdigit hd

/-! ## Skipped numbers -/

theorem skipSign_exact {f : Unit → Reader Unit} {S : List Char → List Char → Prop} (cs : List Char)
    (hf : ∀ down mid, Sign cs down mid → Exact (f ()) mid fun _ rest => S mid rest) :
    Exact (do
      match ← peek with
      | some 0x2b | some 0x2d => f (← advance)
      | _ => f ()) cs fun _ rest => ∃ down mid, Sign cs down mid ∧ S mid rest := by
  refine .peek ?_
  split
  · next h =>
    obtain ⟨tail, rfl⟩ := exists_cons_of_sign (k := '+') (by decide) h
    refine (Exact.advance (by decide) (hf _ _ .plus)).congr fun _ rest => ?_
    refine ⟨fun h => ⟨_, _, .plus, h⟩, ?_⟩
    rintro ⟨down, mid, hsign, h⟩
    exact (hsign.unique .plus).2 ▸ h
  · next h =>
    obtain ⟨tail, rfl⟩ := exists_cons_of_sign (k := '-') (by decide) h
    refine (Exact.advance (by decide) (hf _ _ .minus)).congr fun _ rest => ?_
    refine ⟨fun h => ⟨_, _, .minus, h⟩, ?_⟩
    rintro ⟨down, mid, hsign, h⟩
    exact (hsign.unique .minus).2 ▸ h
  · next hplus hminus =>
    have hnone : Sign cs false cs :=
      .none (head?_ne_of_sign (k := '+') (by decide) hplus)
        (head?_ne_of_sign (k := '-') (by decide) hminus)
    refine (hf _ _ hnone).congr fun _ rest => ?_
    refine ⟨fun h => ⟨_, _, hnone, h⟩, ?_⟩
    rintro ⟨down, mid, hsign, h⟩
    exact (hsign.unique hnone).2 ▸ h

/-- A digit and those behind it. -/
theorem nextDigits_exact {f : Option UInt8 → Reader Unit} {R : Unit → List Char → Prop} (cs : List Char)
    (hnone : Yields (f none) fun _ => False)
    (hother : ∀ b, isDigit b = false → Yields (f (some b)) fun _ => False)
    (hdigit : ∀ d tail, cs = d :: tail → d.isDigit → Exact (f (some (sign d))) tail R)
    (hR : ∀ u rest, R u rest → digitsOf cs ≠ []) : Exact (next >>= f) cs R := by
  cases cs with
  | nil =>
    refine Exact.congr (.fails fun p a i hdone => ?_) fun u rest => ⟨False.elim, fun h => hR u rest h rfl⟩
    exact hnone _ _ _ hdone
  | cons c cs =>
    by_cases hc : c.isDigit
    · exact .next (isDigit_lt hc) (hdigit c cs rfl hc)
    · have hb : isDigit (sign c) = false := by rw [isDigit_sign]; simpa using hc
      refine (Exact.next_never (hother _ hb) cs).congr fun u rest => ⟨False.elim, fun h => ?_⟩
      exact hR u rest h (digitsOf_eq_nil_iff.2 fun d hd => by cases hd; simpa using hc)

theorem skipExponent_exact {c : Char} (hc : c = 'e' ∨ c = 'E') (cs : List Char) :
    Exact skipExponent (c :: cs) fun _ rest => ∃ power, Exponent (c :: cs) power rest := by
  refine .advance (by rcases hc with rfl | rfl <;> decide) ?_
  refine (skipSign_exact (S := fun mid rest => digitsOf mid ≠ [] ∧ rest = behindDigits mid) cs
    fun down mid hsign => ?_).congr fun _ rest => ?_
  · refine nextDigits_exact mid (.failHere _) (fun b hb => ?_) (fun d tail hmid hd => ?_)
      fun _ _ h => h.1
    · simp only [hb, Bool.false_eq_true, if_false]
      exact .failHere _
    · subst hmid
      have hne : digitsOf (d :: tail) ≠ [] := by simp [digitsOf_eq_nil_iff, hd]
      have hbehind : behindDigits (d :: tail) = behindDigits tail :=
        List.dropWhile_cons_of_pos hd
      simp only [isDigit_sign, hd, if_true]
      exact .takeDigits ((Exact.pure () _).congr fun _ _ => by simp [hne, hbehind])
  · constructor
    · rintro ⟨down, mid, hsign, hdigits, rfl⟩
      exact ⟨_, .present hc hsign hdigits⟩
    · rintro ⟨power, hexponent⟩
      cases hexponent with
      | absent hsmall hlarge => rcases hc with rfl | rfl <;> contradiction
      | present _ hsign hdigits => exact ⟨_, _, hsign, hdigits, rfl⟩

/-- Skips what may stand behind the whole part. -/
theorem skipFraction_exact (cs : List Char) :
    Exact (do
      match ← peek with
      | some 0x2e => do
        advance
        let digits ← takeWhile isDigit
        if digits.isEmpty then failNext .invalidNumber
        else
          match ← peek with
          | some 0x65 | some 0x45 => skipExponent
          | _ => pure ()
      | some 0x65 | some 0x45 => skipExponent
      | _ => pure ()) cs fun _ rest =>
        ∃ digits mid power, Fraction cs digits mid ∧ Exponent mid power rest ∧ True := by
  have hpower {cs : List Char} (c : Char) (tail : List Char) (hc : c = 'e' ∨ c = 'E')
      (hcs : cs = c :: tail) :
      Exact skipExponent cs fun _ rest => ∃ power, Exponent cs power rest ∧ True := by
    subst hcs
    simpa using skipExponent_exact hc tail
  have hother (cs : List Char) : Exact (pure ()) cs fun _ rest => True ∧ rest = cs := by
    simpa using Exact.pure () cs
  refine behindWhole_exact (fun tail hcs => ?_) hpower (hother cs)
  subst hcs
  exact pointDigits_exact (.failNext _) fun _ => behindPoint_exact hpower (hother _)

/-- **A number is skipped as it is read**, whatever its size. -/
theorem skipNumber_exact (cs : List Char) :
    Exact skipNumber cs fun _ rest => ∃ n, Digits cs n rest := by
  refine nextDigits_exact cs (.bind (P := fun _ => False) (.failHere _) fun _ h => h.elim)
    (fun b hb => ?_) (fun d tail hcs hd => ?_) fun _ _ => ?_
  · split
    · next heq => rw [Option.some.inj heq] at hb; cases hb
    · next heq =>
      rw [← Option.some.inj heq, hb]
      exact .bind (P := fun _ => False) (.failHere _) fun _ h => h.elim
    · next heq => cases heq
  · subst hcs
    split
    · next heq =>
      obtain rfl := (sign_eq_iff (k := '0') (by decide)).1 (Option.some.inj heq)
      exact (behindZero_exact (N := fun _ _ => True)
        (.bind (P := fun _ => False) (.failNext _) fun _ h => h.elim)
        (skipFraction_exact tail)).congr fun _ _ => by simp
    · next b hzero heq =>
      have hb : b = sign d := (Option.some.inj heq).symm
      have hne : d ≠ '0' := by
        rintro rfl
        exact hzero (hb.trans (sign_of_lt (by decide)))
      have hbehind : behindDigits (d :: tail) = behindDigits tail :=
        List.dropWhile_cons_of_pos hd
      rw [hb, isDigit_sign, if_pos hd]
      refine .takeDigits ((skipFraction_exact _).congr fun u rest => ?_)
      rw [← hbehind, ← exists_digits_cons (N := fun _ _ => True) (a := u) hd hne]
      simp
    · next heq => cases heq
  · rintro ⟨n, hdigits⟩
    obtain ⟨d, more, rfl, hd⟩ := hdigits.head
    simp [digitsOf_eq_nil_iff, hd]

end Reader
end MetaCache.Json
