import MetaCache.Proofs.Json.Numerals
import MetaCache.Proofs.Json.Quoted

/-!
# Skipping takes exactly the texts

A value is skipped without recursion: the brackets that are open are kept in a list of frames, and
behind each value as many of them close as can. `Closes` says what is left to come behind a value
inside such frames, so the loop is followed from one value to the next. Whatever is a text is
skipped, as deep as it may be (`skipValue_exact`).
-/

namespace MetaCache.Json

open MetaCache.Text

/-! ## Starts -/

/-- A scalar or an opening bracket, and what stands behind it. -/
def StartOf (cs : List Char) : Option Frame → List Char → Prop
  | none, rest => (∃ c tail, skipBlanks cs = c :: tail ∧ c ≠ '[' ∧ c ≠ '\x7b') ∧ ∃ m, Text cs m rest
  | some .list, rest => skipBlanks cs = '[' :: rest
  | some .object, rest => skipBlanks cs = '\x7b' :: rest

theorem startOf_scalar {cs tail : List Char} {c : Char} (h : skipBlanks cs = c :: tail)
    (hlist : c ≠ '[') (hobject : c ≠ '\x7b') (start : Option Frame) (rest : List Char) :
    StartOf cs start rest ↔ start = none ∧ ∃ m, BySign c tail m rest := by
  rcases start with _ | _ | _
  · simp only [StartOf, text_iff_bySign h, true_and]
    exact and_iff_right ⟨c, tail, h, hlist, hobject⟩
  · simp [StartOf, h, hlist]
  · simp [StartOf, h, hobject]

theorem startOf_list {cs tail : List Char} (h : skipBlanks cs = '[' :: tail) (start : Option Frame)
    (rest : List Char) : StartOf cs start rest ↔ start = some .list ∧ rest = tail := by
  rcases start with _ | _ | _
  · simp [StartOf, h]
  · simp [StartOf, h, eq_comm]
  · simp [StartOf, h]

theorem startOf_object {cs tail : List Char} (h : skipBlanks cs = '\x7b' :: tail)
    (start : Option Frame) (rest : List Char) :
    StartOf cs start rest ↔ start = some .object ∧ rest = tail := by
  rcases start with _ | _ | _
  · simp [StartOf, h]
  · simp [StartOf, h]
  · simp [StartOf, h, eq_comm]

theorem exists_meaning_iff {α : Type} {P : α → Prop} {f : α → Meaning} :
    (∃ m a, P a ∧ m = f a) ↔ ∃ a, P a := by
  rw [exists_comm]
  simp

namespace Reader

/-- A scalar, which opens nothing, is skipped exactly if its texts are. -/
theorem scalarStart_exact {cs input tail : List Char} {c : Char} (hcs : skipBlanks cs = c :: tail)
    (hlist : c ≠ '[') (hobject : c ≠ '\x7b') {r : Reader Unit} {R : List Char → Prop}
    (h : Exact r input fun _ rest => R rest) (hR : ∀ rest, R rest ↔ ∃ m, BySign c tail m rest) :
    Exact (do r; pure (none : Option Frame)) input (StartOf cs) :=
  (h.bind fun _ mid _ => .pure none mid).congr fun start rest => by
    rw [startOf_scalar hcs hlist hobject, ← hR]
    exact ⟨fun ⟨_, _, hr, hstart, hrest⟩ => ⟨hstart, hrest ▸ hr⟩,
      fun ⟨hstart, hr⟩ => ⟨(), rest, hr, hstart, rfl⟩⟩

theorem skipStart_exact (cs : List Char) : Exact skipStart cs (StartOf cs) := by
  refine .nextSign (fun hcs => ?_) (fun c tail hcs => ?_)
  · refine (Exact.never (.failNext _) _).congr fun start rest => ⟨False.elim, fun h => ?_⟩
    rcases start with _ | _ | _
    · obtain ⟨-, m, htext⟩ := h
      exact htext.ne_nil hcs
    · cases hcs.symm.trans h
    · cases hcs.symm.trans h
  · refine .ifSign 'n' (by decide) (fun hc => ?_) fun hnull => ?_
    · subst hc
      exact .advance (by decide) (scalarStart_exact hcs (by decide) (by decide)
        (word_exact ['u', 'l', 'l'] (by decide) tail) fun rest => by simp [BySign])
    refine .ifSign 't' (by decide) (fun hc => ?_) fun htrue => ?_
    · subst hc
      exact .advance (by decide) (scalarStart_exact hcs (by decide) (by decide)
        (word_exact ['r', 'u', 'e'] (by decide) tail) fun rest => by simp [BySign])
    refine .ifSign 'f' (by decide) (fun hc => ?_) fun hfalse => ?_
    · subst hc
      exact .advance (by decide) (scalarStart_exact hcs (by decide) (by decide)
        (word_exact ['a', 'l', 's', 'e'] (by decide) tail) fun rest => by simp [BySign])
    refine .ifSign '-' (by decide) (fun hc => ?_) fun hminus => ?_
    · subst hc
      exact .advance (by decide) (scalarStart_exact hcs (by decide) (by decide)
        (skipNumber_exact tail) fun rest => by simp [BySign, exists_meaning_iff])
    refine .ite (fun hdigit => ?_) fun hdigit => ?_
    · rw [isDigit_sign] at hdigit
      have hne {x : Char} (hx : x.isDigit = false) : c ≠ x := ne_of_isDigit_char hdigit hx
      exact scalarStart_exact hcs (hne (by decide)) (hne (by decide)) (skipNumber_exact (c :: tail))
        fun rest => by simp [BySign, hnull, htrue, hfalse, hminus, hdigit, exists_meaning_iff]
    rw [isDigit_sign] at hdigit
    refine .ifSign '"' (by decide) (fun hc => ?_) fun hquote => ?_
    · subst hc
      exact .advance (by decide) (scalarStart_exact hcs (by decide) (by decide)
        (skipString_exact tail) fun rest => by simp [BySign, exists_meaning_iff])
    refine .ifSign '[' (by decide) (fun hc => ?_) fun hlist => ?_
    · subst hc
      exact Exact.congr (.advance (by decide) (.pure (some Frame.list) tail)) fun start rest =>
        (startOf_list hcs start rest).symm
    refine .ifSign '\x7b' (by decide) (fun hc => ?_) fun hobject => ?_
    · subst hc
      exact Exact.congr (.advance (by decide) (.pure (some Frame.object) tail)) fun start rest =>
        (startOf_object hcs start rest).symm
    refine (Exact.never (.failNext _) _).congr fun start rest => ?_
    rw [startOf_scalar hcs hlist hobject]
    simp [BySign, hnull, htrue, hfalse, hminus, hdigit, hquote, hlist, hobject]

end Reader

/-! ## Closings -/

/-- The character that closes a frame. -/
def Frame.closer : Frame → Char
  | .list => ']'
  | .object => '\x7d'

/-- What stands in front of the next value inside the frame. -/
def NameIn : Frame → List Char → List Char → Prop
  | .list, cs, mid => mid = cs
  | .object, cs, mid => ∃ name, Name cs name mid

/-- Closing brackets up to the next value, with the frames around it. -/
def NextValue : List Frame → Bool → List Char → List Frame → List Char → Prop
  | [], _, cs, inside, mid => inside = [] ∧ mid = cs
  | frame :: outer, behind, cs, inside, mid =>
    match skipBlanks cs with
    | [] => False
    | c :: tail =>
      if c = frame.closer then NextValue outer true tail inside mid
      else inside = frame :: outer
        ∧ if behind then c = ',' ∧ NameIn frame tail mid else NameIn frame (c :: tail) mid

/-- What is left to come inside a frame, and what stands behind it. -/
def Inner : Frame → Bool → List Char → List Char → Prop
  | .list, behind, cs, mid => ∃ items, Items Text behind cs items mid
  | .object, behind, cs, mid => ∃ members, Members Text behind cs members mid

/-- What is left to come inside the frames up to the end of the outermost one. -/
def Closes : List Frame → Bool → List Char → List Char → Prop
  | [], _, cs, rest => rest = cs
  | frame :: outer, behind, cs, rest => ∃ mid, Inner frame behind cs mid ∧ Closes outer true mid rest

/-- What is left to come in front of a value inside the frames. -/
def Continues : List Frame → List Char → List Char → Prop
  | [], cs, rest => rest = cs
  | inside, cs, rest => ∃ m mid, Text cs m mid ∧ Closes inside true mid rest

namespace Reader

theorem closing_eq (frame : Frame) :
    frame.closer.toNat < 0x80 ∧ UInt8.ofNat frame.closer.toNat = frame.closing := by
  cases frame <;> decide

/-- The name of a member and the colon behind it, skipped. -/
theorem skipName_exact (frame : Frame) (cs : List Char) :
    Exact (skipName frame) cs fun _ mid => NameIn frame cs mid := by
  cases frame with
  | list => exact (Exact.pure () cs).congr fun _ _ => by simp [NameIn]
  | object =>
    refine .nextSign (fun hcs => ?_) (fun c tail hcs => .ifSign '"' (by decide) (fun hc => ?_)
      fun hc => ?_)
    · refine (Exact.never (.bind (P := fun _ => False) (.failNext _) fun _ h => h.elim) _).congr
        fun _ _ => ⟨False.elim, ?_⟩
      rintro ⟨name, hquote, -, -⟩
      cases hcs.symm.trans hquote
    · subst hc
      refine .advance (by decide) (((skipString_exact tail).bind fun _ mid _ =>
        colon_exact mid).congr fun _ rest => ?_)
      constructor
      · rintro ⟨_, mid, ⟨pieces, hcontent⟩, hcolon⟩
        exact ⟨_, .mk hcs hcontent hcolon⟩
      · rintro ⟨name, hquote, hcontent, hcolon⟩
        rw [hcs] at hquote
        obtain rfl := (List.cons.inj hquote).2
        exact ⟨(), _, ⟨_, hcontent⟩, hcolon⟩
    · refine (Exact.never (.bind (P := fun _ => False) (.failNext _) fun _ h => h.elim) _).congr
        fun _ _ => ⟨False.elim, ?_⟩
      rintro ⟨name, hquote, -, -⟩
      rw [hcs] at hquote
      exact hc (List.cons.inj hquote).1

theorem skipClosings_exact (frames : List Frame) : ∀ (behind : Bool) (cs : List Char),
    Exact (skipClosings behind frames) cs (NextValue frames behind cs) := by
  induction frames with
  | nil => exact fun _ cs => .pure [] cs
  | cons frame outer ih =>
    intro behind cs
    have hframes {r : Reader Unit} {cs : List Char} {R : List Char → Prop}
        (h : Exact r cs fun _ mid => R mid) :
        Exact (do r; pure (frame :: outer)) cs fun inside mid => inside = frame :: outer ∧ R mid :=
      (h.bind fun _ mid _ => .pure (frame :: outer) mid).congr fun _ mid =>
        ⟨fun ⟨_, _, hr, hinside, hmid⟩ => ⟨hinside, hmid ▸ hr⟩,
          fun ⟨hinside, hr⟩ => ⟨(), mid, hr, hinside, rfl⟩⟩
    refine .nextSign (fun hcs => ?_) (fun c tail hcs => .ifSign _ (closing_eq frame) (fun hc => ?_)
      fun hc => ?_)
    · exact (Exact.never (.failNext _) _).congr fun _ _ => by simp [NextValue, hcs]
    · subst hc
      refine Exact.congr (.advance (closing_eq frame).1 (ih true tail)) fun _ _ => ?_
      simp [NextValue, hcs]
    · cases behind with
      | true =>
        refine .ifSign ',' (by decide) (fun hcomma => ?_) fun hcomma => ?_
        · subst hcomma
          refine Exact.congr (.advance (by decide) (hframes (skipName_exact frame tail)))
            fun _ _ => ?_
          simp [NextValue, hcs, hc]
        · exact (Exact.never (.failNext _) _).congr fun _ _ => by simp [NextValue, hcs, hc, hcomma]
      | false =>
        refine Exact.congr (hframes (skipName_exact frame (c :: tail))) fun _ _ => ?_
        simp [NextValue, hcs, hc]

end Reader

/-! ## What is left to come -/

theorem NameIn.length_le {frame : Frame} {cs mid : List Char} (h : NameIn frame cs mid) :
    mid.length ≤ cs.length := by
  cases frame with
  | list => exact Nat.le_of_eq (congrArg List.length h)
  | object => exact Nat.le_of_lt h.choose_spec.length_lt

theorem NextValue.length_le {frames inside : List Frame} {behind : Bool} {cs mid : List Char}
    (h : NextValue frames behind cs inside mid) : mid.length ≤ cs.length := by
  induction frames generalizing behind cs with
  | nil => exact Nat.le_of_eq (congrArg List.length h.2)
  | cons frame outer ih =>
    unfold NextValue at h
    split at h
    · exact h.elim
    · next c tail hcs =>
      have htail := length_of_skipBlanks hcs
      split at h
      · exact Nat.le_trans (ih h) (Nat.le_of_lt htail)
      · cases behind with
        | true => exact Nat.le_trans h.2.2.length_le (Nat.le_of_lt htail)
        | false =>
          refine Nat.le_trans h.2.length_le ?_
          rw [← hcs]
          exact skipBlanks_length_le cs

/-- Inside a list there is its end or the next item. -/
theorem inner_list_iff {behind : Bool} {cs mid tail : List Char} {c : Char}
    (hcs : skipBlanks cs = c :: tail) :
    Inner .list behind cs mid ↔
      if c = ']' then mid = tail
      else ∃ front m next, (if behind then c = ',' ∧ front = tail else front = c :: tail)
        ∧ Text front m next ∧ Inner .list true next mid := by
  constructor
  · rintro ⟨items, hitems⟩
    cases hitems with
    | close h =>
      obtain ⟨rfl, rfl⟩ := List.cons.inj (hcs.symm.trans h)
      exact if_pos rfl ▸ rfl
    | first item more =>
      rw [if_neg (item.head hcs).1]
      exact ⟨c :: tail, _, _, rfl, hcs ▸ text_skipBlanks.2 item, _, more⟩
    | comma h item more =>
      obtain ⟨rfl, rfl⟩ := List.cons.inj (hcs.symm.trans h)
      rw [if_neg (by decide)]
      exact ⟨_, _, _, ⟨rfl, rfl⟩, item, _, more⟩
  · intro h
    split at h
    · next hc =>
      subst hc
      subst h
      exact ⟨[], .close hcs⟩
    · obtain ⟨front, m, next, hfront, htext, items, hitems⟩ := h
      cases behind with
      | true =>
        obtain ⟨rfl, rfl⟩ := hfront
        exact ⟨_, .comma hcs htext hitems⟩
      | false =>
        obtain rfl := hfront
        exact ⟨_, .first (text_skipBlanks.1 (hcs ▸ htext)) hitems⟩

/-- Inside an object there is its end or the next member. -/
theorem inner_object_iff {behind : Bool} {cs mid tail : List Char} {c : Char}
    (hcs : skipBlanks cs = c :: tail) :
    Inner .object behind cs mid ↔
      if c = '\x7d' then mid = tail
      else ∃ front m next,
        (if behind then c = ',' ∧ ∃ name, Name tail name front else ∃ name, Name (c :: tail) name front)
          ∧ Text front m next ∧ Inner .object true next mid := by
  constructor
  · rintro ⟨members, hmembers⟩
    cases hmembers with
    | close h =>
      obtain ⟨rfl, rfl⟩ := List.cons.inj (hcs.symm.trans h)
      exact if_pos rfl ▸ rfl
    | first hname item more =>
      obtain ⟨front, hquote⟩ := hname.head
      obtain ⟨rfl, rfl⟩ := List.cons.inj (hcs.symm.trans hquote)
      rw [if_neg (by decide)]
      exact ⟨_, _, _, ⟨_, hcs ▸ name_skipBlanks.2 hname⟩, item, _, more⟩
    | comma h hname item more =>
      obtain ⟨rfl, rfl⟩ := List.cons.inj (hcs.symm.trans h)
      rw [if_neg (by decide)]
      exact ⟨_, _, _, ⟨rfl, _, hname⟩, item, _, more⟩
  · intro h
    split at h
    · next hc =>
      subst hc
      subst h
      exact ⟨[], .close hcs⟩
    · obtain ⟨front, m, next, hfront, htext, members, hmembers⟩ := h
      cases behind with
      | true =>
        obtain ⟨rfl, name, hname⟩ := hfront
        exact ⟨_, .comma hcs hname htext hmembers⟩
      | false =>
        obtain ⟨name, hname⟩ := hfront
        exact ⟨_, .first (name_skipBlanks.1 (hcs ▸ hname)) htext hmembers⟩

/-- Inside a frame there is its end or the next value in it. -/
theorem inner_iff (frame : Frame) {behind : Bool} {cs mid tail : List Char} {c : Char}
    (hcs : skipBlanks cs = c :: tail) :
    Inner frame behind cs mid ↔
      if c = frame.closer then mid = tail
      else ∃ front m next,
        (if behind then c = ',' ∧ NameIn frame tail front else NameIn frame (c :: tail) front)
          ∧ Text front m next ∧ Inner frame true next mid := by
  cases frame with
  | list => exact inner_list_iff hcs
  | object => exact inner_object_iff hcs

theorem Inner.ne_nil {frame : Frame} {behind : Bool} {cs mid : List Char}
    (h : Inner frame behind cs mid) : skipBlanks cs ≠ [] := by
  intro hcs
  cases frame with
  | list =>
    obtain ⟨items, hitems⟩ := h
    cases hitems with
    | close h => cases hcs.symm.trans h
    | first item _ => exact item.ne_nil hcs
    | comma h _ _ => cases hcs.symm.trans h
  | object =>
    obtain ⟨members, hmembers⟩ := h
    cases hmembers with
    | close h => cases hcs.symm.trans h
    | first hname _ _ =>
      obtain ⟨front, hquote⟩ := hname.head
      cases hcs.symm.trans hquote
    | comma h _ _ _ => cases hcs.symm.trans h

theorem closes_iff {frames : List Frame} {behind : Bool} {cs rest : List Char} :
    Closes frames behind cs rest
      ↔ ∃ inside mid, NextValue frames behind cs inside mid ∧ Continues inside mid rest := by
  induction frames generalizing behind cs with
  | nil =>
    constructor
    · exact fun h => ⟨[], cs, ⟨rfl, rfl⟩, h⟩
    · rintro ⟨_, _, ⟨rfl, rfl⟩, h⟩
      exact h
  | cons frame outer ih =>
    cases hcs : skipBlanks cs with
    | nil =>
      simp only [NextValue, hcs, false_and, exists_false, iff_false]
      rintro ⟨mid, hinner, -⟩
      exact hinner.ne_nil hcs
    | cons c tail =>
      simp only [NextValue, hcs, Closes, inner_iff frame hcs]
      split
      · simp only [exists_eq_left]
        exact ih
      · constructor
        · rintro ⟨mid, ⟨front, m, next, hfront, htext, hinner⟩, hcloses⟩
          exact ⟨_, front, ⟨rfl, hfront⟩, m, next, htext, mid, hinner, hcloses⟩
        · rintro ⟨_, front, ⟨rfl, hfront⟩, m, next, htext, mid, hinner, hcloses⟩
          exact ⟨mid, ⟨front, m, next, hfront, htext, hinner⟩, hcloses⟩

/-- A value is a scalar or what is left to come behind its opening bracket. -/
theorem exists_text_iff {frames : List Frame} {cs rest : List Char} :
    (∃ m mid, Text cs m mid ∧ Closes frames true mid rest)
      ↔ ∃ start mid, StartOf cs start mid ∧ Closes (start.toList ++ frames) start.isNone mid rest := by
  constructor
  · rintro ⟨m, mid, htext, hcloses⟩
    obtain ⟨c, tail, hcs⟩ := List.exists_cons_of_ne_nil htext.ne_nil
    have hsign := (text_iff_bySign hcs).1 htext
    by_cases hlist : c = '['
    · subst hlist
      obtain ⟨items, hitems, -⟩ := hsign
      exact ⟨some .list, tail, hcs, mid, ⟨items, hitems⟩, hcloses⟩
    by_cases hobject : c = '\x7b'
    · subst hobject
      obtain ⟨members, hmembers, -⟩ := hsign
      exact ⟨some .object, tail, hcs, mid, ⟨members, hmembers⟩, hcloses⟩
    exact ⟨none, mid, ⟨⟨c, tail, hcs, hlist, hobject⟩, m, htext⟩, hcloses⟩
  · rintro ⟨start, mid, hstart, hcloses⟩
    rcases start with _ | _ | _
    · exact ⟨_, mid, hstart.2.choose_spec, hcloses⟩
    · obtain ⟨mid', ⟨items, hitems⟩, hcloses⟩ := hcloses
      exact ⟨.array items, mid', (text_iff_bySign hstart).2 ⟨items, hitems, rfl⟩, hcloses⟩
    · obtain ⟨mid', ⟨members, hmembers⟩, hcloses⟩ := hcloses
      exact ⟨.object members, mid', (text_iff_bySign hstart).2 ⟨members, hmembers, rfl⟩, hcloses⟩

theorem StartOf.length_lt {start : Option Frame} {cs mid : List Char} (h : StartOf cs start mid) :
    mid.length < cs.length := by
  rcases start with _ | _ | _
  · exact h.2.choose_spec.length_lt
  · exact length_of_skipBlanks h
  · exact length_of_skipBlanks h

/-! ## Values -/

namespace Reader

/-- A start of a value, and what closes behind it: what is skipped in one round. -/
def skipRound (frames : List Frame) : Reader (List Frame) := do
  match ← skipStart with
  | none => skipClosings true frames
  | some frame => skipClosings false (frame :: frames)

theorem skipRound_exact (frames : List Frame) (cs : List Char) :
    Exact (skipRound frames) cs fun inside mid => ∃ start front, StartOf cs start front
      ∧ NextValue (start.toList ++ frames) start.isNone front inside mid :=
  (skipStart_exact cs).bind fun start front _ => by
    cases start with
    | none => exact skipClosings_exact frames true front
    | some frame => exact skipClosings_exact (frame :: frames) false front

theorem skipWithin_exact {rounds : Nat} : ∀ {frames : List Frame} {cs : List Char},
    cs.length < rounds → Exact (skipWithin rounds frames) cs fun _ rest =>
      ∃ m mid, Text cs m mid ∧ Closes frames true mid rest := by
  induction rounds with
  | zero => exact fun h => absurd h (Nat.not_lt_zero _)
  | succ rounds ih =>
    intro frames cs hlength
    refine ((skipRound_exact frames cs).bind (S := fun inside mid _ rest => Continues inside mid rest)
      fun inside mid hnext => ?_).congr fun _ rest => ?_
    · obtain ⟨start, front, hstart, hnext⟩ := hnext
      cases inside with
      | nil => exact (Exact.pure () mid).congr fun _ _ => by simp [Continues]
      | cons frame inside =>
        have hlt := hstart.length_lt
        have hle := hnext.length_le
        exact ih (by omega)
    · rw [exists_text_iff]
      constructor
      · rintro ⟨inside, mid, ⟨start, front, hstart, hnext⟩, hcontinues⟩
        exact ⟨start, front, hstart, closes_iff.2 ⟨inside, mid, hnext, hcontinues⟩⟩
      · rintro ⟨start, front, hstart, hcloses⟩
        obtain ⟨inside, mid, hnext, hcontinues⟩ := closes_iff.1 hcloses
        exact ⟨inside, mid, ⟨start, front, hstart, hnext⟩, hcontinues⟩

/-- **Whatever is a text is skipped**, however deep it nests. -/
theorem skipValue_exact (cs : List Char) :
    Exact skipValue cs fun _ rest => ∃ m, Text cs m rest := by
  have hlength : cs.length < (utf8 cs).length + 1 := Nat.lt_succ_of_le (length_le_length_utf8 cs)
  have hskip : Exact skipValue cs fun _ rest => ∃ m mid, Text cs m mid ∧ Closes [] true mid rest :=
    (skipWithin_exact hlength).later fun p => ⟨p, rfl⟩
  refine hskip.congr fun _ rest => ?_
  constructor
  · rintro ⟨m, mid, htext, rfl⟩
    exact ⟨m, htext⟩
  · rintro ⟨m, htext⟩
    exact ⟨m, rest, htext, rfl⟩

end Reader

end MetaCache.Json
