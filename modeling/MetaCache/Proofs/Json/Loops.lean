import MetaCache.Proofs.Json.Numerals
import MetaCache.Proofs.Json.Quoted

/-!
# Loops over items and members

A loop takes one entry after the other, and its state goes on from one to the next: a `Walk`. If
every step ends well exactly with the texts that it takes, then a whole list or object does
(`list_exact`, `object_exact`). Nothing else is asked of the steps, so the same two statements serve
a list that is gathered, an object whose members are sorted out by name and one that is checked.
-/

namespace MetaCache.Json

open MetaCache.Text

variable {σ : Type}

/-! ## Walks -/

theorem walk_nil_iff {ε : Type} {takes : σ → ε → σ → Prop} {s s' : σ} :
    Walk takes s [] s' ↔ s' = s := by
  constructor
  · intro h
    cases h
    rfl
  · rintro rfl
    exact .nil _

theorem walk_cons_iff {ε : Type} {takes : σ → ε → σ → Prop} {s s'' : σ} {e : ε} {es : List ε} :
    Walk takes s (e :: es) s'' ↔ ∃ s', takes s e s' ∧ Walk takes s' es s'' := by
  constructor
  · intro h
    cases h with
    | cons head tail => exact ⟨_, head, tail⟩
  · rintro ⟨s', head, tail⟩
    exact .cons head tail

/-! ## Fronts -/

/-- Behind blanks there is a sign of some kind. -/
def Ahead (p : Char → Prop) (cs mid : List Char) : Prop :=
  match skipBlanks cs with
  | [] => False
  | c :: tail => p c ∧ mid = c :: tail

/-- Where the next entry begins, behind the comma that an entry behind asks for. -/
def Front (p : Char → Prop) : Bool → List Char → List Char → Prop
  | false, cs, mid => Ahead p cs mid
  | true, cs, mid => ∃ front, skipBlanks cs = ',' :: front ∧ Ahead p front mid

theorem Ahead.skipBlanks_eq {p : Char → Prop} {cs mid : List Char} (h : Ahead p cs mid) :
    skipBlanks cs = mid := by
  unfold Ahead at h
  split at h
  · exact h.elim
  · next hcs => rw [hcs, h.2]

theorem ahead_eq_iff {k : Char} {cs mid : List Char} :
    Ahead (· = k) cs mid ↔ ∃ rest, mid = k :: rest ∧ skipBlanks cs = k :: rest := by
  unfold Ahead
  split
  · next hcs => simp [hcs]
  · next c tail hcs =>
    rw [hcs]
    constructor
    · rintro ⟨rfl, rfl⟩
      exact ⟨tail, rfl, rfl⟩
    · rintro ⟨rest, rfl, heq⟩
      obtain ⟨rfl, rfl⟩ := List.cons.inj heq
      exact ⟨rfl, rfl⟩

theorem Front.length_le {p : Char → Prop} {behind : Bool} {cs mid : List Char}
    (h : Front p behind cs mid) : mid.length ≤ cs.length := by
  cases behind with
  | false => exact Ahead.skipBlanks_eq h ▸ skipBlanks_length_le cs
  | true =>
    obtain ⟨front, hcomma, h⟩ := h
    rw [← h.skipBlanks_eq]
    exact Nat.le_trans (skipBlanks_length_le front) (Nat.le_of_lt (length_of_skipBlanks hcomma))

/-- A text of an item is ahead. -/
theorem Text.ahead {cs rest : List Char} {m : Meaning} (h : Text cs m rest) :
    Ahead (· ≠ ']') cs (skipBlanks cs) := by
  obtain ⟨c, tail, hcs⟩ := List.exists_cons_of_ne_nil h.ne_nil
  simp only [Ahead, hcs]
  exact ⟨(h.head hcs).1, trivial⟩

theorem Name.ahead {cs rest : List Char} {name : Option String} (h : Name cs name rest) :
    Ahead (· = '"') cs (skipBlanks cs) := by
  obtain ⟨front, hcs⟩ := h.head
  simp only [Ahead, hcs]
  exact ⟨trivial, trivial⟩

/-- A list is closed, or an item is next. -/
theorem items_iff {behind : Bool} {cs rest : List Char} {items : List Meaning} :
    Items Text behind cs items rest ↔ (items = [] ∧ skipBlanks cs = ']' :: rest)
      ∨ ∃ front m next more, items = m :: more ∧ Front (· ≠ ']') behind cs front
        ∧ Text front m next ∧ Items Text true next more rest := by
  constructor
  · intro h
    cases h with
    | close h => exact .inl ⟨rfl, h⟩
    | first item more => exact .inr ⟨_, _, _, _, rfl, item.ahead, text_skipBlanks.2 item, more⟩
    | comma h item more =>
      exact .inr ⟨_, _, _, _, rfl, ⟨_, h, item.ahead⟩, text_skipBlanks.2 item, more⟩
  · rintro (⟨rfl, h⟩ | ⟨front, m, next, more, rfl, hfront, item, hmore⟩)
    · exact .close h
    · cases behind with
      | false => exact .first (text_skipBlanks.1 (hfront.skipBlanks_eq ▸ item)) hmore
      | true =>
        obtain ⟨_, hcomma, hfront⟩ := hfront
        exact .comma hcomma (text_skipBlanks.1 (hfront.skipBlanks_eq ▸ item)) hmore

/-- An object is closed, or a member is next. -/
theorem members_iff {behind : Bool} {cs rest : List Char}
    {members : List (Option String × Meaning)} :
    Members Text behind cs members rest ↔ (members = [] ∧ skipBlanks cs = '\x7d' :: rest)
      ∨ ∃ front name value m next more, members = (name, m) :: more
        ∧ Front (· = '"') behind cs front ∧ Name front name value ∧ Text value m next
        ∧ Members Text true next more rest := by
  constructor
  · intro h
    cases h with
    | close h => exact .inl ⟨rfl, h⟩
    | first hname item more =>
      exact .inr ⟨_, _, _, _, _, _, rfl, hname.ahead, name_skipBlanks.2 hname, item, more⟩
    | comma h hname item more =>
      exact .inr ⟨_, _, _, _, _, _, rfl, ⟨_, h, hname.ahead⟩, name_skipBlanks.2 hname, item, more⟩
  · rintro (⟨rfl, h⟩ | ⟨front, name, value, m, next, more, rfl, hfront, hname, item, hmore⟩)
    · exact .close h
    · cases behind with
      | false => exact .first (name_skipBlanks.1 (hfront.skipBlanks_eq ▸ hname)) item hmore
      | true =>
        obtain ⟨_, hcomma, hfront⟩ := hfront
        exact .comma hcomma (name_skipBlanks.1 (hfront.skipBlanks_eq ▸ hname)) item hmore

/-- Members whose names are strings, as they stand in a meaning. -/
def named {α : Type} (members : List (String × α)) : List (Option String × α) :=
  members.map fun m => (some m.1, m.2)

theorem name_cons_iff {front rest : List Char} {name : Option String} :
    Name ('"' :: front) name rest
      ↔ ∃ pieces mid, Content front pieces mid ∧ text? pieces = name
        ∧ skipBlanks mid = ':' :: rest := by
  have hquote : skipBlanks ('"' :: front) = '"' :: front := skipBlanks_of_not (by decide) front
  constructor
  · rintro ⟨h, hcontent, hcolon⟩
    obtain rfl := (List.cons.inj (hquote.symm.trans h)).2
    exact ⟨_, _, hcontent, rfl, hcolon⟩
  · rintro ⟨pieces, mid, hcontent, rfl, hcolon⟩
    exact .mk hquote hcontent hcolon

/-- A member is next, and its quote is ahead. -/
theorem Front.exists_quote {behind : Bool} {cs mid : List Char} (h : Front (· = '"') behind cs mid) :
    ∃ front, mid = '"' :: front := by
  cases behind with
  | false =>
    obtain ⟨front, hmid, -⟩ := ahead_eq_iff.1 h
    exact ⟨front, hmid⟩
  | true =>
    obtain ⟨_, -, h⟩ := h
    obtain ⟨front, hmid, -⟩ := ahead_eq_iff.1 h
    exact ⟨front, hmid⟩

namespace Reader

/-! ## Whether an entry follows -/

/-- What it means that an entry follows or that none does. -/
def Follows (p : Char → Prop) (close : Char) (first : Bool) (cs : List Char) (more : Bool)
    (mid : List Char) : Prop :=
  if more then Front p (!first) cs mid else Ahead (· = close) cs mid

section

variable {p : Char → Prop} {close : Char} {cs tail : List Char} {c : Char} {first : Bool}

theorem follows_of_nil (hcs : skipBlanks cs = []) (more : Bool) (mid : List Char) :
    ¬ Follows p close first cs more mid := by
  cases more <;> cases first <;> simp [Follows, Front, Ahead, hcs]

theorem follows_of_close (hp : ¬ p close) (hcomma : close ≠ ',') (hcs : skipBlanks cs = close :: tail)
    (more : Bool) (mid : List Char) :
    Follows p close first cs more mid ↔ more = false ∧ mid = close :: tail := by
  cases more <;> cases first <;> simp [Follows, Front, Ahead, hcs, hcomma, hp]

theorem follows_first (hclose : c ≠ close) (hcs : skipBlanks cs = c :: tail)
    (more : Bool) (mid : List Char) :
    Follows p close true cs more mid ↔ more = true ∧ p c ∧ mid = c :: tail := by
  cases more <;> simp [Follows, Front, Ahead, hcs, hclose]

theorem follows_comma (hclose : close ≠ ',') (hcs : skipBlanks cs = ',' :: tail)
    (more : Bool) (mid : List Char) :
    Follows p close false cs more mid ↔ more = true ∧ Ahead p tail mid := by
  cases more <;> simp [Follows, Front, hcs, Ahead, hclose.symm]

theorem not_follows (hclose : c ≠ close) (hcomma : c ≠ ',') (hcs : skipBlanks cs = c :: tail)
    (more : Bool) (mid : List Char) : ¬ Follows p close false cs more mid := by
  cases more <;> simp [Follows, Front, hcs, Ahead, hclose, hcomma]

end

theorem hasItem_exact (first : Bool) (cs : List Char) :
    Exact (hasItem first) cs (Follows (· ≠ ']') ']' first cs) := by
  refine .nextSign (fun hcs => ?_) (fun c tail hcs => .ifSign ']' (by decide) (fun hc => ?_)
    fun hc => ?_)
  · exact (Exact.never (.failNext _) _).congr fun more mid =>
      (iff_false_right (follows_of_nil hcs more mid)).2 id
  · subst hc
    exact (Exact.pure false _).congr fun more mid =>
      (follows_of_close (by simp) (by decide) hcs more mid).symm
  · cases first with
    | true =>
      exact (Exact.pure true _).congr fun more mid => by simp [follows_first hc hcs, hc]
    | false =>
      refine .ifSign ',' (by decide) (fun hcomma => ?_) fun hcomma => ?_
      · subst hcomma
        refine Exact.congr (R := fun more mid => more = true ∧ Ahead (· ≠ ']') tail mid)
          (.advance (by decide) (.nextSign (fun htail => ?_) fun d front htail =>
            .ifSign ']' (by decide) (fun hd => ?_) fun hd => ?_))
          fun more mid => (follows_comma (by decide) hcs more mid).symm
        · exact (Exact.never (.failNext _) _).congr fun _ _ => by simp [Ahead, htail]
        · exact (Exact.never (.failNext _) _).congr fun _ _ => by simp [Ahead, htail, hd]
        · exact (Exact.pure true _).congr fun _ _ => by simp [Ahead, htail, hd]
      · exact (Exact.never (.failNext _) _).congr fun more mid =>
          (iff_false_right (not_follows hc hcomma hcs more mid)).2 id

theorem hasMember_exact (first : Bool) (cs : List Char) :
    Exact (hasMember first) cs (Follows (· = '"') '\x7d' first cs) := by
  refine .nextSign (fun hcs => ?_) (fun c tail hcs => .ifSign '\x7d' (by decide) (fun hc => ?_)
    fun hc => ?_)
  · exact (Exact.never (.failNext _) _).congr fun more mid =>
      (iff_false_right (follows_of_nil hcs more mid)).2 id
  · subst hc
    exact (Exact.pure false _).congr fun more mid =>
      (follows_of_close (by decide) (by decide) hcs more mid).symm
  · cases first with
    | true =>
      refine .ifSign '"' (by decide) (fun hquote => ?_) fun hquote => ?_
      · exact (Exact.pure true _).congr fun more mid => by simp [follows_first hc hcs, hquote]
      · exact (Exact.never (.failNext _) _).congr fun more mid => by
          simp [follows_first hc hcs, hquote]
    | false =>
      refine .ifSign ',' (by decide) (fun hcomma => ?_) fun hcomma => ?_
      · subst hcomma
        refine Exact.congr (R := fun more mid => more = true ∧ Ahead (· = '"') tail mid)
          (.advance (by decide) (.nextSign (fun htail => ?_) fun d front htail =>
            .ifSign '"' (by decide) (fun hd => ?_) fun hd => ?_))
          fun more mid => (follows_comma (by decide) hcs more mid).symm
        · exact (Exact.never (.failNext _) _).congr fun _ _ => by simp [Ahead, htail]
        · exact (Exact.pure true _).congr fun _ _ => by simp [Ahead, htail, hd]
        · refine (Exact.never (?_ : Yields _ _) _).congr fun _ _ => by simp [Ahead, htail, hd]
          split
          · exact .failNext _
          · exact .failNext _
      · exact (Exact.never (.failNext _) _).congr fun more mid =>
          (iff_false_right (not_follows hc hcomma hcs more mid)).2 id

/-! ## Lists -/

/-- The step ends well exactly with the texts that it takes. -/
def TakesItems (step : σ → Reader σ) (takes : σ → Meaning → σ → Prop) : Prop :=
  ∀ s cs, Exact (step s) cs fun s' rest => ∃ m, Text cs m rest ∧ takes s m s'

theorem itemsWithin_exact {step : σ → Reader σ} {takes : σ → Meaning → σ → Prop}
    (hstep : TakesItems step takes) {rounds : Nat} : ∀ (first : Bool) {s : σ} {cs : List Char},
      cs.length < rounds → Exact (itemsWithin step rounds first s) cs fun s' mid =>
        ∃ items rest, mid = ']' :: rest ∧ Items Text (!first) cs items rest
          ∧ Walk takes s items s' := by
  induction rounds with
  | zero => exact fun _ _ _ h => absurd h (Nat.not_lt_zero _)
  | succ rounds ih =>
    intro first s cs hlength
    refine ((hasItem_exact first cs).bind (S := fun more mid s' rest =>
      if more then ∃ m next items last, Text mid m next ∧ rest = ']' :: last
        ∧ Items Text true next items last ∧ Walk takes s (m :: items) s'
      else s' = s ∧ rest = mid) fun more mid hfollows => ?_).congr fun s' mid => ?_
    · cases more with
      | false => exact .pure s mid
      | true =>
        have hle : mid.length ≤ cs.length := hfollows.length_le
        refine ((hstep s mid).bind fun s₁ next hnext => ih false ?_).congr fun s' rest => ?_
        · obtain ⟨m, htext, -⟩ := hnext
          have := htext.length_lt
          omega
        · simp only [walk_cons_iff]
          constructor
          · rintro ⟨s₁, next, ⟨m, htext, htakes⟩, items, last, hrest, hitems, hwalk⟩
            exact ⟨m, next, items, last, htext, hrest, hitems, s₁, htakes, hwalk⟩
          · rintro ⟨m, next, items, last, htext, hrest, hitems, s₁, htakes, hwalk⟩
            exact ⟨s₁, next, ⟨m, htext, htakes⟩, items, last, hrest, hitems, hwalk⟩
    · constructor
      · rintro ⟨more, front, hfollows, hmore⟩
        cases more with
        | false =>
          obtain ⟨rfl, rfl⟩ := hmore
          obtain ⟨rest, rfl, hclose⟩ := ahead_eq_iff.1 hfollows
          exact ⟨[], rest, rfl, .close hclose, .nil _⟩
        | true =>
          obtain ⟨m, next, items, last, htext, rfl, hitems, hwalk⟩ := hmore
          exact ⟨m :: items, last, rfl,
            items_iff.2 (.inr ⟨front, m, next, items, rfl, hfollows, htext, hitems⟩), hwalk⟩
      · rintro ⟨items, rest, rfl, hitems, hwalk⟩
        rcases items_iff.1 hitems with ⟨rfl, hclose⟩ | ⟨front, m, next, items, rfl, hfront, htext, hitems⟩
        · exact ⟨false, _, ahead_eq_iff.2 ⟨rest, rfl, hclose⟩, walk_nil_iff.1 hwalk, rfl⟩
        · exact ⟨true, front, hfront, m, next, items, rest, htext, rfl, hitems, hwalk⟩

theorem skipBlanks_bracket {c : Char} (h : isBlankChar c = false) (cs rest : List Char) :
    skipBlanks (c :: cs) = c :: rest ↔ rest = cs := by
  rw [skipBlanks_of_not h, List.cons.injEq]
  exact ⟨fun h => h.2.symm, fun h => ⟨rfl, h.symm⟩⟩

/-- **A list is read exactly** if its items are. -/
theorem list_exact {levels : Nat} {step : Nat → σ → Reader σ} {takes : σ → Meaning → σ → Prop}
    (hstep : TakesItems (step levels) takes) (s : σ) (cs : List Char) :
    Exact (list (levels + 1) step s) ('[' :: cs) fun s' rest =>
      ∃ items, Items Text false cs items rest ∧ Walk takes s items s' := by
  have hitems : Exact (items (step levels) s) cs fun s' mid =>
      ∃ items rest, mid = ']' :: rest ∧ Items Text false cs items rest ∧ Walk takes s items s' :=
    (itemsWithin_exact hstep true
      (Nat.lt_succ_of_le (length_le_length_utf8 cs))).later fun p => ⟨p, rfl⟩
  refine .located (.advance (by decide) ((hitems.enclosed fun _ mid _ => closeList_exact mid).congr
    fun s' rest => ?_))
  constructor
  · rintro ⟨mid, ⟨items, rest', rfl, hitems, hwalk⟩, hclose⟩
    rw [skipBlanks_bracket (by decide)] at hclose
    exact ⟨items, hclose ▸ hitems, hwalk⟩
  · rintro ⟨items, hitems, hwalk⟩
    exact ⟨_, ⟨items, rest, rfl, hitems, hwalk⟩, (skipBlanks_bracket (by decide) _ _).2 rfl⟩

/-! ## Objects -/

/-- The step, which gets the name, ends well exactly with the texts behind it that it takes. -/
def TakesMembers (step : σ → String → Reader σ) (takes : σ → String × Meaning → σ → Prop) : Prop :=
  ∀ s name cs, Exact (step s name) cs fun s' rest =>
    ∃ value m, skipBlanks cs = ':' :: value ∧ Text value m rest ∧ takes s (name, m) s'

theorem membersWithin_exact {step : σ → String → Reader σ} {takes : σ → String × Meaning → σ → Prop}
    (hstep : TakesMembers step takes) {rounds : Nat} : ∀ (first : Bool) {s : σ} {cs : List Char},
      cs.length < rounds → Exact (membersWithin step rounds first s) cs fun s' mid =>
        ∃ members rest, mid = '\x7d' :: rest ∧ Members Text (!first) cs (named members) rest
          ∧ Walk takes s members s' := by
  induction rounds with
  | zero => exact fun _ _ _ h => absurd h (Nat.not_lt_zero _)
  | succ rounds ih =>
    intro first s cs hlength
    refine ((hasMember_exact first cs).bind (S := fun more mid s' rest =>
      if more then ∃ name value m next members last, Name mid (some name) value ∧ Text value m next
        ∧ rest = '\x7d' :: last ∧ Members Text true next (named members) last
        ∧ Walk takes s ((name, m) :: members) s'
      else s' = s ∧ rest = mid) fun more mid hfollows => ?_).congr fun s' mid => ?_
    · cases more with
      | false => exact .pure s mid
      | true =>
        have hle : mid.length ≤ cs.length := hfollows.length_le
        obtain ⟨front, rfl⟩ := Front.exists_quote hfollows
        refine .advance (by decide) (((string_exact front).bind fun name next hname =>
          (hstep s name next).bind fun s₁ next' hnext => ih false ?_).congr
            fun s' rest => ?_)
        · obtain ⟨pieces, hcontent, -⟩ := hname
          obtain ⟨value, m, hcolon, htext, -⟩ := hnext
          have := hcontent.length_lt
          have := length_of_skipBlanks hcolon
          have := htext.length_lt
          simp only [List.length_cons] at hle
          omega
        · simp only [walk_cons_iff, if_true, name_cons_iff]
          constructor
          · rintro ⟨name, next, ⟨pieces, hcontent, hname⟩, s₁, next', ⟨value, m, hcolon, htext, htakes⟩,
              members, last, hrest, hmembers, hwalk⟩
            exact ⟨name, value, m, next', members, last, ⟨pieces, next, hcontent, hname, hcolon⟩, htext,
              hrest, hmembers, s₁, htakes, hwalk⟩
          · rintro ⟨name, value, m, next', members, last, ⟨pieces, next, hcontent, hname, hcolon⟩,
              htext, hrest, hmembers, s₁, htakes, hwalk⟩
            exact ⟨name, next, ⟨pieces, hcontent, hname⟩, s₁, next', ⟨value, m, hcolon, htext, htakes⟩,
              members, last, hrest, hmembers, hwalk⟩
    · constructor
      · rintro ⟨more, front, hfollows, hmore⟩
        cases more with
        | false =>
          obtain ⟨rfl, rfl⟩ := hmore
          obtain ⟨rest, rfl, hclose⟩ := ahead_eq_iff.1 hfollows
          exact ⟨[], rest, rfl, .close hclose, .nil _⟩
        | true =>
          obtain ⟨name, value, m, next, members, last, hname, htext, rfl, hmembers, hwalk⟩ := hmore
          exact ⟨(name, m) :: members, last, rfl, members_iff.2
            (.inr ⟨front, some name, value, m, next, _, rfl, hfollows, hname, htext, hmembers⟩), hwalk⟩
      · rintro ⟨members, rest, rfl, hmembers, hwalk⟩
        rcases members_iff.1 hmembers with ⟨hnil, hclose⟩ | ⟨front, name, value, m, next, more, hcons,
          hfront, hname, htext, hmore⟩
        · obtain rfl := List.map_eq_nil_iff.1 hnil
          exact ⟨false, _, ahead_eq_iff.2 ⟨rest, rfl, hclose⟩, walk_nil_iff.1 hwalk, rfl⟩
        · obtain ⟨⟨name, m⟩, members, rfl, heq, rfl⟩ := List.map_eq_cons_iff.1 hcons
          obtain ⟨rfl, rfl⟩ := Prod.mk.inj heq
          exact ⟨true, front, hfront, name, value, m, next, members, rest, hname, htext, rfl, hmore,
            hwalk⟩

/-- What reads the members and makes something of them reads an object inside its braces. -/
theorem braces_exact {α : Type} {levels : Nat} {inside : Nat → Reader α} {cs : List Char}
    {R : α → List (String × Meaning) → Prop}
    (h : Exact (inside levels) cs fun a mid => ∃ members rest, mid = '\x7d' :: rest
      ∧ Members Text false cs (named members) rest ∧ R a members) :
    Exact (located (opening (levels + 1) fun levels => enclosed (inside levels) closeObject))
      ('\x7b' :: cs) fun a rest =>
        ∃ members, Members Text false cs (named members) rest ∧ R a members := by
  refine .located (.advance (by decide) ((h.enclosed fun _ mid _ => closeObject_exact mid).congr
    fun a rest => ?_))
  constructor
  · rintro ⟨mid, ⟨members, rest', rfl, hmembers, ha⟩, hclose⟩
    rw [skipBlanks_bracket (by decide)] at hclose
    exact ⟨members, hclose ▸ hmembers, ha⟩
  · rintro ⟨members, hmembers, ha⟩
    exact ⟨_, ⟨members, rest, rfl, hmembers, ha⟩, (skipBlanks_bracket (by decide) _ _).2 rfl⟩

theorem members_exact {step : σ → String → Reader σ} {takes : σ → String × Meaning → σ → Prop}
    (hstep : TakesMembers step takes) (s : σ) (cs : List Char) :
    Exact (members step s) cs fun s' mid => ∃ members rest, mid = '\x7d' :: rest
      ∧ Members Text false cs (named members) rest ∧ Walk takes s members s' :=
  (membersWithin_exact hstep true
    (Nat.lt_succ_of_le (length_le_length_utf8 cs))).later fun p => ⟨p, rfl⟩

/-- **An object is read exactly** if its members are. -/
theorem object_exact {levels : Nat} {step : Nat → σ → String → Reader σ}
    {takes : σ → String × Meaning → σ → Prop} (hstep : TakesMembers (step levels) takes) (s : σ)
    (cs : List Char) :
    Exact (object (levels + 1) step s) ('\x7b' :: cs) fun s' rest =>
      ∃ members, Members Text false cs (named members) rest ∧ Walk takes s members s' :=
  braces_exact (members_exact hstep s cs)

end Reader

end MetaCache.Json
