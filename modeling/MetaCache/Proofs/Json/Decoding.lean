import MetaCache.Proofs.Json.Holding

/-!
# Documents decode to what they hold

The reader of a schema ends well exactly with the data that the text ahead holds
(`ofSchema_exact`). So a document decodes to some data if and only if it is a text, from its
beginning to its end, that means something which holds the data (`decode_ok_iff`). How the text
spells its meaning, where blanks stand and in which order members come has no say in it.
-/

namespace MetaCache

open MetaCache.Json MetaCache.Text

namespace Json

namespace Reader

variable {α : Type} {H : Meaning → α → Prop}

/-- The reader ends well exactly with the data that the text ahead holds. -/
def Holds (r : Reader α) (H : Meaning → α → Prop) (cs : List Char) : Prop :=
  Exact r cs fun a rest => ∃ m, Text cs m rest ∧ H m a

/-- A reader that looks at the first sign. -/
theorem holds_of_sign {f : UInt8 → Reader α} {cs : List Char}
    (h : ∀ c tail, isBlankChar c = false → Exact (f (sign c)) (c :: tail) fun a rest =>
      ∃ m, BySign c tail m rest ∧ H m a) : Holds (startOfValue >>= f) H cs := by
  have hstart : Exact startOfValue cs fun b rest =>
      ∃ c tail, skipBlanks cs = c :: tail ∧ b = sign c ∧ rest = c :: tail := by
    refine .nextSign (fun hcs => ?_) fun c tail hcs => ?_
    · exact (Exact.never (.failNext _) _).congr fun _ _ => by simp [hcs]
    · exact (Exact.pure _ _).congr fun _ _ => by simp [hcs]
  refine (hstart.bind (S := fun _ mid a rest => ∃ m, Text mid m rest ∧ H m a) ?_).congr
    fun a rest => ?_
  · rintro _ _ ⟨c, tail, hcs, rfl, rfl⟩
    have hblank := not_isBlankChar_of_skipBlanks hcs
    exact (h c tail hblank).congr fun a rest => by simp only [text_cons_iff hblank]
  · constructor
    · rintro ⟨_, _, ⟨c, tail, hcs, rfl, rfl⟩, m, htext, ha⟩
      exact ⟨m, text_skipBlanks.1 (hcs ▸ htext), ha⟩
    · rintro ⟨m, htext, ha⟩
      obtain ⟨c, tail, hcs⟩ := List.exists_cons_of_ne_nil htext.ne_nil
      exact ⟨_, _, ⟨c, tail, hcs, rfl, rfl⟩, m, hcs ▸ text_skipBlanks.2 htext, ha⟩

/-- What is not expected is refused. -/
theorem unexpected_exact {expected : String} {cs : List Char} {R : α → List Char → Prop}
    (h : ∀ a rest, ¬ R a rest) : Exact (unexpected expected) cs R :=
  (Exact.never (.unexpected _) cs).congr fun a rest => (iff_false_right (h a rest)).2 id

/-! ## Leaves -/

theorem text_exact (expected : String) (cs : List Char) :
    Holds (text expected) (fun m s => m = .string (some s)) cs := by
  refine holds_of_sign fun c tail _ => .ifSign '"' (by decide) (fun hc => ?_) fun hc => ?_
  · subst hc
    exact (Exact.advance (by decide) (string_exact tail)).congr fun s rest => by
      simp [bySign_string]
  · exact unexpected_exact fun s rest => by simp [bySign_string, hc]

theorem flag_exact (cs : List Char) : Holds flag (fun m b => m = .bool b) cs := by
  refine holds_of_sign fun c tail _ => .ifSign 't' (by decide) (fun hc => ?_) fun htrue =>
    .ifSign 'f' (by decide) (fun hc => ?_) fun hfalse => ?_
  · subst hc
    exact (Exact.advance (by decide) (afterWord_exact ['r', 'u', 'e'] (by decide) true
      tail)).congr fun b rest => by simp [bySign_bool, and_comm]
  · subst hc
    exact (Exact.advance (by decide) (afterWord_exact ['a', 'l', 's', 'e'] (by decide)
      false tail)).congr fun b rest => by simp [bySign_bool, and_comm]
  · exact unexpected_exact fun b rest => by simp [bySign_bool, htrue, hfalse]

theorem accept_exact (word : String) (num : Number) (cs : List Char) :
    Exact (natural.accept word num) cs fun n rest =>
      (∃ (k : Int) (fits : _), num = .integer k fits ∧ 0 ≤ k ∧ n = UInt64.ofNat k.toNat)
        ∧ rest = cs := by
  cases num with
  | integer k fits =>
    refine .ite (fun hneg => ?_) fun hneg => ?_
    · refine (Exact.never (.mismatch _) cs).congr fun n rest => ⟨False.elim, ?_⟩
      rintro ⟨⟨k', fits', heq, hk, -⟩, -⟩
      cases heq
      omega
    · refine (Exact.pure _ cs).congr fun n rest => ?_
      constructor
      · rintro ⟨rfl, rfl⟩
        exact ⟨⟨k, fits, rfl, by omega, rfl⟩, rfl⟩
      · rintro ⟨⟨k', fits', heq, -, rfl⟩, rfl⟩
        cases heq
        exact ⟨rfl, rfl⟩
  | float x => exact (Exact.never (.mismatch _) cs).congr fun n rest => by simp

theorem natural_exact (word : String) (levels : Nat) (cs : List Char) :
    Holds (natural word) ((Schema.natural word).Holds levels) cs := by
  have hnumber (negative : Bool) (cs : List Char) :
      Exact (located (do natural.accept word (← number negative))) cs fun n rest =>
        ∃ (k : Int) (fits : _), (∃ digits, Digits cs digits rest
          ∧ digits.value? negative = some (.integer k fits)) ∧ 0 ≤ k ∧ n = UInt64.ofNat k.toNat := by
    refine .located (((number_exact negative cs).bind fun num mid _ =>
      accept_exact word num mid).congr fun n rest => ?_)
    constructor
    · rintro ⟨_, _, hdigits, ⟨k, fits, rfl, hk, rfl⟩, rfl⟩
      exact ⟨k, fits, hdigits, hk, rfl⟩
    · rintro ⟨k, fits, hdigits, hk, rfl⟩
      exact ⟨_, rest, hdigits, ⟨k, fits, rfl, hk, rfl⟩, rfl⟩
  have hmeaning {c : Char} {tail rest : List Char} {n : UInt64} :
      (∃ m, BySign c tail m rest ∧ (Schema.natural word).Holds levels m n)
        ↔ ∃ (k : Int) (fits : _), BySign c tail (.number (some (.integer k fits))) rest ∧ 0 ≤ k
          ∧ n = UInt64.ofNat k.toNat := by
    constructor
    · rintro ⟨_, hsign, k, fits, rfl, h⟩
      exact ⟨k, fits, hsign, h⟩
    · rintro ⟨k, fits, hsign, h⟩
      exact ⟨_, hsign, k, fits, rfl, h⟩
  refine holds_of_sign fun c tail _ => .ifSign '-' (by decide) (fun hc => ?_) fun hminus =>
    .ite (fun hdigit => ?_) fun hdigit => ?_
  · subst hc
    refine Exact.congr (.advance (by decide) (hnumber true tail)) fun n rest => ?_
    rw [hmeaning]
    simp [bySign_number]
  · rw [isDigit_sign] at hdigit
    refine (hnumber false (c :: tail)).congr fun n rest => ?_
    rw [hmeaning]
    simp [bySign_number, hminus, hdigit]
  · rw [isDigit_sign] at hdigit
    refine unexpected_exact fun n rest => ?_
    rw [hmeaning]
    simp [bySign_number, hminus, hdigit]

theorem optional_exact {content : Reader α} (h : ∀ cs, Holds content H cs) (cs : List Char) :
    Holds (optional content) (OrNull H) cs := by
  refine .nextSign (fun hcs => ?_) fun c tail hcs => ?_
  · refine ((h []).map some).congr fun given rest => ?_
    have hnil {m : Meaning} : ¬ Text [] m rest := fun htext => htext.ne_nil rfl
    have hcs' {m : Meaning} : ¬ Text cs m rest := fun htext => htext.ne_nil hcs
    simp [hnil, hcs']
  · have hblank := not_isBlankChar_of_skipBlanks hcs
    refine .ite (fun hc => ?_) fun hc => ?_
    · obtain rfl := (sign_eq_iff (k := 'n') (by decide)).1 (Option.some.inj hc)
      refine Exact.congr (.advance (by decide) (afterWord_exact ['u', 'l', 'l']
        (by decide) none tail)) fun given rest => ?_
      simp only [text_iff_bySign hcs]
      constructor
      · rintro ⟨rfl, rfl⟩
        exact ⟨.null, ⟨rfl, rfl⟩, .inl ⟨rfl, rfl⟩⟩
      · rintro ⟨m, ⟨htail, rfl⟩, ⟨-, rfl⟩ | ⟨hm, -⟩⟩
        · exact ⟨rfl, htail⟩
        · exact absurd rfl hm
    · have hne : c ≠ 'n' := fun heq => hc (congrArg some ((sign_eq_iff (k := 'n') (by decide)).2 heq))
      refine ((h (c :: tail)).map some).congr fun given rest => ?_
      simp only [text_iff_bySign hcs, text_cons_iff hblank]
      have hnull {m : Meaning} (hsign : BySign c tail m rest) : m ≠ .null := by
        rintro rfl
        exact hne (bySign_null.1 hsign).1
      constructor
      · rintro ⟨a, ⟨m, hsign, ha⟩, rfl⟩
        exact ⟨m, hsign, .inr ⟨hnull hsign, a, rfl, ha⟩⟩
      · rintro ⟨m, hsign, ⟨hm, -⟩ | ⟨-, a, rfl, ha⟩⟩
        · exact absurd hm (hnull hsign)
        · exact ⟨a, ⟨m, hsign, ha⟩, rfl⟩

theorem anyMembers_exact (levels : Nat) (cs : List Char) :
    Holds (anyMembers levels) (Schema.object.Holds levels) cs := by
  refine holds_of_sign fun c tail _ => .ifSign '\x7b' (by decide) (fun hc => ?_) fun hc => ?_
  · subst hc
    cases levels with
    | zero =>
      refine (Exact.never (.bind (P := fun _ => False) (.located (.failNext _)) fun _ h => h.elim)
        _).congr fun o rest => ⟨False.elim, ?_⟩
      rintro ⟨_, -, members, rfl, hdepth, -⟩
      exact Nat.not_succ_le_zero _ hdepth
    | succ levels =>
      refine ((gatherObject_exact value value_exact tail).map fun members =>
        Object.ofMembers members.reverse).congr fun o rest => ?_
      constructor
      · rintro ⟨_, ⟨members, ⟨hmembers, hdepth⟩, rfl⟩, rfl⟩
        refine ⟨_, bySign_object.2 ⟨rfl, hmembers⟩, members, rfl, ?_, by rw [List.reverse_reverse]⟩
        exact Nat.succ_le_succ (membersDepth_le_iff.2 hdepth)
      · rintro ⟨_, hsign, members, rfl, hdepth, rfl⟩
        exact ⟨_, ⟨members, ⟨(bySign_object.1 hsign).2,
          membersDepth_le_iff.1 (Nat.le_of_succ_le_succ hdepth)⟩, rfl⟩, by rw [List.reverse_reverse]⟩
  · refine unexpected_exact fun o rest => ?_
    rintro ⟨_, hsign, members, rfl, -⟩
    exact hc (bySign_object.1 hsign).1

theorem listOf_exact {item : Nat → Reader α} {levels : Nat} {I : Nat → Meaning → α → Prop}
    (h : ∀ levels cs, Holds (item levels) (I levels) cs) (cs : List Char) :
    Holds (listOf item levels) (fun m as => ∃ inside items, levels = inside + 1
      ∧ m = .array items ∧ List.Forall₂ (I inside) items as) cs := by
  refine holds_of_sign fun c tail _ => .ifSign '[' (by decide) (fun hc => ?_) fun hc => ?_
  · subst hc
    cases levels with
    | zero =>
      exact (Exact.never (.bind (P := fun _ => False) (.located (.failNext _)) fun _ h => h.elim)
        _).congr fun as rest => by simp
    | succ levels =>
      refine ((gatherList_exact item (h levels) tail).map List.reverse).congr fun as rest => ?_
      constructor
      · rintro ⟨_, ⟨items, as, hitems, has, rfl⟩, rfl⟩
        exact ⟨_, bySign_array.2 ⟨rfl, hitems⟩, levels, items, rfl, rfl,
          by rwa [List.reverse_reverse]⟩
      · rintro ⟨_, hsign, _, items, heq, rfl, has⟩
        obtain rfl := Nat.succ.inj heq
        exact ⟨_, ⟨items, as, (bySign_array.1 hsign).2, has, rfl⟩, by rw [List.reverse_reverse]⟩
  · refine unexpected_exact fun as rest => ?_
    rintro ⟨_, hsign, _, items, -, rfl, -⟩
    exact hc (bySign_array.1 hsign).1

/-! ## Choices -/

theorem variant_exact (names : List String) (cs : List Char) :
    Holds (variant names) (fun m index => ∃ name, m = .string (some name)
      ∧ names.finIdxOf? name = some index) cs := by
  refine .located (((text_exact _ cs).bind (S := fun name mid index rest =>
    names.finIdxOf? name = some index ∧ rest = mid) fun name mid _ => ?_).congr fun index rest => ?_)
  · cases hindex : names.finIdxOf? name with
    | none => exact (Exact.never (.mismatch _) mid).congr fun _ _ => by simp
    | some index => exact (Exact.pure index mid).congr fun _ _ => by simp [eq_comm]
  · constructor
    · rintro ⟨name, _, ⟨_, htext, rfl⟩, hindex, rfl⟩
      exact ⟨_, htext, name, rfl, hindex⟩
    · rintro ⟨_, htext, name, rfl, hindex⟩
      exact ⟨name, rest, ⟨_, htext, rfl⟩, hindex, rfl⟩

theorem variantKey_exact (names : List String) (cs : List Char) :
    Holds (variantKey names) (fun m index => ∃ name, m = .string (some name)
      ∧ names.finIdxOf? name = some index) cs := by
  refine .nextSign (fun hcs => ?_) fun c tail hcs => ?_
  · exact (Exact.never (.failNext _) _).congr fun _ _ =>
      ⟨False.elim, fun ⟨_, htext, _⟩ => htext.ne_nil hcs⟩
  · have hblank := not_isBlankChar_of_skipBlanks hcs
    split
    · next heq => cases heq
    · exact (variant_exact names (c :: tail)).congr fun _ _ => by
        simp only [text_iff_bySign hcs, text_cons_iff hblank]
    · next heq =>
      refine (Exact.never (.failNext _) _).congr fun _ _ => ⟨False.elim, ?_⟩
      rintro ⟨_, htext, name, rfl, -⟩
      rw [text_iff_bySign hcs] at htext
      obtain ⟨rfl, -⟩ := bySign_string.1 htext
      cases heq
    · next hquote _ heq =>
      refine (Exact.never (.failNext _) _).congr fun _ _ => ⟨False.elim, ?_⟩
      rintro ⟨_, htext, name, rfl, -⟩
      rw [text_iff_bySign hcs] at htext
      obtain ⟨rfl, -⟩ := bySign_string.1 htext
      exact hquote (Option.some.inj heq).symm

end Reader

theorem name_iff_text {cs rest : List Char} {name : Option String} :
    Name cs name rest ↔ ∃ mid, Text cs (.string name) mid ∧ skipBlanks mid = ':' :: rest := by
  constructor
  · rintro ⟨hquote, hcontent, hcolon⟩
    exact ⟨_, (text_iff_bySign hquote).2 (bySign_string.2 ⟨rfl, _, hcontent, rfl⟩), hcolon⟩
  · rintro ⟨mid, htext, hcolon⟩
    obtain ⟨c, tail, hcs⟩ := List.exists_cons_of_ne_nil htext.ne_nil
    rw [text_iff_bySign hcs, bySign_string] at htext
    obtain ⟨rfl, pieces, hcontent, rfl⟩ := htext
    exact .mk hcs hcontent hcolon

theorem members_singleton_iff {cs rest : List Char} {name : Option String} {m : Meaning} :
    Members Text false cs [(name, m)] rest
      ↔ ∃ value next, Name cs name value ∧ Text value m next ∧ skipBlanks next = '\x7d' :: rest := by
  constructor
  · intro h
    cases h with
    | first hname item more =>
      cases more with
      | close h => exact ⟨_, _, hname, item, h⟩
  · rintro ⟨value, next, hname, item, h⟩
    exact .first hname item (.close h)

namespace Reader

/-- `null` behind the name of a choice. -/
theorem unit_exact (index : α) (expected : String) (cs : List Char) :
    Holds (do
      if (← startOfValue) = 0x6e then
        advance
        word ull
        pure index
      else unexpected expected) (fun m i => m = .null ∧ i = index) cs := by
  refine holds_of_sign fun c tail _ => .ifSign 'n' (by decide) (fun hc => ?_) fun hc => ?_
  · subst hc
    exact (Exact.advance (by decide) (afterWord_exact ['u', 'l', 'l'] (by decide)
      index tail)).congr fun _ _ => by simp [bySign_null, and_comm]
  · exact unexpected_exact fun _ _ => by simp [bySign_null, hc]

/-- The brace behind the only member of an object. -/
theorem closing_exact (index : α) (cs : List Char) :
    Exact (do
      match ← nextSign with
      | none => failHere .endOfObject
      | some b =>
        if b = 0x7d then
          advance
          pure index
        else failHere .expectedValue) cs fun i rest => i = index ∧ skipBlanks cs = '\x7d' :: rest := by
  refine .nextSign (fun hcs => ?_) fun c tail hcs => .ifSign '\x7d' (by decide) (fun hc => ?_)
    fun hc => ?_
  · exact (Exact.never (.failHere _) _).congr fun _ _ => by simp [hcs]
  · subst hc
    exact (Exact.advance (by decide) (.pure index tail)).congr fun _ _ => by
      simp [hcs, eq_comm]
  · exact (Exact.never (.failHere _) _).congr fun _ _ => by simp [hcs, hc]

theorem choice_exact (names : List String) (levels : Nat) (cs : List Char) :
    Holds (choice names levels) ((Schema.choice names).Holds levels) cs := by
  refine holds_of_sign fun c tail hblank => .ifSign '"' (by decide) (fun hc => ?_) fun hquote =>
    .ifSign '\x7b' (by decide) (fun hc => ?_) fun hbrace => ?_
  · subst hc
    refine (variant_exact names ('"' :: tail)).congr fun index rest => ?_
    simp only [text_cons_iff hblank]
    constructor
    · rintro ⟨_, hsign, name, rfl, hindex⟩
      exact ⟨_, hsign, name, hindex, .inl rfl⟩
    · rintro ⟨m, hsign, name, hindex, rfl | ⟨-, rfl⟩⟩
      · exact ⟨_, hsign, name, rfl, hindex⟩
      · exact absurd (bySign_object.1 hsign).1 (by decide)
  · subst hc
    cases levels with
    | zero =>
      refine (Exact.never (.bind (P := fun _ => False) (.failNext _) fun _ h => h.elim) _).congr
        fun index rest => ⟨False.elim, ?_⟩
      rintro ⟨_, hsign, name, -, rfl | ⟨h, -⟩⟩
      · exact absurd (bySign_string.1 hsign).1 (by decide)
      · exact Nat.lt_irrefl 0 h
    | succ levels =>
      have hinside := (variantKey_exact names tail).bind fun index mid _ =>
        (colon_exact mid).bind fun _ value _ => unit_exact index "unit" value
      refine ((Exact.advance (c := '\x7b') (by decide) hinside).bind fun index mid _ =>
        closing_exact index mid).congr fun index rest => ?_
      constructor
      · rintro ⟨_, next, ⟨_, mid, ⟨_, htext, name, rfl, hindex⟩, _, value, hcolon, _, hnull, rfl, rfl⟩,
          rfl, hclose⟩
        exact ⟨_, bySign_object.2 ⟨rfl, members_singleton_iff.2
          ⟨value, next, name_iff_text.2 ⟨mid, htext, hcolon⟩, hnull, hclose⟩⟩, name, hindex,
          .inr ⟨Nat.succ_pos _, rfl⟩⟩
      · rintro ⟨_, hsign, name, hindex, rfl | ⟨-, rfl⟩⟩
        · exact absurd (bySign_string.1 hsign).1 (by decide)
        · obtain ⟨value, next, hname, hnull, hclose⟩ :=
            members_singleton_iff.1 (bySign_object.1 hsign).2
          obtain ⟨mid, htext, hcolon⟩ := name_iff_text.1 hname
          exact ⟨_, next, ⟨_, mid, ⟨_, htext, name, rfl, hindex⟩, (), value, hcolon, _, hnull, rfl, rfl⟩,
            rfl, hclose⟩
  · refine (Exact.never (.failNext _) _).congr fun index rest => ⟨False.elim, ?_⟩
    rintro ⟨_, hsign, name, -, rfl | ⟨-, rfl⟩⟩
    · exact hquote (bySign_string.1 hsign).1
    · exact hbrace (bySign_object.1 hsign).1

end Reader

end Json

/-! ## Records -/

namespace Fields

/-- What the items of an array give field by field, and what stands behind the last of them. -/
def ReadInOrder :
    (fields : Fields) → Nat → Bool → List Char → fields.Carrier → List Char → Prop
  | .nil, _, _, cs, _, mid => mid = cs
  | .cons _ .required schema rest, levels, behind, cs, (content, more), mid =>
    ∃ front m next, Front (· ≠ ']') behind cs front ∧ Text front m next
      ∧ schema.Holds levels m content ∧ rest.ReadInOrder levels true next more mid
  | .cons _ .mayBeAbsent schema rest, levels, behind, cs, (given, more), mid =>
    (∃ front, Ahead (· = ']') cs front ∧ given = none ∧ rest.ReadInOrder levels true front more mid)
      ∨ ∃ front m next content, Front (· ≠ ']') behind cs front ∧ Text front m next
        ∧ given = some content ∧ schema.Holds levels m content
        ∧ rest.ReadInOrder levels true next more mid

theorem items_nil_iff {behind : Bool} {cs rest : List Char} :
    Items Text behind cs [] rest ↔ skipBlanks cs = ']' :: rest := by
  rw [items_iff]
  simp

theorem items_cons_iff {behind : Bool} {cs rest : List Char} {m : Meaning} {items : List Meaning} :
    Items Text behind cs (m :: items) rest
      ↔ ∃ front next, Front (· ≠ ']') behind cs front ∧ Text front m next
        ∧ Items Text true next items rest := by
  rw [items_iff]
  constructor
  · rintro (⟨hnil, -⟩ | ⟨front, _, next, _, heq, hfront, htext, hitems⟩)
    · cases hnil
    · cases heq
      exact ⟨front, next, hfront, htext, hitems⟩
  · rintro ⟨front, next, hfront, htext, hitems⟩
    exact .inr ⟨front, m, next, items, rfl, hfront, htext, hitems⟩

/-- The closing bracket behind them makes the items a list. -/
theorem readInOrder_iff {levels : Nat} {rest : List Char} :
    ∀ {fields : Fields} {behind : Bool} {cs : List Char} {contents : fields.Carrier},
      (∃ mid, fields.ReadInOrder levels behind cs contents mid ∧ skipBlanks mid = ']' :: rest)
        ↔ ∃ items, Items Text behind cs items rest ∧ fields.HoldInOrder levels items contents
  | .nil, behind, cs, () => by
    simp [ReadInOrder, HoldInOrder, items_nil_iff]
  | .cons _ .required schema others, behind, cs, (content, more) => by
    constructor
    · rintro ⟨mid, ⟨front, m, next, hfront, htext, hcontent, hmore⟩, hclose⟩
      obtain ⟨items, hitems, hhold⟩ := readInOrder_iff.1 ⟨mid, hmore, hclose⟩
      exact ⟨m :: items, items_cons_iff.2 ⟨front, next, hfront, htext, hitems⟩, m, items, rfl,
        hcontent, hhold⟩
    · rintro ⟨_, hitems, m, items, rfl, hcontent, hhold⟩
      obtain ⟨front, next, hfront, htext, hitems⟩ := items_cons_iff.1 hitems
      obtain ⟨mid, hmore, hclose⟩ := readInOrder_iff.2 ⟨items, hitems, hhold⟩
      exact ⟨mid, ⟨front, m, next, hfront, htext, hcontent, hmore⟩, hclose⟩
  | .cons _ .mayBeAbsent schema others, behind, cs, (given, more) => by
    constructor
    · rintro ⟨mid, ⟨front, hfront, rfl, hmore⟩ | ⟨front, m, next, content, hfront, htext, rfl, hcontent,
        hmore⟩, hclose⟩
      · obtain ⟨items, hitems, hhold⟩ := readInOrder_iff.1 ⟨mid, hmore, hclose⟩
        obtain ⟨rest', rfl, hcs⟩ := ahead_eq_iff.1 hfront
        have hclosed : Items Text true (']' :: rest') [] rest' :=
          items_nil_iff.2 (skipBlanks_of_not (by decide) rest')
        obtain ⟨rfl, rfl⟩ := hitems.unique (fun _ _ _ _ _ _ h h' => h.unique h') hclosed
          (Nat.lt_succ_self _)
        exact ⟨[], items_nil_iff.2 hcs, .inl ⟨rfl, rfl, hhold⟩⟩
      · obtain ⟨items, hitems, hhold⟩ := readInOrder_iff.1 ⟨mid, hmore, hclose⟩
        exact ⟨m :: items, items_cons_iff.2 ⟨front, next, hfront, htext, hitems⟩,
          .inr ⟨m, items, content, rfl, rfl, hcontent, hhold⟩⟩
    · rintro ⟨_, hitems, ⟨rfl, rfl, hhold⟩ | ⟨m, items, content, rfl, rfl, hcontent, hhold⟩⟩
      · have hcs := items_nil_iff.1 hitems
        obtain ⟨mid, hmore, hclose⟩ := readInOrder_iff.2 ⟨[], items_nil_iff.2
          (skipBlanks_of_not (c := ']') (by decide) rest), hhold⟩
        exact ⟨mid, .inl ⟨_, ahead_eq_iff.2 ⟨rest, rfl, hcs⟩, rfl, hmore⟩, hclose⟩
      · obtain ⟨front, next, hfront, htext, hitems⟩ := items_cons_iff.1 hitems
        obtain ⟨mid, hmore, hclose⟩ := readInOrder_iff.2 ⟨items, hitems, hhold⟩
        exact ⟨mid, .inr ⟨front, m, next, content, hfront, htext, rfl, hcontent, hmore⟩, hclose⟩

end Fields

namespace Json.Reader

theorem takes_of_byName_none {strict : Bool} {levels : Nat} {key : String} {m : Meaning} :
    ∀ {fields : Fields} {draft draft' : fields.Draft}, byName fields levels key draft = none →
      (fields.Takes strict levels draft (key, m) draft' ↔ strict = false ∧ draft' = draft)
  | .nil, (), (), _ => by simp [Fields.Takes]
  | .cons name _ schema rest, (given, more), (given', more'), h => by
    rw [byName] at h
    by_cases hname : key = name
    · rw [if_pos hname] at h
      cases h
    · rw [if_neg hname, Option.map_eq_none_iff] at h
      simp only [Fields.Takes, if_neg hname, takes_of_byName_none h, Prod.mk.injEq]
      constructor
      · rintro ⟨hgiven, hstrict, hmore⟩
        exact ⟨hstrict, hgiven, hmore⟩
      · rintro ⟨hstrict, hgiven, hmore⟩
        exact ⟨hgiven, hstrict, hmore⟩

/-- What is read behind a colon. -/
theorem behindColon_exact {α β : Type} {r : Reader α} {H : Meaning → α → Prop}
    (h : ∀ cs, Holds r H cs) (f : α → β) (cs : List Char) :
    Exact (do colon; return f (← r)) cs fun b rest =>
      ∃ value m, skipBlanks cs = ':' :: value ∧ Text value m rest ∧ ∃ a, H m a ∧ b = f a := by
  refine ((colon_exact cs).bind fun _ value _ => (h value).map f).congr fun b rest => ?_
  constructor
  · rintro ⟨_, value, hcolon, a, ⟨m, htext, ha⟩, rfl⟩
    exact ⟨value, m, hcolon, htext, a, ha, rfl⟩
  · rintro ⟨value, m, hcolon, htext, a, ha, rfl⟩
    exact ⟨(), value, hcolon, a, ⟨m, htext, ha⟩, rfl⟩

/-- What is called like no field is skipped behind the colon. -/
theorem skipMember_exact {σ : Type} (draft : σ) (cs : List Char) :
    Exact (do colon; skipValue; pure draft) cs fun draft' rest =>
      ∃ value m, skipBlanks cs = ':' :: value ∧ Text value m rest ∧ draft' = draft := by
  refine ((colon_exact cs).bind fun _ value _ => (skipValue_exact value).bind fun _ mid _ =>
    .pure draft mid).congr fun draft' rest => ?_
  constructor
  · rintro ⟨_, value, hcolon, _, _, ⟨m, htext⟩, rfl, rfl⟩
    exact ⟨value, m, hcolon, htext, rfl⟩
  · rintro ⟨value, m, hcolon, htext, rfl⟩
    exact ⟨(), value, hcolon, (), rest, ⟨m, htext⟩, rfl, rfl⟩

/-- What becomes of the draft when all members are taken. -/
theorem complete_exact (fields : Fields) (draft : fields.Draft) (cs : List Char) :
    Exact (match fields.complete draft with
      | .ok contents => pure contents
      | .error what => mismatch what) cs fun contents rest =>
        fields.complete draft = .ok contents ∧ rest = cs := by
  cases fields.complete draft with
  | error what => exact (Exact.never (.mismatch what) cs).congr fun _ _ => by simp
  | ok contents => exact (Exact.pure contents cs).congr fun _ _ => by simp [eq_comm]

/-- Reads a member of a record into the draft. -/
def member (fields : Fields) (strict : Bool) (levels : Nat) (draft : fields.Draft) (key : String) :
    Reader fields.Draft :=
  match byName fields levels key draft with
  | some read => read
  | none =>
    if strict then mismatch (.unknownField key fields.names)
    else do
      colon
      skipValue
      pure draft

/-- The members of a record are read exactly, if the fields among them are. -/
theorem member_exact {fields : Fields} {strict : Bool} {levels : Nat}
    (h : ∀ key draft read, byName fields levels key draft = some read → ∀ cs,
      Exact read cs fun draft' rest => ∃ value m, skipBlanks cs = ':' :: value ∧ Text value m rest
        ∧ fields.Takes strict levels draft (key, m) draft') :
    TakesMembers (member fields strict levels) (fields.Takes strict levels) := by
  intro draft key cs
  unfold member
  split
  · next read hread => exact h key draft read hread cs
  · next hread =>
    refine .ite (fun hstrict => ?_) fun hstrict => ?_
    · exact (Exact.never (.mismatch _) cs).congr fun _ _ => by
        simp [takes_of_byName_none hread, hstrict]
    · exact (skipMember_exact draft cs).congr fun _ _ => by
        simp [takes_of_byName_none hread, hstrict]

section

variable {name : String} {strict : Bool} {fields : Fields} {levels : Nat} {cs rest : List Char}
  {contents : fields.Carrier}

/-- A list holds what its items hold in the order of the fields. -/
theorem holds_array_iff :
    (∃ m, BySign '[' cs m rest ∧ (Schema.record name strict fields).Holds (levels + 1) m contents)
      ↔ ∃ items, Items Text false cs items rest ∧ fields.HoldInOrder levels items contents := by
  constructor
  · rintro ⟨_, hsign, ⟨items, rfl, hhold⟩ | ⟨members, rfl, -⟩⟩
    · exact ⟨items, (bySign_array.1 hsign).2, hhold⟩
    · exact absurd (bySign_object.1 hsign).1 (by decide)
  · rintro ⟨items, hitems, hhold⟩
    exact ⟨_, bySign_array.2 ⟨rfl, hitems⟩, .inl ⟨items, rfl, hhold⟩⟩

/-- An object holds what its members hold under the names of the fields. -/
theorem holds_object_iff :
    (∃ m, BySign '\x7b' cs m rest ∧ (Schema.record name strict fields).Holds (levels + 1) m contents)
      ↔ ∃ members, Members Text false cs (named members) rest
        ∧ fields.HoldByName strict levels members contents := by
  constructor
  · rintro ⟨_, hsign, ⟨items, rfl, -⟩ | ⟨members, rfl, hhold⟩⟩
    · exact absurd (bySign_array.1 hsign).1 (by decide)
    · exact ⟨members, (bySign_object.1 hsign).2, hhold⟩
  · rintro ⟨members, hmembers, hhold⟩
    exact ⟨_, bySign_object.2 ⟨rfl, hmembers⟩, .inr ⟨members, rfl, hhold⟩⟩

end

mutual
/-- **Data of a schema is read exactly from the texts that hold it.** -/
theorem ofSchema_exact : ∀ (schema : Schema) (levels : Nat) (cs : List Char),
    Holds (ofSchema schema levels) (schema.Holds levels) cs
  | .text expected, _, cs => text_exact expected cs
  | .flag, _, cs => flag_exact cs
  | .natural word, levels, cs => natural_exact word levels cs
  | .choice names, levels, cs => choice_exact names levels cs
  | .object, levels, cs => anyMembers_exact levels cs
  | .optional content, levels, cs => optional_exact (ofSchema_exact content levels) cs
  | .list item, levels, cs => by
    refine (listOf_exact (fun levels cs => ofSchema_exact item levels cs) cs).congr fun as rest => ?_
    cases levels with
    | zero => simp [Schema.Holds]
    | succ levels =>
      constructor
      · rintro ⟨m, htext, _, items, heq, rfl, has⟩
        obtain rfl := Nat.succ.inj heq
        exact ⟨_, htext, items, rfl, has⟩
      · rintro ⟨m, htext, items, rfl, has⟩
        exact ⟨_, htext, levels, items, rfl, rfl, has⟩
  | .record name strict fields, 0, cs => by
    have hdeep (inside : Nat → Reader fields.Carrier) (cs : List Char) :
        Exact (located (opening 0 inside)) cs fun _ _ => False :=
      Exact.never (.located (.failNext _)) cs
    refine holds_of_sign fun c tail _ => .ite (fun _ => ?_) fun _ => .ite (fun _ => ?_) fun _ => ?_
    · exact (hdeep _ _).congr fun _ _ => by simp [Schema.Holds]
    · exact (hdeep _ _).congr fun _ _ => by simp [Schema.Holds]
    · exact unexpected_exact fun _ _ => by simp [Schema.Holds]
  | .record name strict fields, levels + 1, cs => by
    refine holds_of_sign fun c tail _ => .ifSign '[' (by decide) (fun hc => ?_) fun hlist =>
      .ifSign '\x7b' (by decide) (fun hc => ?_) fun hbrace => ?_
    · subst hc
      refine Exact.congr (.located (.advance (by decide)
        ((inOrder_exact fields _ levels 0 tail).enclosed fun _ mid _ => closeList_exact mid)))
        fun contents rest => ?_
      rw [holds_array_iff]
      exact Fields.readInOrder_iff
    · subst hc
      refine Exact.congr (braces_exact (R := fun contents members =>
        fields.HoldByName strict levels members contents) ?_) fun contents rest => holds_object_iff.symm
      refine ((members_exact (member_exact fun key draft read hread => byName_exact strict fields levels
        key draft read hread) fields.blank tail).bind fun draft mid _ =>
          complete_exact fields draft mid).congr fun contents mid => ?_
      simp only [Fields.holdByName_iff]
      constructor
      · rintro ⟨draft, _, ⟨members, rest, rfl, hmembers, hwalk⟩, hcomplete, rfl⟩
        exact ⟨members, rest, rfl, hmembers, draft, hwalk, hcomplete⟩
      · rintro ⟨members, rest, rfl, hmembers, draft, hwalk, hcomplete⟩
        exact ⟨draft, _, ⟨members, rest, rfl, hmembers, hwalk⟩, hcomplete, rfl⟩
    · refine unexpected_exact fun contents rest => ?_
      rintro ⟨_, hsign, ⟨items, rfl, -⟩ | ⟨members, rfl, -⟩⟩
      · exact hlist (bySign_array.1 hsign).1
      · exact hbrace (bySign_object.1 hsign).1

theorem byName_exact (strict : Bool) : ∀ (fields : Fields) (levels : Nat) (key : String)
    (draft : fields.Draft) (read : Reader fields.Draft),
    byName fields levels key draft = some read → ∀ cs, Exact read cs fun draft' rest =>
      ∃ value m, skipBlanks cs = ':' :: value ∧ Text value m rest
        ∧ fields.Takes strict levels draft (key, m) draft'
  | .nil, _, _, _, _, hread, _ => by cases hread
  | .cons name _ schema rest, levels, key, (given, more), read, hread, cs => by
    rw [byName] at hread
    by_cases hname : key = name
    · rw [if_pos hname] at hread
      cases hread
      simp only [Fields.Takes, if_pos hname]
      cases given with
      | some content =>
        exact (Exact.never (.mismatch _) cs).congr fun _ _ => by simp [GivenOnce]
      | none =>
        refine (behindColon_exact (ofSchema_exact schema levels) (fun content => (some content, more))
          cs).congr fun draft' rest => ?_
        constructor
        · rintro ⟨value, m, hcolon, htext, content, hcontent, rfl⟩
          exact ⟨value, m, hcolon, htext, ⟨rfl, content, rfl, hcontent⟩, rfl⟩
        · obtain ⟨given', more'⟩ := draft'
          rintro ⟨value, m, hcolon, htext, ⟨-, content, rfl, hcontent⟩, rfl⟩
          exact ⟨value, m, hcolon, htext, content, hcontent, rfl⟩
    · rw [if_neg hname] at hread
      obtain ⟨readMore, hreadMore, rfl⟩ := Option.map_eq_some_iff.1 hread
      simp only [Fields.Takes, if_neg hname]
      refine ((byName_exact strict rest levels key more readMore hreadMore cs).map (given, ·)).congr
        fun draft' after => ?_
      obtain ⟨given', more'⟩ := draft'
      constructor
      · rintro ⟨_, ⟨value, m, hcolon, htext, htakes⟩, heq⟩
        obtain ⟨rfl, rfl⟩ := Prod.mk.inj heq
        exact ⟨value, m, hcolon, htext, rfl, htakes⟩
      · rintro ⟨value, m, hcolon, htext, rfl, htakes⟩
        exact ⟨more', ⟨value, m, hcolon, htext, htakes⟩, rfl⟩

theorem inOrder_exact : ∀ (fields : Fields) (expected : String) (levels index : Nat)
    (cs : List Char), Exact (inOrder fields expected levels index) cs
      (fields.ReadInOrder levels (!decide (index = 0)) cs)
  | .nil, _, _, _, cs => (Exact.pure () cs).congr fun _ _ => by simp [Fields.ReadInOrder]
  | .cons _ .required schema rest, expected, levels, index, cs => by
    refine ((hasItem_exact (decide (index = 0)) cs).bind (S := fun more mid contents after =>
      more = true ∧ ∃ m next, Text mid m next ∧ schema.Holds levels m contents.1
        ∧ rest.ReadInOrder levels true next contents.2 after) fun more mid _ => ?_).congr
      fun contents after => ?_
    · cases more with
      | false => exact (Exact.never (.mismatch _) mid).congr fun _ _ => by simp
      | true =>
        refine ((ofSchema_exact schema levels mid).bind fun content next _ =>
          (inOrder_exact rest expected levels (index + 1) next).map (content, ·)).congr
          fun contents after => ?_
        constructor
        · rintro ⟨content, next, ⟨m, htext, hcontent⟩, others, hothers, rfl⟩
          exact ⟨rfl, m, next, htext, hcontent, hothers⟩
        · rintro ⟨-, m, next, htext, hcontent, hothers⟩
          exact ⟨contents.1, next, ⟨m, htext, hcontent⟩, contents.2, hothers, rfl⟩
    · constructor
      · rintro ⟨_, mid, hfollows, rfl, m, next, htext, hcontent, hothers⟩
        exact ⟨mid, m, next, hfollows, htext, hcontent, hothers⟩
      · rintro ⟨mid, m, next, hfront, htext, hcontent, hothers⟩
        exact ⟨true, mid, hfront, rfl, m, next, htext, hcontent, hothers⟩
  | .cons _ .mayBeAbsent schema rest, expected, levels, index, cs => by
    refine ((hasItem_exact (decide (index = 0)) cs).bind (S := fun more mid contents after =>
      if more then ∃ m next content, Text mid m next ∧ contents.1 = some content
        ∧ schema.Holds levels m content ∧ rest.ReadInOrder levels true next contents.2 after
      else contents.1 = none ∧ rest.ReadInOrder levels true mid contents.2 after)
      fun more mid _ => ?_).congr fun contents after => ?_
    · cases more with
      | false =>
        refine ((inOrder_exact rest expected levels (index + 1) mid).map (none, ·)).congr
          fun contents after => ?_
        constructor
        · rintro ⟨others, hothers, rfl⟩
          exact ⟨rfl, hothers⟩
        · rintro ⟨hnone, hothers⟩
          exact ⟨contents.2, hothers, Prod.ext hnone rfl⟩
      | true =>
        refine ((ofSchema_exact schema levels mid).bind fun content next _ =>
          (inOrder_exact rest expected levels (index + 1) next).map (some content, ·)).congr
          fun contents after => ?_
        constructor
        · rintro ⟨content, next, ⟨m, htext, hcontent⟩, others, hothers, rfl⟩
          exact ⟨m, next, content, htext, rfl, hcontent, hothers⟩
        · rintro ⟨m, next, content, htext, hgiven, hcontent, hothers⟩
          exact ⟨content, next, ⟨m, htext, hcontent⟩, contents.2, hothers, Prod.ext hgiven rfl⟩
    · constructor
      · rintro ⟨more, mid, hfollows, hmore⟩
        cases more with
        | false => exact .inl ⟨mid, hfollows, hmore⟩
        | true =>
          obtain ⟨m, next, content, htext, hgiven, hcontent, hothers⟩ := hmore
          exact .inr ⟨mid, m, next, content, hfollows, htext, hgiven, hcontent, hothers⟩
      · rintro (⟨mid, hfront, hmore⟩ | ⟨mid, m, next, content, hfront, htext, hgiven, hcontent, hothers⟩)
        · exact ⟨false, mid, hfront, hmore⟩
        · exact ⟨true, mid, hfront, m, next, content, htext, hgiven, hcontent, hothers⟩
end

end Json.Reader

/-! ## Documents -/

namespace Json

theorem finish_exact (cs : List Char) :
    Exact Reader.finish cs fun _ rest => skipBlanks cs = [] ∧ rest = [] := by
  refine .nextSign (fun hcs => ?_) fun c tail hcs => ?_
  · exact (Exact.pure () []).congr fun _ _ => by simp [hcs]
  · exact (Exact.never (.failNext _) _).congr fun _ _ => by simp [hcs]

/-- A document is read exactly from a text that is taken up to blanks at its end. -/
theorem readDocument_ok_iff {α : Type} {r : Reader α} {text : String}
    {R : α → List Char → Prop} (h : Exact r text.toList R) {a : α} :
    readDocument r (bytesOf text) = .ok a ↔ ∃ rest, R a rest ∧ skipBlanks rest = [] := by
  have hexact : Exact (do
      let a ← r
      Reader.finish
      return a) text.toList fun a rest => (∃ mid, R a mid ∧ skipBlanks mid = []) ∧ rest = [] := by
    refine (h.bind fun a mid _ => (finish_exact mid).map fun _ => a).congr fun a rest => ?_
    constructor
    · rintro ⟨_, mid, ha, _, ⟨hblank, rfl⟩, rfl⟩
      exact ⟨⟨mid, ha, hblank⟩, rfl⟩
    · rintro ⟨⟨mid, ha, hblank⟩, rfl⟩
      exact ⟨a, mid, ha, (), ⟨hblank, rfl⟩, rfl⟩
  rw [readDocument, Input.ofBytes, bytesOf_eq_utf8]
  constructor
  · intro h
    split at h
    · next hdone =>
      cases h
      obtain ⟨_, -, ha, -⟩ := hexact.sound hdone
      exact ha
    · cases h
  · intro ha
    obtain ⟨p, hread⟩ := hexact.complete ⟨ha, rfl⟩ .start
    simp only [hread]

/-- **A text decodes to some data if and only if it means something that holds the data.** -/
theorem decode_ok_iff {schema : Schema} {text : String} {data : schema.Carrier} :
    decode schema (bytesOf text) = .ok data
      ↔ ∃ m, Document text.toList m ∧ schema.Holds nestingLimit m data := by
  rw [decode, readDocument_ok_iff (Reader.ofSchema_exact schema nestingLimit text.toList)]
  constructor
  · rintro ⟨rest, ⟨m, htext, hholds⟩, hblank⟩
    exact ⟨m, ⟨rest, htext, hblank⟩, hholds⟩
  · rintro ⟨m, ⟨rest, htext, hblank⟩, hholds⟩
    exact ⟨rest, ⟨m, htext, hholds⟩, hblank⟩

/-- What a document decodes to is held by what it means. -/
theorem holds_of_decode {schema : Schema} {text : String} {data : schema.Carrier} {m : Meaning}
    (hm : Document text.toList m) (h : decode schema (bytesOf text) = .ok data) :
    schema.Holds nestingLimit m data := by
  obtain ⟨m', hm', hholds⟩ := decode_ok_iff.1 h
  rwa [hm.unique hm']

/-- What is written for a value is a document that means it. -/
theorem document_write {v : Value} (hexact : v.isExact) : Document v.write v.meaning := by
  have hread := Reader.value_reads hexact (Nat.le_refl v.depth) [] .start apart_nil
  rw [List.append_nil] at hread
  obtain ⟨rest, hrest, htext, -⟩ := (Reader.value_exact v.write).sound hread
  have hlength := length_le_length_utf8 rest
  rw [← hrest] at hlength
  obtain rfl := List.eq_nil_of_length_eq_zero (Nat.le_zero.1 hlength)
  exact ⟨[], htext, rfl⟩

end Json

end MetaCache
