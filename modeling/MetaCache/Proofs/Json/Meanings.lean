import MetaCache.Proofs.Json.Loops
import MetaCache.Proofs.Json.Skipping
import Mathlib.Data.List.Forall2

/-!
# Values are what texts mean

A value is read exactly from the texts that mean it, as far as the levels left allow its containers
to nest (`value_exact`). Whatever stands in such a text has its meaning as a value, so a lone
surrogate or a number past the largest double anywhere in it is an error.
-/

namespace MetaCache.Json

open MetaCache.Text

/-! ## Gathering -/

section

variable {α ε : Type}

/-- One more is gathered, last one first. -/
def Gathers (H : ε → α → Prop) (gathered : List α) (e : ε) (gathered' : List α) : Prop :=
  ∃ a, H e a ∧ gathered' = a :: gathered

/-- What is gathered is what the entries stand for. -/
theorem walk_gathers_iff {H : ε → α → Prop} {es : List ε} {gathered gathered' : List α} :
    Walk (Gathers H) gathered es gathered'
      ↔ ∃ as, List.Forall₂ H es as ∧ gathered' = as.reverse ++ gathered := by
  induction es generalizing gathered with
  | nil =>
    rw [walk_nil_iff]
    constructor
    · rintro rfl
      exact ⟨[], .nil, rfl⟩
    · rintro ⟨as, has, rfl⟩
      cases has
      rfl
  | cons e es ih =>
    rw [walk_cons_iff]
    constructor
    · rintro ⟨_, ⟨a, ha, rfl⟩, hwalk⟩
      obtain ⟨as, has, rfl⟩ := ih.1 hwalk
      exact ⟨a :: as, .cons ha has, by simp⟩
    · rintro ⟨as, has, rfl⟩
      cases has with
      | cons ha has => exact ⟨_, ⟨_, ha, rfl⟩, ih.2 ⟨_, has, by simp⟩⟩

end

/-! ## Levels of values -/

/-- The meaning is a value whose containers nest within the levels. -/
def IsValue (levels : Nat) (m : Meaning) (v : Value) : Prop := m = v.meaning ∧ v.depth ≤ levels

theorem forall₂_isValue_iff {levels : Nat} {ms : List Meaning} {vs : List Value} :
    List.Forall₂ (IsValue levels) ms vs
      ↔ ms = itemMeanings vs ∧ ∀ v ∈ vs, v.depth ≤ levels := by
  induction vs generalizing ms with
  | nil => simp [itemMeanings, List.forall₂_nil_right_iff]
  | cons v vs ih =>
    simp only [List.forall₂_cons_right_iff, ih, itemMeanings, List.forall_mem_cons, IsValue]
    constructor
    · rintro ⟨m, ms, ⟨rfl, hv⟩, ⟨rfl, hvs⟩, rfl⟩
      exact ⟨rfl, hv, hvs⟩
    · rintro ⟨rfl, hv, hvs⟩
      exact ⟨_, _, ⟨rfl, hv⟩, ⟨rfl, hvs⟩, rfl⟩

/-- The same of a member, whose name is the same. -/
def IsMember (levels : Nat) (m : String × Meaning) (member : String × Value) : Prop :=
  m.1 = member.1 ∧ IsValue levels m.2 member.2

theorem forall₂_isMember_iff {levels : Nat} {ms : List (String × Meaning)}
    {members : List (String × Value)} :
    List.Forall₂ (IsMember levels) ms members
      ↔ named ms = memberMeanings members ∧ ∀ m ∈ members, m.2.depth ≤ levels := by
  induction members generalizing ms with
  | nil => simp [memberMeanings, named, List.forall₂_nil_right_iff]
  | cons member members ih =>
    obtain ⟨name, v⟩ := member
    simp only [List.forall₂_cons_right_iff, ih, memberMeanings, List.forall_mem_cons]
    constructor
    · rintro ⟨m, ms, ⟨hname, hm, hv⟩, ⟨hms, hvs⟩, rfl⟩
      refine ⟨?_, hv, hvs⟩
      show (some m.1, m.2) :: named ms = _
      rw [hms, show m.1 = name from hname, show m.2 = v.meaning from hm]
    · rintro ⟨hms, hv, hvs⟩
      obtain ⟨m, ms, rfl, hm, hms⟩ := List.map_eq_cons_iff.1 hms
      obtain ⟨hname, hvalue⟩ := Prod.mk.inj hm
      exact ⟨m, ms, ⟨Option.some.inj hname, hvalue, hv⟩, ⟨hms, hvs⟩, rfl⟩

/-! ## What has a meaning of some shape -/

namespace Value

variable {v : Value}

theorem meaning_eq_null : v.meaning = .null ↔ v = .null := by
  constructor
  · intro h
    cases v with
    | null => rfl
    | _ => cases h
  · rintro rfl
    rfl

theorem meaning_eq_bool {b : Bool} : v.meaning = .bool b ↔ v = .bool b := by
  constructor
  · intro h
    cases v with
    | bool => cases h; rfl
    | _ => cases h
  · rintro rfl
    rfl

theorem meaning_eq_number {n : Option Number} :
    v.meaning = .number n ↔ ∃ num, n = some num ∧ v = .number num := by
  constructor
  · intro h
    cases v with
    | number num => cases h; exact ⟨num, rfl, rfl⟩
    | _ => cases h
  · rintro ⟨num, rfl, rfl⟩
    rfl

theorem meaning_eq_string {s : Option String} :
    v.meaning = .string s ↔ ∃ text, s = some text ∧ v = .string text := by
  constructor
  · intro h
    cases v with
    | string text => cases h; exact ⟨text, rfl, rfl⟩
    | _ => cases h
  · rintro ⟨text, rfl, rfl⟩
    rfl

theorem meaning_eq_array {ms : List Meaning} :
    v.meaning = .array ms ↔ ∃ items, ms = itemMeanings items ∧ v = .array items := by
  constructor
  · intro h
    cases v with
    | array items => cases h; exact ⟨items, rfl, rfl⟩
    | _ => cases h
  · rintro ⟨items, rfl, rfl⟩
    rfl

theorem meaning_eq_object {ms : List (Option String × Meaning)} :
    v.meaning = .object ms ↔ ∃ members, ms = memberMeanings members ∧ v = .object members := by
  constructor
  · intro h
    cases v with
    | object members => cases h; exact ⟨members, rfl, rfl⟩
    | _ => cases h
  · rintro ⟨members, rfl, rfl⟩
    rfl

end Value

namespace Reader

theorem afterWord_exact {α : Type} (letters : List Char) (h : letters.all (·.toNat < 0x80)) (a : α)
    (cs : List Char) :
    Exact (do word (bytesOfLetters letters); pure a) cs fun b rest => b = a ∧ cs = letters ++ rest :=
  ((word_exact letters h cs).bind fun _ mid _ => .pure a mid).congr fun _ rest =>
    ⟨fun ⟨_, _, hcs, hb, hrest⟩ => ⟨hb, hrest ▸ hcs⟩, fun ⟨hb, hcs⟩ => ⟨(), rest, hcs, hb, rfl⟩⟩

/-- A text of a scalar means a value without depth. -/
theorem depth_of_bySign {c : Char} {cs rest : List Char} {v : Value}
    (h : BySign c cs v.meaning rest) (hlist : c ≠ '[') (hobject : c ≠ '\x7b') : v.depth = 0 := by
  cases v with
  | array items => simp [BySign, Value.meaning, hlist, hobject] at h
  | object members => simp [BySign, Value.meaning, hlist, hobject] at h
  | _ => rfl

theorem exists_read_iff {α β : Type} {P : α → Prop} {f : α → Option β} {Q : β → Prop} :
    (∃ b, (∃ a, P a ∧ f a = some b) ∧ Q b) ↔ ∃ a, P a ∧ ∃ b, f a = some b ∧ Q b := by
  constructor
  · rintro ⟨b, ⟨a, ha, hb⟩, hq⟩
    exact ⟨a, ha, b, hb, hq⟩
  · rintro ⟨a, ha, b, hb, hq⟩
    exact ⟨b, ⟨a, ha, hb⟩, hq⟩

/-- A value is read exactly if the containers that it may be are. -/
theorem scalar_exact {array object : Reader Value} {levels : Nat}
    (harray : ∀ cs, Exact array ('[' :: cs) fun v rest =>
      BySign '[' cs v.meaning rest ∧ v.depth ≤ levels)
    (hobject : ∀ cs, Exact object ('\x7b' :: cs) fun v rest =>
      BySign '\x7b' cs v.meaning rest ∧ v.depth ≤ levels) (cs : List Char) :
    Exact (value.scalar array object) cs fun v rest => Text cs v.meaning rest ∧ v.depth ≤ levels := by
  refine .nextSign (fun hcs => ?_) (fun c tail hcs => ?_)
  · exact (Exact.never (.failNext _) _).congr fun v rest =>
      ⟨False.elim, fun h => h.1.ne_nil hcs⟩
  · simp only [text_iff_bySign hcs]
    -- In front of a container its reader takes over; for scalars the levels do not matter.
    by_cases hlist : c = '['
    · subst hlist
      exact harray tail
    by_cases hopen : c = '\x7b'
    · subst hopen
      exact hobject tail
    refine Exact.congr (R := fun v rest => BySign c tail v.meaning rest) ?_ fun v rest =>
      ⟨fun h => ⟨h, by rw [depth_of_bySign h hlist hopen]; exact Nat.zero_le _⟩, fun h => h.1⟩
    refine .ifSign 'n' (by decide) (fun hc => ?_) fun hnull => ?_
    · subst hc
      exact (Exact.advance (by decide) (afterWord_exact ['u', 'l', 'l'] (by decide)
        Value.null tail)).congr fun _ _ => by simp [BySign, Value.meaning_eq_null, and_comm]
    refine .ifSign 't' (by decide) (fun hc => ?_) fun htrue => ?_
    · subst hc
      exact (Exact.advance (by decide) (afterWord_exact ['r', 'u', 'e'] (by decide)
        (Value.bool true) tail)).congr fun _ _ => by
          simp [BySign, Value.meaning_eq_bool, and_comm]
    refine .ifSign 'f' (by decide) (fun hc => ?_) fun hfalse => ?_
    · subst hc
      exact (Exact.advance (by decide) (afterWord_exact ['a', 'l', 's', 'e'] (by decide)
        (Value.bool false) tail)).congr fun _ _ => by
          simp [BySign, Value.meaning_eq_bool, and_comm]
    refine .ifSign '-' (by decide) (fun hc => ?_) fun hminus => ?_
    · subst hc
      refine Exact.congr (.advance (by decide) ((number_exact true tail).map Value.number))
        fun v rest => ?_
      rw [exists_read_iff]
      simp [BySign, Value.meaning_eq_number]
    refine .ite (fun hdigit => ?_) fun hdigit => ?_
    · rw [isDigit_sign] at hdigit
      refine ((number_exact false (c :: tail)).map Value.number).congr fun v rest => ?_
      rw [exists_read_iff]
      simp [BySign, hnull, htrue, hfalse, hminus, hdigit, Value.meaning_eq_number]
    rw [isDigit_sign] at hdigit
    refine .ifSign '"' (by decide) (fun hc => ?_) fun hquote => ?_
    · subst hc
      refine Exact.congr (.advance (by decide) ((string_exact tail).map Value.string))
        fun v rest => ?_
      rw [exists_read_iff]
      simp [BySign, Value.meaning_eq_string]
    refine .ifSign '[' (by decide) (fun hc => absurd hc hlist) fun _ => ?_
    refine .ifSign '\x7b' (by decide) (fun hc => absurd hc hopen) fun _ => ?_
    refine (Exact.never (.failNext _) _).congr fun v rest => ?_
    simp [BySign, hnull, htrue, hfalse, hminus, hdigit, hquote, hlist, hopen]

theorem bySign_array_iff {cs rest : List Char} {v : Value} {levels : Nat} :
    BySign '[' cs v.meaning rest ∧ v.depth ≤ levels + 1
      ↔ ∃ items, (Items Text false cs (itemMeanings items) rest ∧ ∀ v ∈ items, v.depth ≤ levels)
        ∧ v = .array items := by
  have hsign : BySign '[' cs v.meaning rest
      ↔ ∃ ms, Items Text false cs ms rest ∧ v.meaning = .array ms := Iff.rfl
  simp only [hsign, Value.meaning_eq_array]
  constructor
  · rintro ⟨⟨_, hitems, items, rfl, rfl⟩, hdepth⟩
    exact ⟨items, ⟨hitems, itemsDepth_le_iff.1 (Nat.le_of_succ_le_succ hdepth)⟩, rfl⟩
  · rintro ⟨items, ⟨hitems, hdepth⟩, rfl⟩
    exact ⟨⟨_, hitems, items, rfl, rfl⟩, Nat.succ_le_succ (itemsDepth_le_iff.2 hdepth)⟩

theorem bySign_object_iff {cs rest : List Char} {v : Value} {levels : Nat} :
    BySign '\x7b' cs v.meaning rest ∧ v.depth ≤ levels + 1
      ↔ ∃ members, (Members Text false cs (memberMeanings members) rest
          ∧ ∀ m ∈ members, m.2.depth ≤ levels) ∧ v = .object members := by
  have hsign : BySign '\x7b' cs v.meaning rest
      ↔ ∃ ms, Members Text false cs ms rest ∧ v.meaning = .object ms := Iff.rfl
  simp only [hsign, Value.meaning_eq_object]
  constructor
  · rintro ⟨⟨_, hmembers, members, rfl, rfl⟩, hdepth⟩
    exact ⟨members, ⟨hmembers, membersDepth_le_iff.1 (Nat.le_of_succ_le_succ hdepth)⟩, rfl⟩
  · rintro ⟨members, ⟨hmembers, hdepth⟩, rfl⟩
    exact ⟨⟨_, hmembers, members, rfl, rfl⟩, Nat.succ_le_succ (membersDepth_le_iff.2 hdepth)⟩

/-- A list is gathered exactly if its items are read so. -/
theorem gatherList_exact {α : Type} {levels : Nat} (read : Nat → Reader α)
    {H : Meaning → α → Prop}
    (h : ∀ cs, Exact (read levels) cs fun a rest => ∃ m, Text cs m rest ∧ H m a) (cs : List Char) :
    Exact (list (levels + 1) (fun levels gathered => do return (← read levels) :: gathered) [])
      ('[' :: cs) fun gathered rest => ∃ items as, Items Text false cs items rest
        ∧ List.Forall₂ H items as ∧ gathered = as.reverse := by
  have hstep : TakesItems (fun gathered => do return (← read levels) :: gathered) (Gathers H) :=
    fun gathered cs => ((h cs).map (· :: gathered)).congr fun gathered' rest => by
      constructor
      · rintro ⟨a, ⟨m, htext, ha⟩, rfl⟩
        exact ⟨m, htext, a, ha, rfl⟩
      · rintro ⟨m, htext, a, ha, rfl⟩
        exact ⟨a, ⟨m, htext, ha⟩, rfl⟩
  refine (list_exact hstep [] cs).congr fun gathered rest => ?_
  simp only [walk_gathers_iff, List.append_nil, exists_and_left]

theorem gatherObject_exact {levels : Nat} (read : Nat → Reader Value)
    (h : ∀ cs, Exact (read levels) cs fun v rest => Text cs v.meaning rest ∧ v.depth ≤ levels)
    (cs : List Char) :
    Exact (object (levels + 1) (fun levels gathered name => do
        colon
        return (name, ← read levels) :: gathered) []) ('\x7b' :: cs) fun gathered rest =>
      ∃ members, (Members Text false cs (memberMeanings members) rest
        ∧ ∀ m ∈ members, m.2.depth ≤ levels) ∧ gathered = members.reverse := by
  have hstep : TakesMembers (fun gathered name => do
      colon
      return (name, ← read levels) :: gathered) (Gathers (IsMember levels)) := by
    intro gathered name cs
    refine ((colon_exact cs).bind fun _ value _ => (h value).map fun v =>
      (name, v) :: gathered).congr fun gathered' rest => ?_
    constructor
    · rintro ⟨_, value, hcolon, v, ⟨htext, hdepth⟩, rfl⟩
      exact ⟨value, _, hcolon, htext, (name, v), ⟨rfl, rfl, hdepth⟩, rfl⟩
    · rintro ⟨value, m, hcolon, htext, ⟨name', v⟩, ⟨hname, hm, hdepth⟩, rfl⟩
      obtain rfl : name = name' := hname
      obtain rfl : m = v.meaning := hm
      exact ⟨(), value, hcolon, v, ⟨htext, hdepth⟩, rfl⟩
  refine (object_exact hstep [] cs).congr fun gathered rest => ?_
  simp only [walk_gathers_iff, List.append_nil, forall₂_isMember_iff]
  constructor
  · rintro ⟨ms, hmembers, members, ⟨hms, hdepth⟩, rfl⟩
    exact ⟨members, ⟨hms ▸ hmembers, hdepth⟩, rfl⟩
  · rintro ⟨members, ⟨hmembers, hdepth⟩, rfl⟩
    have hnamed : named (members.map fun m => (m.1, m.2.meaning)) = memberMeanings members := by
      rw [named, List.map_map, memberMeanings_eq_map]
      rfl
    exact ⟨_, hnamed.symm ▸ hmembers, members, ⟨hnamed, hdepth⟩, rfl⟩

/-- **A value is read exactly from the texts that mean it**, if enough levels are left. -/
theorem value_exact {levels : Nat} : ∀ cs, Exact (value levels) cs fun v rest =>
    Text cs v.meaning rest ∧ v.depth ≤ levels := by
  induction levels with
  | zero =>
    refine scalar_exact (fun cs => ?_) (fun cs => ?_)
    · refine (Exact.never (.failNext _) _).congr fun v rest => ⟨False.elim, ?_⟩
      rintro ⟨⟨ms, -, hm⟩, hdepth⟩
      obtain ⟨items, -, rfl⟩ := Value.meaning_eq_array.1 hm
      exact Nat.not_succ_le_zero _ hdepth
    · refine (Exact.never (.failNext _) _).congr fun v rest => ⟨False.elim, ?_⟩
      rintro ⟨⟨ms, -, hm⟩, hdepth⟩
      obtain ⟨members, -, rfl⟩ := Value.meaning_eq_object.1 hm
      exact Nat.not_succ_le_zero _ hdepth
  | succ levels ih =>
    have hitem (cs : List Char) : Exact (value levels) cs fun v rest =>
        ∃ m, Text cs m rest ∧ IsValue levels m v :=
      (ih cs).congr fun v rest => by
        constructor
        · rintro ⟨htext, hdepth⟩
          exact ⟨_, htext, rfl, hdepth⟩
        · rintro ⟨m, htext, rfl, hdepth⟩
          exact ⟨htext, hdepth⟩
    refine scalar_exact (fun cs => ?_) (fun cs => ?_)
    · refine ((gatherList_exact (fun _ => value levels) hitem cs).map fun gathered =>
        Value.array gathered.reverse).congr fun v rest => ?_
      simp only [bySign_array_iff, forall₂_isValue_iff]
      constructor
      · rintro ⟨_, ⟨_, items, hitems, ⟨rfl, hdepth⟩, rfl⟩, rfl⟩
        exact ⟨items, ⟨hitems, hdepth⟩, by rw [List.reverse_reverse]⟩
      · rintro ⟨items, ⟨hitems, hdepth⟩, rfl⟩
        exact ⟨_, ⟨_, items, hitems, ⟨rfl, hdepth⟩, rfl⟩, by rw [List.reverse_reverse]⟩
    · refine ((gatherObject_exact (fun _ => value levels) ih cs).map fun gathered =>
        Value.object gathered.reverse).congr fun v rest => ?_
      rw [bySign_object_iff]
      constructor
      · rintro ⟨_, ⟨members, hmembers, rfl⟩, rfl⟩
        exact ⟨members, hmembers, by rw [List.reverse_reverse]⟩
      · rintro ⟨members, hmembers, rfl⟩
        exact ⟨_, ⟨members, hmembers, rfl⟩, by rw [List.reverse_reverse]⟩

end Reader

end MetaCache.Json
