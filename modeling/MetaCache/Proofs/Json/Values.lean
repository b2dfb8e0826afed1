import MetaCache.Proofs.Json.Containers
import MetaCache.Proofs.Json.Numbers

/-!
# Values that were written read back

Two things decide whether a written value reads back as itself: how deep its containers stand
inside one another (`Value.depth`) and whether all its numbers are whole (`Value.isExact`). Doubles
are written with their shortest digits but are read with one rounding too many, so they are left
out.
-/

namespace MetaCache.Json

open MetaCache.Text

/-! ## Depth and exactness -/

mutual
/-- How many containers stand inside one another. -/
def Value.depth : Value → Nat
  | .array items => itemsDepth items + 1
  | .object members => membersDepth members + 1
  | _ => 0

/-- The depth of the deepest item. -/
def itemsDepth : List Value → Nat
  | [] => 0
  | item :: rest => max item.depth (itemsDepth rest)

/-- The depth of the deepest member. -/
def membersDepth : List (String × Value) → Nat
  | [] => 0
  | (_, value) :: rest => max value.depth (membersDepth rest)
end

theorem itemsDepth_le_iff {items : List Value} {n : Nat} :
    itemsDepth items ≤ n ↔ ∀ v ∈ items, v.depth ≤ n := by
  induction items with
  | nil => simp [itemsDepth]
  | cons v items ih => simp only [itemsDepth, Nat.max_le, ih, List.forall_mem_cons]

theorem membersDepth_le_iff {members : List (String × Value)} {n : Nat} :
    membersDepth members ≤ n ↔ ∀ m ∈ members, m.2.depth ≤ n := by
  induction members with
  | nil => simp [membersDepth]
  | cons m members ih =>
    obtain ⟨name, v⟩ := m
    simp only [membersDepth, Nat.max_le, ih, List.forall_mem_cons]

def Number.isInteger : Number → Bool
  | .integer _ _ => true
  | .float _ => false

mutual
/-- Whether every number in the value is whole. -/
def Value.isExact : Value → Bool
  | .number n => n.isInteger
  | .array items => itemsExact items
  | .object members => membersExact members
  | _ => true

def itemsExact : List Value → Bool
  | [] => true
  | item :: rest => item.isExact && itemsExact rest

def membersExact : List (String × Value) → Bool
  | [] => true
  | (_, value) :: rest => value.isExact && membersExact rest
end

theorem itemsExact_iff {items : List Value} : itemsExact items ↔ ∀ v ∈ items, v.isExact := by
  induction items with
  | nil => simp [itemsExact]
  | cons v items ih => simp [itemsExact, ih]

theorem membersExact_iff {members : List (String × Value)} :
    membersExact members ↔ ∀ m ∈ members, m.2.isExact := by
  induction members with
  | nil => simp [membersExact]
  | cons m members ih =>
    obtain ⟨name, v⟩ := m
    simp only [membersExact, Bool.and_eq_true, ih, List.forall_mem_cons]

/-! ## Texts -/

theorem commaSeparated_cons_cons (text next : List Char) (more : List (List Char)) :
    commaSeparated (text :: next :: more) = text ++ ',' :: commaSeparated (next :: more) := by
  rw [commaSeparated, List.intercalate_cons_cons, List.append_assoc]
  rfl

theorem writeItems_eq (items : List Value) :
    writeItems items = commaSeparated (items.map Value.write) := by
  induction items with
  | nil => rfl
  | cons v items ih =>
    cases items with
    | nil => simp [writeItems, commaSeparated, List.intercalate]
    | cons w items =>
      rw [writeItems, ih, List.map_cons, List.map_cons, List.map_cons, commaSeparated_cons_cons]
      exact List.cons_ne_nil w items

theorem writeMembers_eq (members : List (String × Value)) :
    writeMembers members
      = commaSeparated (members.map fun m => writeString m.1 ++ ':' :: m.2.write) := by
  induction members with
  | nil => rfl
  | cons m members ih =>
    obtain ⟨name, v⟩ := m
    cases members with
    | nil => simp [writeMembers, commaSeparated, List.intercalate]
    | cons m' members =>
      rw [writeMembers, ih, List.map_cons, List.map_cons, List.map_cons,
        commaSeparated_cons_cons, List.append_assoc, List.cons_append]
      exact List.cons_ne_nil m' members

/-- A member with its text behind the name. -/
def memberEntry (m : String × Value) : String × List UInt8 := (m.1, 0x3a :: utf8 m.2.write)

theorem utf8_array (items : List Value) :
    utf8 (Value.array items).write
      = 0x5b :: commas (items.map fun v => utf8 v.write) ++ [0x5d] := by
  rw [Value.write, writeItems_eq, List.cons_append, utf8_cons_of_lt (by decide), utf8_append,
    utf8_commaSeparated, List.map_map]
  rfl

theorem utf8_object (members : List (String × Value)) :
    utf8 (Value.object members).write
      = 0x7b :: commas ((members.map memberEntry).map memberText) ++ [0x7d] := by
  have hentry : ∀ m : String × Value,
      utf8 (writeString m.1 ++ ':' :: m.2.write) = memberText (memberEntry m) := fun m => by
    rw [utf8_append, utf8_cons_of_lt (by decide)]
    rfl
  rw [Value.write, writeMembers_eq, List.cons_append, utf8_cons_of_lt (by decide), utf8_append,
    utf8_commaSeparated, List.map_map, List.map_map]
  simp only [Function.comp_def, hentry]
  rfl

/-! ## Words and scalars -/

theorem word_reads (letters : List UInt8) : Reads (Reader.word letters) letters () := by
  induction letters with
  | nil => exact .pure ()
  | cons letter letters ih =>
    intro rest p hrest
    rw [List.cons_append, Reader.word, Reader.next_bind]
    simp only [if_true]
    exact ih rest _ hrest

theorem writeString_reads {α : Type} (s : String) (f : String → Reader α) {text : List UInt8}
    {a : α} (hf : Reads (f s) text a) :
    Reads (do Reader.advance; f (← Reader.string)) (utf8 (writeString s) ++ text) a := by
  intro rest p hrest
  show _ = Reading.done a ⟨rest, p.afterAll (memberText (s, text))⟩
  rw [show utf8 (writeString s) ++ text = memberText (s, text) from rfl, Reader.member_bind,
    hf rest _ hrest, memberText, Position.afterAll_append]

theorem ne_of_isDigit {b x : UInt8} (h : isDigit b) (hx : isDigit x = false) : b ≠ x := by
  rintro rfl
  rw [h] at hx
  exact Bool.noConfusion hx

theorem isBlank_of_isDigit {b : UInt8} (h : isDigit b) : isBlank b = false := by
  simp [isBlank, ne_of_isDigit h (x := 0x20) (by decide), ne_of_isDigit h (x := 0x0a) (by decide),
    ne_of_isDigit h (x := 0x09) (by decide), ne_of_isDigit h (x := 0x0d) (by decide)]

/-- The text of a value can be told from a closing bracket. -/
theorem begins_write {v : Value} (h : v.isExact) : Begins (utf8 v.write) := by
  have hchar : ∀ {c : Char} (cs : List Char), c.toNat < 0x80 →
      isBlank (UInt8.ofNat c.toNat) = false → UInt8.ofNat c.toNat ≠ 0x5d →
      Begins (utf8 (c :: cs)) := fun cs hlt hblank hne =>
    ⟨_, _, utf8_cons_of_lt hlt cs, hblank, hne⟩
  cases v with
  | null => exact hchar (c := 'n') _ (by decide) (by decide) (by decide)
  | bool b =>
    cases b with
    | true => exact hchar (c := 't') _ (by decide) (by decide) (by decide)
    | false => exact hchar (c := 'f') _ (by decide) (by decide) (by decide)
  | number n =>
    cases n with
    | float x => exact absurd h Bool.false_ne_true
    | integer n fits =>
      show Begins (utf8 (writeInt n))
      cases n with
      | ofNat m =>
        obtain ⟨b, more, hb, hdigit⟩ := utf8_toDigits m
        refine ⟨b, more, ?_, isBlank_of_isDigit hdigit, ne_of_isDigit hdigit (by decide)⟩
        rw [← hb, ← writeInt_natCast]
        rfl
      | negSucc m =>
        rw [Int.negSucc_eq, ← Int.natCast_succ, writeInt_neg (Nat.succ_pos m)]
        exact hchar (c := '-') _ (by decide) (by decide) (by decide)
  | string s => exact hchar (c := '"') _ (by decide) (by decide) (by decide)
  | array items => exact hchar (c := '[') _ (by decide) (by decide) (by decide)
  | object members => exact hchar (c := '\x7b') _ (by decide) (by decide) (by decide)

namespace Reader

section

variable {array object : Reader Value}

/-- The reader of one sign is the reader of the text that begins with it. -/
theorem scalar_of_sign {b : UInt8} (hblank : isBlank b = false) (rest : List UInt8)
    (p : Position) :
    value.scalar array object ⟨b :: rest, p⟩ =
      (if b = 0x6e then do advance; word ull; pure .null
      else if b = 0x74 then do advance; word rue; pure (.bool true)
      else if b = 0x66 then do advance; word alse; pure (.bool false)
      else if b = 0x2d then do advance; return .number (← number true)
      else if isDigit b then do return .number (← number false)
      else if b = 0x22 then do advance; return .string (← string)
      else if b = 0x5b then array
      else if b = 0x7b then object
      else failNext .expectedValue : Reader Value) ⟨b :: rest, p⟩ := by
  rw [value.scalar, nextSign_bind hblank]

theorem scalar_null : Reads (value.scalar array object) (utf8 Value.null.write) .null := by
  intro rest p hrest
  show value.scalar array object ⟨0x6e :: (ull ++ rest), p⟩ = _
  rw [scalar_of_sign (by decide), if_pos rfl, advance_bind,
    bind_of_done (word_reads ull rest _ hrest)]
  rfl

theorem scalar_bool (b : Bool) :
    Reads (value.scalar array object) (utf8 (Value.bool b).write) (.bool b) := by
  intro rest p hrest
  cases b with
  | true =>
    show value.scalar array object ⟨0x74 :: (rue ++ rest), p⟩ = _
    rw [scalar_of_sign (by decide), if_neg (by decide), if_pos rfl, advance_bind,
      bind_of_done (word_reads rue rest _ hrest)]
    rfl
  | false =>
    show value.scalar array object ⟨0x66 :: (alse ++ rest), p⟩ = _
    rw [scalar_of_sign (by decide), if_neg (by decide), if_neg (by decide), if_pos rfl,
      advance_bind, bind_of_done (word_reads alse rest _ hrest)]
    rfl

theorem scalar_integer (n : Int) (fits : -0x8000000000000000 ≤ n ∧ n < 0x10000000000000000) :
    Reads (value.scalar array object) (utf8 (writeInt n)) (.number (.integer n fits)) := by
  intro rest p hrest
  cases n with
  | ofNat m =>
    have hwrite : writeInt (Int.ofNat m) = Nat.toDigits 10 m := writeInt_natCast m
    obtain ⟨b, more, hb, hdigit⟩ := utf8_toDigits m
    have hread := bind_of_done (number_natural fits rest p hrest)
      (f := fun n => Pure.pure (Value.number n))
    rw [hwrite]
    rw [hb, List.cons_append] at hread ⊢
    rw [scalar_of_sign (isBlank_of_isDigit hdigit), if_neg (ne_of_isDigit hdigit (by decide)),
      if_neg (ne_of_isDigit hdigit (by decide)), if_neg (ne_of_isDigit hdigit (by decide)),
      if_neg (ne_of_isDigit hdigit (by decide)), if_pos hdigit]
    exact hread
  | negSucc m =>
    have hneg : Int.negSucc m = -((m + 1 : Nat) : Int) := rfl
    have hwrite : writeInt (Int.negSucc m) = '-' :: Nat.toDigits 10 (m + 1) :=
      writeInt_neg (Nat.succ_pos m)
    rw [hwrite, utf8_cons_of_lt (by decide), List.cons_append]
    show value.scalar array object ⟨0x2d :: _, p⟩ = _
    rw [scalar_of_sign (by decide), if_neg (by decide), if_neg (by decide), if_neg (by decide),
      if_pos rfl, advance_bind,
      bind_of_done (number_negative (Nat.succ_pos m) fits rest _ hrest)]
    rfl

theorem scalar_string (s : String) :
    Reads (value.scalar array object) (utf8 (Value.string s).write) (.string s) := by
  intro rest p hrest
  have hread := writeString_reads s (fun s => Pure.pure (Value.string s)) (.pure _) rest p hrest
  rw [List.append_nil] at hread
  refine Eq.trans ?_ hread
  rw [Value.write, writeString, List.cons_append, utf8_cons_of_lt (by decide), List.cons_append]
  exact scalar_of_sign (by decide) _ _

theorem scalar_array {text : List UInt8} {v : Value} (h : Reads array (0x5b :: text) v) :
    Reads (value.scalar array object) (0x5b :: text) v := by
  intro rest p hrest
  rw [← h rest p hrest]
  exact scalar_of_sign (by decide) _ _

theorem scalar_object {text : List UInt8} {v : Value} (h : Reads object (0x7b :: text) v) :
    Reads (value.scalar array object) (0x7b :: text) v := by
  intro rest p hrest
  rw [← h rest p hrest]
  exact scalar_of_sign (by decide) _ _

/-- A written value that is no container reads as itself. -/
theorem scalar_reads {v : Value} (hexact : v.isExact) (hdepth : v.depth = 0) :
    Reads (value.scalar array object) (utf8 v.write) v := by
  cases v with
  | null => exact scalar_null
  | bool b => exact scalar_bool b
  | number n =>
    cases n with
    | integer n fits => exact scalar_integer n fits
    | float x => exact absurd hexact Bool.false_ne_true
  | string s => exact scalar_string s
  | array items => exact absurd hdepth (Nat.succ_ne_zero _)
  | object members => exact absurd hdepth (Nat.succ_ne_zero _)

end

/-! ## Values -/

theorem foldl_cons_eq_reverse {α : Type} (as done : List α) :
    as.foldl (fun s a => a :: s) done = as.reverse ++ done := by
  induction as generalizing done with
  | nil => rfl
  | cons a as ih => rw [List.foldl_cons, ih, List.reverse_cons, List.append_assoc]; rfl

theorem colon_reads {α : Type} {r : Reader α} {text : List UInt8} {a : α} (h : Reads r text a) :
    Reads (do colon; r) (0x3a :: text) a := by
  intro rest p hrest
  rw [List.cons_append, colon_bind, h rest _ hrest]
  rfl

/-- Items that read one by one are gathered last one first. -/
theorem gather_list_reads {α : Type} (levels : Nat) {r : Nat → Reader α} {text : α → List UInt8}
    {as : List α} (h : ∀ a ∈ as, Begins (text a) ∧ Reads (r levels) (text a) a) :
    Reads (list (levels + 1) (fun levels done => do return (← r levels) :: done) [])
      (0x5b :: commas (as.map text) ++ [0x5d]) as.reverse := by
  have hw : Walk (TakesItem (fun done => do return (← r levels) :: done) text) [] as
      (as.foldl (fun done a => a :: done) []) :=
    .of_foldl _ (fun a ha done => ⟨(h a ha).1, (h a ha).2.map _⟩) []
  rw [foldl_cons_eq_reverse, List.append_nil] at hw
  exact list_reads hw

/-- Members that read one by one are gathered last one first. -/
theorem gather_object_reads (levels : Nat) {r : Nat → Reader Value}
    {members : List (String × Value)}
    (h : ∀ m ∈ members, Reads (r levels) (utf8 m.2.write) m.2) :
    Reads (object (levels + 1) (fun levels done name => do
        colon
        return (name, ← r levels) :: done) [])
      (utf8 (Value.object members).write) members.reverse := by
  have hw : Walk (fun done m done' => TakesMember (fun done name => do
        colon
        return (name, ← r levels) :: done) done (memberEntry m) done') [] members
      (members.foldl (fun done m => m :: done) []) :=
    .of_foldl _ (fun m hm done => colon_reads ((h m hm).map fun v => (m.1, v) :: done)) []
  rw [foldl_cons_eq_reverse, List.append_nil] at hw
  rw [utf8_object]
  exact object_reads hw.map

/-- **A written value reads as itself** if its numbers are whole and enough levels are left. -/
theorem value_reads {levels : Nat} {v : Value} (hexact : v.isExact) (hdepth : v.depth ≤ levels) :
    Reads (value levels) (utf8 v.write) v := by
  induction levels generalizing v with
  | zero => exact scalar_reads hexact (Nat.le_zero.1 hdepth)
  | succ levels ih =>
    cases v with
    | array items =>
      have hitems : ∀ v ∈ items, Begins (utf8 v.write) ∧ Reads (value levels) (utf8 v.write) v :=
        fun v hv =>
          have hv' := itemsExact_iff.1 hexact v hv
          ⟨begins_write hv', ih hv' (itemsDepth_le_iff.1 (Nat.le_of_succ_le_succ hdepth) v hv)⟩
      have hlist := (gather_list_reads levels (r := fun _ => value levels) hitems).map fun done =>
        Value.array done.reverse
      rw [List.reverse_reverse] at hlist
      rw [utf8_array]
      exact scalar_array hlist
    | object members =>
      have hmembers : ∀ m ∈ members, Reads (value levels) (utf8 m.2.write) m.2 := fun m hm =>
        ih (membersExact_iff.1 hexact m hm)
          (membersDepth_le_iff.1 (Nat.le_of_succ_le_succ hdepth) m hm)
      have hobject := (gather_object_reads levels (r := fun _ => value levels) hmembers).map fun
        done => Value.object done.reverse
      rw [List.reverse_reverse, utf8_object] at hobject
      rw [utf8_object]
      exact scalar_object hobject
    | null => exact scalar_reads hexact rfl
    | bool b => exact scalar_reads hexact rfl
    | number n => exact scalar_reads hexact rfl
    | string s => exact scalar_reads hexact rfl

end Reader

end MetaCache.Json
