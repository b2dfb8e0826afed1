import MetaCache.Proofs.Json.Strings

/-!
# Lists and objects that were written read back

A loop over items or members takes one entry after the other; a `Walk` lists the states it passes
through. The loops follow any walk whose entries can be read one by one (`list_reads`,
`object_reads`), so a container reads back as soon as its entries do.
-/

namespace MetaCache.Json

open MetaCache.Text

variable {σ τ ε : Type}

/-! ## Walks -/

/-- From state to state by one entry after the other. -/
inductive Walk (takes : σ → ε → σ → Prop) : σ → List ε → σ → Prop
  | nil (s : σ) : Walk takes s [] s
  | cons {s s' s'' : σ} {e : ε} {es : List ε} (head : takes s e s') (tail : Walk takes s' es s'') :
      Walk takes s (e :: es) s''

namespace Walk

variable {takes : σ → ε → σ → Prop}

/-- Where every entry can be taken in every state, the walk is a fold. -/
theorem of_foldl (f : σ → ε → σ) {es : List ε} (h : ∀ e ∈ es, ∀ s, takes s e (f s e)) (s : σ) :
    Walk takes s es (es.foldl f s) := by
  induction es generalizing s with
  | nil => exact .nil s
  | cons e es ih =>
    exact .cons (h e List.mem_cons_self s) (ih (fun d hd => h d (List.mem_cons_of_mem _ hd)) _)

/-- The same walk inside larger states. -/
theorem inside {takes' : τ → ε → τ → Prop} (f : σ → τ) {s s' : σ} {es : List ε}
    (hw : Walk takes s es s') (h : ∀ e ∈ es, ∀ s s', takes s e s' → takes' (f s) e (f s')) :
    Walk takes' (f s) es (f s') := by
  induction hw with
  | nil s => exact .nil _
  | cons head _ ih =>
    exact .cons (h _ List.mem_cons_self _ _ head)
      (ih fun d hd => h d (List.mem_cons_of_mem _ hd))

/-- A walk over what the entries stand for. -/
theorem map {δ : Type} {g : δ → ε} {s s' : σ} {ds : List δ}
    (hw : Walk (fun s d s' => takes s (g d) s') s ds s') : Walk takes s (ds.map g) s' := by
  induction hw with
  | nil s => exact .nil s
  | cons head _ ih => exact .cons head ih

end Walk

/-! ## Commas -/

/-- Texts with commas between them, as bytes. -/
def commas : List (List UInt8) → List UInt8
  | [] => []
  | text :: more => text ++ more.flatMap (0x2c :: ·)

theorem utf8_commaSeparated (texts : List (List Char)) :
    utf8 (commaSeparated texts) = commas (texts.map utf8) := by
  cases texts with
  | nil => rfl
  | cons text more =>
    show utf8 (List.intercalate [','] (text :: more)) = _
    rw [List.map_cons, commas]
    induction more generalizing text with
    | nil => simp [List.intercalate]
    | cons next more ih =>
      rw [List.intercalate_cons_cons, utf8_append, utf8_append, ih, List.map_cons,
        List.flatMap_cons, List.append_assoc]
      rfl

/-- Behind an entry stands a comma or the closing bracket. -/
theorem apart_behind {texts : List (List UInt8)} {b : UInt8} {rest : List UInt8}
    (h : continuesNumber b = false) : Apart (texts.flatMap (0x2c :: ·) ++ b :: rest) := by
  cases texts with
  | nil => exact apart_cons h
  | cons text texts => exact apart_cons (by decide)

theorem length_le_length_flatMap_comma (texts : List (List UInt8)) :
    texts.length ≤ (texts.flatMap (0x2c :: ·)).length := by
  induction texts with
  | nil => simp
  | cons text texts ih => simp only [List.flatMap_cons, List.length_append, List.length_cons]; omega

/-! ## Lists -/

/-- An item's text neither begins with a blank nor closes the list. -/
def Begins (bytes : List UInt8) : Prop :=
  ∃ b more, bytes = b :: more ∧ isBlank b = false ∧ b ≠ 0x5d

/-- The step takes the text of one item. -/
def TakesItem (step : σ → Reader σ) (text : ε → List UInt8) (s : σ) (e : ε) (s' : σ) : Prop :=
  Begins (text e) ∧ Reads (step s) (text e) s'

namespace Reader

variable {step : σ → Reader σ} {text : ε → List UInt8}

theorem hasItem_closed (first : Bool) (rest : List UInt8) (p : Position) :
    hasItem first ⟨0x5d :: rest, p⟩ = .done false ⟨0x5d :: rest, p⟩ := by
  rw [hasItem, nextSign_bind (by decide)]
  rfl

theorem hasItem_first {bytes : List UInt8} (h : Begins bytes) (rest : List UInt8) (p : Position) :
    hasItem true ⟨bytes ++ rest, p⟩ = .done true ⟨bytes ++ rest, p⟩ := by
  obtain ⟨b, more, rfl, hblank, hb⟩ := h
  rw [List.cons_append, hasItem, nextSign_bind hblank]
  simp only [if_neg hb, if_true]
  rfl

theorem hasItem_comma {bytes : List UInt8} (h : Begins bytes) (rest : List UInt8) (p : Position) :
    hasItem false ⟨0x2c :: (bytes ++ rest), p⟩ = .done true ⟨bytes ++ rest, p.after 0x2c⟩ := by
  obtain ⟨b, more, rfl, hblank, hb⟩ := h
  rw [List.cons_append, hasItem, nextSign_bind (by decide)]
  show (advance >>= fun _ => _) _ = _
  rw [advance_bind, nextSign_bind hblank]
  simp only [if_neg hb]
  rfl

theorem itemsWithin_closed (rounds : Nat) (first : Bool) (s : σ) (rest : List UInt8)
    (p : Position) :
    itemsWithin step (rounds + 1) first s ⟨0x5d :: rest, p⟩ = .done s ⟨0x5d :: rest, p⟩ := by
  rw [itemsWithin, bind_of_done (hasItem_closed first rest p)]
  rfl

/-- Behind an item the loop follows the walk to the closing bracket. -/
theorem itemsWithin_behind {s s' : σ} {es : List ε} (hw : Walk (TakesItem step text) s es s')
    {rounds : Nat} (hrounds : es.length < rounds) (rest : List UInt8) (p : Position) :
    itemsWithin step rounds false s
        ⟨(es.map text).flatMap (0x2c :: ·) ++ 0x5d :: rest, p⟩
      = .done s' ⟨0x5d :: rest, p.afterAll ((es.map text).flatMap (0x2c :: ·))⟩ := by
  induction hw generalizing rounds p with
  | nil s =>
    obtain ⟨rounds, rfl⟩ := Nat.exists_eq_succ_of_ne_zero (Nat.ne_zero_of_lt hrounds)
    exact itemsWithin_closed rounds false s rest p
  | cons head _ ih =>
    obtain ⟨rounds, rfl⟩ := Nat.exists_eq_succ_of_ne_zero (Nat.ne_zero_of_lt hrounds)
    rw [List.map_cons, List.flatMap_cons, List.append_assoc, List.cons_append, itemsWithin,
      bind_of_done (hasItem_comma head.1 _ p)]
    simp only [if_true]
    rw [bind_of_done (head.2 _ _ (apart_behind (by decide))),
      ih (Nat.lt_of_succ_lt_succ hrounds)]
    simp

/-- The loop over items follows the walk to the closing bracket. -/
theorem items_of_walk {s s' : σ} {es : List ε} (hw : Walk (TakesItem step text) s es s')
    (rest : List UInt8) (p : Position) :
    items step s ⟨commas (es.map text) ++ 0x5d :: rest, p⟩
      = .done s' ⟨0x5d :: rest, p.afterAll (commas (es.map text))⟩ := by
  rw [items]
  cases hw with
  | nil s => exact itemsWithin_closed _ true s rest p
  | @cons s s₁ _ e es head tail =>
    rw [List.map_cons, commas, List.append_assoc, itemsWithin,
      bind_of_done (hasItem_first head.1 _ p)]
    simp only [if_true]
    rw [bind_of_done (head.2 _ _ (apart_behind (by decide))), itemsWithin_behind tail]
    · simp
    · have := length_le_length_flatMap_comma (es.map text)
      simp only [List.length_append, List.length_cons, List.length_map] at this ⊢
      omega

theorem closeList_reads : Reads closeList [0x5d] () := by
  intro rest p _
  show closeList ⟨0x5d :: rest, p⟩ = _
  rw [closeList, nextSign_bind (by decide)]
  rfl

/-- **A list reads back as soon as its items do.** -/
theorem list_reads {levels : Nat} {step : Nat → σ → Reader σ} {s s' : σ} {es : List ε}
    (hw : Walk (TakesItem (step levels) text) s es s') :
    Reads (list (levels + 1) step s) (0x5b :: commas (es.map text) ++ [0x5d]) s' := by
  refine .located fun rest p hrest => ?_
  rw [List.cons_append, List.cons_append, List.append_assoc, List.singleton_append]
  refine opening_of_done (enclosed_of_done (items_of_walk hw rest _) ?_)
  rw [Position.afterAll_cons, Position.afterAll_append]
  exact closeList_reads rest _ hrest

end Reader

/-! ## Objects -/

/-- The bytes of a member: its name and the text behind it. -/
def memberText (m : String × List UInt8) : List UInt8 := utf8 (writeString m.1) ++ m.2

/-- The step takes the text behind a member's name. -/
def TakesMember (step : σ → String → Reader σ) (s : σ) (m : String × List UInt8) (s' : σ) : Prop :=
  Reads (step s m.1) m.2 s'

theorem memberText_append (m : String × List UInt8) (rest : List UInt8) :
    memberText m ++ rest
      = 0x22 :: (utf8 (m.1.toList.flatMap escapeChar) ++ 0x22 :: (m.2 ++ rest)) := by
  rw [memberText, writeString, utf8_append, utf8_cons_of_lt (by decide),
    utf8_cons_of_lt (by decide), utf8_nil]
  simp

namespace Reader

variable {step : σ → String → Reader σ}

theorem hasMember_closed (first : Bool) (rest : List UInt8) (p : Position) :
    hasMember first ⟨0x7d :: rest, p⟩ = .done false ⟨0x7d :: rest, p⟩ := by
  rw [hasMember, nextSign_bind (by decide)]
  rfl

theorem hasMember_first (rest : List UInt8) (p : Position) :
    hasMember true ⟨0x22 :: rest, p⟩ = .done true ⟨0x22 :: rest, p⟩ := by
  rw [hasMember, nextSign_bind (by decide)]
  rfl

theorem hasMember_comma (rest : List UInt8) (p : Position) :
    hasMember false ⟨0x2c :: 0x22 :: rest, p⟩ = .done true ⟨0x22 :: rest, p.after 0x2c⟩ := by
  rw [hasMember, nextSign_bind (by decide)]
  show (advance >>= fun _ => _) _ = _
  rw [advance_bind, nextSign_bind (by decide)]
  rfl

theorem membersWithin_closed (rounds : Nat) (first : Bool) (s : σ) (rest : List UInt8)
    (p : Position) :
    membersWithin step (rounds + 1) first s ⟨0x7d :: rest, p⟩ = .done s ⟨0x7d :: rest, p⟩ := by
  rw [membersWithin, bind_of_done (hasMember_closed first rest p)]
  rfl

/-- The step gets the name and goes on behind it. -/
theorem member_bind (m : String × List UInt8) (f : String → Reader σ) (rest : List UInt8)
    (p : Position) :
    (do advance; f (← string)) ⟨memberText m ++ rest, p⟩
      = f m.1 ⟨m.2 ++ rest, p.afterAll (utf8 (writeString m.1))⟩ := by
  rw [memberText_append, advance_bind, bind_of_done (string_written _ _ _)]
  rw [writeString, utf8_append, utf8_cons_of_lt (by decide), utf8_cons_of_lt (by decide), utf8_nil]
  rfl

/-- Behind a member the loop follows the walk to the closing brace. -/
theorem membersWithin_behind {s s' : σ} {ms : List (String × List UInt8)}
    (hw : Walk (TakesMember step) s ms s') {rounds : Nat} (hrounds : ms.length < rounds)
    (rest : List UInt8) (p : Position) :
    membersWithin step rounds false s
        ⟨(ms.map memberText).flatMap (0x2c :: ·) ++ 0x7d :: rest, p⟩
      = .done s' ⟨0x7d :: rest, p.afterAll ((ms.map memberText).flatMap (0x2c :: ·))⟩ := by
  induction hw generalizing rounds p with
  | nil s =>
    obtain ⟨rounds, rfl⟩ := Nat.exists_eq_succ_of_ne_zero (Nat.ne_zero_of_lt hrounds)
    exact membersWithin_closed rounds false s rest p
  | @cons _ _ _ m _ head _ ih =>
    obtain ⟨rounds, rfl⟩ := Nat.exists_eq_succ_of_ne_zero (Nat.ne_zero_of_lt hrounds)
    rw [List.map_cons, List.flatMap_cons, List.append_assoc, List.cons_append, membersWithin,
      memberText_append, bind_of_done (hasMember_comma _ p), ← memberText_append]
    simp only [if_true]
    rw [member_bind, bind_of_done (head _ _ (apart_behind (by decide))),
      ih (Nat.lt_of_succ_lt_succ hrounds)]
    simp [memberText]

/-- The loop over members follows the walk to the closing brace. -/
theorem members_of_walk {s s' : σ} {ms : List (String × List UInt8)}
    (hw : Walk (TakesMember step) s ms s') (rest : List UInt8) (p : Position) :
    members step s ⟨commas (ms.map memberText) ++ 0x7d :: rest, p⟩
      = .done s' ⟨0x7d :: rest, p.afterAll (commas (ms.map memberText))⟩ := by
  rw [members]
  cases hw with
  | nil s => exact membersWithin_closed _ true s rest p
  | @cons s s₁ _ m ms head tail =>
    rw [List.map_cons, commas, List.append_assoc, membersWithin, memberText_append,
      bind_of_done (hasMember_first _ p), ← memberText_append]
    simp only [if_true]
    rw [member_bind, bind_of_done (head _ _ (apart_behind (by decide))), membersWithin_behind tail]
    · simp [memberText]
    · have := length_le_length_flatMap_comma (ms.map memberText)
      simp only [List.length_append, List.length_cons, List.length_map] at this ⊢
      omega

theorem closeObject_reads : Reads closeObject [0x7d] () := by
  intro rest p _
  show closeObject ⟨0x7d :: rest, p⟩ = _
  rw [closeObject, nextSign_bind (by decide)]
  rfl

/-- Whatever reads up to the closing brace reads an object inside its braces. -/
theorem braces_reads {α : Type} {levels : Nat} {inside : Nat → Reader α} {bytes : List UInt8}
    {a : α} (h : ∀ rest p, inside levels ⟨bytes ++ 0x7d :: rest, p⟩
      = .done a ⟨0x7d :: rest, p.afterAll bytes⟩) :
    Reads (located (opening (levels + 1) fun levels => enclosed (inside levels) closeObject))
      (0x7b :: bytes ++ [0x7d]) a := by
  refine .located fun rest p hrest => ?_
  rw [List.cons_append, List.cons_append, List.append_assoc, List.singleton_append]
  refine opening_of_done (enclosed_of_done (h rest _) ?_)
  rw [Position.afterAll_cons, Position.afterAll_append]
  exact closeObject_reads rest _ hrest

/-- **An object reads back as soon as its members do.** -/
theorem object_reads {s s' : σ} {ms : List (String × List UInt8)} {levels : Nat}
    {step : Nat → σ → String → Reader σ} (hw : Walk (TakesMember (step levels)) s ms s') :
    Reads (object (levels + 1) step s) (0x7b :: commas (ms.map memberText) ++ [0x7d]) s' :=
  braces_reads (members_of_walk hw)

theorem colon_bind {α : Type} (f : Unit → Reader α) (rest : List UInt8) (p : Position) :
    (colon >>= f) ⟨0x3a :: rest, p⟩ = f () ⟨rest, p.after 0x3a⟩ := by
  have h : colon ⟨0x3a :: rest, p⟩ = .done () ⟨rest, p.after 0x3a⟩ := by
    rw [colon, nextSign_bind (by decide)]
    rfl
  exact bind_of_done h

end Reader

end MetaCache.Json
