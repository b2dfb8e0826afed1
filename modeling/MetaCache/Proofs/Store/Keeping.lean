import MetaCache.Proofs.Store.Answers

/-!
# What stays in a backend

A put leaves something under its key, and that stays there until another put succeeds under the same
key: lookups do not touch it, nor do puts under other keys, nor puts that fail (`Keeps.get`,
`Keeps.put`), nor does closing a persistent store and opening it again (`Keeps.reopened`).

What is left is the record itself in memory, and the bytes that encode it in a persistent store. So
a backend keeps any record that it takes. Only what it answers to a lookup depends on whether the
record can be read back (`Keeps.answer`).

The other way round, whatever comes into a backend comes in by a put, under the key of the put
(`Extends`), and whatever is under another key is spared by it (`Spares`). A lookup changes nothing
but the counts (`Recounted`).
-/

namespace MetaCache.Store.Backend

variable {b b' : Backend} {key other : Key} {r r' : Record} {touched touched' : Key → Prop}

/-! ## What a backend leaves alone -/

/-- The backend with other counts. -/
def withCounts (hits misses : Nat) : Backend → Backend
  | memory m => memory { m with hits, misses }
  | persistent p => persistent (p.withCounts hits misses)
  | disabled => disabled

/-- Nothing has changed from one backend to another but the counts. -/
def Recounted (b b' : Backend) : Prop := ∃ hits misses, b' = b.withCounts hits misses

theorem Recounted.refl (b : Backend) : b.Recounted b := by
  cases b with
  | memory m => exact ⟨m.hits, m.misses, rfl⟩
  | persistent p => exact ⟨p.hits, p.misses, rfl⟩
  | disabled => exact ⟨0, 0, rfl⟩

theorem recounted_get (b : Backend) (key : Key) : b.Recounted (b.get key).2 := by
  cases b with
  | memory m =>
    show (memory m).Recounted (memory (m.get key).2)
    unfold Memory.get
    split <;> exact ⟨_, _, rfl⟩
  | persistent p =>
    obtain ⟨hits, misses, hsnd⟩ := p.get_snd key
    exact ⟨hits, misses, congrArg persistent hsnd⟩
  | disabled => exact .refl _

theorem Recounted.retains (h : b.Recounted b') : b'.retains = b.retains := by
  obtain ⟨hits, misses, rfl⟩ := h
  cases b <;> rfl

/-- Whether a record is taken does not depend on the counts. -/
theorem Recounted.put (h : b.Recounted b') (key : Key) (r : Record) :
    (b'.put key r).1 = (b.put key r).1 := by
  obtain ⟨hits, misses, rfl⟩ := h
  cases b with
  | persistent p =>
    show ((p.withCounts hits misses).put key r).1 = (p.put key r).1
    rw [p.put_withCounts]
  | _ => rfl

/-- What the first of two backends has, the second one has as well, but for what is under some keys;
and it is open if the first one is. -/
def Spares (touched : Key → Prop) : Backend → Backend → Prop
  | memory m, memory m' => ∀ key, ¬ touched key → m'.records.get? key = m.records.get? key
  | persistent p, persistent p' => p'.isOpen = p.isOpen
      ∧ ∀ text, (∀ key, touched key → text ≠ key.text) →
        p'.site.contents.get? text = p.site.contents.get? text
  | disabled, disabled => True
  | _, _ => False

theorem Recounted.spares (h : b.Recounted b') (touched : Key → Prop) : b.Spares touched b' := by
  obtain ⟨hits, misses, rfl⟩ := h
  cases b with
  | memory m => exact fun _ _ => rfl
  | persistent p => exact ⟨rfl, fun _ _ => rfl⟩
  | disabled => exact True.intro

theorem Spares.mono (h : b.Spares touched b') (hmore : ∀ key, touched key → touched' key) :
    b.Spares touched' b' := by
  cases b <;> cases b' <;> try exact h.elim
  · exact fun key hkey => h key fun hkey' => hkey (hmore key hkey')
  · exact ⟨h.1, fun text htext => h.2 text fun key hkey => htext key (hmore key hkey)⟩
  · exact True.intro

theorem Spares.trans {b₁ b₂ b₃ : Backend} (h : Spares touched b₁ b₂) (h' : Spares touched b₂ b₃) :
    Spares touched b₁ b₃ := by
  cases b₁ <;> cases b₂ <;> try exact h.elim
  all_goals cases b₃ <;> try exact h'.elim
  · exact fun key hkey => (h' key hkey).trans (h key hkey)
  · exact ⟨h'.1.trans h.1, fun text htext => (h'.2 text htext).trans (h.2 text htext)⟩
  · exact True.intro

/-- What is left alone is found as before. -/
theorem Spares.answer (h : b.Spares touched b') (hkey : ¬ touched key) :
    b'.answer key = b.answer key := by
  cases b <;> cases b' <;> try exact h.elim
  · rw [answer_memory, answer_memory]
    exact congrArg Except.ok (h key hkey)
  · next p p' =>
    obtain ⟨hopen, hcontents⟩ := h
    have hsame := hcontents key.text fun other hother htext =>
      hkey (Key.text_injective htext ▸ hother)
    cases hp : p.isOpen with
    | true => rw [answer_persistent (hopen.trans hp), answer_persistent hp, hsame]
    | false =>
      rw [answer_eq_error_iff.2 (.closed (hopen.trans hp)), answer_eq_error_iff.2 (.closed hp)]
  · rfl

/-- **A put leaves alone what is under other keys.** -/
theorem spares_put (b : Backend) (key : Key) (r : Record) : b.Spares (· = key) (b.put key r).2 := by
  cases b with
  | memory m =>
    intro other hother
    rw [Memory.put, Table.get?_put, if_neg hother]
  | persistent p =>
    rw [put_persistent]
    cases hput : p.put key r with
    | mk result p' =>
      cases result with
      | error e =>
        obtain ⟨rfl, -⟩ := Persistent.put_error hput
        exact (Recounted.refl _).spares _
      | ok done =>
        obtain ⟨-, value, volume, -, hcontents, rfl⟩ := Persistent.put_ok hput
        refine ⟨rfl, fun text htext => ?_⟩
        rw [Site.contents_withVolume, hcontents, Table.get?_put, if_neg (htext key rfl)]
  | disabled => exact True.intro

/-! ## What a backend keeps -/

/-- The backend has under the key what a put of the record leaves there. -/
def Keeps (key : Key) (r : Record) : Backend → Prop
  | memory m => m.records.get? key = some r
  | persistent p => p.isOpen ∧ ∃ value, encodeRecord r = .ok value
      ∧ p.site.contents.get? key.text = some value
  | disabled => False

/-- **What a backend takes it keeps**, unless it keeps nothing at all. -/
theorem keeps_put (hretains : b.retains) (h : b.put key r = (.ok (), b')) : b'.Keeps key r := by
  cases b with
  | memory m =>
    obtain rfl := (Prod.mk.inj h).2
    show (m.put key r).records.get? key = some r
    rw [Memory.put, Table.get?_put, if_pos rfl]
  | persistent p =>
    rw [put_persistent] at h
    obtain ⟨hdone, rfl⟩ := Prod.mk.inj h
    obtain ⟨hopen, value, volume, hvalue, hcontents, hp'⟩ :=
      Persistent.put_ok (Prod.ext hdone rfl : p.put key r = (.ok (), (p.put key r).2))
    rw [hp']
    refine ⟨hopen, value, hvalue, ?_⟩
    rw [Site.contents_withVolume, hcontents, Table.get?_put, if_pos rfl]
  | disabled => cases hretains

theorem Keeps.retains (h : b.Keeps key r) : b.retains := by
  cases b with
  | disabled => exact h.elim
  | _ => rfl

/-- What is left alone is kept. -/
theorem Keeps.spared (h : b.Keeps key r) (hspares : b.Spares touched b') (hkey : ¬ touched key) :
    b'.Keeps key r := by
  cases b <;> cases b' <;> try exact hspares.elim
  · exact (hspares key hkey).trans h
  · obtain ⟨hopen, value, hvalue, hfound⟩ := h
    have hsame := hspares.2 key.text fun other hother htext =>
      hkey (Key.text_injective htext ▸ hother)
    exact ⟨hspares.1.trans hopen, value, hvalue, hsame.trans hfound⟩
  · exact h

theorem Keeps.get (h : b.Keeps key r) (other : Key) : (b.get other).2.Keeps key r :=
  h.spared ((b.recounted_get other).spares fun _ => False) not_false

/-- A put under another key leaves alone what is kept. -/
theorem Keeps.put_other (h : b.Keeps key r) (hother : other ≠ key) (r' : Record) :
    (b.put other r').2.Keeps key r := h.spared (b.spares_put other r') hother.symm

/-- **What is kept stays until another put succeeds under the same key.** -/
theorem Keeps.put (h : b.Keeps key r) (hput : other = key → (b.put other r').1.isOk = false) :
    (b.put other r').2.Keeps key r := by
  by_cases hother : other = key
  · cases hdone : b.put other r' with
    | mk result b' =>
      have hfails := hput hother
      rw [hdone] at hfails
      cases result with
      | ok done => cases hfails
      | error e =>
        obtain ⟨rfl, -⟩ := put_error hdone
        exact h
  · exact h.put_other hother r'

theorem Keeps.reopened {p p' : Persistent} (h : (persistent p).Keeps key r)
    (hopened : p.closeStore.openStore = (.ok (), p')) : (persistent p').Keeps key r := by
  obtain ⟨-, value, hvalue, hfound⟩ := h
  refine ⟨Persistent.isOpen_of_openStore hopened, value, hvalue, ?_⟩
  rw [Persistent.contents_of_openStore hopened]
  exact hfound

/-- A record that can be read back is found. -/
theorem Keeps.answer (h : b.Keeps key r) (hkeep : b.choice.CanKeep r) :
    b.answer key = .ok (some (b.choice.kept r)) := by
  cases b with
  | memory m =>
    rw [answer_memory]
    exact congrArg Except.ok h
  | persistent p =>
    obtain ⟨hopen, value, hvalue, hfound⟩ := h
    rw [answer_persistent hopen, hfound]
    simp only [decodeRecord_of_encodeRecord hkeep.1 hkeep.2 hvalue]
    rfl
  | disabled => exact h.elim

/-! ## What comes into a backend -/

/-- Whatever the second of two backends has, the first one had, or it is under one of some keys. -/
def Extends (keys : List Key) : Backend → Backend → Prop
  | memory m, memory m' => ∀ key r, m'.records.get? key = some r →
      m.records.get? key = some r ∨ key ∈ keys
  | persistent p, persistent p' => ∀ text value, p'.site.contents.get? text = some value →
      p.site.contents.get? text = some value ∨ text ∈ keys.map Key.text
  | disabled, disabled => True
  | _, _ => False

theorem Extends.refl (b : Backend) : b.Extends [] b := by
  cases b with
  | disabled => exact True.intro
  | _ => exact fun _ _ h => .inl h

theorem Extends.trans {b₁ b₂ b₃ : Backend} {keys keys' : List Key} (h : Extends keys b₁ b₂)
    (h' : Extends keys' b₂ b₃) : Extends (keys ++ keys') b₁ b₃ := by
  cases b₁ <;> cases b₂ <;> try exact h.elim
  all_goals cases b₃ <;> try exact h'.elim
  · intro key r hr
    rw [List.mem_append, ← or_assoc]
    exact (h' key r hr).imp_left (h key r)
  · intro text value hvalue
    rw [List.map_append, List.mem_append, ← or_assoc]
    exact (h' text value hvalue).imp_left (h text value)
  · exact True.intro

theorem Spares.extends {keys : List Key} (h : b.Spares (· ∈ keys) b') : b.Extends keys b' := by
  cases b <;> cases b' <;> try exact h.elim
  · intro key r hr
    by_cases hkey : key ∈ keys
    · exact .inr hkey
    · exact .inl ((h key hkey).symm.trans hr)
  · intro text value hvalue
    by_cases htext : text ∈ keys.map Key.text
    · exact .inr htext
    · refine .inl ((h.2 text fun key hkey hsame => htext ?_).symm.trans hvalue)
      exact hsame ▸ List.mem_map_of_mem hkey
  · exact True.intro

theorem extends_get (b : Backend) (key : Key) : b.Extends [] (b.get key).2 :=
  ((b.recounted_get key).spares _).extends

/-- **A put writes under its key and nowhere else.** -/
theorem extends_put (b : Backend) (key : Key) (r : Record) : b.Extends [key] (b.put key r).2 :=
  ((b.spares_put key r).mono fun _ hkey => List.mem_singleton.2 hkey).extends

end MetaCache.Store.Backend
