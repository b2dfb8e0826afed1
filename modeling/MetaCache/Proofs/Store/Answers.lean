import MetaCache.Proofs.Store.Codec
import MetaCache.Store.Backend

/-!
# What backends answer

What a backend answers to a lookup depends on the puts before it and on nothing else: lookups change
no answer (`answer_get`), a put that succeeds changes the answer under its own key (`answer_put`),
and a put that fails changes nothing (`put_error`). Opening a persistent store leaves its contents
alone (`contents_of_openStore`).
-/

namespace MetaCache

/-! ## Kinds of backends -/

namespace BackendChoice

/-- A record as it is found after a put. -/
def kept : BackendChoice → Record → Record
  | persistent => Record.floored
  | _ => id

/-- Whether a record can be found after a put. -/
def CanKeep : BackendChoice → Record → Prop
  | memory, _ => True
  | persistent, r => r.Storable ∧ r.expiresAt ≤ .last
  | disabled, _ => False

end BackendChoice

namespace Store

namespace Persistent

theorem put_ok {p p' : Persistent} {key : Key} {r : Record} (h : p.put key r = (.ok (), p')) :
    p.isOpen ∧ ∃ value volume, encodeRecord r = .ok value
      ∧ volume.contents = p.site.contents.put key.text value
      ∧ p' = { p with site := p.site.withVolume volume } := by
  rw [put] at h
  split at h
  · next hopen =>
    split at h
    · next value hvalue =>
      split at h
      · next volume hvolume =>
        obtain rfl := (Prod.mk.inj h).2
        exact ⟨hopen, value, volume, hvalue, Volume.contents_put hvolume, rfl⟩
      · exact absurd (Prod.mk.inj h).1 (by simp)
    · exact absurd (Prod.mk.inj h).1 (by simp)
  · exact absurd (Prod.mk.inj h).1 (by simp)

theorem put_error {p p' : Persistent} {key : Key} {r : Record} {e : Error}
    (h : p.put key r = (.error e, p')) : p' = p ∧ ∃ cause, e = .storage cause := by
  rw [put] at h
  split at h
  · split at h
    · split at h
      · exact absurd (Prod.mk.inj h).1 (by simp)
      · cases h
        exact ⟨rfl, _, rfl⟩
    · cases h
      exact ⟨rfl, _, rfl⟩
  · cases h
    exact ⟨rfl, _, rfl⟩

/-- The store with other counts. -/
def withCounts (p : Persistent) (hits misses : Nat) : Persistent := { p with hits, misses }

/-- A lookup only counts. -/
theorem get_snd (p : Persistent) (key : Key) :
    ∃ hits misses, (p.get key).2 = p.withCounts hits misses := by
  rw [get]
  split
  · split <;> exact ⟨_, _, rfl⟩
  · exact ⟨_, _, rfl⟩

theorem get_withCounts (p : Persistent) (hits misses : Nat) (key : Key) :
    ((p.withCounts hits misses).get key).1 = (p.get key).1 := by
  unfold get withCounts
  by_cases hopen : p.isOpen
  · simp only [hopen, if_true]
    cases p.site.contents.get? key.text <;> rfl
  · simp only [hopen]
    rfl

theorem put_withCounts (p : Persistent) (hits misses : Nat) (key : Key) (r : Record) :
    (p.withCounts hits misses).put key r
      = ((p.put key r).1, (p.put key r).2.withCounts hits misses) := by
  obtain ⟨mapSizeMiB, site, isOpen, wasTried, hits₀, misses₀⟩ := p
  cases isOpen with
  | false => rfl
  | true =>
    simp only [put, withCounts, pageLimit, mapBytes, if_true]
    cases encodeRecord r with
    | error what => rfl
    | ok value =>
      simp only
      split <;> simp only

end Persistent

/-- A lookup only counts. -/
theorem Memory.records_get (m : Memory) (key : Key) : (m.get key).2.records = m.records := by
  unfold Memory.get
  split <;> rfl

namespace Backend

/-- What a lookup answers. -/
def answer (b : Backend) (key : Key) : Except Error (Option Record) := (b.get key).1

/-- The kind of the backend. -/
def choice : Backend → BackendChoice
  | memory _ => .memory
  | persistent _ => .persistent
  | disabled => .disabled

theorem retains_congr {b b' : Backend} (h : b'.choice = b.choice) : b'.retains = b.retains := by
  cases b <;> cases b' <;> first | rfl | cases h

theorem answer_memory (m : Memory) (key : Key) :
    (memory m).answer key = .ok (m.records.get? key) := by
  simp only [answer, get, Memory.get]
  split <;> next h => rw [h]

theorem answer_persistent {p : Persistent} (h : p.isOpen) (key : Key) :
    (persistent p).answer key =
      match p.site.contents.get? key.text with
      | some value => (decodeRecord key value).map some |>.mapError .storage
      | none => .ok none := by
  simp only [answer, get, Persistent.get, if_pos h]
  cases p.site.contents.get? key.text with
  | some value => rfl
  | none => rfl

theorem put_persistent (p : Persistent) (key : Key) (r : Record) :
    (persistent p).put key r = ((p.put key r).1, persistent (p.put key r).2) := rfl

/-- Lookups change no answer. -/
theorem answer_get (b : Backend) (key other : Key) : (b.get key).2.answer other = b.answer other := by
  cases b with
  | memory m =>
    simp only [get, answer_memory, Memory.get]
    split <;> rfl
  | persistent p =>
    obtain ⟨hits, misses, h⟩ := p.get_snd key
    show (persistent (p.get key).2).answer other = _
    rw [h]
    exact p.get_withCounts hits misses other
  | disabled => rfl

@[simp]
theorem choice_get (b : Backend) (key : Key) : (b.get key).2.choice = b.choice := by
  cases b <;> rfl

@[simp]
theorem choice_put (b : Backend) (key : Key) (r : Record) :
    (b.put key r).2.choice = b.choice := by
  cases b <;> rfl

/-- **A put that succeeds changes what is found under its own key and nothing else.** -/
theorem answer_put {b b' : Backend} {key : Key} {r : Record} (h : b.put key r = (.ok (), b'))
    (hkeep : b.choice.CanKeep r) (other : Key) :
    b'.answer other = if other = key then .ok (some (b.choice.kept r)) else b.answer other := by
  cases b with
  | memory m =>
    obtain rfl := (Prod.mk.inj h).2
    rw [answer_memory, answer_memory, Memory.put, Table.get?_put]
    split <;> rfl
  | persistent p =>
    rw [put_persistent] at h
    obtain ⟨hdone, rfl⟩ := Prod.mk.inj h
    obtain ⟨hopen, value, volume, hvalue, hcontents, hp'⟩ :=
      Persistent.put_ok (Prod.ext hdone rfl : p.put key r = (.ok (), (p.put key r).2))
    rw [hp', answer_persistent (by exact hopen), answer_persistent hopen]
    simp only [Site.contents_withVolume, hcontents, Table.get?_put]
    by_cases hkey : other = key
    · subst hkey
      rw [if_pos rfl, if_pos rfl]
      simp only [decodeRecord_of_encodeRecord hkeep.1 hkeep.2 hvalue]
      rfl
    · rw [if_neg fun htext => hkey (Key.text_injective htext), if_neg hkey]
  | disabled => exact hkeep.elim

/-- Memory always answers. -/
theorem exists_answer_of_memory {b : Backend} (h : b.choice = .memory) (key : Key) :
    ∃ found, b.answer key = .ok found := by
  cases b with
  | memory m => exact ⟨_, answer_memory m key⟩
  | persistent p => cases h
  | disabled => cases h

/-- Memory takes everything as it is. -/
theorem put_of_memory {b : Backend} (h : b.choice = .memory) (key : Key) (r : Record) :
    (b.put key r).1 = .ok () ∧ ∀ other, (b.put key r).2.answer other
      = if other = key then .ok (some r) else b.answer other := by
  cases b with
  | memory m => exact ⟨rfl, fun other => answer_put (b := .memory m) rfl True.intro other⟩
  | persistent p => cases h
  | disabled => cases h

/-- A put that fails changes nothing, and its error is one of storage. -/
theorem put_error {b b' : Backend} {key : Key} {r : Record} {e : Error}
    (h : b.put key r = (.error e, b')) : b' = b ∧ ∃ cause, e = .storage cause := by
  cases b with
  | memory m => exact absurd (Prod.mk.inj h).1 (by simp)
  | persistent p =>
    rw [put_persistent] at h
    obtain ⟨hdone, rfl⟩ := Prod.mk.inj h
    obtain ⟨hsame, he⟩ :=
      Persistent.put_error (Prod.ext hdone rfl : p.put key r = (.error e, (p.put key r).2))
    exact ⟨congrArg persistent hsame, he⟩
  | disabled => exact absurd (Prod.mk.inj h).1 (by simp)

/-- Why a store does not answer a lookup. -/
inductive Unreadable (key : Key) : Backend → Error → Prop
  | closed {p : Persistent} (closed : p.isOpen = false) :
      Unreadable key (persistent p) (.storage .notOpen)
  | corrupt {p : Persistent} {value : List UInt8} {what : Corruption} (isOpen : p.isOpen)
      (found : p.site.contents.get? key.text = some value) (bad : readValue value = .error what) :
      Unreadable key (persistent p) (.storage (.corrupt key.text what.message))

theorem answer_eq_error_iff {b : Backend} {key : Key} {e : Error} :
    b.answer key = .error e ↔ Unreadable key b e := by
  constructor
  · intro h
    cases b with
    | memory m => rw [answer_memory] at h; cases h
    | disabled => cases h
    | persistent p =>
      cases hopen : p.isOpen with
      | false =>
        simp only [answer, get, Persistent.get, hopen] at h
        cases h
        exact .closed hopen
      | true =>
        rw [answer_persistent hopen] at h
        split at h
        · next value hvalue =>
          rw [decodeRecord] at h
          split at h
          · cases h
          · next what hwhat =>
            cases h
            exact .corrupt hopen hvalue hwhat
        · cases h
  · rintro (hclosed | ⟨hopen, hvalue, hwhat⟩)
    · simp only [answer, get, Persistent.get, hclosed]
      rfl
    · rw [answer_persistent hopen, hvalue]
      simp only [decodeRecord, hwhat]
      rfl

/-- A lookup that fails does so for a reason of storage. -/
theorem answer_error {b : Backend} {key : Key} {e : Error} (h : b.answer key = .error e) :
    ∃ cause, e = .storage cause := by
  cases answer_eq_error_iff.1 h with
  | _ => exact ⟨_, rfl⟩

end Backend

/-! ## Opening again -/

/-- Whether it succeeds or not, opening a store leaves the contents at its place alone. -/
theorem Persistent.contents_of_openStore {p p' : Persistent} {result : Except Error Unit}
    (h : p.openStore = (result, p')) : p'.site.contents = p.site.contents := by
  rw [openStore] at h
  split at h
  · cases h
    rfl
  · split at h
    · cases h
      rfl
    · split at h
      · cases h
        rfl
      · dsimp only at h
        split at h
        · cases h
          exact Site.contents_settled _
        · cases h
          exact Site.contents_settled _

theorem Persistent.isOpen_of_openStore {p p' : Persistent} (h : p.openStore = (.ok (), p')) :
    p'.isOpen := by
  rw [openStore] at h
  split at h
  · next hopen =>
    cases h
    exact hopen
  · split at h
    · exact absurd (Prod.mk.inj h).1 (by simp)
    · split at h
      · exact absurd (Prod.mk.inj h).1 (by simp)
      · dsimp only at h
        split at h
        · exact absurd (Prod.mk.inj h).1 (by simp)
        · cases h
          rfl

theorem Backend.openStore_persistent (p : Persistent) :
    (persistent p).openStore = (p.openStore.1, persistent p.openStore.2) := rfl

/-- Open stores with the same contents answer the same. -/
theorem Backend.answer_congr {p p' : Persistent} (hopen : p.isOpen) (hopen' : p'.isOpen)
    (h : p'.site.contents = p.site.contents) (key : Key) :
    (persistent p').answer key = (persistent p).answer key := by
  rw [answer_persistent hopen', answer_persistent hopen, h]

/-- A store that answers is open. -/
theorem Backend.isOpen_of_answer {p : Persistent} {key : Key} {found : Option Record}
    (h : (persistent p).answer key = .ok found) : p.isOpen := by
  cases hopen : p.isOpen with
  | true => rfl
  | false => simp [answer, get, Persistent.get, hopen] at h

end Store

end MetaCache
