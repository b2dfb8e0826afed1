import MetaCache.Proofs.Cache.History
import MetaCache.Proofs.Number.Jitter
import MetaCache.Proofs.Remote.Decoded

/-!
# What the store holds is what was stored last

A cache keeps a journal of the records that it hands to its store. Starting from an empty store, a
lookup in the store answers with the last record in the journal that the store took under the key
(`Sound`), and every record in the journal is one that came from the API, normalized at a moment of
the world. The four steps of a cache keep this, and so does closing a persistent store and opening
it again.
-/

namespace MetaCache

open MetaCache.Remote MetaCache.Store

namespace Cache

/-- The last record that the store took under a key. -/
def lastKept? (deposits : List Deposit) (key : Key) : Option Deposit :=
  deposits.reverse.find? fun d => d.key = key && d.isKept

/-- The last record in the journal that the store took under a key. -/
def State.latest? (s : State) (key : Key) : Option Deposit := lastKept? s.deposits key

/-- The world of an API whose answers change. -/
def World.over (now : Nat → Instant) (draw : Nat → UInt64) (t : Nat → Transport) : World :=
  fun n => ⟨now n, draw n, (t n).fetcher⟩

/-- States that a cache passes through which begins with an empty store. -/
inductive Visited (c : Cache) (w : World) (b : Backend) : State → Prop
  | start (empty : ∀ key, b.answer key = .ok none) : Visited c w b (.ofBackend b)
  | lookup {s : State} (before : Visited c w b s) (kind : Kind) (raw : String) :
      Visited c w b (c.getEntity kind raw w s).2
  | resolve {s : State} (before : Visited c w b s) (raw : String) :
      Visited c w b (c.resolveApp raw w s).2
  | fill {s : State} (before : Visited c w b s) : Visited c w b (c.fillAll w s).2
  /-- The points inside a call count as well. -/
  | inside {s s' : State} (before : Visited c w b s) (step : Step c w s s') : Visited c w b s'
  /-- The store is closed and opened again. -/
  | reopen {s : State} {p p' : Persistent} (before : Visited c w b s)
      (found : s.backend = .persistent p) (opened : p.closeStore.openStore = (.ok (), p')) :
      Visited c w b { s with backend := .persistent p' }
  /-- The store is closed, and a new cache opens one at the same place. -/
  | rebuild {s : State} {p p' : Persistent} (before : Visited c w b s)
      (found : s.backend = .persistent p)
      (opened : (Persistent.ofSite p.closeStore.site p.mapSizeMiB).openStore = (.ok (), p')) :
      Visited c w b { s with backend := .persistent p', fetches := 0 }

/-- The journal tells what the store holds, and where it comes from. -/
structure Sound (c : Cache) (w : World) (b : Backend) (s : State) : Prop where
  choice : s.backend.choice = b.choice
  answer : ∀ key, s.backend.answer key = .ok ((s.latest? key).map fun d => b.choice.kept d.record)
  source : ∀ d ∈ s.deposits, ∃ n r, Source c w d.key r ∧ d.now = (w n).now
    ∧ d.record = c.normalizer.normalize d.key.kind r (w n).now (w n).draw

variable {c : Cache} {w : World} {b : Backend}

theorem lastKept?_append (deposits : List Deposit) (d : Deposit) (key : Key) :
    lastKept? (deposits ++ [d]) key =
      if d.key = key && d.isKept then some d else lastKept? deposits key := by
  simp only [lastKept?, List.reverse_append, List.reverse_singleton, List.singleton_append,
    List.find?_cons]
  split <;> next h => simp [h]

theorem sound_start (h : ∀ key, b.answer key = .ok none) : Sound c w b (.ofBackend b) :=
  ⟨rfl, h, fun _ hd => absurd hd List.not_mem_nil⟩

theorem Sound.looked {s : State} (h : Sound c w b s) (key : Key) : Sound c w b (s.looked key) where
  choice := (s.backend.choice_get key).trans h.choice
  answer other := (s.backend.answer_get key other).trans (h.answer other)
  source := h.source

/-- What the store takes is found afterwards, and what it refuses changes nothing. -/
theorem Sound.answer_deposited {s : State} {key : Key} {r : Record} (h : Sound c w b s)
    (hkeep : b.choice.CanKeep r) (now : Instant) (other : Key) :
    (s.deposited key r now).backend.answer other =
      .ok (((s.deposited key r now).latest? other).map fun d => b.choice.kept d.record) := by
  simp only [State.deposited, State.latest?, lastKept?_append]
  cases hput : s.backend.put key r with
  | mk result backend =>
    cases result with
    | ok done =>
      rw [Backend.answer_put hput (h.choice ▸ hkeep) other, h.choice, h.answer other]
      by_cases hkey : key = other
      · simp [hkey, Except.isOk, Except.toBool]
      · simp [hkey, Ne.symm hkey, State.latest?]
    | error e =>
      obtain ⟨rfl, -⟩ := Backend.put_error hput
      rw [h.answer other]
      simp [Except.isOk, Except.toBool, State.latest?]

theorem Sound.later {s : State} (h : Sound c w b s) : Sound c w b s.later :=
  ⟨h.choice, h.answer, h.source⟩

theorem Sound.stored {s : State} {key : Key} {r : Record} (h : Sound c w b s)
    (hr : Source c w key r)
    (hkeep : ∀ (now : Instant) draw,
      b.choice.CanKeep (c.normalizer.normalize key.kind r now draw)) :
    Sound c w b (s.stored c w key r) where
  choice := (s.backend.choice_put ..).trans h.choice
  answer other := h.later.answer_deposited (hkeep _ _) _ other
  source := by
    intro d hd
    rcases List.mem_append.1 hd with hd | hd
    · exact h.source d hd
    · obtain rfl := List.mem_singleton.1 hd
      exact ⟨s.elapsed, r, hr, rfl, rfl⟩

/-- The store can keep all that may come into it. -/
def Keepable (c : Cache) (w : World) (b : Backend) : Prop :=
  ∀ key r, Source c w key r → ∀ (now : Instant) draw,
    b.choice.CanKeep (c.normalizer.normalize key.kind r now draw)

theorem Sound.step {s s' : State} (hkeep : Keepable c w b) (h : Sound c w b s)
    (hstep : Step c w s s') : Sound c w b s' := by
  cases hstep with
  | look key => exact h.looked key
  | moment => exact h.later
  | ask paths => exact ⟨h.choice, h.answer, h.source⟩
  | store source => exact h.stored source (hkeep _ _ source)

theorem Sound.steps {s s' : State} (hkeep : Keepable c w b) (h : Sound c w b s)
    (hsteps : Steps c w s s') : Sound c w b s' := by
  induction hsteps with
  | refl => exact h
  | tail _ hstep ih => exact ih.step hkeep hstep

/-- Opening again changes nothing that can be found. -/
theorem Sound.opened {s s' : State} {p p' : Persistent} (h : Sound c w b s)
    (hp : s.backend = .persistent p) (hopen : p'.isOpen)
    (hcontents : p'.site.contents = p.site.contents) (hs : s'.backend = .persistent p')
    (hdeposits : s'.deposits = s.deposits) : Sound c w b s' where
  choice := by
    rw [hs, ← h.choice, hp]
    rfl
  answer key := by
    have hanswer := h.answer key
    rw [hp] at hanswer
    rw [hs, Backend.answer_congr (Backend.isOpen_of_answer hanswer) hopen hcontents, hanswer,
      State.latest?, State.latest?, hdeposits]
  source := hdeposits ▸ h.source

/-- **In every state that a cache passes through, the store holds what was stored last.** -/
theorem Visited.sound {s : State} (hkeep : Keepable c w b) (h : Visited c w b s) :
    Sound c w b s := by
  induction h with
  | start empty => exact sound_start empty
  | lookup _ kind raw ih => exact ih.steps hkeep (steps_getEntity ..)
  | resolve _ raw ih => exact ih.steps hkeep (steps_resolveApp ..)
  | fill _ ih => exact ih.steps hkeep (steps_fillAll ..)
  | inside _ step ih => exact ih.step hkeep step
  | reopen _ found opened ih =>
    have hcontents := Persistent.contents_of_openStore opened
    exact ih.opened found (Persistent.isOpen_of_openStore opened) hcontents rfl rfl
  | rebuild _ found opened ih =>
    have hcontents := Persistent.contents_of_openStore opened
    exact ih.opened found (Persistent.isOpen_of_openStore opened) hcontents rfl rfl

/-- What the API must be like for a backend to find again all that is put into it. A persistent
store keeps records out of documents whose numbers are whole. -/
def Suits (w : World) : BackendChoice → Prop
  | .memory => True
  | .persistent => ∀ n, ∃ t : Transport, (w n).fetcher = t.fetcher ∧ t.fetcher.IsExact
  | .disabled => False

theorem keepable_of_suits (h : Suits w b.choice) : Keepable c w b := by
  intro key r hr now draw
  cases hchoice : b.choice with
  | memory => exact True.intro
  | disabled => rw [hchoice] at h; exact h.elim
  | persistent =>
    rw [hchoice] at h
    refine ⟨?_, Timestamp.le_last_of_ordinary (c.normalizer.isLeap_expiry now.isLeap_eq_false draw)⟩
    -- Normalization leaves the environment alone.
    show r.Storable
    cases hr with
    | @fetched n _ answer =>
      obtain ⟨t, hfetcher, hexact⟩ := h n
      exact t.storable_of_fetched hexact (hfetcher ▸ answer)
    | @listed n found raw _ answer mem =>
      obtain ⟨t, hfetcher, hexact⟩ := h n
      exact t.storable_of_listed hexact (hfetcher ▸ answer) _ mem
    | missing => exact Record.storable_named ""

/-! ## Refusals -/

/-- The store took all that was handed to it. -/
def State.Unrefused (s : State) : Prop := ∀ d ∈ s.deposits, d.isKept

/-- The journal only grows. -/
theorem deposits_of_steps {s s' : State} (h : Steps c w s s') : s.deposits <+: s'.deposits := by
  induction h with
  | refl => exact List.prefix_rfl
  | tail _ hstep ih =>
    refine ih.trans ?_
    cases hstep with
    | store => exact List.prefix_append ..
    | _ => exact List.prefix_rfl

/-- Moments only go by. -/
theorem elapsed_of_steps {s s' : State} (h : Steps c w s s') : s.elapsed ≤ s'.elapsed := by
  induction h with
  | refl => exact Nat.le_refl _
  | tail _ hstep ih =>
    refine Nat.le_trans ih ?_
    cases hstep with
    | look => exact Nat.le_refl _
    | _ => exact Nat.le_succ _

theorem unrefused_of_steps {s s' : State} (h : Steps c w s s') (hs' : s'.Unrefused) :
    s.Unrefused := fun d hd => hs' d ((deposits_of_steps h).subset hd)

/-- Only a persistent store refuses a record. -/
theorem store_ok {s : State} {key : Key} {r : Record}
    (h : s.backend.choice = .persistent → (s.stored c w key r).Unrefused) :
    (c.store key r w s).1
      = .ok (c.normalizer.normalize key.kind r (w s.elapsed).now (w s.elapsed).draw) := by
  rw [store_apply]
  generalize hr : c.normalizer.normalize key.kind r (w s.elapsed).now (w s.elapsed).draw = r'
  have hput : (s.backend.put key r').1 = .ok () := by
    cases hb : s.backend with
    | memory m => rfl
    | disabled => rfl
    | persistent p =>
      have hkept := h (by rw [hb]; rfl) ⟨key, r', (w s.elapsed).now, (s.backend.put key r').1.isOk⟩
        (List.mem_append_right _ (List.mem_singleton.2 (by rw [← hr]; rfl)))
      rw [← hb]
      cases hdone : (s.backend.put key r').1 with
      | ok done => rfl
      | error e => rw [hdone] at hkept; cases hkept
  rw [hput]
  rfl

/-- What memory takes is the last under its key. -/
theorem latest_stored {s : State} {m : Memory} (hs : s.backend = .memory m) (key : Key)
    (r : Record) : (s.stored c w key r).latest? key = some ⟨key,
      c.normalizer.normalize key.kind r (w s.elapsed).now (w s.elapsed).draw,
      (w s.elapsed).now, true⟩ := by
  have hput (r' : Record) : (s.later.backend.put key r').1 = .ok () := by
    show (s.backend.put key r').1 = _
    rw [hs]
    rfl
  rw [State.stored, State.deposited, State.latest?, lastKept?_append, hput]
  exact if_pos (by simp [Except.isOk, Except.toBool])

theorem choice_of_steps {s s' : State} (h : Steps c w s s') :
    s'.backend.choice = s.backend.choice := by
  induction h with
  | refl => rfl
  | tail _ hstep ih =>
    rw [← ih]
    cases hstep with
    | look key => exact Backend.choice_get ..
    | store => exact Backend.choice_put ..
    | _ => rfl

end Cache

end MetaCache
