import MetaCache.Proofs.Cache.Freshness
import MetaCache.Proofs.Store.Keeping

/-!
# A lookup between the store and the API

A lookup looks into the store first. If the store cannot tell, that is all; else a record that is
fresh is served, and in any other case the API is asked (`Unserved`). What the API answers is
*offered* to the store (`Offers`): a record as it is, and an empty record in the place of a missing
app if those are ignored.

All of this is about one key, and what is under other keys is left alone (`spares_getEntity`).
-/

namespace MetaCache

open MetaCache.Remote MetaCache.Store

namespace Cache

variable {c : Cache} {w : World} {s s₁ : State} {key : Key} {r : Record} {e : Error}

/-- A record as it is stored under a key if it is normalized at a moment. -/
abbrev normalizedAt (c : Cache) (w : World) (n : Nat) (key : Key) (r : Record) : Record :=
  c.normalizer.normalize key.kind r (w n).now (w n).draw

/-- What the API replies to a request for a key at a moment. -/
abbrev World.reply (w : World) (n : Nat) (key : Key) : Reply Record :=
  (w n).fetcher.one key.kind key.guid

/-! ## Between the store and the API -/

/-- The store has nothing that can be served, and the lookup goes on from the second state. -/
inductive Unserved (w : World) (key : Key) (s : State) : State → Prop
  | absent (found : s.backend.answer key = .ok none) : Unserved w key s (s.looked key)
  | stale {r : Record} (found : s.backend.answer key = .ok (some r))
      (expired : r.isFreshAt (w s.elapsed).now = false) : Unserved w key s (s.looked key).later

/-- What an answer of the API gives to store under a key. -/
inductive Offers (c : Cache) (key : Key) : Except Error Record → Record → Prop
  | record (r : Record) : Offers c key (.ok r) r
  /-- An empty record takes the place of a missing app. -/
  | placeholder {e : Error} (isApp : key.kind = .app) (tolerated : c.tolerates e) :
      Offers c key (.error e) .empty

/-- An answer is an error that is not passed over, or offers a record. -/
theorem refused_or_offers (c : Cache) (key : Key) (answer : Except Error Record) :
    (∃ e, answer = .error e ∧ (key.kind = .app → c.tolerates e = false))
      ∨ ∃ r, Offers c key answer r := by
  cases answer with
  | ok r => exact .inr ⟨r, .record r⟩
  | error e =>
    by_cases happ : key.kind = .app
    · cases htolerated : c.tolerates e with
      | true => exact .inr ⟨.empty, .placeholder happ htolerated⟩
      | false => exact .inl ⟨e, rfl, fun _ => htolerated⟩
    · exact .inl ⟨e, rfl, fun h => absurd h happ⟩

theorem refresh_of_refused (hanswer : (w.reply s.elapsed key).answer = .error e)
    (huntolerated : key.kind = .app → c.tolerates e = false) :
    c.refresh key w s = (.error e, s.fetched (w.reply s.elapsed key).asked) := by
  rw [refresh_apply, hanswer]
  by_cases happ : key.kind = .app
  · simp [huntolerated happ]
  · simp [happ]

/-- What is offered is handed to the store, and decides the lookup if the store takes it. -/
theorem refresh_of_offers (h : Offers c key (w.reply s.elapsed key).answer r) :
    c.refresh key w s =
      ((s.backend.put key (c.normalizedAt w (s.elapsed + 1) key r)).1.bind fun _ =>
        c.outcome key (w.reply s.elapsed key).answer (w (s.elapsed + 1)),
        (s.fetched (w.reply s.elapsed key).asked).stored c w key r) := by
  generalize hanswer : (w.reply s.elapsed key).answer = answer at h
  rw [refresh_apply, hanswer]
  cases h with
  | record =>
    dsimp only
    rw [store_apply]
    refine Prod.ext ?_ rfl
    show (s.backend.put key (c.normalizedAt w (s.elapsed + 1) key r)).1.map _ = _
    cases (s.backend.put key (c.normalizedAt w (s.elapsed + 1) key r)).1 <;> rfl
  | @placeholder e happ htolerated =>
    dsimp only
    rw [if_pos (by simp [happ, htolerated]), store_apply]
    refine Prod.ext ?_ rfl
    show ((s.backend.put key (c.normalizedAt w (s.elapsed + 1) key .empty)).1.map _).bind _ = _
    cases (s.backend.put key (c.normalizedAt w (s.elapsed + 1) key .empty)).1 <;> rfl

namespace Unserved

theorem recounted (h : Unserved w key s s₁) : s.backend.Recounted s₁.backend := by
  cases h with
  | _ => exact s.backend.recounted_get key

/-- From here on the lookup is a refreshment. -/
theorem getEntity (h : Unserved w key s s₁) {kind : Kind} {raw : String}
    (hkey : Key.parse kind raw = .ok key) (c : Cache) :
    c.getEntity kind raw w s = c.refresh key w s₁ := by
  rw [getEntity_apply hkey]
  cases h with
  | absent found => rw [found]
  | stale found expired => simp only [found, expired, Bool.false_eq_true, if_false]

end Unserved

/-- A lookup fails in the store, is served from it, or goes on to the API. -/
theorem getEntity_cases {kind : Kind} {raw : String} (hkey : Key.parse kind raw = .ok key)
    (c : Cache) (w : World) (s : State) :
    (∃ e, s.backend.Unreadable key e ∧ c.getEntity kind raw w s = (.error e, s.looked key))
    ∨ (∃ r, s.backend.answer key = .ok (some r)
      ∧ c.getEntity kind raw w s = (.ok r, (s.looked key).later))
    ∨ ∃ s₁, Unserved w key s s₁ ∧ c.getEntity kind raw w s = c.refresh key w s₁ := by
  cases hfound : s.backend.answer key with
  | error e =>
    refine .inl ⟨e, Backend.answer_eq_error_iff.1 hfound, ?_⟩
    rw [getEntity_apply hkey, hfound]
  | ok found =>
    cases found with
    | none =>
      have hunserved : Unserved w key s _ := .absent hfound
      exact .inr (.inr ⟨_, hunserved, hunserved.getEntity hkey c⟩)
    | some r =>
      cases hfresh : r.isFreshAt (w s.elapsed).now with
      | true =>
        refine .inr (.inl ⟨r, rfl, ?_⟩)
        rw [getEntity_apply hkey, hfound]
        exact if_pos hfresh
      | false =>
        have hunserved : Unserved w key s _ := .stale hfound hfresh
        exact .inr (.inr ⟨_, hunserved, hunserved.getEntity hkey c⟩)

/-! ## What is under other keys -/

theorem spares_stored (c : Cache) (w : World) (s : State) (key : Key) (r : Record) :
    s.backend.Spares (· = key) (s.stored c w key r).backend := s.backend.spares_put key _

theorem spares_refresh (c : Cache) (w : World) (s : State) (key : Key) :
    s.backend.Spares (· = key) (c.refresh key w s).2.backend := by
  obtain ⟨e, hanswer, huntolerated⟩ | ⟨r, hoffers⟩ :=
    refused_or_offers c key (w.reply s.elapsed key).answer
  · rw [refresh_of_refused hanswer huntolerated]
    exact (Backend.Recounted.refl _).spares _
  · rw [refresh_of_offers hoffers]
    exact spares_stored c w (s.fetched _) key r

/-- **A lookup leaves alone what is not under the key that its text spells.** -/
theorem spares_getEntity (c : Cache) (kind : Kind) (raw : String) (w : World) (s : State) :
    s.backend.Spares (fun key => Key.parse kind raw = .ok key)
      (c.getEntity kind raw w s).2.backend := by
  cases hkey : Key.parse kind raw with
  | error e =>
    rw [getEntity_of_invalid hkey]
    exact (Backend.Recounted.refl _).spares _
  | ok key =>
    obtain ⟨e, -, hget⟩ | ⟨r, -, hget⟩ | ⟨s₁, hunserved, hget⟩ := getEntity_cases hkey c w s
    · rw [hget]
      exact (s.backend.recounted_get key).spares _
    · rw [hget]
      exact (s.backend.recounted_get key).spares _
    · rw [hget]
      exact (hunserved.recounted.spares _).trans
        ((spares_refresh c w s₁ key).mono fun _ hsame => congrArg Except.ok hsame.symm)

end Cache

end MetaCache
