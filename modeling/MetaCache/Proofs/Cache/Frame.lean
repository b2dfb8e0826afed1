import MetaCache.Proofs.Cache.Absence

/-!
# What a lookup leaves alone

A lookup is for one key, and changes nothing but what is under it (`Framed.spares`). Whatever goes
wrong leaves the store as it was (`Framed.unchanged`), so that a record that has expired is neither
lost nor renewed, and not served either (`Framed.failed`). There is one exception: a missing app
that is ignored is an error, and leaves an empty record (`Framed.placeholder`).
-/

namespace MetaCache

open MetaCache.Remote MetaCache.Store

namespace Cache

variable {c : Cache} {w : World} {s s' s₁ : State} {key : Key} {r : Record} {e : Error}

/-! ## What a refreshment comes to -/

/-- A refreshment that the store refuses fails for that, and nothing has changed. -/
theorem refresh_of_unkept (h : Offers c key (w.reply s.elapsed key).answer r)
    (hput : (s.backend.put key (c.normalizedAt w (s.elapsed + 1) key r)).1 = .error e) :
    (c.refresh key w s).1 = .error e ∧ (c.refresh key w s).2.backend = s.backend := by
  rw [refresh_of_offers h, hput]
  refine ⟨rfl, ?_⟩
  show (s.backend.put key (c.normalizedAt w (s.elapsed + 1) key r)).2 = s.backend
  exact (Backend.put_error (Prod.ext hput rfl)).1

theorem backend_of_refresh_error (h : c.refresh key w s = (.error e, s'))
    (huntolerated : key.kind = .app → c.tolerates e = false) : s'.backend = s.backend := by
  obtain ⟨e', hanswer, huntolerated'⟩ | ⟨r, hoffers⟩ :=
    refused_or_offers c key (w.reply s.elapsed key).answer
  · rw [refresh_of_refused hanswer huntolerated'] at h
    obtain ⟨-, rfl⟩ := Prod.mk.inj h
    rfl
  · cases hput : (s.backend.put key (c.normalizedAt w (s.elapsed + 1) key r)).1 with
    | error cause =>
      have hunkept := (refresh_of_unkept hoffers hput).2
      rwa [h] at hunkept
    | ok done =>
      -- The store took what was offered, so the error is that of an app whose place it takes.
      rw [refresh_of_offers hoffers, hput] at h
      have houtcome := (Prod.mk.inj h).1
      generalize (w.reply s.elapsed key).answer = answer at hoffers houtcome
      cases hoffers with
      | record => cases houtcome
      | placeholder happ htolerated =>
        cases houtcome
        rw [huntolerated happ] at htolerated
        cases htolerated

/-- What the store takes is noted as taken. -/
theorem deposits_stored (h : (s.backend.put key (c.normalizedAt w s.elapsed key r)).1 = .ok ()) :
    (s.stored c w key r).deposits = s.deposits
      ++ [⟨key, c.normalizedAt w s.elapsed key r, (w s.elapsed).now, true⟩] := by
  show s.deposits
    ++ [⟨key, _, _, (s.backend.put key (c.normalizedAt w s.elapsed key r)).1.isOk⟩] = _
  rw [h]
  rfl

/-- A refreshment that succeeds returns what it has stored. -/
theorem refresh_ok (h : c.refresh key w s = (.ok r, s')) :
    ∃ answered, (w.reply s.elapsed key).answer = .ok answered
      ∧ r = c.normalizedAt w (s.elapsed + 1) key answered
      ∧ s'.deposits = s.deposits ++ [⟨key, r, (w (s.elapsed + 1)).now, true⟩]
      ∧ (s.backend.retains → s'.backend.Keeps key r) := by
  obtain ⟨e, hanswer, huntolerated⟩ | ⟨offered, hoffers⟩ :=
    refused_or_offers c key (w.reply s.elapsed key).answer
  · rw [refresh_of_refused hanswer huntolerated] at h
    cases h
  · rw [refresh_of_offers hoffers] at h
    obtain ⟨hresult, rfl⟩ := Prod.mk.inj h
    cases hput : (s.backend.put key (c.normalizedAt w (s.elapsed + 1) key offered)).1 with
    | error cause => rw [hput] at hresult; cases hresult
    | ok done =>
      have hstored : ((s.fetched (w.reply s.elapsed key).asked).backend.put key (c.normalizedAt w
          (s.fetched (w.reply s.elapsed key).asked).elapsed key offered)).1 = .ok () := hput
      rw [hput] at hresult
      generalize (w.reply s.elapsed key).answer = answer at hoffers hresult
      cases hoffers with
      | record =>
        cases hresult
        exact ⟨offered, rfl, rfl, deposits_stored hstored,
          fun hretains => keeps_stored (s := s.fetched _) hretains (by rw [hstored]; rfl)⟩
      | placeholder => cases hresult

/-! ## The frame -/

theorem Unserved.quiet (h : Unserved w key s s₁) : Quiet s s₁ := by
  cases h with
  | _ => exact ⟨rfl, rfl, rfl⟩

/-- What a lookup under a key leaves alone, and what it may come to. -/
structure Framed (c : Cache) (w : World) (key : Key) (s : State)
    (ended : Except Error Record × State) : Prop where
  spares : s.backend.Spares (· = key) ended.2.backend
  /-- An error leaves the store as it was, unless it is that of a missing app that is ignored. -/
  unchanged {e : Error} : ended.1 = .error e → (key.kind = .app → c.tolerates e = false) →
    s.backend.Recounted ended.2.backend
  placeholder {e : Error} : ended.1 = .error e → key.kind = .app → c.tolerates e →
    s.backend.retains → ∃ n, ended.2.deposits = s.deposits
        ++ [⟨key, c.normalizedAt w n key .empty, (w n).now, true⟩]
      ∧ ended.2.backend.Keeps key (c.normalizedAt w n key .empty)
  /-- A store that cannot tell is reported, and nothing else is done. -/
  unreadable {e : Error} : s.backend.Unreadable key e →
    ended.1 = .error e ∧ Quiet s ended.2 ∧ s.backend.Recounted ended.2.backend
  /-- What cannot be served is not served after a failed request either. -/
  failed {s₁ : State} {e : Error} : Unserved w key s s₁ →
    (w.reply s₁.elapsed key).answer = .error e → (key.kind = .app → c.tolerates e = false) →
    ended.1 = .error e ∧ s.backend.Recounted ended.2.backend
  /-- What the store refuses is reported in the place of what the API has answered. -/
  refused {s₁ : State} {r : Record} {e : Error} : Unserved w key s s₁ →
    Offers c key (w.reply s₁.elapsed key).answer r →
    (s.backend.put key (c.normalizedAt w (s₁.elapsed + 1) key r)).1 = .error e →
    ended.1 = .error e ∧ e.isStorage ∧ s.backend.Recounted ended.2.backend
  /-- What is returned after a request is what was stored. -/
  stored {r : Record} : ended.1 = .ok r → ended.2.fetches ≠ s.fetches →
    ∃ n answered, (w.reply n key).answer = .ok answered
      ∧ r = c.normalizedAt w (n + 1) key answered
      ∧ ended.2.deposits = s.deposits ++ [⟨key, r, (w (n + 1)).now, true⟩]
      ∧ (s.backend.retains → ended.2.backend.Keeps key r)

/-- **A lookup changes what is under its key and nothing else, and an error changes nothing**,
except that an empty record takes the place of a missing app if those are ignored. -/
theorem getEntity_frame (c : Cache) (w : World) (s : State) (kind : Kind) (raw : String) :
    (∀ {e}, Key.parse kind raw = .error e → c.getEntity kind raw w s = (.error e, s))
    ∧ ∀ {key}, Key.parse kind raw = .ok key → Framed c w key s (c.getEntity kind raw w s) := by
  refine ⟨fun hkey => getEntity_of_invalid hkey c w s, fun {key} hkey => ?_⟩
  constructor
  case spares =>
    exact (spares_getEntity c kind raw w s).mono fun other hother =>
      Except.ok.inj (hother.symm.trans hkey)
  case unchanged =>
    intro e he huntolerated
    obtain ⟨e', -, hget⟩ | ⟨r, -, hget⟩ | ⟨s₁, hunserved, hget⟩ := getEntity_cases hkey c w s
    · rw [hget]
      exact s.backend.recounted_get key
    · rw [hget]
      exact s.backend.recounted_get key
    · rw [hget] at he ⊢
      rw [backend_of_refresh_error (Prod.ext he rfl) huntolerated]
      exact hunserved.recounted
  case placeholder =>
    intro e he happ htolerated hretains
    obtain ⟨hignores, hmissing⟩ := Bool.and_eq_true_iff.1 htolerated
    obtain rfl := (Key.kind_of_parse hkey).symm.trans happ
    obtain ⟨n, -, hdeposits, hkeeps⟩ :=
      placeholder_of_missed hkey hignores hretains (Prod.ext he rfl) hmissing
    exact ⟨n, hdeposits, hkeeps⟩
  case unreadable =>
    intro e hunreadable
    rw [getEntity_apply hkey, Backend.answer_eq_error_iff.2 hunreadable]
    exact ⟨rfl, ⟨rfl, rfl, rfl⟩, s.backend.recounted_get key⟩
  case failed =>
    intro s₁ e hunserved hanswer huntolerated
    rw [hunserved.getEntity hkey c, refresh_of_refused hanswer huntolerated]
    exact ⟨rfl, hunserved.recounted⟩
  case refused =>
    intro s₁ r e hunserved hoffers hput
    have hput₁ := (hunserved.recounted.put key (c.normalizedAt w (s₁.elapsed + 1) key r)).trans hput
    obtain ⟨he, hbackend⟩ := refresh_of_unkept hoffers hput₁
    obtain ⟨-, cause, rfl⟩ := Backend.put_error (Prod.ext hput rfl)
    rw [hunserved.getEntity hkey c]
    exact ⟨he, rfl, hbackend ▸ hunserved.recounted⟩
  case stored =>
    intro r hr hfetches
    generalize hended : c.getEntity kind raw w s = ended at hr hfetches ⊢
    obtain ⟨result, s'⟩ := ended
    obtain rfl : result = .ok r := hr
    obtain ⟨e', -, hget⟩ | ⟨r', -, hget⟩ | ⟨s₁, hunserved, hget⟩ := getEntity_cases hkey c w s
    · rw [hended] at hget
      cases hget
    · obtain rfl : s' = (s.looked key).later := congrArg Prod.snd (hended.symm.trans hget)
      exact absurd rfl hfetches
    · obtain ⟨answered, hanswer, hnormalized, hdeposits, hkeeps⟩ :=
        refresh_ok (hget.symm.trans hended)
      rw [hunserved.quiet.deposits] at hdeposits
      rw [hunserved.recounted.retains] at hkeeps
      exact ⟨s₁.elapsed, answered, hanswer, hnormalized, hdeposits, hkeeps⟩

/-- A space that has expired stays in the store when it is not found any more, and is not served. -/
theorem getEntity_frame_expired :
    ∃ key, Key.parse .space "6ba7b810-9dad-11d1-80b4-00c04fd430c8" = .ok key ∧
      let s : State := .ofBackend (.memory (Memory.empty.put key .empty))
      let ended := Cache.getEntity ⟨⟨60 * nanosPerSecond, []⟩, true⟩ .space
        "6ba7b810-9dad-11d1-80b4-00c04fd430c8" (.still .unknowing) s
      ended.1 = .error (.remote (.notFound key.kind key.guid.text))
        ∧ s.backend.Recounted ended.2.backend := by
  obtain ⟨key, hkey⟩ : ∃ key, Key.parse .space "6ba7b810-9dad-11d1-80b4-00c04fd430c8" = .ok key :=
    ⟨_, rfl⟩
  refine ⟨key, hkey, ?_⟩
  intro s ended
  have hfound : s.backend.answer key = .ok (some .empty) := by
    show (Backend.memory (Memory.empty.put key .empty)).answer key = _
    rw [Backend.answer_memory, Memory.put, Table.get?_put, if_pos rfl]
  have hnotApp : key.kind ≠ .app := by
    rw [Key.kind_of_parse hkey]
    decide
  have hexpired : Record.empty.isFreshAt .epoch = false := by decide
  exact ((getEntity_frame _ _ s .space _).2 hkey).failed (.stale hfound hexpired) rfl
    fun happ => absurd happ hnotApp

end Cache

end MetaCache
