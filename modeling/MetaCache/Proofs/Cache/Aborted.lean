import MetaCache.Proofs.Cache.Stops
import MetaCache.Proofs.Remote.Cursors

/-!
# What an aborted preload leaves behind

A preload may fail in two ways. If the list of apps breaks off, on whatever page, nothing has been
stored yet. If it aborts at one of the apps, the apps before have been stored, and the one itself
perhaps, each under its key and with what was listed for it last; the apps behind have not been come
to. Nothing else has changed but what the stored apps and their spaces name.
-/

namespace MetaCache.Cache

open MetaCache.Remote MetaCache.Store

variable {c : Cache} {w : World} {s : State} {e : Error}

/-- **What an aborted preload leaves behind**: what was listed last for each app that it has stored,
and all else as it was but for the spaces and the organizations of these apps. -/
theorem fillAll_aborted (c : Cache) (w : World) (s : State) (hretains : s.backend.retains) :
    -- If the list breaks off, the store is as it was, and so are its counts.
    (∀ {e}, ((w s.elapsed).fetcher.all .app).answer = .error e →
      (c.fillAll w s).1 = .error e ∧ (c.fillAll w s).2.backend = s.backend)
    ∧ (∀ {t : Transport} {asked e}, (w s.elapsed).fetcher = t.fetcher →
      Breaks t (listPath .app) asked e →
      (c.fillAll w s).1 = .error e ∧ (c.fillAll w s).2.backend = s.backend)
    ∧ ∀ {found}, ((w s.elapsed).fetcher.all .app).answer = .ok found →
      let s₀ := s.fetched ((w s.elapsed).fetcher.all .app).asked
      -- If the preload fails after that, it has aborted at one of the apps.
      (∀ {e s'}, c.fillAll w s = (.error e, s') →
        ∃ stops listed after s₁ last, found = stops.map Stop.listed ++ listed :: after
          ∧ Preloads c w s₀ stops s₁ ∧ Aborts c w s₁ listed last e s')
      ∧ ∀ {stops listed after s₁ last e s'}, found = stops.map Stop.listed ++ listed :: after →
        Preloads c w s₀ stops s₁ → Aborts c w s₁ listed last e s' →
        c.fillAll w s = (.error e, s')
          ∧ (∀ {key r},
            lastListed? ((stops.map Stop.visit ++ last).map Visit.listed) key = some r →
            ∃ n, s.elapsed < n ∧ n < s'.elapsed ∧ s'.backend.Keeps key (c.normalizedAt w n key r))
          ∧ s.backend.Spares (fun key => ∃ v ∈ stops.map Stop.visit ++ last, v.Touches key)
              s'.backend
          ∧ ∀ {key}, key.kind = .app →
            (∀ v ∈ stops.map Stop.visit ++ last, Key.parse .app v.listed.1 ≠ .ok key) →
            s'.backend.answer key = s.backend.answer key := by
  have hunlisted {e : Error} (hanswer : ((w s.elapsed).fetcher.all .app).answer = .error e) :
      (c.fillAll w s).1 = .error e ∧ (c.fillAll w s).2.backend = s.backend := by
    rw [fillAll_apply, if_pos hretains, hanswer]
    exact ⟨rfl, rfl⟩
  refine ⟨hunlisted, fun {t asked e} ht hbreaks => hunlisted ?_, fun {found} hanswer => ?_⟩
  · rw [ht]
    exact congrArg Reply.answer (Transport.fetchAll_of_breaks hbreaks)
  intro s₀
  constructor
  · intro e s' hfails
    have hfills := fills_fillAll c w hretains
    rw [hfails] at hfills
    cases hfills with
    | unlisted answer => cases hanswer.symm.trans answer
    | aborted answer before aborts =>
      exact ⟨_, _, _, _, _, Except.ok.inj (hanswer.symm.trans answer), before, aborts⟩
  · intro stops listed after s₁ last e s' hfound hbefore haborts
    have hkeeps := ((KeepsLast.nothing (c := c) (w := w) (s := s₀) hretains
      (Nat.le_refl _)).preloads hbefore).aborts haborts
    have hspares : s.backend.Spares (fun key => ∃ v ∈ stops.map Stop.visit ++ last, v.Touches key)
        s'.backend := by
      refine (hbefore.spares.mono fun key hkey => ?_).trans (haborts.spares.mono fun key hkey => ?_)
      · obtain ⟨v, hv, hkey⟩ := hkey
        exact ⟨v, List.mem_append_left _ hv, hkey⟩
      · obtain ⟨v, hv, hkey⟩ := hkey
        exact ⟨v, List.mem_append_right _ hv, hkey⟩
    rw [fillAll_of_listed hretains hanswer, hfound]
    refine ⟨haborts.foldlM hbefore _, fun hlast => ?_, hspares, fun happ hnot => hspares.answer ?_⟩
    · rw [List.map_append] at hlast
      exact hkeeps.kept hlast
    · rintro ⟨v, hv, htouches⟩
      exact hnot v hv ((Visit.touches_app_iff happ).1 htouches)

/-- An API that lists an app under a text that spells no guid, between two others. -/
def misspelled : Fetcher :=
  { Fetcher.unknowing with
    all := fun kind => ⟨.ok [("6ba7b810-9dad-11d1-80b4-00c04fd430c8", .empty), ("a", .empty),
      ("6ba7b811-9dad-11d1-80b4-00c04fd430c8", .empty)], [listPath kind]⟩ }

/-- A text that spells no guid ends a preload, though what is missing is ignored: the app before it
has been stored, and the one behind it has not. -/
theorem fillAll_aborted_misspelled :
    ∃ key other, Key.parse .app "6ba7b810-9dad-11d1-80b4-00c04fd430c8" = .ok key
      ∧ Key.parse .app "6ba7b811-9dad-11d1-80b4-00c04fd430c8" = .ok other ∧
      let c : Cache := ⟨⟨60 * nanosPerSecond, []⟩, true⟩
      let ended := c.fillAll (.still misspelled) (.ofBackend (.memory .empty))
      ended.1 = .error (.invalidGuid "a")
        ∧ (∃ n, ended.2.backend.Keeps key (c.normalizedAt (.still misspelled) n key .empty))
        ∧ ended.2.backend.answer other = .ok none := by
  obtain ⟨key, other, hkey, hother, hne⟩ : ∃ key other,
      Key.parse .app "6ba7b810-9dad-11d1-80b4-00c04fd430c8" = .ok key
        ∧ Key.parse .app "6ba7b811-9dad-11d1-80b4-00c04fd430c8" = .ok other ∧ key ≠ other :=
    ⟨_, _, rfl, rfl, by decide⟩
  refine ⟨key, other, hkey, hother, ?_⟩
  intro c ended
  let s : State := .ofBackend (.memory .empty)
  let s₁ : State := (s.fetched [listPath .app]).stored c (.still misspelled) key .empty
  -- The app names no space, and what is not named is missing.
  let stop : Stop := ⟨("6ba7b810-9dad-11d1-80b4-00c04fd430c8", .empty),
    .error (.invalidGuid ""), s₁, .error (.invalidGuid ""), s₁⟩
  have hexcused : c.Excuses (.error (.invalidGuid "")) := fun e he => by cases he; rfl
  have hbefore : Preloads c (.still misspelled) (s.fetched [listPath .app]) [stop] s₁ :=
    ⟨.intro ⟨hkey, rfl, rfl⟩ (getEntity_blank ..) hexcused (getEntity_blank ..) hexcused, rfl⟩
  have haborts : Aborts c (.still misspelled) s₁ ("a", .empty) [] (.invalidGuid "a") s₁ :=
    .unspelled rfl
  obtain ⟨hfails, hkept, -, hanswer⟩ :=
    ((fillAll_aborted c (.still misspelled) s rfl).2.2 rfl).2 rfl hbefore haborts
  have hlast : lastListed? ([] ++ [stop.listed]) key = some .empty := by
    rw [lastListed?_append, if_pos (toOption_eq_some_iff.2 hkey)]
  obtain ⟨n, -, -, hkeeps⟩ := hkept hlast
  have hended : ended = (.error (.invalidGuid "a"), s₁) := hfails
  rw [hended]
  refine ⟨rfl, ⟨n, hkeeps⟩, ?_⟩
  refine (hanswer (Key.kind_of_parse hother) fun v hv hparse => hne ?_).trans rfl
  obtain rfl : v = stop.visit := List.mem_singleton.1 hv
  exact Except.ok.inj (hkey.symm.trans hparse)

end MetaCache.Cache
