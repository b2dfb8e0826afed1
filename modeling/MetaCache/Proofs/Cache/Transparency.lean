import MetaCache.Proofs.Cache.Journal
import MetaCache.Proofs.Settings.Valid

/-!
# A cache changes no answer

Let the API not change, and let it list nothing but what it also answers one by one. Then what a
cache has stored under a key mirrors what the API tells about the key (`Mirrors`): it is the same
record but for its expiry, or it is the empty record of an app that is missing. On the way to an app
both come to the same, so an app is resolved as if nothing had ever been stored
(`resolveApp_transparent`).
-/

namespace MetaCache

open MetaCache.Remote MetaCache.Store

/-- What is listed is also answered one by one. -/
def Remote.Fetcher.IsConsistent (f : Fetcher) : Prop :=
  ∀ {found : List (String × Record)} {raw : String} {r : Record} {guid : Guid},
    (f.all .app).answer = .ok found → (raw, r) ∈ found → Guid.canonicalize raw = .ok guid →
      (f.one .app guid).answer = .ok r

theorem Remote.Fetcher.isConsistent_unknowing : unknowing.IsConsistent :=
  fun hfound hmem => absurd ((Except.ok.inj hfound) ▸ hmem) List.not_mem_nil

/-- The record apart from its expiry. -/
def Record.timeless (r : Record) : Record := { r with expiresAt := .epoch }

theorem BackendChoice.timeless_kept (choice : BackendChoice) (r : Record) :
    (choice.kept r).timeless = r.timeless := by
  cases choice <;> rfl

/-- Apart from the expiry, neither the clock nor chance has a part in normalization. -/
theorem Normalizer.timeless_normalize (n : Normalizer) (kind : Kind) (r : Record)
    (now : Timestamp) (draw : UInt64) :
    (n.normalize kind r now draw).timeless = (n.normalize kind r .epoch 0).timeless := by
  simp only [normalize, Record.timeless]

/-! ## Names without suffixes -/

/-- No suffix is empty. -/
def Normalizer.HasSuffixes (n : Normalizer) : Prop := ∀ suffix ∈ n.suffixes, suffix ≠ ""

/-- An empty name ends with no suffix but the empty one. -/
theorem Normalizer.stripName_empty {n : Normalizer} (h : n.HasSuffixes) : n.stripName "" = "" := by
  have hnone : n.suffixes.findSome? (dropSuffix? · "") = none := by
    rw [List.findSome?_eq_none_iff]
    intro suffix hsuffix
    rw [dropSuffix?, if_neg]
    intro hends
    have hnil := List.suffix_nil.1 (List.isSuffixOf_iff_suffix.1 hends)
    exact h suffix hsuffix (String.toList_injective hnil)
  rw [stripName, hnone]
  rfl

/-- An empty record stays empty, whatever it stands for. -/
theorem Normalizer.timeless_normalize_empty {n : Normalizer} (h : n.HasSuffixes) (kind : Kind)
    (now : Timestamp) (draw : UInt64) :
    (n.normalize kind .empty now draw).timeless = .empty := by
  have hname : n.stripName Record.empty.name = "" := stripName_empty h
  simp only [normalize, Record.timeless, hname]
  split <;> rfl

theorem Cache.hasSuffixes_of_settings {settings : CacheSettings} {c : Cache}
    (h : Cache.ofSettings settings = .ok c) : c.normalizer.HasSuffixes := by
  rw [ofSettings] at h
  split at h
  · next hvalid =>
    cases h
    exact (CacheSettings.validate_ok_iff.1 hvalid).suffixes
  · cases h

namespace Cache

variable {c : Cache} {f : Fetcher} {w : World} {s : State}

/-! ## What the API tells -/

/-- What the API tells about a key, as a cache returns it, without the expiry. -/
def told (c : Cache) (f : Fetcher) (key : Key) : Except Error Record :=
  (f.one key.kind key.guid).answer.map fun r =>
    (c.normalizer.normalize key.kind r .epoch 0).timeless

/-- What the API tells about an entity. -/
def expected (c : Cache) (f : Fetcher) (kind : Kind) (raw : String) : Except Error Record :=
  (Key.parse kind raw).bind (c.told f)

/-- What the API tells about an entity on the way to an app. -/
def expectedHop (c : Cache) (f : Fetcher) (kind : Kind) (raw : String) : Except Error Record :=
  match c.expected f kind raw with
  | .ok r => .ok r
  | .error e => if c.tolerates e then .ok .empty else .error e

/-- The app that the API tells about. -/
def expectedApp (c : Cache) (f : Fetcher) (raw : String) : Except Error App := do
  let guid ← Guid.canonicalize raw
  let app ← c.expectedHop f .app guid.text
  let space ← c.expectedHop f .space app.spaceGuid
  let organization ← c.expectedHop f .organization space.organizationGuid
  return App.assemble guid.text app space organization

/-- The API has no such app, and the cache puts up with that. -/
def Ignored (c : Cache) (f : Fetcher) (key : Key) : Prop :=
  key.kind = .app ∧ ∃ e, (f.one key.kind key.guid).answer = .error e ∧ c.tolerates e

/-- The record stands for what the API tells about the key. -/
def Stands (c : Cache) (f : Fetcher) (key : Key) (r : Record) : Prop :=
  c.told f key = .ok r.timeless ∨ c.Ignored f key ∧ r.timeless = .empty

/-- What is stored stands for what the API tells. -/
def Mirrors (c : Cache) (f : Fetcher) (s : State) : Prop :=
  ∀ key, ∃ found, s.backend.answer key = .ok found ∧ ∀ r ∈ found, c.Stands f key r

/-- **What the journal tells about stands for what the API tells.** -/
theorem Sound.mirrors {b : Backend} (hsuffixes : c.normalizer.HasSuffixes) (hf : f.IsConsistent)
    (hw : ∀ n, (w n).fetcher = f) (h : Sound c w b s) : c.Mirrors f s := by
  refine fun key => ⟨_, h.answer key, fun r hr => ?_⟩
  obtain ⟨d, hd, rfl⟩ := Option.map_eq_some_iff.1 hr
  have hkey : d.key = key := by
    have := List.find?_some hd
    simp only [Bool.and_eq_true, decide_eq_true_eq] at this
    exact this.1
  obtain ⟨n, r, hsource, -, hrecord⟩ :=
    h.source d (List.mem_reverse.1 (List.mem_of_find?_eq_some hd))
  subst hkey
  rw [Stands, BackendChoice.timeless_kept, hrecord]
  cases hsource with
  | fetched answer =>
    rw [hw] at answer
    rw [told, answer]
    exact .inl (congrArg Except.ok (c.normalizer.timeless_normalize ..).symm)
  | listed answer mem parsed =>
    rw [hw] at answer
    obtain ⟨guid, hguid, hkey⟩ := Key.parse_ok parsed
    have hone : (f.one d.key.kind d.key.guid).answer = .ok r := by
      rw [← hkey]
      exact hf answer mem hguid
    rw [told, hone]
    exact .inl (congrArg Except.ok (c.normalizer.timeless_normalize ..).symm)
  | missing isApp answer tolerated =>
    rw [hw] at answer
    exact .inr ⟨⟨isApp, _, answer, tolerated⟩, Normalizer.timeless_normalize_empty hsuffixes ..⟩

/-- A store that keeps nothing mirrors everything. -/
theorem mirrors_of_disabled (hs : s.backend.choice = .disabled) : c.Mirrors f s := by
  intro key
  cases hb : s.backend with
  | disabled => exact ⟨none, rfl, fun r hr => absurd hr (Option.not_mem_none r)⟩
  | memory m => rw [hb] at hs; cases hs
  | persistent p => rw [hb] at hs; cases hs

/-! ## What a cache answers -/

/-- A persistent store, should the state have one, has taken all that was handed to it. -/
def Accepted (s s' : State) : Prop := s.backend.choice = .persistent → s'.Unrefused

theorem Accepted.of_steps {s₁ s₂ : State} (h : Steps c w s₁ s₂) (hs : Accepted s s₂) :
    Accepted s s₁ := fun hpersistent => unrefused_of_steps h (hs hpersistent)

theorem Accepted.from_steps {s₁ s₂ : State} (h : Steps c w s s₁) (hs : Accepted s s₂) :
    Accepted s₁ s₂ := fun hpersistent => hs ((choice_of_steps h).symm.trans hpersistent)

/-- A refreshed record is what the API tells. -/
theorem refresh_told (hw : ∀ n, (w n).fetcher = f) {key : Key}
    (hput : Accepted s (c.refresh key w s).2) :
    (c.refresh key w s).1.map Record.timeless = c.told f key := by
  rw [refresh_apply, hw] at hput ⊢
  cases hanswer : (f.one key.kind key.guid).answer with
  | ok r =>
    simp only [hanswer] at hput ⊢
    have hstore : (c.store key r w (s.fetched (f.one key.kind key.guid).asked)).1 = .ok _ :=
      store_ok fun hpersistent => by
        rw [store_apply] at hput
        exact hput hpersistent
    rw [hstore, told, hanswer]
    exact congrArg Except.ok (c.normalizer.timeless_normalize ..)
  | error e =>
    simp only [hanswer] at hput ⊢
    rw [told, hanswer]
    split
    · next htolerated =>
      rw [if_pos htolerated] at hput
      have hstore : (c.store key .empty w (s.fetched (f.one key.kind key.guid).asked)).1 = .ok _ :=
        store_ok hput
      rw [hstore]
      rfl
    · rfl

/-- An entity is answered as the API tells, but an app that is missing may count as empty. -/
theorem getEntity_expected (hw : ∀ n, (w n).fetcher = f) (hs : c.Mirrors f s) {kind : Kind}
    {raw : String} (hput : Accepted s (c.getEntity kind raw w s).2) :
    (c.getEntity kind raw w s).1.map Record.timeless = c.expected f kind raw
      ∨ ∃ key, Key.parse kind raw = .ok key ∧ c.Ignored f key
        ∧ (c.getEntity kind raw w s).1.map Record.timeless = .ok .empty := by
  cases hkey : Key.parse kind raw with
  | error e =>
    rw [getEntity_of_invalid hkey, expected, hkey]
    exact .inl rfl
  | ok key =>
    rw [getEntity_apply hkey] at hput ⊢
    obtain ⟨found, hfound, hstands⟩ := hs key
    simp only [hfound, expected, hkey] at hput ⊢
    cases found with
    | none =>
      exact .inl (refresh_told hw fun h => hput ((Backend.choice_get ..).symm.trans h))
    | some r =>
      dsimp only at hput ⊢
      split
      · rcases hstands r rfl with htold | ⟨hignored, hempty⟩
        · exact .inl htold.symm
        · exact .inr ⟨key, rfl, hignored, congrArg Except.ok hempty⟩
      · next hstale =>
        rw [if_neg hstale] at hput
        exact .inl (refresh_told hw fun h => hput ((Backend.choice_get ..).symm.trans h))

/-- Without a store an entity is answered as the API tells. -/
theorem getEntity_disabled (hw : ∀ n, (w n).fetcher = f) (hs : s.backend = .disabled) (kind : Kind)
    (raw : String) : (c.getEntity kind raw w s).1.map Record.timeless = c.expected f kind raw := by
  cases hkey : Key.parse kind raw with
  | error e =>
    rw [getEntity_of_invalid hkey, expected, hkey]
    rfl
  | ok key =>
    have hlooked : (s.looked key).backend = .disabled := by
      rw [State.looked, hs]
      rfl
    rw [getEntity_apply hkey, hs, expected, hkey]
    exact refresh_told hw fun h => by rw [hlooked] at h; cases h

/-- On the way to an app every entity is answered as the API tells. -/
theorem hop_expected (hw : ∀ n, (w n).fetcher = f) (hs : c.Mirrors f s) {kind : Kind}
    {raw : String} (hput : Accepted s (c.hop kind raw w s).2) :
    (c.hop kind raw w s).1.map Record.timeless = c.expectedHop f kind raw := by
  rw [hop_apply] at hput ⊢
  rw [expectedHop]
  rcases getEntity_expected hw hs hput with h | ⟨key, hkey, ⟨-, e, he, htolerated⟩, hempty⟩
  · rw [← h]
    cases (c.getEntity kind raw w s).1 with
    | ok r => rfl
    | error e =>
      simp only [Except.map]
      cases c.tolerates e <;> rfl
  · have hexpected : c.expected f kind raw = .error e := by
      rw [expected, hkey]
      show c.told f key = _
      rw [told, he]
      rfl
    rw [hexpected]
    simp only [if_pos htolerated]
    cases hget : (c.getEntity kind raw w s).1 with
    | ok r => rwa [hget] at hempty
    | error e => rw [hget] at hempty; cases hempty

/-- What goes on from a hop goes on from what the API tells. -/
theorem hop_bind {α : Type} (hw : ∀ n, (w n).fetcher = f) (hs : c.Mirrors f s) {kind : Kind}
    {raw : String} {g : Record → Action α} {g' : Record → Except Error α}
    (hput : Accepted s ((c.hop kind raw >>= g) w s).2)
    (hg : ∀ r, Accepted s (g r w (c.hop kind raw w s).2).2 →
      Steps c w (c.hop kind raw w s).2 (g r w (c.hop kind raw w s).2).2 ∧
        (g r w (c.hop kind raw w s).2).1 = g' r.timeless) :
    ((c.hop kind raw >>= g) w s).1 = (c.expectedHop f kind raw).bind g' := by
  cases hdone : (c.hop kind raw w s).1 with
  | ok r =>
    rw [Action.bind_of_ok hdone] at hput ⊢
    obtain ⟨hsteps, hr⟩ := hg r hput
    rw [hr, ← hop_expected hw hs (hput.of_steps hsteps), hdone]
    rfl
  | error e =>
    rw [Action.bind_of_error hdone] at hput ⊢
    rw [← hop_expected hw hs hput, hdone]
    rfl

/-- **An app is resolved as the API tells**, as long as what is stored stands for it. -/
theorem resolveApp_expected (hw : ∀ n, (w n).fetcher = f)
    (hs : ∀ s', Steps c w s s' → c.Mirrors f s') {raw : String}
    (hput : Accepted s (c.resolveApp raw w s).2) :
    (c.resolveApp raw w s).1 = c.expectedApp f raw := by
  rw [resolveApp] at hput ⊢
  rw [expectedApp]
  cases hguid : Guid.canonicalize raw with
  | error e => rfl
  | ok guid =>
    rw [hguid] at hput
    have happ := steps_hop c .app guid.text w s
    refine hop_bind hw (hs s .refl) hput fun app hput => ⟨?_, ?_⟩
    · exact steps_bind (steps_hop ..) fun _ _ => steps_bind (steps_hop ..) fun _ _ => .refl
    · have hspace := happ.trans (steps_hop c .space app.spaceGuid w _)
      refine hop_bind hw (hs _ happ) (hput.from_steps happ) fun space hput => ⟨?_, ?_⟩
      · exact steps_bind (steps_hop ..) fun _ _ => .refl
      · refine hop_bind hw (hs _ hspace) (hput.from_steps (steps_hop ..)) fun _ _ => ⟨.refl, rfl⟩

/-- **A cache changes no answer.** Over an API that does not change and is consistent, an app is
resolved as over a store that keeps nothing, whatever has happened since the store was empty. So is
an entity looked up, but for its expiry and for missing apps that the cache ignores. -/
theorem resolveApp_transparent {settings : CacheSettings} (hc : Cache.ofSettings settings = .ok c)
    (hf : f.IsConsistent) (hw : ∀ n, (w n).fetcher = f) {b : Backend} (hsuits : Suits w b.choice)
    (hs : Visited c w b s) {w' : World} (hw' : ∀ n, (w' n).fetcher = f) {s' : State}
    (hs' : s'.backend = .disabled) :
    (∀ raw, (b.choice = .persistent → (c.resolveApp raw w s).2.Unrefused) →
      (c.resolveApp raw w s).1 = (c.resolveApp raw w' s').1)
    ∧ ∀ kind raw, (b.choice = .persistent → (c.getEntity kind raw w s).2.Unrefused) →
      (c.getEntity kind raw w s).1.map Record.timeless
          = (c.getEntity kind raw w' s').1.map Record.timeless
        ∨ kind = .app ∧ c.ignoresMissing ∧ (c.getEntity kind raw w s).1.map Record.timeless = .ok .empty
          ∧ ∃ guid e, Guid.canonicalize raw = .ok guid ∧ (f.one .app guid).answer = .error e
            ∧ e.isMissing ∧ (c.getEntity kind raw w' s').1 = .error e := by
  have hkeep : Keepable c w b := keepable_of_suits hsuits
  have hsound := hs.sound hkeep
  have hmirrors : ∀ s₁, Steps c w s s₁ → c.Mirrors f s₁ := fun s₁ hsteps =>
    (hsound.steps hkeep hsteps).mirrors (hasSuffixes_of_settings hc) hf hw
  have hchoice : s'.backend.choice = .disabled := by rw [hs']; rfl
  have hdisabled : ∀ s₁, Steps c w' s' s₁ → c.Mirrors f s₁ := fun s₁ hsteps =>
    mirrors_of_disabled ((choice_of_steps hsteps).trans hchoice)
  have hrefuses : ∀ s₁, Accepted s' s₁ := fun s₁ h => by rw [hchoice] at h; cases h
  refine ⟨fun raw hput => ?_, fun kind raw hput => ?_⟩
  · rw [resolveApp_expected hw hmirrors fun h => hput (hsound.choice.symm.trans h),
      resolveApp_expected hw' hdisabled (hrefuses _)]
  · have hplain := getEntity_disabled (c := c) hw' hs' kind raw
    rcases getEntity_expected hw (hmirrors s .refl)
      (fun h => hput (hsound.choice.symm.trans h)) with h | ⟨key, hkey, hignored, hempty⟩
    · exact .inl (h.trans hplain.symm)
    · obtain ⟨guid, hguid, rfl⟩ := Key.parse_ok hkey
      obtain ⟨rfl, e, he, htolerated⟩ := hignored
      obtain ⟨hignores, hmissing⟩ := Bool.and_eq_true_iff.1 htolerated
      refine .inr ⟨rfl, hignores, hempty, guid, e, hguid, he, hmissing, ?_⟩
      have hexpected : c.expected f .app raw = .error e := by
        rw [expected, hkey]
        show c.told f _ = _
        rw [told, he]
        rfl
      rw [hexpected] at hplain
      cases hdone : (c.getEntity .app raw w' s').1 with
      | ok r => rw [hdone] at hplain; cases hplain
      | error cause =>
        rw [hdone] at hplain
        cases hplain
        rfl

/-- A world that stands still. -/
def World.still (f : Fetcher) : World := fun _ => ⟨.epoch, 0, f⟩

/-- An app that is missing, looked up twice over a memory that was empty. -/
theorem resolveApp_transparent_missing :
    (resolveApp ⟨⟨60 * nanosPerSecond, []⟩, true⟩ "6ba7b810-9dad-11d1-80b4-00c04fd430c8"
        (.still .unknowing)
        (getEntity ⟨⟨60 * nanosPerSecond, []⟩, true⟩ .app "6ba7b810-9dad-11d1-80b4-00c04fd430c8"
          (.still .unknowing) (.ofBackend (.memory .empty))).2).1
      = (resolveApp ⟨⟨60 * nanosPerSecond, []⟩, true⟩ "6ba7b810-9dad-11d1-80b4-00c04fd430c8"
        (.still .unknowing) (.ofBackend .disabled)).1 := by
  have hsettings : ofSettings { CacheSettings.inMemory 60 with ignoreMissingApps := true }
    = .ok ⟨⟨60 * nanosPerSecond, []⟩, true⟩ := rfl
  exact (resolveApp_transparent hsettings Fetcher.isConsistent_unknowing (fun _ => rfl)
    (b := .memory .empty) True.intro (.lookup (.start fun _ => rfl) _ _) (fun _ => rfl) rfl).1 _
    fun h => by cases h

end Cache

end MetaCache
