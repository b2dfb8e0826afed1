import MetaCache.Proofs.Cache.Lookups
import MetaCache.Proofs.Cache.Preload

/-!
# What is known to be missing

A cache that ignores missing apps puts an empty record in the place of one. From then on the app is
answered as empty without a request, until the *placeholder* expires, or something else is put under
its key: a preload that comes to the app does so (`absence_window`). All this holds whatever was
there before, and whatever the API says in the meantime.

A space or an organization that is missing leaves no trace, so each lookup asks again.
-/

namespace MetaCache

open MetaCache.Remote MetaCache.Store

namespace Cache

variable {c : Cache} {w : World} {s s' s₁ s₂ : State} {key : Key} {r : Record} {e : Error}

/-! ## Nothing happens -/

/-- From one state to another nothing was asked for, and nothing was handed to the store. -/
structure Quiet (s s' : State) : Prop where
  fetches : s'.fetches = s.fetches
  asked : s'.asked = s.asked
  deposits : s'.deposits = s.deposits

/-- From one state to another the store took nothing under a key. -/
def Untouched (key : Key) (s s' : State) : Prop :=
  ∃ new, s'.deposits = s.deposits ++ new ∧ ∀ d ∈ new, d.key = key → d.isKept = false

theorem Untouched.refl (key : Key) (s : State) : Untouched key s s :=
  ⟨[], (List.append_nil _).symm, fun _ hd => absurd hd List.not_mem_nil⟩

/-- What was not touched in the end was not touched on the way. -/
theorem Untouched.before (h : Untouched key s s₂) (hbefore : s.deposits <+: s₁.deposits)
    (hafter : s₁.deposits <+: s₂.deposits) : Untouched key s s₁ := by
  obtain ⟨new, hnew, hnone⟩ := h
  obtain ⟨early, hearly⟩ := hbefore
  obtain ⟨late, hlate⟩ := hafter
  have hsplit : new = early ++ late := by
    rw [← hlate, ← hearly, List.append_assoc] at hnew
    exact (List.append_cancel_left hnew).symm
  refine ⟨early, hearly.symm, fun d hd => hnone d ?_⟩
  rw [hsplit]
  exact List.mem_append_left _ hd

/-- What is stored last and taken has touched its key. -/
theorem Untouched.last {deposits : List Deposit} {d : Deposit} (h : Untouched key s s')
    (hbefore : s.deposits <+: deposits) (hs' : s'.deposits = deposits ++ [d]) (hd : d.key = key) :
    d.isKept = false := by
  obtain ⟨new, hnew, hnone⟩ := h
  obtain ⟨early, hearly⟩ := hbefore
  refine hnone d ?_ hd
  rw [hs', ← hearly, List.append_assoc] at hnew
  rw [← List.append_cancel_left hnew]
  exact List.mem_append_right _ (List.mem_singleton_self d)

/-- What is stored under another key has not touched this one. -/
theorem Untouched.stored (h : Untouched key s s') {other : Key} (hother : other ≠ key) (r : Record) :
    Untouched key s (s'.stored c w other r) := by
  obtain ⟨new, hnew, hnone⟩ := h
  obtain ⟨d, hd, hdkey⟩ : ∃ d, (s'.stored c w other r).deposits = s'.deposits ++ [d] ∧ d.key = other :=
    ⟨_, rfl, rfl⟩
  refine ⟨new ++ [d], by rw [hd, hnew, List.append_assoc], fun d' hd' hkey => ?_⟩
  rcases List.mem_append.1 hd' with hd' | hd'
  · exact hnone d' hd' hkey
  · obtain rfl := List.mem_singleton.1 hd'
    exact absurd (hdkey.symm.trans hkey) hother

/-! ## What stays in the store -/

/-- **What is under a key stays there as long as the store takes nothing else under it.** -/
theorem keeps_of_steps (hsteps : Steps c w s s') (h : s.backend.Keeps key r)
    (huntouched : Untouched key s s') : s'.backend.Keeps key r := by
  induction hsteps with
  | refl => exact h
  | @tail s₁ s₂ hbefore hstep ih =>
    have hprefix := deposits_of_steps hbefore
    have hkeeps : s₁.backend.Keeps key r :=
      ih (huntouched.before hprefix (deposits_of_steps (.single hstep)))
    cases hstep with
    | look other => exact hkeeps.get other
    | moment => exact hkeeps
    | ask => exact hkeeps
    | @store other r' _ => exact hkeeps.put fun hother => huntouched.last hprefix rfl hother

/-- Whatever an action comes to, it preserves what was the case. -/
def Preserves {α : Type} (w : World) (P : State → Prop) (x : Action α) : Prop :=
  ∀ s, P s → P (x w s).2

namespace Preserves

variable {α β : Type} {P : State → Prop}

theorem pure (a : α) : Preserves w P (pure a : Action α) := fun _ h => h

theorem ofExcept (result : Except Error α) : Preserves w P (Action.ofExcept result) := fun _ h => h

theorem attempt {x : Action α} (hx : Preserves w P x) : Preserves w P (Action.attempt x) := hx

theorem bind {x : Action α} {f : α → Action β} (hx : Preserves w P x)
    (hf : ∀ a, Preserves w P (f a)) : Preserves w P (x >>= f) := by
  intro s h
  cases hdone : (x w s).1 with
  | ok a =>
    rw [Action.bind_of_ok hdone]
    exact hf a _ (hx s h)
  | error e =>
    rw [Action.bind_of_error hdone]
    exact hx s h

theorem foldlM {f : β → α → Action β} {as : List α} (hf : ∀ a ∈ as, ∀ b, Preserves w P (f b a))
    (start : β) : Preserves w P (as.foldlM f start) := by
  induction as generalizing start with
  | nil => exact .pure start
  | cons a as ih =>
    rw [List.foldlM_cons]
    exact (hf a List.mem_cons_self start).bind
      fun b => ih (fun a ha => hf a (List.mem_cons_of_mem _ ha)) b

end Preserves

/-- Looking up what is of another kind leaves what is kept alone. -/
theorem keeps_getEntity {kind : Kind} (hkind : key.kind ≠ kind) (raw : String) :
    Preserves w (fun s => s.backend.Keeps key r) (c.getEntity kind raw) :=
  fun s h => h.spared (spares_getEntity c kind raw w s)
    fun hparse => hkind (Key.kind_of_parse hparse)

/-- What the store takes is there. -/
theorem keeps_stored (hretains : s.backend.retains) (htaken : (s.backend.put key
      (c.normalizer.normalize key.kind r (w s.elapsed).now (w s.elapsed).draw)).1.isOk) :
    (s.stored c w key r).backend.Keeps key
      (c.normalizer.normalize key.kind r (w s.elapsed).now (w s.elapsed).draw) := by
  show (s.backend.put key _).2.Keeps key _
  cases hput : s.backend.put key
      (c.normalizer.normalize key.kind r (w s.elapsed).now (w s.elapsed).draw) with
  | mk result backend =>
    rw [hput] at htaken
    cases result with
    | ok done => exact Backend.keeps_put hretains hput
    | error e => cases htaken

/-! ## Placeholders -/

theorem isStorage_of_isMissing (h : e.isMissing) : e.isStorage = false := by
  cases e with
  | storage cause => cases h
  | _ => rfl

/-- The error that an app is missing comes after an empty record was stored for it. -/
theorem refresh_missing (happ : key.kind = .app) (hignores : c.ignoresMissing)
    (h : c.refresh key w s = (.error e, s')) (he : e.isMissing) :
    ∃ asked, s' = (s.fetched asked).stored c w key .empty := by
  rw [refresh_apply] at h
  split at h
  · have hstorage := store_error h
    rw [isStorage_of_isMissing he] at hstorage
    cases hstorage
  · split at h
    · exact ⟨_, (congrArg Prod.snd h).symm⟩
    · next hnot =>
      cases h
      exact absurd (by simp [happ, tolerates, hignores, he]) hnot

theorem getEntity_missed {raw : String} (hkey : Key.parse .app raw = .ok key)
    (hignores : c.ignoresMissing) (h : c.getEntity .app raw w s = (.error e, s')) (he : e.isMissing) :
    ∃ s₁ : State, s' = s₁.stored c w key .empty ∧ s₁.deposits = s.deposits
      ∧ s₁.backend.choice = s.backend.choice := by
  have hrefresh {s₀ : State} (h : c.refresh key w s₀ = (.error e, s'))
      (hdeposits : s₀.deposits = s.deposits) (hchoice : s₀.backend.choice = s.backend.choice) :
      ∃ s₁ : State, s' = s₁.stored c w key .empty ∧ s₁.deposits = s.deposits
        ∧ s₁.backend.choice = s.backend.choice := by
    obtain ⟨asked, rfl⟩ := refresh_missing (Key.kind_of_parse hkey) hignores h he
    exact ⟨_, rfl, hdeposits, hchoice⟩
  rw [getEntity_apply hkey] at h
  split at h
  · next cause hfound =>
    cases h
    obtain ⟨what, rfl⟩ := Backend.answer_error hfound
    cases he
  · exact hrefresh h rfl (s.backend.choice_get key)
  · split at h
    · cases h
    · exact hrefresh h rfl (s.backend.choice_get key)

/-- **An app that is missing leaves a placeholder.** -/
theorem placeholder_of_missed {raw : String} (hkey : Key.parse .app raw = .ok key)
    (hignores : c.ignoresMissing) (hretains : s.backend.retains)
    (h : c.getEntity .app raw w s = (.error e, s')) (he : e.isMissing) :
    ∃ n, s'.elapsed = n + 1 ∧ s'.deposits = s.deposits
        ++ [⟨key, c.normalizer.normalize key.kind .empty (w n).now (w n).draw, (w n).now, true⟩]
      ∧ s'.backend.Keeps key (c.normalizer.normalize key.kind .empty (w n).now (w n).draw) := by
  obtain ⟨s₁, hs', hdeposits, hchoice⟩ := getEntity_missed hkey hignores h he
  obtain ⟨new, hnew, htaken⟩ := getEntity_taken h fun cause hcause => by
    cases hcause
    exact isStorage_of_isMissing he
  subst hs'
  have hstored : (s₁.stored c w key .empty).deposits = s.deposits ++ [⟨key,
      c.normalizer.normalize key.kind .empty (w s₁.elapsed).now (w s₁.elapsed).draw,
      (w s₁.elapsed).now, (s₁.backend.put key (c.normalizer.normalize key.kind .empty
        (w s₁.elapsed).now (w s₁.elapsed).draw)).1.isOk⟩] := by
    rw [← hdeposits]
    rfl
  -- What is new is the placeholder alone, so it is the placeholder that was taken.
  rw [hstored] at hnew
  rw [← List.append_cancel_left hnew] at htaken
  have hok : (s₁.backend.put key (c.normalizer.normalize key.kind .empty (w s₁.elapsed).now
      (w s₁.elapsed).draw)).1.isOk = true := htaken _ (List.mem_singleton_self _)
  refine ⟨s₁.elapsed, rfl, ?_, keeps_stored (by rwa [Backend.retains_congr hchoice]) hok⟩
  rw [hstored, hok]

/-- **A placeholder is served while it is fresh.** -/
theorem getEntity_placeholder {settings : CacheSettings} (hc : Cache.ofSettings settings = .ok c)
    {t₀ : Instant} {draw : UInt64}
    (hkeeps : s.backend.Keeps key (c.normalizer.normalize key.kind .empty t₀ draw))
    (hearly : (w s.elapsed).now.nanos
      < min (t₀.nanos + (750000000 * settings.baseTtlSecs.toNat : Nat)) Instant.last.nanos
        - s.backend.choice.margin) {kind : Kind} {raw : String}
    (hkey : Key.parse kind raw = .ok key) :
    ∃ r, c.getEntity kind raw w s = (.ok r, (s.looked key).later) ∧ r.timeless = .empty := by
  have hordinary := c.normalizer.isLeap_expiry t₀.isLeap_eq_false draw
  have hcanKeep : s.backend.choice.CanKeep (c.normalizer.normalize key.kind .empty t₀ draw) := by
    cases hb : s.backend with
    | memory m => exact True.intro
    | persistent p => exact ⟨Record.storable_named "", Timestamp.le_last_of_ordinary hordinary⟩
    | disabled =>
      rw [hb] at hkeeps
      exact hkeeps.elim
  have hbounds := Normalizer.expiry_bounds (lifetime_of_settings hc) settings.baseTtlSecs.toNat_lt
    t₀.isLeap_eq_false draw
  obtain ⟨hkept, hmargin, -⟩ := s.backend.choice.kept_expiresAt
    (r := c.normalizer.normalize key.kind .empty t₀ draw) hordinary
  have hfresh : (s.backend.choice.kept
      (c.normalizer.normalize key.kind .empty t₀ draw)).isFreshAt (w s.elapsed).now := by
    rw [Record.isFreshAt_iff hkept]
    rw [show (c.normalizer.normalize key.kind .empty t₀ draw).expiresAt
      = c.normalizer.expiry t₀ draw from rfl] at hmargin
    rw [Instant.toTimestamp_last] at hearly
    omega
  refine ⟨s.backend.choice.kept (c.normalizer.normalize key.kind .empty t₀ draw), ?_, ?_⟩
  · rw [getEntity_apply hkey, hkeeps.answer hcanKeep]
    exact if_pos hfresh
  · rw [BackendChoice.timeless_kept]
    exact Normalizer.timeless_normalize_empty (hasSuffixes_of_settings hc) ..

/-- An app that is found empty is resolved without another look. -/
theorem resolveApp_of_blank (hignores : c.ignoresMissing) {raw : String} {guid : Guid}
    (hguid : Guid.canonicalize raw = .ok guid) {app : Record} (happ : app.timeless = .empty)
    (h : c.getEntity .app raw w s = (.ok app, s')) :
    c.resolveApp raw w s = (.ok ⟨guid.text, "", "", "", "", "", false⟩, s') := by
  have hspaceGuid : app.spaceGuid = "" := congrArg Record.spaceGuid happ
  have hblank (kind : Kind) : Passes c w kind "" s' .empty s' :=
    .replaced (getEntity_blank c kind w s') hignores rfl
  refine (resolveApp_ok_iff hguid).2
    ⟨app, s', .empty, s', .empty, .found h, ?_, hblank _, (assemble_blank happ _).symm⟩
  rw [hspaceGuid]
  exact hblank _

/-! ## Preloads -/

/-- The store has a record under the key that was listed for it. -/
def HasListed (c : Cache) (w : World) (key : Key) (found : List (String × Record)) (s : State) :
    Prop :=
  ∃ raw r n, (raw, r) ∈ found ∧ Key.parse .app raw = .ok key
    ∧ s.backend.Keeps key (c.normalizer.normalize key.kind r (w n).now (w n).draw)

/-- Looking up spaces and organizations leaves the apps alone. -/
theorem hasListed_getEntity (happ : key.kind = .app) {kind : Kind} (hkind : kind ≠ .app)
    (found : List (String × Record)) (raw : String) :
    Preserves w (HasListed c w key found) (c.getEntity kind raw) := by
  rintro s ⟨listed, r, n, hmem, hparse, hkeeps⟩
  exact ⟨listed, r, n, hmem, hparse,
    keeps_getEntity (fun hsame => hkind (hsame.symm.trans happ)) raw s hkeeps⟩

theorem hasListed_countOrganization (happ : key.kind = .app) (found : List (String × Record))
    (space : Record) (report : FillReport) :
    Preserves w (HasListed c w key found) (c.countOrganization space report) := by
  unfold countOrganization
  refine (hasListed_getEntity happ (by decide) found _).attempt.bind fun result => ?_
  cases result with
  | ok r => exact .pure _
  | error e =>
    simp only
    split
    · exact .pure _
    · exact .ofExcept _

theorem hasListed_store {found : List (String × Record)} {raw : String} {r : Record}
    (hmem : (raw, r) ∈ found) {other : Key} (hparse : Key.parse .app raw = .ok other) :
    Preserves w (HasListed c w key found) (c.store other r) := by
  rintro s ⟨listed, r', n, hmem', hparse', hkeeps⟩
  rw [store_apply]
  by_cases hother : other = key
  · subst hother
    -- If the store takes the record it is the one that is there, and else it is the former one.
    cases htaken : (s.backend.put other (c.normalizer.normalize other.kind r (w s.elapsed).now
        (w s.elapsed).draw)).1.isOk with
    | true => exact ⟨raw, r, s.elapsed, hmem, hparse, keeps_stored hkeeps.retains htaken⟩
    | false => exact ⟨listed, r', n, hmem', hparse', hkeeps.put fun _ => htaken⟩
  · exact ⟨listed, r', n, hmem', hparse', hkeeps.put_other hother _⟩

/-- After the app itself, a preload stores nothing but a space and an organization. -/
theorem hasListed_of_stored (happ : key.kind = .app) {found : List (String × Record)}
    {listed : String × Record} {other : Key} {app : Record}
    (hparse : Key.parse .app listed.1 = .ok other)
    (hstore : c.store other listed.2 w s = (.ok app, s₁)) (h : HasListed c w key found s₁)
    (report : FillReport) : HasListed c w key found (c.preload report listed w s).2 := by
  obtain ⟨rfl, -⟩ := store_eq_ok hstore
  have hspace := hasListed_getEntity (c := c) happ (by decide : Kind.space ≠ .app) found
    listed.2.spaceGuid s₁ h
  rw [preload_apply hparse hstore rfl]
  split
  · exact hasListed_countOrganization happ found _ _ _ hspace
  · split
    · exact hasListed_countOrganization happ found _ _ _ hspace
    · exact hspace

theorem hasListed_preload (happ : key.kind = .app) {found : List (String × Record)}
    {listed : String × Record} (hmem : listed ∈ found) (report : FillReport) :
    Preserves w (HasListed c w key found) (c.preload report listed) := by
  intro s h
  cases hparse : Key.parse .app listed.1 with
  | error e =>
    unfold preload
    rw [hparse]
    exact h
  | ok other =>
    have hstored := hasListed_store (c := c) hmem hparse s h
    cases hstore : c.store other listed.2 w s with
    | mk result s₁ =>
      rw [hstore] at hstored
      cases result with
      | ok app => exact hasListed_of_stored happ hparse hstore hstored report
      | error e =>
        unfold preload
        rw [Action.ofExcept_bind_ok hparse, Action.bind_error hstore]
        exact hstored

/-- **A preload that comes to an app puts it in the place of what was there.** -/
theorem hasListed_fillAll {before after : List (String × Record)} {listed : String × Record}
    {report : FillReport} (hretains : s.backend.retains)
    (hanswer : ((w s.elapsed).fetcher.all .app).answer = .ok (before ++ listed :: after))
    (hbefore : before.foldlM c.preload .zero w
      (s.fetched ((w s.elapsed).fetcher.all .app).asked) = (.ok report, s₁))
    (hparse : Key.parse .app listed.1 = .ok key) (htaken : (s₁.backend.put key
      (c.normalizer.normalize key.kind listed.2 (w s₁.elapsed).now (w s₁.elapsed).draw)).1.isOk) :
    HasListed c w key (listed :: after) (c.fillAll w s).2 := by
  have happ := Key.kind_of_parse hparse
  have hretains₁ : s₁.backend.retains := by
    have htracked : Tracked c w [.listed s.elapsed] (before.foldlM c.preload .zero) :=
      .foldlM (fun listed hmem => tracked_preload c hanswer (List.mem_append_left _ hmem)) .zero
    have hsteps := htracked.steps_known (s.fetched ((w s.elapsed).fetcher.all .app).asked)
    rw [hbefore] at hsteps
    rwa [Backend.retains_congr (choice_of_steps hsteps)]
  have hstore := store_of_isOk htaken
  have hthere : HasListed c w key (listed :: after) (s₁.stored c w key listed.2) :=
    ⟨listed.1, listed.2, s₁.elapsed, List.mem_cons_self, hparse, keeps_stored hretains₁ htaken⟩
  have hpreload : HasListed c w key (listed :: after) (c.preload report listed w s₁).2 :=
    hasListed_of_stored happ hparse hstore hthere report
  rw [fillAll_apply, if_pos hretains, hanswer]
  simp only
  rw [Action.foldlM_append hbefore, List.foldlM_cons]
  cases hdone : (c.preload report listed w s₁).1 with
  | error e =>
    rw [Action.bind_of_error hdone]
    exact hpreload
  | ok more =>
    rw [Action.bind_of_ok hdone]
    -- What comes later in the list may be the same app again, and is listed for it as well.
    exact Preserves.foldlM (fun listed hmem report =>
      hasListed_preload happ (List.mem_cons_of_mem _ hmem) report) more _ hpreload

/-! ## Spaces and organizations -/

/-- From one state to another there was one request, for some paths, and the store is as it was. -/
structure Traceless (paths : List String) (s s' : State) : Prop where
  fetches : s'.fetches = s.fetches + 1
  asked : s'.asked = s.asked ++ paths
  deposits : s'.deposits = s.deposits
  answers (key : Key) : s'.backend.answer key = s.backend.answer key
  keeps {key : Key} {r : Record} : s.backend.Keeps key r → s'.backend.Keeps key r

/-- **What is not an app is missing without a trace.** It is asked for once, and the store is left as
it was. -/
theorem getEntity_absent {kind : Kind} (hkind : kind ≠ .app) {raw : String}
    (hkey : Key.parse kind raw = .ok key) {found : Option Record}
    (hfound : s.backend.answer key = .ok found)
    (hstale : ∀ r ∈ found, r.isFreshAt (w s.elapsed).now = false)
    (hmissing : ((w (s.elapsed + found.toList.length)).fetcher.one key.kind key.guid).answer
      = .error e) :
    ∃ s', c.getEntity kind raw w s = (.error e, s') ∧ Traceless
      ((w (s.elapsed + found.toList.length)).fetcher.one key.kind key.guid).asked s s' := by
  have hnotApp : key.kind ≠ .app := Key.kind_of_parse hkey ▸ hkind
  have hrefresh (s : State) (h : (w.reply s.elapsed key).answer = .error e) :
      c.refresh key w s = (.error e, s.fetched (w.reply s.elapsed key).asked) :=
    refresh_of_refused h fun happ => absurd happ hnotApp
  have htraceless (paths : List String) : Traceless paths s ((s.looked key).fetched paths) :=
    ⟨rfl, rfl, rfl, s.backend.answer_get key, fun h => h.get key⟩
  rw [getEntity_apply hkey, hfound]
  cases found with
  | none => exact ⟨_, hrefresh (s.looked key) hmissing, htraceless _⟩
  | some r =>
    have hr : r.isFreshAt (w s.elapsed).now = false := hstale r rfl
    simp only [hr, Bool.false_eq_true, if_false]
    obtain ⟨hfetches, hasked, hdeposits, hanswers, hkeeps⟩ := htraceless
      ((w (s.elapsed + 1)).fetcher.one key.kind key.guid).asked
    -- The moment that shows that the record has expired leaves no trace either.
    exact ⟨_, hrefresh (s.looked key).later hmissing,
      ⟨hfetches, hasked, hdeposits, hanswers, hkeeps⟩⟩

/-- What the API never answers is not stored, unless it is an app. -/
theorem untouched_of_missing (hkind : key.kind ≠ .app)
    (hmissing : ∀ n r, ((w n).fetcher.one key.kind key.guid).answer ≠ .ok r)
    (hsteps : Steps c w s s') : Untouched key s s' := by
  induction hsteps with
  | refl => exact .refl key s
  | @tail s₁ s₂ hbefore hstep ih =>
    cases hstep with
    | look => exact ih
    | moment => exact ih
    | ask => exact ih
    | @store other r source =>
      refine ih.stored (fun hother => ?_) r
      subst hother
      cases source with
      | fetched hanswer => exact hmissing _ _ hanswer
      | listed _ _ hparse => exact hkind (Key.kind_of_parse hparse)
      | missing happ => exact hkind happ

/-! ## The whole -/

/-- In a state an app is known to be missing: it is answered as empty and resolved to its GUID alone,
and the API is not asked, however the GUID is written. -/
structure Absent (c : Cache) (w : World) (guid : Guid) (s : State) : Prop where
  entity {raw : String} : Guid.canonicalize raw = .ok guid →
    ∃ r s', c.getEntity .app raw w s = (.ok r, s') ∧ r.timeless = .empty ∧ Quiet s s'
  resolved {raw : String} : Guid.canonicalize raw = .ok guid →
    ∃ s', c.resolveApp raw w s = (.ok ⟨guid.text, "", "", "", "", "", false⟩, s') ∧ Quiet s s'

/-- While the placeholder is fresh the app is known to be missing. -/
theorem absent_of_placeholder {settings : CacheSettings} (hc : Cache.ofSettings settings = .ok c)
    (hignores : c.ignoresMissing) {guid : Guid} {t₀ : Instant} {draw : UInt64}
    (hkeeps : s.backend.Keeps ⟨.app, guid⟩ (c.normalizer.normalize .app .empty t₀ draw))
    (hearly : (w s.elapsed).now.nanos
      < min (t₀.nanos + (750000000 * settings.baseTtlSecs.toNat : Nat)) Instant.last.nanos
        - s.backend.choice.margin) : Absent c w guid s := by
  have hquiet : Quiet s (s.looked ⟨.app, guid⟩).later := ⟨rfl, rfl, rfl⟩
  constructor
  · intro raw hguid
    obtain ⟨r, hr, hempty⟩ := getEntity_placeholder hc hkeeps hearly (Key.parse_of_ok hguid .app)
    exact ⟨r, _, hr, hempty, hquiet⟩
  · intro raw hguid
    obtain ⟨r, hr, hempty⟩ := getEntity_placeholder hc hkeeps hearly (Key.parse_of_ok hguid .app)
    exact ⟨_, resolveApp_of_blank hignores hguid hempty hr, hquiet⟩

/-- **How long what is missing is known to be missing**, whatever is in the store and whatever the
API answers in the meantime. -/
theorem absence_window {settings : CacheSettings} (hc : Cache.ofSettings settings = .ok c)
    (w : World) :
    -- A missing app leaves a placeholder that answers for it for three quarters of a lifetime.
    (settings.ignoreMissingApps → ∀ {s s₁ : State} {raw : String} {guid : Guid} {e : Error},
      Guid.canonicalize raw = .ok guid → s.backend.retains →
      c.getEntity .app raw w s = (.error e, s₁) → e.isMissing →
      ∃ n, s₁.elapsed = n + 1
        ∧ s₁.deposits = s.deposits ++ [⟨⟨.app, guid⟩,
            c.normalizer.normalize .app .empty (w n).now (w n).draw, (w n).now, true⟩]
        ∧ ∀ {s₂}, Steps c w s₁ s₂ → Untouched ⟨.app, guid⟩ s₁ s₂ →
          (w s₂.elapsed).now.nanos
            < min ((w n).now.nanos + (750000000 * settings.baseTtlSecs.toNat : Nat))
                Instant.last.nanos - s.backend.choice.margin →
          Absent c w guid s₂)
    -- A preload that comes to an app and can store it puts it in the place of the placeholder.
    ∧ (∀ {s s₁ : State} {before after : List (String × Record)} {listed : String × Record}
        {report : FillReport} {key : Key}, s.backend.retains →
      ((w s.elapsed).fetcher.all .app).answer = .ok (before ++ listed :: after) →
      before.foldlM c.preload .zero w (s.fetched ((w s.elapsed).fetcher.all .app).asked)
        = (.ok report, s₁) →
      Key.parse .app listed.1 = .ok key →
      (s₁.backend.put key (c.normalizer.normalize key.kind listed.2 (w s₁.elapsed).now
        (w s₁.elapsed).draw)).1.isOk →
      HasListed c w key (listed :: after) (c.fillAll w s).2)
    -- What else is missing is asked for each time, once, and does not come into the store.
    ∧ ∀ {kind : Kind} {raw : String} {key : Key}, kind ≠ .app → Key.parse kind raw = .ok key →
      (∀ {s : State} {found : Option Record} {e : Error}, s.backend.answer key = .ok found →
        (∀ r ∈ found, r.isFreshAt (w s.elapsed).now = false) →
        ((w (s.elapsed + found.toList.length)).fetcher.one key.kind key.guid).answer = .error e →
        ∃ s', c.getEntity kind raw w s = (.error e, s')
          ∧ Traceless ((w (s.elapsed + found.toList.length)).fetcher.one key.kind key.guid).asked
              s s'
          ∧ ∀ t : Transport, (w (s.elapsed + found.toList.length)).fetcher = t.fetcher →
              s'.asked = s.asked ++ [entityPath key.kind key.guid.text])
      ∧ ((∀ n r, ((w n).fetcher.one key.kind key.guid).answer ≠ .ok r) →
        ∀ {s s' : State}, Steps c w s s' → Untouched key s s'
          ∧ ∀ {r}, s.backend.Keeps key r → s'.backend.Keeps key r) := by
  refine ⟨fun hignores s s₁ raw guid e hguid hretains hmissed he => ?_, hasListed_fillAll,
    fun {kind raw key} hkind hkey => ⟨fun {s found e} hfound hstale hmissing => ?_,
      fun hmissing s s' hsteps => ?_⟩⟩
  · have hignores' : c.ignoresMissing := (ignoresMissing_of_settings hc).trans hignores
    obtain ⟨n, helapsed, hdeposits, hkeeps⟩ :=
      placeholder_of_missed (Key.parse_of_ok hguid .app) hignores' hretains hmissed he
    have hchoice : s₁.backend.choice = s.backend.choice := by
      have hsteps := (tracked_getEntity c .app raw).steps (w := w) s
      rw [hmissed] at hsteps
      exact choice_of_steps hsteps
    refine ⟨n, helapsed, hdeposits, fun {s₂} hsteps huntouched hearly => ?_⟩
    refine absent_of_placeholder hc hignores' (keeps_of_steps hsteps hkeeps huntouched) ?_
    rwa [(choice_of_steps hsteps).trans hchoice]
  · obtain ⟨s', hget, htraceless⟩ := getEntity_absent hkind hkey hfound hstale hmissing
    refine ⟨s', hget, htraceless, fun t ht => ?_⟩
    rw [htraceless.asked, ht]
    rfl
  · have hnotApp : key.kind ≠ .app := Key.kind_of_parse hkey ▸ hkind
    have huntouched := untouched_of_missing hnotApp hmissing hsteps
    exact ⟨huntouched, fun hkeeps => keeps_of_steps hsteps hkeeps huntouched⟩

/-- An app that was missing is resolved without another request, and a space is asked for again. -/
theorem absence_window_missing :
    let c : Cache := ⟨⟨60 * nanosPerSecond, []⟩, true⟩
    let after (kind : Kind) (s : State) :=
      (c.getEntity kind "6ba7b810-9dad-11d1-80b4-00c04fd430c8" (.still .unknowing) s).2
    let s : State := .ofBackend (.memory .empty)
    (c.resolveApp "6BA7B810-9DAD-11D1-80B4-00C04FD430C8" (.still .unknowing) (after .app s)).1
        = .ok ⟨"6ba7b810-9dad-11d1-80b4-00c04fd430c8", "", "", "", "", "", false⟩
      ∧ (after .app (after .app s)).fetches = 1 ∧ (after .space (after .space s)).fetches = 2 := by
  intro c after s
  have hsettings : ofSettings { CacheSettings.inMemory 60 with ignoreMissingApps := true } = .ok c :=
    rfl
  obtain ⟨guid, hguid, hupper, htext⟩ : ∃ guid,
      Guid.canonicalize "6ba7b810-9dad-11d1-80b4-00c04fd430c8" = .ok guid
        ∧ Guid.canonicalize "6BA7B810-9DAD-11D1-80B4-00C04FD430C8" = .ok guid
        ∧ guid.text = "6ba7b810-9dad-11d1-80b4-00c04fd430c8" := ⟨_, rfl, rfl, rfl⟩
  obtain ⟨happ, -, hother⟩ := absence_window hsettings (.still .unknowing)
  -- The app is missing at the first lookup, and no time goes by after that.
  have hmissed : c.getEntity .app "6ba7b810-9dad-11d1-80b4-00c04fd430c8" (.still .unknowing) s
      = (.error (.remote (.notFound .app guid.text)), after .app s) := by
    refine Prod.ext ?_ rfl
    rw [getEntity_apply (Key.parse_of_ok hguid .app)]
    rfl
  obtain ⟨n, -, -, habsent⟩ := happ rfl hguid rfl hmissed rfl
  have hnow := habsent .refl (.refl _ _) (show Instant.epoch.nanos
    < min (Instant.epoch.nanos + (750000000 * 60 : Nat)) Instant.last.nanos - (0 : Nat) by decide)
  obtain ⟨r, s₂, hget, -, hquiet⟩ := hnow.entity hguid
  obtain ⟨s₃, hresolved, -⟩ := hnow.resolved hupper
  -- The space is missing at both lookups.
  obtain ⟨hspace, -⟩ := hother (by decide : Kind.space ≠ .app) (Key.parse_of_ok hguid .space)
  obtain ⟨s₄, hfirst, htraceless, -⟩ := hspace (s := s) rfl (fun _ h => by cases h) rfl
  obtain ⟨s₅, hsecond, htraceless', -⟩ := hspace (s := s₄) (htraceless.answers _)
    (fun _ h => by cases h) rfl
  refine ⟨?_, ?_, ?_⟩
  · rw [hresolved, htext]
  · show (c.getEntity .app _ _ (after .app s)).2.fetches = 1
    rw [hget, hquiet.fetches]
    show (c.getEntity .app _ _ s).2.fetches = 1
    rw [getEntity_missing (Key.parse_of_ok hguid .app) rfl rfl rfl]
    rfl
  · show (c.getEntity .space _ _ (c.getEntity .space _ _ s).2).2.fetches = 2
    rw [hfirst, hsecond, htraceless'.fetches, htraceless.fetches]
    rfl

end Cache

end MetaCache
