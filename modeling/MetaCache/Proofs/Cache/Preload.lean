import MetaCache.Proofs.Cache.Agreement
import MetaCache.Proofs.Cache.Freshness
import Mathlib.Data.Finset.Card

/-!
# What preloading costs, and what it saves

As long as nothing that is stored expires, a preload that succeeds asks for the list of apps, and
then once for each space and each organization, however many apps share it (`Filling`). Afterwards
the listed apps are resolved without any request.
-/

namespace MetaCache.Cache

open MetaCache.Remote MetaCache.Store

variable {c : Cache} {f : Fetcher} {w : World} {limit : Int} {s₀ s s' : State}
  {apps lookups : List Key}

/-! ## Keys of spaces and organizations -/

/-- The keys of the spaces of listed apps. -/
def spaceKeys (found : List (String × Record)) : List Key :=
  found.filterMap fun listed => (Key.parse .space listed.2.spaceGuid).toOption

/-- The keys of the organizations of these spaces. -/
def organizationKeys (f : Fetcher) (found : List (String × Record)) : List Key :=
  (spaceKeys found).filterMap fun key => ((f.one key.kind key.guid).answer.bind fun space =>
    Key.parse .organization space.organizationGuid).toOption

theorem toOption_eq_some_iff {α : Type} {result : Except Error α} {a : α} :
    result.toOption = some a ↔ result = .ok a := by
  cases result <;> simp [Except.toOption]

theorem mem_spaceKeys {found : List (String × Record)} {key : Key} :
    key ∈ spaceKeys found ↔ ∃ listed ∈ found, Key.parse .space listed.2.spaceGuid = .ok key := by
  simp only [spaceKeys, List.mem_filterMap, toOption_eq_some_iff]

theorem mem_organizationKeys {found : List (String × Record)} {key : Key} :
    key ∈ organizationKeys f found ↔ ∃ spaceKey ∈ spaceKeys found, ∃ space,
      (f.one spaceKey.kind spaceKey.guid).answer = .ok space
        ∧ Key.parse .organization space.organizationGuid = .ok key := by
  simp only [organizationKeys, List.mem_filterMap, toOption_eq_some_iff]
  refine exists_congr fun spaceKey => and_congr_right fun _ => ?_
  cases (f.one spaceKey.kind spaceKey.guid).answer with
  | error e => simp [Except.bind]
  | ok space => simp [Except.bind]

theorem spaceKeys_mono {found more : List (String × Record)} (h : found ⊆ more) :
    spaceKeys found ⊆ spaceKeys more := by
  intro key hkey
  obtain ⟨listed, hlisted, hparse⟩ := mem_spaceKeys.1 hkey
  exact mem_spaceKeys.2 ⟨listed, h hlisted, hparse⟩

theorem organizationKeys_mono {found more : List (String × Record)} (h : found ⊆ more) :
    organizationKeys f found ⊆ organizationKeys f more := by
  intro key hkey
  obtain ⟨spaceKey, hspaceKey, hrest⟩ := mem_organizationKeys.1 hkey
  exact mem_organizationKeys.2 ⟨spaceKey, spaceKeys_mono h hspaceKey, hrest⟩

/-- The keys that the listed apps need besides their own. -/
def neededKeys (f : Fetcher) (found : List (String × Record)) : List Key :=
  spaceKeys found ++ organizationKeys f found

theorem neededKeys_mono {found more : List (String × Record)} (h : found ⊆ more) :
    neededKeys f found ⊆ neededKeys f more := by
  intro key hkey
  rcases List.mem_append.1 hkey with hspace | horganization
  · exact List.mem_append_left _ (spaceKeys_mono h hspace)
  · exact List.mem_append_right _ (organizationKeys_mono h horganization)

/-- The two lists have no key in common. -/
theorem spaceKeys_disjoint_organizationKeys {found : List (String × Record)} {key : Key}
    (hspace : key ∈ spaceKeys found) : key ∉ organizationKeys f found := by
  intro horganization
  obtain ⟨listed, -, hparse⟩ := mem_spaceKeys.1 hspace
  obtain ⟨spaceKey, -, space, -, hparse'⟩ := mem_organizationKeys.1 horganization
  have hkind := Key.kind_of_parse hparse
  rw [Key.kind_of_parse hparse'] at hkind
  cases hkind

/-! ## Time -/

/-- A timestamp in no leap second that comes no sooner than a limit. -/
def Reaches (limit : Int) (t : Timestamp) : Prop := t.isLeap = false ∧ limit ≤ t.nanos

/-- From a moment on the clock stays before a limit, and what is stored expires no sooner. -/
structure Window (c : Cache) (w : World) (limit : Int) (start : Nat) : Prop where
  now : ∀ n, start ≤ n → (w n).now.nanos < limit
  expiry : ∀ n, start ≤ n → ∀ draw, Reaches limit (c.normalizer.expiry (w n).now draw)

theorem window_of_settings {settings : CacheSettings} (hc : Cache.ofSettings settings = .ok c)
    {start : Nat} {t₀ : Int}
    (hclock : ∀ n, start ≤ n → t₀ ≤ (w n).now.nanos ∧ (w n).now.nanos
      < min (t₀ + (750000000 * settings.baseTtlSecs.toNat : Nat)) Instant.last.nanos) :
    Window c w (min (t₀ + (750000000 * settings.baseTtlSecs.toNat : Nat)) Instant.last.nanos)
      start where
  now n hn := (hclock n hn).2
  expiry n hn draw := by
    have hordinary := (w n).now.isLeap_eq_false
    have hbounds := Normalizer.expiry_bounds (lifetime_of_settings hc) settings.baseTtlSecs.toNat_lt
      hordinary draw
    have hstart := (hclock n hn).1
    refine ⟨c.normalizer.isLeap_expiry hordinary draw, ?_⟩
    rw [Instant.toTimestamp_last]
    omega

theorem Window.later {start start' : Nat} (h : Window c w limit start) (hstart : start ≤ start') :
    Window c w limit start' where
  now n hn := h.now n (Nat.le_trans hstart hn)
  expiry n hn := h.expiry n (Nat.le_trans hstart hn)

/-- Nothing in the store expires before the limit. -/
def Lasting (limit : Int) (s : State) : Prop :=
  ∀ ⦃key : Key⦄ ⦃r : Record⦄, s.backend.answer key = .ok (some r) → Reaches limit r.expiresAt

theorem Lasting.looked (h : Lasting limit s) (key : Key) : Lasting limit (s.looked key) :=
  fun _ _ hr => h ((s.backend.answer_get key _).symm.trans hr)

theorem Lasting.stored (h : Lasting limit s) (hs : s.backend.choice = .memory) {start : Nat}
    (hwindow : Window c w limit start) (hstart : start ≤ s.elapsed) (key : Key) (r : Record) :
    Lasting limit (s.stored c w key r) := by
  intro other r' hr'
  have hanswer := (Backend.put_of_memory hs key
    (c.normalizer.normalize key.kind r (w s.elapsed).now (w s.elapsed).draw)).2 other
  rw [show (s.stored c w key r).backend.answer other = _ from hanswer] at hr'
  split at hr'
  · cases hr'
    exact hwindow.expiry _ hstart _
  · exact h hr'

/-! ## Stores that are being filled -/

/-- A store in memory that some apps have been put into, and some spaces and organizations by
lookups: each of them once, with success, and without ever expiring. -/
structure Filling (c : Cache) (f : Fetcher) (limit : Int) (s₀ : State) (apps lookups : List Key)
    (s : State) : Prop where
  holds : Holds c f (apps ++ lookups) s
  answered : ∀ key ∈ apps ++ lookups, ∃ r, (f.one key.kind key.guid).answer = .ok r
  lasting : Lasting limit s
  isApp : ∀ key ∈ apps, key.kind = .app
  notApp : ∀ key ∈ lookups, key.kind ≠ .app
  nodup : lookups.Nodup
  asked : s.asked = s₀.asked ++ lookups.flatMap fun key => (f.one key.kind key.guid).asked
  fetches : s.fetches = s₀.fetches + lookups.length
  elapsed : s₀.elapsed ≤ s.elapsed

namespace Filling

/-- Before anything is stored. -/
theorem start (h : Holds c f [] s) : Filling c f limit s [] [] s where
  holds := h
  answered _ hkey := absurd hkey List.not_mem_nil
  lasting _ _ hr := absurd (h.told_of_answer hr).1 List.not_mem_nil
  isApp _ hkey := absurd hkey List.not_mem_nil
  notApp _ hkey := absurd hkey List.not_mem_nil
  nodup := .nil
  asked := by rw [List.flatMap_nil, List.append_nil]
  fetches := rfl
  elapsed := Nat.le_refl _

/-- What has been tried is there. -/
theorem answer_of_mem (h : Filling c f limit s₀ apps lookups s) {key : Key}
    (hkey : key ∈ apps ++ lookups) :
    ∃ r, s.backend.answer key = .ok (some r) ∧ c.told f key = .ok r.timeless := by
  have hanswer := h.holds.answer key
  obtain ⟨r, hr⟩ := h.answered key hkey
  rw [if_pos hkey, told, hr] at hanswer
  cases hfound : s.backend.answer key with
  | error e => rw [hfound] at hanswer; cases hanswer
  | ok found =>
    rw [hfound] at hanswer
    cases found with
    | none => cases hanswer
    | some r' => exact ⟨r', rfl, (h.holds.told_of_answer hfound).2⟩

/-- What has not been tried is not there. -/
theorem answer_of_not_mem (h : Filling c f limit s₀ apps lookups s) {key : Key}
    (hkey : key ∉ apps ++ lookups) : s.backend.answer key = .ok none := by
  cases hfound : s.backend.answer key with
  | error e =>
    have hanswer := h.holds.answer key
    rw [hfound] at hanswer
    cases hanswer
  | ok found =>
    cases found with
    | none => rfl
    | some r => exact absurd (h.holds.told_of_answer hfound).1 hkey

theorem looked (h : Filling c f limit s₀ apps lookups s) (key : Key) :
    Filling c f limit s₀ apps lookups (s.looked key) :=
  { h with
    holds := h.holds.looked key
    lasting := h.lasting.looked key }

theorem later (h : Filling c f limit s₀ apps lookups s) :
    Filling c f limit s₀ apps lookups s.later :=
  { h with
    holds := h.holds.later
    elapsed := Nat.le_succ_of_le h.elapsed }

/-- What has been tried is answered from the store. -/
theorem hit (h : Filling c f limit s₀ apps lookups s) (hwindow : Window c w limit s₀.elapsed)
    {kind : Kind} {raw : String} {key : Key} (hparse : Key.parse kind raw = .ok key)
    (hkey : key ∈ apps ++ lookups) :
    ∃ r, c.getEntity kind raw w s = (.ok r, (s.looked key).later) ∧ c.told f key = .ok r.timeless
      ∧ Filling c f limit s₀ apps lookups (s.looked key).later := by
  obtain ⟨r, hanswer, htold⟩ := h.answer_of_mem hkey
  obtain ⟨hordinary, hlimit⟩ := h.lasting hanswer
  have hfresh : r.isFreshAt (w s.elapsed).now :=
    (Record.isFreshAt_iff hordinary _).2 (Int.lt_of_lt_of_le (hwindow.now _ h.elapsed) hlimit)
  refine ⟨r, ?_, htold, (h.looked key).later⟩
  rw [getEntity_apply hparse, hanswer]
  exact if_pos hfresh

/-- A listed app is put into the store. -/
theorem store (h : Filling c f limit s₀ apps lookups s) (hwindow : Window c w limit s₀.elapsed)
    {key : Key} (happ : key.kind = .app) {r : Record}
    (hr : (f.one key.kind key.guid).answer = .ok r) :
    Filling c f limit s₀ (key :: apps) lookups (s.stored c w key r) :=
  { h with
    holds := h.holds.stored hr
    answered := List.forall_mem_cons.2 ⟨⟨r, hr⟩, h.answered⟩
    lasting := h.lasting.stored h.holds.choice hwindow h.elapsed key r
    isApp := List.forall_mem_cons.2 ⟨happ, h.isApp⟩
    elapsed := Nat.le_succ_of_le h.elapsed }

/-- A space or an organization is fetched for the first time, and put into the store. -/
theorem fetch (h : Filling c f limit s₀ apps lookups s) (hwindow : Window c w limit s₀.elapsed)
    {key : Key} (hkind : key.kind ≠ .app) (hkey : key ∉ lookups) {r : Record}
    (hr : (f.one key.kind key.guid).answer = .ok r) :
    Filling c f limit s₀ apps (lookups ++ [key])
      ((s.fetched (f.one key.kind key.guid).asked).stored c w key r) where
  holds := ((h.holds.fetched _).stored hr).congr fun other => by
    rw [← List.append_assoc, List.mem_append, List.mem_singleton, List.mem_cons, or_comm]
  answered other hother := by
    rw [← List.append_assoc, List.mem_append, List.mem_singleton] at hother
    rcases hother with hother | rfl
    · exact h.answered other hother
    · exact ⟨r, hr⟩
  lasting := Lasting.stored (s := s.fetched _) h.lasting h.holds.choice hwindow
    (Nat.le_succ_of_le h.elapsed) key r
  isApp := h.isApp
  notApp other hother := by
    rcases List.mem_append.1 hother with hother | hother
    · exact h.notApp other hother
    · rw [List.mem_singleton.1 hother]
      exact hkind
  nodup := List.nodup_append.2 ⟨h.nodup, List.nodup_singleton key, by
    rintro other hother _ hlast rfl
    rw [List.mem_singleton.1 hlast] at hother
    exact hkey hother⟩
  asked := by
    show s.asked ++ _ = _
    rw [h.asked, List.flatMap_append, List.flatMap_singleton, List.append_assoc]
  fetches := by
    show s.fetches + 1 = _
    rw [h.fetches, List.length_append, List.length_singleton, Nat.add_assoc]
  elapsed := Nat.le_succ_of_le (Nat.le_succ_of_le h.elapsed)

/-- What has not been tried yet is fetched, and is there from then on. -/
theorem miss (h : Filling c f limit s₀ apps lookups s) (hwindow : Window c w limit s₀.elapsed)
    (hw : ∀ n, (w n).fetcher = f) {kind : Kind} (hkind : kind ≠ .app) {raw : String} {key : Key}
    (hparse : Key.parse kind raw = .ok key) (hkey : key ∉ lookups) {r : Record}
    (hget : c.getEntity kind raw w s = (.ok r, s')) :
    Filling c f limit s₀ apps (lookups ++ [key]) s' := by
  have hnotApp : key.kind ≠ .app := Key.kind_of_parse hparse ▸ hkind
  have habsent : key ∉ apps ++ lookups := by
    rw [List.mem_append]
    rintro (happ | hmem)
    · exact hnotApp (h.isApp key happ)
    · exact hkey hmem
  rw [getEntity_apply hparse, h.answer_of_not_mem habsent] at hget
  dsimp only at hget
  rw [refresh_apply, hw] at hget
  cases hanswer : (f.one key.kind key.guid).answer with
  | error e =>
    rw [hanswer] at hget
    simp only [hnotApp, decide_false, Bool.false_and, Bool.false_eq_true, if_false] at hget
    cases hget
  | ok fetched =>
    rw [hanswer] at hget
    obtain ⟨-, rfl⟩ := store_eq_ok hget
    exact (h.looked key).fetch hwindow hnotApp hkey hanswer

/-- **A lookup that succeeds asks for its key only if nobody has done so before.** -/
theorem getEntity (h : Filling c f limit s₀ apps lookups s) (hwindow : Window c w limit s₀.elapsed)
    (hw : ∀ n, (w n).fetcher = f) {kind : Kind} (hkind : kind ≠ .app) {raw : String} {r : Record}
    (hget : c.getEntity kind raw w s = (.ok r, s')) :
    ∃ key lookups', Key.parse kind raw = .ok key ∧ c.told f key = .ok r.timeless
      ∧ Filling c f limit s₀ apps lookups' s'
      ∧ ∀ other, other ∈ lookups' ↔ other ∈ lookups ∨ other = key := by
  cases hparse : Key.parse kind raw with
  | error e =>
    rw [getEntity_of_invalid hparse] at hget
    cases hget
  | ok key =>
    by_cases hkey : key ∈ lookups
    · obtain ⟨r', hhit, htold, hfilling⟩ := h.hit hwindow hparse (List.mem_append_right _ hkey)
      rw [hhit] at hget
      cases hget
      refine ⟨key, lookups, rfl, htold, hfilling, fun other => ?_⟩
      exact (or_iff_left_of_imp fun hother => hother ▸ hkey).symm
    · have hfilling := h.miss hwindow hw hkind hparse hkey hget
      obtain ⟨r', hanswer, htold⟩ := hfilling.answer_of_mem
        (List.mem_append_right _ (List.mem_append_right _ (List.mem_singleton_self key)))
      obtain ⟨-, htold'⟩ := h.holds.getEntity (c := c) hw hparse fun happ =>
        absurd (Key.kind_of_parse hparse ▸ happ) hkind
      rw [hget] at htold'
      refine ⟨key, lookups ++ [key], rfl, htold'.symm, hfilling, fun other => ?_⟩
      rw [List.mem_append, List.mem_singleton]

end Filling

/-! ## Preloads that succeed -/

/-- Guids are told as the API answers them. -/
theorem guids_of_told {key : Key} {r : Record} (h : c.told f key = .ok r.timeless) :
    ∃ answered, (f.one key.kind key.guid).answer = .ok answered
      ∧ r.spaceGuid = answered.spaceGuid ∧ r.organizationGuid = answered.organizationGuid := by
  rw [told] at h
  cases hanswer : (f.one key.kind key.guid).answer with
  | error e => rw [hanswer] at h; cases h
  | ok answered =>
    rw [hanswer] at h
    have hsame := (Except.ok.inj h).symm
    exact ⟨answered, rfl, (congrArg Record.spaceGuid hsame :),
      (congrArg Record.organizationGuid hsame :)⟩

/-- A cache that ignores nothing has found an organization that it counts or does not fail on. -/
theorem countOrganization_ok (hstrict : c.ignoresMissing = false) {space : Record}
    {report report' : FillReport} (h : c.countOrganization space report w s = (.ok report', s')) :
    ∃ organization, c.getEntity .organization space.organizationGuid w s = (.ok organization, s') := by
  unfold countOrganization at h
  obtain ⟨result, s₁, hlookup, h⟩ := Action.bind_eq_ok_iff.1 h
  rw [Action.attempt_eq_ok_iff] at hlookup
  cases result with
  | ok organization =>
    cases h
    exact ⟨organization, hlookup⟩
  | error e =>
    simp only [tolerates, hstrict, Bool.false_and, Bool.false_eq_true, if_false] at h
    cases h

/-- What a cache that ignores nothing has done when an app is preloaded. -/
theorem preload_ok (hstrict : c.ignoresMissing = false) {report report' : FillReport}
    {listed : String × Record} (h : c.preload report listed w s = (.ok report', s')) :
    ∃ key space s₁ organization, Key.parse .app listed.1 = .ok key
      ∧ c.getEntity .space listed.2.spaceGuid w (s.stored c w key listed.2) = (.ok space, s₁)
      ∧ c.getEntity .organization space.organizationGuid w s₁ = (.ok organization, s') := by
  unfold preload at h
  obtain ⟨key, s₁, hkey, h⟩ := Action.bind_eq_ok_iff.1 h
  obtain ⟨hparse, rfl⟩ := Prod.mk.inj hkey
  obtain ⟨app, s₂, hstore, h⟩ := Action.bind_eq_ok_iff.1 h
  obtain ⟨rfl, rfl⟩ := store_eq_ok hstore
  obtain ⟨result, s₁, hspace, h⟩ := Action.bind_eq_ok_iff.1 h
  rw [Action.attempt_eq_ok_iff] at hspace
  cases result with
  | ok space =>
    obtain ⟨organization, horganization⟩ := countOrganization_ok hstrict
      (show c.countOrganization space _ w s₁ = (.ok report', s') from h)
    exact ⟨key, space, s₁, organization, hparse, hspace, horganization⟩
  | error e =>
    simp only [tolerates, hstrict, Bool.false_and, Bool.false_eq_true, if_false] at h
    cases h

/-- Whatever is needed to resolve a listed app is there. -/
inductive Provided (f : Fetcher) (apps lookups : List Key) (listed : String × Record) : Prop
  | intro {key spaceKey organizationKey : Key} {space : Record}
      (app : Key.parse .app listed.1 = .ok key) (hasApp : key ∈ apps)
      (spaced : Key.parse .space listed.2.spaceGuid = .ok spaceKey) (hasSpace : spaceKey ∈ lookups)
      (answer : (f.one spaceKey.kind spaceKey.guid).answer = .ok space)
      (organized : Key.parse .organization space.organizationGuid = .ok organizationKey)
      (hasOrganization : organizationKey ∈ lookups)

theorem Provided.mono {apps' lookups' : List Key} {listed : String × Record}
    (h : Provided f apps lookups listed) (happs : apps ⊆ apps') (hlookups : lookups ⊆ lookups') :
    Provided f apps' lookups' listed := by
  cases h with
  | intro app hasApp spaced hasSpace answer organized hasOrganization =>
    exact ⟨app, happs hasApp, spaced, hlookups hasSpace, answer, organized,
      hlookups hasOrganization⟩

namespace Filling

/-- **Preloading an app looks up its space and its organization**, and nothing else. -/
theorem preload (h : Filling c f limit s₀ apps lookups s) (hwindow : Window c w limit s₀.elapsed)
    (hw : ∀ n, (w n).fetcher = f) (hf : f.IsConsistent) (hstrict : c.ignoresMissing = false)
    {found : List (String × Record)} (hfound : (f.all .app).answer = .ok found)
    {listed : String × Record} (hlisted : listed ∈ found) {report report' : FillReport}
    (hpreload : c.preload report listed w s = (.ok report', s')) :
    ∃ apps' lookups', Filling c f limit s₀ apps' lookups' s' ∧ Provided f apps' lookups' listed
      ∧ apps ⊆ apps' ∧ lookups ⊆ lookups' ∧ lookups' ⊆ lookups ++ neededKeys f [listed] := by
  obtain ⟨key, space, s₁, organization, hkey, hspace, horganization⟩ := preload_ok hstrict hpreload
  obtain ⟨guid, hguid, rfl⟩ := Key.parse_ok hkey
  have hstored : Filling c f limit s₀ (⟨.app, guid⟩ :: apps) lookups
    (s.stored c w ⟨.app, guid⟩ listed.2) := h.store hwindow rfl (hf hfound hlisted hguid)
  obtain ⟨spaceKey, lookups₁, hspaced, htold, hfilling, hmem⟩ :=
    hstored.getEntity hwindow hw (by decide) hspace
  obtain ⟨organizationKey, lookups₂, horganized, -, hfilling', hmem'⟩ :=
    hfilling.getEntity hwindow hw (by decide) horganization
  obtain ⟨answered, hanswer, -, hsame⟩ := guids_of_told htold
  rw [hsame] at horganized
  have hspaceKey : spaceKey ∈ spaceKeys [listed] :=
    mem_spaceKeys.2 ⟨listed, List.mem_singleton_self listed, hspaced⟩
  have horganizationKey : organizationKey ∈ organizationKeys f [listed] :=
    mem_organizationKeys.2 ⟨spaceKey, hspaceKey, answered, hanswer, horganized⟩
  refine ⟨_, lookups₂, hfilling', ?_, List.subset_cons_self .., ?_, ?_⟩
  · exact ⟨hkey, List.mem_cons_self, hspaced, (hmem' _).2 (.inl ((hmem _).2 (.inr rfl))), hanswer,
      horganized, (hmem' _).2 (.inr rfl)⟩
  · exact fun other hother => (hmem' _).2 (.inl ((hmem _).2 (.inl hother)))
  · intro other hother
    rcases (hmem' other).1 hother with hother | rfl
    · rcases (hmem other).1 hother with hother | rfl
      · exact List.mem_append_left _ hother
      · exact List.mem_append_right _ (List.mem_append_left _ hspaceKey)
    · exact List.mem_append_right _ (List.mem_append_right _ horganizationKey)

/-- Preloading some of the listed apps looks up their spaces and organizations. -/
theorem preloads (h : Filling c f limit s₀ apps lookups s) (hwindow : Window c w limit s₀.elapsed)
    (hw : ∀ n, (w n).fetcher = f) (hf : f.IsConsistent) (hstrict : c.ignoresMissing = false)
    {found : List (String × Record)} (hfound : (f.all .app).answer = .ok found)
    {rest : List (String × Record)} (hrest : rest ⊆ found) {report report' : FillReport}
    (hfold : rest.foldlM c.preload report w s = (.ok report', s')) :
    ∃ apps' lookups', Filling c f limit s₀ apps' lookups' s'
      ∧ (∀ listed ∈ rest, Provided f apps' lookups' listed) ∧ apps ⊆ apps' ∧ lookups ⊆ lookups'
      ∧ lookups' ⊆ lookups ++ neededKeys f rest := by
  -- From one app to the next, more keys have been tried, and none is forgotten.
  induction rest generalizing apps lookups report s with
  | nil =>
    cases hfold
    exact ⟨apps, lookups, h, fun _ hl => absurd hl List.not_mem_nil, List.Subset.refl _,
      List.Subset.refl _, List.subset_append_left ..⟩
  | cons listed rest ih =>
    rw [List.foldlM_cons] at hfold
    obtain ⟨report₁, s₁, hpreload, hfold⟩ := Action.bind_eq_ok_iff.1 hfold
    obtain ⟨apps₁, lookups₁, h₁, hprovided, happs, hlookups, hbound⟩ :=
      h.preload hwindow hw hf hstrict hfound (hrest List.mem_cons_self) hpreload
    obtain ⟨apps₂, lookups₂, h₂, hprovided', happs', hlookups', hbound'⟩ :=
      ih h₁ (List.Subset.trans (List.subset_cons_self ..) hrest) hfold
    have hfirst : [listed] ⊆ listed :: rest := List.cons_subset_cons listed (List.nil_subset rest)
    refine ⟨apps₂, lookups₂, h₂, ?_, List.Subset.trans happs happs',
      List.Subset.trans hlookups hlookups', ?_⟩
    · rintro other hother
      rcases List.mem_cons.1 hother with rfl | hother
      · exact hprovided.mono happs' hlookups'
      · exact hprovided' other hother
    · intro key hkey
      rcases List.mem_append.1 (hbound' hkey) with hkey | hkey
      · rcases List.mem_append.1 (hbound hkey) with hkey | hkey
        · exact List.mem_append_left _ hkey
        · exact List.mem_append_right _ (neededKeys_mono hfirst hkey)
      · exact List.mem_append_right _ (neededKeys_mono (List.subset_cons_self ..) hkey)

/-- **What is provided is resolved without a request.** -/
theorem resolveApp (h : Filling c f limit s₀ apps lookups s) (hwindow : Window c w limit s₀.elapsed)
    (hf : f.IsConsistent) {found : List (String × Record)}
    (hfound : (f.all .app).answer = .ok found) {listed : String × Record} (hlisted : listed ∈ found)
    (hprovided : Provided f apps lookups listed) :
    ∃ a s', c.resolveApp listed.1 w s = (.ok a, s') ∧ Filling c f limit s₀ apps lookups s' := by
  obtain @⟨key, spaceKey, organizationKey, space, hkey, hasApp, hspaced, hasSpace, hanswer,
    horganized, hasOrganization⟩ := hprovided
  obtain ⟨guid, hguid, rfl⟩ := Key.parse_ok hkey
  obtain ⟨app, happ, htold, h₁⟩ := h.hit hwindow hkey (List.mem_append_left _ hasApp)
  obtain ⟨answered, hanswered, hspaceGuid, -⟩ := guids_of_told htold
  rw [hf hfound hlisted hguid] at hanswered
  cases hanswered
  rw [← hspaceGuid] at hspaced
  obtain ⟨space', hspace, htold', h₂⟩ := h₁.hit hwindow hspaced (List.mem_append_right _ hasSpace)
  obtain ⟨answered, hanswered, -, horganizationGuid⟩ := guids_of_told htold'
  rw [hanswer] at hanswered
  cases hanswered
  rw [← horganizationGuid] at horganized
  obtain ⟨organization, horganization, -, h₃⟩ :=
    h₂.hit hwindow horganized (List.mem_append_right _ hasOrganization)
  exact ⟨_, _, (resolveApp_ok_iff hguid).2 ⟨app, _, space', _, organization, .found happ,
    .found hspace, .found horganization, rfl⟩, h₃⟩

/-- So are any number of apps, in any order. -/
theorem resolveAll (h : Filling c f limit s₀ apps lookups s) (hwindow : Window c w limit s₀.elapsed)
    (hf : f.IsConsistent) {found : List (String × Record)}
    (hfound : (f.all .app).answer = .ok found)
    (hprovided : ∀ listed ∈ found, Provided f apps lookups listed) {raws : List String}
    (hraws : raws ⊆ found.map Prod.fst) :
    ∃ s', c.resolveAll raws w s = (.ok (), s') ∧ Filling c f limit s₀ apps lookups s' := by
  induction raws generalizing s with
  | nil => exact ⟨s, rfl, h⟩
  | cons raw raws ih =>
    obtain ⟨listed, hlisted, rfl⟩ := List.mem_map.1 (hraws List.mem_cons_self)
    obtain ⟨a, s₁, hresolve, h₁⟩ :=
      h.resolveApp hwindow hf hfound hlisted (hprovided listed hlisted)
    obtain ⟨s₂, hall, h₂⟩ := ih h₁ (List.Subset.trans (List.subset_cons_self ..) hraws)
    exact ⟨s₂, Action.bind_eq_ok_iff.2 ⟨a, s₁, hresolve, hall⟩, h₂⟩

end Filling

/-- Everything that is provided for a list has been looked up. -/
theorem mem_of_provided {found : List (String × Record)}
    (h : ∀ listed ∈ found, Provided f apps lookups listed) {key : Key} :
    key ∈ spaceKeys found ∨ key ∈ organizationKeys f found → key ∈ lookups := by
  have hspaces {listed : String × Record} (hlisted : listed ∈ found) {spaceKey : Key}
      (hspaced : Key.parse .space listed.2.spaceGuid = .ok spaceKey) :
      spaceKey ∈ lookups ∧ ∀ space organizationKey,
        (f.one spaceKey.kind spaceKey.guid).answer = .ok space →
        Key.parse .organization space.organizationGuid = .ok organizationKey →
          organizationKey ∈ lookups := by
    obtain ⟨-, -, hspaced', hasSpace, hanswer', horganized', hasOrganization⟩ := h listed hlisted
    rw [hspaced] at hspaced'
    cases hspaced'
    refine ⟨hasSpace, fun space organizationKey hanswer horganized => ?_⟩
    rw [hanswer] at hanswer'
    cases hanswer'
    rw [horganized] at horganized'
    cases horganized'
    exact hasOrganization
  rintro (hkey | hkey)
  · obtain ⟨listed, hlisted, hspaced⟩ := mem_spaceKeys.1 hkey
    exact (hspaces hlisted hspaced).1
  · obtain ⟨spaceKey, hspaceKey, space, hanswer, horganized⟩ := mem_organizationKeys.1 hkey
    obtain ⟨listed, hlisted, hspaced⟩ := mem_spaceKeys.1 hspaceKey
    exact (hspaces hlisted hspaced).2 space key hanswer horganized

/-- As many lookups as there are spaces and organizations. -/
theorem length_of_mem_iff {found : List (String × Record)} (hnodup : lookups.Nodup)
    (hmem : ∀ key, key ∈ lookups ↔ key ∈ spaceKeys found ∨ key ∈ organizationKeys f found) :
    lookups.length
      = (spaceKeys found).toFinset.card + (organizationKeys f found).toFinset.card := by
  have hunion :
      lookups.toFinset = (spaceKeys found).toFinset ∪ (organizationKeys f found).toFinset := by
    ext key
    simp only [List.mem_toFinset, Finset.mem_union, hmem key]
  have hdisjoint : Disjoint (spaceKeys found).toFinset (organizationKeys f found).toFinset := by
    rw [Finset.disjoint_left]
    intro key hspace horganization
    rw [List.mem_toFinset] at hspace horganization
    exact spaceKeys_disjoint_organizationKeys hspace horganization
  rw [← List.toFinset_card_of_nodup hnodup, hunion, Finset.card_union_of_disjoint hdisjoint]

/-! ## Preloading an empty memory -/

theorem fillAll_of_found {found : List (String × Record)} (hw : ∀ n, (w n).fetcher = f)
    (hfound : (f.all .app).answer = .ok found) (hs : s.backend = .memory .empty) :
    c.fillAll w s = found.foldlM c.preload .zero w (s.fetched (f.all .app).asked) := by
  rw [fillAll_apply, hw, hfound, hs]
  rfl

theorem holds_fetched (c : Cache) (f : Fetcher) (hs : s.backend = .memory .empty)
    (paths : List String) : Holds c f [] (s.fetched paths) := (Holds.empty c f hs).fetched paths

/-- What a store in memory holds does not depend on how it came to have had some keys tried. -/
theorem Holds.records_eq {keys : List Key} (h : Holds c f keys s) (h' : Holds c f keys s') :
    ∃ m m', s.backend = .memory m ∧ s'.backend = .memory m' ∧ ∀ key,
      (m.records.get? key).map Record.timeless = (m'.records.get? key).map Record.timeless := by
  have hmemory {s : State} (h : Holds c f keys s) : ∃ m, s.backend = .memory m := by
    have hchoice := h.choice
    cases hb : s.backend with
    | memory m => exact ⟨m, rfl⟩
    | persistent p => rw [hb] at hchoice; cases hchoice
    | disabled => rw [hb] at hchoice; cases hchoice
  obtain ⟨m, hm⟩ := hmemory h
  obtain ⟨m', hm'⟩ := hmemory h'
  refine ⟨m, m', hm, hm', fun key => ?_⟩
  have hsame := (h.answer key).trans (h'.answer key).symm
  rw [hm, hm', Backend.answer_memory, Backend.answer_memory] at hsame
  exact Except.ok.inj hsame

/-- **Preloading does what resolving the listed apps in order does**: it succeeds or fails as that
does, and leaves the same records. If it succeeds, ignoring nothing, while nothing expires, it has
asked for the list, for each space and for each organization, and the listed apps are resolved
without a request. -/
theorem fillAll_preloads {settings : CacheSettings} (hc : Cache.ofSettings settings = .ok c)
    (hf : f.IsConsistent) {found : List (String × Record)}
    (hfound : (f.all .app).answer = .ok found) (hw : ∀ n, (w n).fetcher = f) {w' : World}
    (hw' : ∀ n, (w' n).fetcher = f) (hs : s.backend = .memory .empty)
    (hs' : s'.backend = .memory .empty) :
    (c.fillAll w s).1.map (fun _ => ()) = (c.resolveAll (found.map Prod.fst) w' s').1
    ∧ (∃ m m', (c.fillAll w s).2.backend = .memory m
      ∧ (c.resolveAll (found.map Prod.fst) w' s').2.backend = .memory m'
      ∧ ∀ key, (m.records.get? key).map Record.timeless = (m'.records.get? key).map Record.timeless)
    ∧ (c.ignoresMissing = false → (c.fillAll w s).1.isOk → ∀ {t₀ : Int},
      (∀ n, s.elapsed ≤ n → t₀ ≤ (w n).now.nanos ∧ (w n).now.nanos
        < min (t₀ + (750000000 * settings.baseTtlSecs.toNat : Nat)) Instant.last.nanos) →
      (∃ lookups : List Key, lookups.Nodup
        ∧ (∀ key, key ∈ lookups ↔ key ∈ spaceKeys found ∨ key ∈ organizationKeys f found)
        ∧ (c.fillAll w s).2.asked = s.asked ++ (f.all .app).asked
          ++ lookups.flatMap fun key => (f.one key.kind key.guid).asked)
      ∧ (c.fillAll w s).2.fetches = s.fetches + 1 + (spaceKeys found).toFinset.card
        + (organizationKeys f found).toFinset.card
      ∧ ((∀ kind guid, (f.one kind guid).asked.length = 1) →
        (c.fillAll w s).2.asked.length = s.asked.length + (f.all .app).asked.length
          + (spaceKeys found).toFinset.card + (organizationKeys f found).toFinset.card)
      ∧ ∀ {raws}, raws ⊆ found.map Prod.fst →
        ∃ s₁, c.resolveAll raws w (c.fillAll w s).2 = (.ok (), s₁)
          ∧ s₁.asked = (c.fillAll w s).2.asked ∧ s₁.fetches = (c.fillAll w s).2.fetches) := by
  have hstart := holds_fetched c f hs (f.all .app).asked
  obtain ⟨keys, hholds, hholds', hfits⟩ := alike_preloads (c := c) hf hw hw' hfound
    (List.Subset.refl found) .zero [] _ s' hstart (Holds.empty c f hs')
  rw [fillAll_of_found hw hfound hs]
  refine ⟨hfits.map_eq, hholds.records_eq hholds', fun hstrict hok t₀ hclock => ?_⟩
  have hwindow := window_of_settings hc hclock
  cases hfill : found.foldlM c.preload .zero w (s.fetched (f.all .app).asked) with
  | mk result s₁ =>
    cases result with
    | error e =>
      rw [hfill] at hok
      cases hok
    | ok report =>
      have hlater : Window c w _ (s.fetched (f.all .app).asked).elapsed :=
        hwindow.later (Nat.le_succ _)
      obtain ⟨apps, lookups, hfilling, hprovided, -, -, hbound⟩ := (Filling.start hstart).preloads
        hlater hw hf hstrict hfound (List.Subset.refl found) hfill
      have hmem (key : Key) :
          key ∈ lookups ↔ key ∈ spaceKeys found ∨ key ∈ organizationKeys f found :=
        ⟨fun hkey => List.mem_append.1 (hbound hkey), mem_of_provided hprovided⟩
      have hcount := length_of_mem_iff hfilling.nodup hmem
      refine ⟨⟨lookups, hfilling.nodup, hmem, hfilling.asked⟩, ?_, fun hone => ?_, fun hraws => ?_⟩
      · rw [hfilling.fetches, hcount, ← Nat.add_assoc]
        rfl
      · have hsingle : (lookups.flatMap fun key => (f.one key.kind key.guid).asked).length
            = lookups.length := by simp [List.length_flatMap, hone]
        have hlength := congrArg List.length hfilling.asked
        rw [List.length_append, hsingle, hcount, ← Nat.add_assoc] at hlength
        exact hlength.trans (by rw [State.fetched, List.length_append])
      · obtain ⟨s₂, hall, h₂⟩ := hfilling.resolveAll hlater hf hfound hprovided hraws
        exact ⟨s₂, hall, h₂.asked.trans hfilling.asked.symm, h₂.fetches.trans hfilling.fetches.symm⟩

/-- An entity whose space and organization have one guid. -/
def household : Record :=
  { Record.empty with
    spaceGuid := "6ba7b810-9dad-11d1-80b4-00c04fd430c8"
    organizationGuid := "6ba7b810-9dad-11d1-80b4-00c04fd430c8" }

/-- An API that answers the same for every entity, and lists an app in two spellings. -/
def uniform : Fetcher where
  one kind guid := ⟨.ok household, [entityPath kind guid.text]⟩
  all kind := ⟨.ok [("6ba7b810-9dad-11d1-80b4-00c04fd430c8", household),
    ("6ba7b8109dad11d180b400c04fd430c8", household)], [listPath kind]⟩

theorem isConsistent_uniform : uniform.IsConsistent := by
  intro found raw r guid hfound hmem _
  cases hfound
  rcases List.mem_cons.1 hmem with h | hmem
  · cases h
    rfl
  · cases List.mem_singleton.1 hmem
    rfl

/-- While the clock stands still, a list, a space and an organization are all that is asked for. -/
theorem fillAll_preloads_uniform :
    let c : Cache := ⟨⟨60 * nanosPerSecond, []⟩, false⟩
    let s := (c.fillAll (.still uniform) (.ofBackend (.memory .empty))).2
    s.asked.length = 3 ∧ ∃ s₁,
      c.resolveAll ["6ba7b8109dad11d180b400c04fd430c8"] (.still uniform) s = (.ok (), s₁)
        ∧ s₁.asked = s.asked := by
  intro c s
  have hsettings : ofSettings (.inMemory 60) = .ok c := rfl
  have hstill (n : Nat) : (World.still uniform n).fetcher = uniform := rfl
  have hempty : (State.ofBackend (.memory .empty)).backend = .memory .empty := rfl
  have hpreloads :=
    (fillAll_preloads hsettings isConsistent_uniform rfl hstill hstill hempty hempty).2.2
  obtain ⟨-, -, hasked, hresolve⟩ := hpreloads rfl (by decide +kernel)
    (fun _ _ => show (0 : Int) ≤ Instant.epoch.nanos ∧ Instant.epoch.nanos
      < min ((0 : Int) + (750000000 * 60 : Nat)) Instant.last.nanos by decide)
  constructor
  · rw [hasked fun _ _ => rfl]
    decide +kernel
  · obtain ⟨s₁, hall, hsame, -⟩ :=
      hresolve (List.subset_cons_self _ ["6ba7b8109dad11d180b400c04fd430c8"])
    exact ⟨s₁, hall, hsame⟩

end MetaCache.Cache
