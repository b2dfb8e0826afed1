import MetaCache.Proofs.Cache.Provenance
import MetaCache.Proofs.Cache.Stops
import MetaCache.Proofs.Cache.Substitution
import MetaCache.Proofs.Command.Framing
import MetaCache.Proofs.Remote.Cursors
import MetaCache.Proofs.Settings.Valid
import MetaCache.Proofs.Store.Reopening

/-!
# Valid settings never fail later

Settings are checked in several places: when a configuration is read, when a backend and a cache are
made, and when a store is opened. The first of these checks makes the others superfluous
(`settings_suffice`). From valid settings everything can be set up, a store never finds its size to
overflow whatever was done with it before (`mapSizeMiB_run`), a suffix that is taken off a name
makes it shorter (`stripName_shortens`), and no error of a run is about settings (`isConfig_of_run`).
-/

namespace MetaCache

open MetaCache.Remote MetaCache.Store

/-! ## Names -/

/-- **A name is left as it is, or a suffix is taken off that is not empty.** -/
theorem Normalizer.stripName_cases {n : Normalizer} (h : n.HasSuffixes) (name : String) :
    n.stripName name = name
      ∨ ∃ suffix ∈ n.suffixes, suffix ≠ "" ∧ name = n.stripName name ++ suffix := by
  have hstripped := n.stripped_stripName name
  generalize n.stripName name = left at hstripped ⊢
  cases hstripped with
  | whole none => exact .inl rfl
  | @cut _ _ suffix _ first _ ends =>
    have hmem : suffix ∈ n.suffixes := by simp [first]
    exact .inr ⟨suffix, hmem, h suffix hmem, ends⟩

theorem Normalizer.stripName_shortens {n : Normalizer} (h : n.HasSuffixes) (name : String) :
    n.stripName name = name ∨ (n.stripName name).length < name.length := by
  rcases stripName_cases h name with hsame | ⟨suffix, -, hne, hname⟩
  · exact .inl hsame
  · right
    have hpos : 0 < suffix.length := Nat.pos_of_ne_zero (String.length_eq_zero_iff.not.2 hne)
    have hlength := congrArg String.length hname
    rw [String.length_append] at hlength
    omega

/-! ## Opening -/

namespace Store

/-- What opening says where the size of the map cannot be counted in bytes. -/
def Persistent.overflow (p : Persistent) : Error :=
  .storage (.unavailable ("map size of " ++ toString p.mapSizeMiB ++ " MiB overflows"))

theorem Persistent.unavailable_ne_overflow (p : Persistent) {reason : String}
    (h : reason.toList.head? ≠ some 'm') : Error.storage (.unavailable reason) ≠ p.overflow := by
  intro heq
  rw [overflow, Error.storage.injEq, StorageError.unavailable.injEq] at heq
  subst heq
  simp at h

theorem Persistent.openStore_of_overflow {p : Persistent} (hclosed : p.isOpen = false)
    (hsize : UInt64.size ≤ p.mapBytes) : p.openStore = (.error p.overflow, p) := by
  unfold openStore
  rw [if_neg (by simp [hclosed]), if_pos hsize]
  rfl

theorem Persistent.openStore_ne_overflow {p : Persistent} (h : p.mapBytes < UInt64.size) :
    p.openStore.1 ≠ .error p.overflow := by
  cases hclosed : p.isOpen with
  | true =>
    rw [openStore_of_isOpen hclosed]
    nofun
  | false =>
    cases husable : p.site.isUsable with
    | false =>
      rw [openStore_of_unusable hclosed h husable]
      exact fun heq => p.unavailable_ne_overflow (by decide) (Except.error.inj heq)
    | true =>
      by_cases hroom : p.mapBytes ≤ largestMap
      · rw [openStore_of_usable hclosed h hroom husable]
        nofun
      · rw [openStore_of_full hclosed h (Nat.lt_of_not_le hroom) husable]
        exact fun heq => p.unavailable_ne_overflow (by decide) (Except.error.inj heq)

/-- **Only a size that cannot be counted is told to overflow**, and only when a store is opened. -/
theorem Persistent.openStore_eq_overflow_iff {p : Persistent} :
    p.openStore.1 = .error p.overflow ↔ p.isOpen = false ∧ UInt64.size ≤ p.mapBytes := by
  cases hclosed : p.isOpen with
  | true => simp [openStore_of_isOpen hclosed]
  | false =>
    by_cases hsize : UInt64.size ≤ p.mapBytes
    · simp [openStore_of_overflow hclosed hsize, hsize]
    · simp [openStore_ne_overflow (Nat.lt_of_not_le hsize), hsize]

theorem Persistent.mapSizeMiB_openStore (p : Persistent) :
    p.openStore.2.mapSizeMiB = p.mapSizeMiB := by
  cases hclosed : p.isOpen with
  | true => rw [openStore_of_isOpen hclosed]
  | false =>
    rcases openStore_cases hclosed with hsame | ⟨-, htried⟩ | ⟨-, isOpen, hsettled, -⟩
    · rw [hsame]
    · rw [htried]
    · rw [hsettled]

theorem Backend.mapSizeMiB_of_settings {siteOf : String → Site} {s : CacheSettings} {p : Persistent}
    (h : ofSettings siteOf s = .ok (.persistent p)) : p.mapSizeMiB = s.mapSizeMiB := by
  unfold ofSettings at h
  split at h
  · split at h
    · cases h
      rfl
    · cases h
  · cases h
  · cases h

/-- Whatever is done with a store, its map keeps the size. -/
theorem Placed.mapSizeMiB_perform (text : String) (s : Placed) (move : Move) :
    (s.perform text move).2.store.mapSizeMiB = s.store.mapSizeMiB := by
  cases move with
  | call call =>
    rcases s.store.respond_cases call with ⟨hits, misses, hnext⟩ | ⟨-, volume, hnext⟩
    · simp only [perform, hnext]
      rfl
    · simp only [perform, hnext]
  | openStore => exact s.store.mapSizeMiB_openStore
  | closeStore => rfl
  | renew => rfl

theorem Placed.mapSizeMiB_run (text : String) (s : Placed) (moves : List Move) :
    (run (perform text) s moves).2.store.mapSizeMiB = s.store.mapSizeMiB := by
  induction moves generalizing s with
  | nil => rfl
  | cons move moves ih => exact (ih _).trans (s.mapSizeMiB_perform text move)

end Store

/-! ## Errors -/

namespace Remote

variable {t : Transport} {kind : Kind} {e : Error}

/-- A fetcher complains about settings only if its transport does. -/
theorem Transport.isConfig_of_fetchOne
    (h : ∀ {path e}, t.answer path = .error e → e.isConfig = false) {guid : Guid}
    (he : (t.fetchOne kind guid).answer = .error e) : e.isConfig = false := by
  simp only [fetchOne] at he
  split at he
  · next cause hanswer =>
    cases he
    exact h hanswer
  · split_ifs at he
    · cases he; rfl
    · cases he; rfl
    · cases he; rfl
    · split at he
      · cases he
      · cases he; rfl
      · cases he; rfl

theorem Transport.isConfig_of_fetchAll
    (h : ∀ {path e}, t.answer path = .error e → e.isConfig = false)
    (he : (t.fetchAll kind).answer = .error e) : e.isConfig = false := by
  have hends := ends_fetchAll t kind
  generalize t.fetchAll kind = reply at he hends
  cases hends with
  | found whole => cases he
  | broken breaks =>
    cases he
    cases breaks with
    | repeated => rfl
    | spoiled trail distinct spoils =>
      cases spoils with
      | unanswered answer => exact h answer
      | refused => rfl
      | unread => rfl

theorem Client.isConfig_of_answer {c : Client} {web : Web} {path : String}
    (h : c.answer web path = .error e) : e.isConfig = false := by
  rw [answer] at h
  cases hget : (c.get web path).result with
  | ok response => rw [hget] at h; cases h
  | error fault =>
    rw [hget] at h
    cases h
    rfl

end Remote

namespace Cache

/-- No fetcher complains about settings. -/
structure World.IsSettled (w : World) : Prop where
  one : ∀ {n kind guid e}, ((w n).fetcher.one kind guid).answer = .error e → e.isConfig = false
  all : ∀ {n kind e}, ((w n).fetcher.all kind).answer = .error e → e.isConfig = false

variable {c : Cache} {w : World} {s s' : State} {e : Error}

theorem isConfig_of_getEntity (hw : w.IsSettled) {kind : Kind} {raw : String}
    (h : c.getEntity kind raw w s = (.error e, s')) : e.isConfig = false := by
  rcases getEntity_error h with rfl | hstorage | ⟨n, guid, hanswer⟩
  · rfl
  · cases e with
    | storage cause => rfl
    | _ => cases hstorage
  · exact hw.one hanswer

theorem Aborts.isConfig {listed : String × Record} {last : List Visit}
    (h : Aborts c w s listed last e s') (hw : w.IsSettled) : e.isConfig = false := by
  cases h with
  | unspelled parsed =>
    cases hguid : Guid.canonicalize listed.1 with
    | ok guid => rw [Key.parse_of_ok hguid] at parsed; cases parsed
    | error cause =>
      rw [Key.parse_of_error hguid] at parsed
      cases parsed
      rw [Guid.canonicalize_error hguid]
      rfl
  | refused parsed refused =>
    obtain ⟨-, cause, rfl⟩ := Backend.put_error (Prod.ext refused rfl)
    rfl
  | space enters spaced untolerated => exact isConfig_of_getEntity hw spaced
  | organization enters spaced excused organized untolerated =>
    exact isConfig_of_getEntity hw organized

/-- **A preload complains about settings only if a fetcher does.** -/
theorem isConfig_of_fillAll (hw : w.IsSettled) (h : (c.fillAll w s).1 = .error e) :
    e.isConfig = false := by
  cases hretains : s.backend.retains with
  | false =>
    rw [fillAll_apply, if_neg (by simp [hretains])] at h
    cases h
  | true =>
    have hfills := fills_fillAll c w hretains
    rw [h] at hfills
    generalize (c.fillAll w s).2 = after at hfills
    cases hfills with
    | unlisted answer => exact hw.all answer
    | aborted answer before aborts => exact aborts.isConfig hw

end Cache

namespace Store

theorem Backend.isConfig_of_openStore {b b' : Backend} {e : Error}
    (h : b.openStore = (.error e, b')) : e.isConfig = false := by
  cases b with
  | memory m => cases h
  | disabled => cases h
  | persistent p =>
    have hresult : p.openStore.1 = .error e := (Prod.mk.inj h).1
    simp only [Persistent.openStore] at hresult
    split_ifs at hresult <;> cases hresult <;> rfl

end Store

/-! ## Runs -/

namespace Command

variable {c : Config} {a : Arguments} {disk : Disk} {outside : Nat → Outside} {e : Error}

/-- A configuration that is read has valid settings. -/
theorem Config.valid_of_ofToml {text : String} (h : ofToml text = .ok c) : c.cache.Valid := by
  simp only [ofToml] at h
  split at h
  · cases h
  · split at h
    · cases h
    · next hproblem =>
      cases h
      unfold problem? at hproblem
      split_ifs at hproblem
      exact CacheSettings.problem?_eq_none_iff.1 (Option.map_eq_none_iff.1 hproblem)

theorem isSettled_world (outside : Nat → Outside) (client : Client) :
    (Outside.world outside client).IsSettled where
  one := Transport.isConfig_of_fetchOne Client.isConfig_of_answer
  all := Transport.isConfig_of_fetchAll Client.isConfig_of_answer

/-- Only a preload makes the work fail. -/
theorem fillAll_of_work {cache : Cache} {w : Cache.World} {s : Cache.State}
    (h : (work cache a w s).1 = .error e) : (cache.fillAll w s).1 = .error e := by
  have hresolve {p : Progress} {s : Cache.State} :
      (a.guids.foldlM (resolveNext cache) p w s).1 ≠ .error e := by
    obtain ⟨p', hdone, -⟩ := resolveNext_foldlM cache w p s a.guids
    rw [hdone]
    nofun
  cases hfill : a.fill with
  | false =>
    simp only [work, hfill] at h
    exact absurd h hresolve
  | true =>
    cases hdone : cache.fillAll w s with
    | mk result s' =>
      cases result with
      | ok report =>
        simp only [work, hfill, if_true] at h
        rw [Cache.Action.bind_ok hdone] at h
        exact absurd h hresolve
      | error cause =>
        simp only [work, hfill, if_true] at h
        rw [Cache.Action.bind_error hdone] at h
        cases h
        rfl

/-- From valid settings only the client can fail to be set up. -/
theorem setUp_error (hvalid : c.cache.Valid) {failure : Failure}
    (h : setUp c disk = .error failure) : ∃ cause, failure = .client cause := by
  obtain ⟨b, hb⟩ := Backend.exists_of_valid hvalid disk.site
  obtain ⟨cache, hcache⟩ := Cache.exists_of_valid hvalid
  unfold setUp at h
  rw [Disk.backend, hb, hcache] at h
  cases hclient : Client.ofSettings c.api with
  | ok client => rw [hclient] at h; cases h
  | error cause =>
    rw [hclient] at h
    cases h
    exact ⟨cause, rfl⟩

/-- **No error of a run with valid settings is about settings.** -/
theorem isConfig_of_run (hvalid : c.cache.Valid)
    (h : (run c a disk outside).result = .error (.cache e)) : e.isConfig = false := by
  cases hsetup : setUp c disk with
  | error failure =>
    obtain ⟨cause, rfl⟩ := setUp_error hvalid hsetup
    rw [run, hsetup] at h
    cases h
  | ok s =>
    cases hopen : s.backend.openStore with
    | mk result opened =>
      cases result with
      | error cause =>
        rw [run, hsetup] at h
        simp only [hopen] at h
        cases h
        exact Backend.isConfig_of_openStore hopen
      | ok done =>
        rw [run_opened hsetup hopen] at h
        cases hwork : (work s.cache a (Outside.world outside s.client) (.ofBackend opened)).1 with
        | ok p => rw [(finish_ok c disk hwork).2] at h; cases h
        | error cause =>
          rw [(finish_error c disk hwork).2] at h
          cases h
          exact Cache.isConfig_of_fillAll (isSettled_world outside s.client) (fillAll_of_work hwork)

/-- **What is valid never fails later.** Valid settings make a backend and a cache. The size of a
persistent backend does not overflow when it is opened, whatever was done with it before. The cache
makes a name shorter or leaves it as it is, and it leaves an empty record without a name. A
configuration that is read is valid in this sense, and its runs have no error about settings. In
turn a cache cannot be made exactly where the check of its settings fails, with the same error, and
a backend only where the check fails. -/
theorem settings_suffice :
    (∀ s : CacheSettings, s.validate = .ok () →
      (∀ siteOf, ∃ b, Backend.ofSettings siteOf s = .ok b)
      ∧ (∀ siteOf p disk path moves, Backend.ofSettings siteOf s = .ok (.persistent p) →
        let later := (Store.run (Placed.perform path) ⟨disk, p⟩ moves).2.store
        later.openStore.1 ≠ .error later.overflow)
      ∧ ∃ cache, Cache.ofSettings s = .ok cache
        ∧ (∀ name, cache.normalizer.stripName name = name
          ∨ (cache.normalizer.stripName name).length < name.length)
        ∧ ∀ kind now draw, (cache.normalizer.normalize kind .empty now draw).name = "")
    ∧ (∀ text c, Config.ofToml text = .ok c → c.cache.validate = .ok ()
      ∧ ∀ a disk outside cause, (run c a disk outside).result ≠ .error (.cache (.config cause)))
    ∧ (∀ s e, Cache.ofSettings s = .error e ↔ s.validate = .error e)
    ∧ ∀ siteOf s e, Backend.ofSettings siteOf s = .error e →
      ∃ cause, s.validate = .error cause := by
  refine ⟨fun s hvalidated => ?_, fun text c hc => ?_, fun _ _ => Cache.ofSettings_error_iff,
    fun _ _ _ => Backend.validate_error_of_error⟩
  · have hvalid := CacheSettings.validate_ok_iff.1 hvalidated
    obtain ⟨cache, hcache⟩ := Cache.exists_of_valid hvalid
    have hsuffixes := Cache.hasSuffixes_of_settings hcache
    refine ⟨Backend.exists_of_valid hvalid, fun siteOf p disk path moves hp => ?_, cache, hcache,
      fun name => ?_, fun kind now draw => ?_⟩
    · intro later hoverflow
      have hsize : later.mapSizeMiB = s.mapSizeMiB :=
        (Placed.mapSizeMiB_run path ⟨disk, p⟩ moves).trans (Backend.mapSizeMiB_of_settings hp)
      have hcount := (Persistent.openStore_eq_overflow_iff.1 hoverflow).2
      rw [Persistent.mapBytes, hsize] at hcount
      exact absurd hvalid.countable (Nat.not_lt.2 hcount)
    · exact Normalizer.stripName_shortens hsuffixes name
    · exact congrArg Record.name (Normalizer.timeless_normalize_empty hsuffixes kind now draw)
  · have hvalid := Config.valid_of_ofToml hc
    refine ⟨CacheSettings.validate_ok_iff.2 hvalid, fun a disk outside cause hresult => ?_⟩
    cases isConfig_of_run hvalid hresult

/-- A configuration with a store on disk and a suffix to strip. -/
def suffixed : String :=
  "[api]\nbase_url = \"http://api.test\"\n[cache]\nbackend = \"persistent\"\n" ++
    "storage_path = \"meta\"\nbase_ttl_secs = 60\nname_suffixes_to_strip = [\"-green\"]\n"

/-- Its store can be made and opened, while no store is made without a path. -/
theorem settings_suffice_suffixed :
    ∃ c, Config.ofToml suffixed = .ok c ∧ c.cache.validate = .ok ()
      ∧ (∀ a disk outside cause, (run c a disk outside).result ≠ .error (.cache (.config cause)))
      ∧ (let store := Persistent.ofSite .vacant CacheSettings.defaultMapSizeMiB
        Backend.ofSettings (fun _ => .vacant) c.cache = .ok (.persistent store)
          ∧ store.openStore.1 ≠ .error store.overflow)
      ∧ ∃ cause, (CacheSettings.validate
        { CacheSettings.onDisk "meta" 60 with storagePath := none }) = .error cause := by
  obtain ⟨hvalid, hconfig, -, hbackend⟩ := settings_suffice
  have hread : (match Config.ofToml suffixed with
      | .ok c => decide (c.cache
        = { CacheSettings.onDisk "meta" 60 with suffixesToStrip := ["-green"] })
      | .error _ => false) = true := by decide +kernel
  cases hc : Config.ofToml suffixed with
  | error failure => rw [hc] at hread; cases hread
  | ok c =>
    simp only [hc, decide_eq_true_eq] at hread
    obtain ⟨hvalidated, hruns⟩ := hconfig suffixed c hc
    have hstore : Backend.ofSettings (fun _ => .vacant) c.cache
        = .ok (.persistent (.ofSite .vacant CacheSettings.defaultMapSizeMiB)) := by rw [hread]; rfl
    refine ⟨c, rfl, hvalidated, hruns, ⟨hstore, ?_⟩, hbackend (fun _ => .vacant) _ _ rfl⟩
    exact (hvalid c.cache hvalidated).2.1 (fun _ => .vacant) _ .empty "meta" [] hstore

end Command

end MetaCache
