import MetaCache.Proofs.Cache.Stops

/-!
# What a report says is so

A preload that comes to its end has stopped at every app of the list, and reports how many of them
there were, for how many a space was found, and for how many an organization as well. Nothing else
is excused but what is missing, so the counts differ by the lookups that have found nothing
(`Preloads.balance`). Where there is no space there is no organization either: the lookup of an
organization that nothing names does nothing.
-/

namespace MetaCache.Cache

open MetaCache.Remote MetaCache.Store

variable {c : Cache} {w : World} {s s' : State} {stop : Stop} {stops : List Stop} {e : Error}

/-- A lookup has found that the entity is missing. -/
def isMiss : Except Error Record → Bool
  | .ok _ => false
  | .error e => e.isMissing

/-- The app has no space. -/
def Stop.lacksSpace (stop : Stop) : Bool := isMiss stop.space

/-- The app has a space, and that has no organization. -/
def Stop.lacksOrganization (stop : Stop) : Bool := stop.space.isOk && isMiss stop.organization

/-- Nothing but what is missing is excused, and only if the cache ignores that. -/
theorem isMiss_of_excused {result : Except Error Record} (h : c.Excuses result) :
    isMiss result = !result.isOk := by
  cases result with
  | ok r => rfl
  | error e => exact (Bool.and_eq_true_iff.1 (h e rfl)).2

theorem isOk_of_excused (hstrict : c.ignoresMissing = false) {result : Except Error Record}
    (h : c.Excuses result) : result.isOk := by
  cases result with
  | ok r => rfl
  | error e =>
    have hignores := (Bool.and_eq_true_iff.1 (h e rfl)).1
    rw [hstrict] at hignores
    cases hignores

/-- In the place of a space that is missing there is a record that names no organization. -/
theorem Preloaded.organization_of_missing (h : Preloaded c w s stop)
    (hmissing : stop.space = .error e) :
    stop.organization = .error (.invalidGuid "") ∧ stop.ended = stop.spaced := by
  obtain ⟨-, -, -, horganized, -⟩ := h
  rw [hmissing] at horganized
  obtain ⟨horganization, hended⟩ :=
    Prod.mk.inj (horganized.symm.trans (getEntity_blank c .organization w stop.spaced))
  exact ⟨horganization, hended⟩

theorem Preloaded.lacksSpace_eq (h : Preloaded c w s stop) :
    stop.lacksSpace = !stop.space.isOk := by
  obtain ⟨-, -, hexcused, -, -⟩ := h
  exact isMiss_of_excused hexcused

theorem Preloaded.lacksOrganization_eq (h : Preloaded c w s stop) :
    stop.lacksOrganization = (stop.space.isOk && !stop.organization.isOk) := by
  obtain ⟨-, -, -, -, hexcused'⟩ := h
  rw [Stop.lacksOrganization, isMiss_of_excused hexcused']

/-- There is no organization without a space. -/
theorem Preloaded.isOk_space (h : Preloaded c w s stop) (horganization : stop.organization.isOk) :
    stop.space.isOk := by
  cases hspace : stop.space with
  | ok r => rfl
  | error e =>
    rw [(h.organization_of_missing hspace).1] at horganization
    cases horganization

theorem Preloads.mem (h : Preloads c w s stops s') (hstop : stop ∈ stops) :
    ∃ s, Preloaded c w s stop := by
  induction stops generalizing s with
  | nil => cases hstop
  | cons first stops ih =>
    rcases List.mem_cons.1 hstop with rfl | hstop
    · exact ⟨s, h.1⟩
    · exact ih h.2 hstop

/-! ## Counts -/

theorem foldl_counted (stops : List Stop) (report : FillReport) :
    stops.foldl (fun report stop => stop.counted report) report
      = ⟨report.apps + stops.length, report.spaces + stops.countP (·.space.isOk),
        report.organizations + stops.countP (·.organization.isOk)⟩ := by
  induction stops generalizing report with
  | nil => rfl
  | cons stop stops ih =>
    rw [List.foldl_cons, ih, Stop.counted, List.length_cons, List.countP_cons, List.countP_cons]
    simp only [FillReport.mk.injEq]
    omega

/-- **The counts differ by the lookups that have found nothing.** -/
theorem Preloads.balance (h : Preloads c w s stops s') :
    stops.length = stops.countP (·.space.isOk) + stops.countP Stop.lacksSpace
      ∧ stops.countP (·.space.isOk)
        = stops.countP (·.organization.isOk) + stops.countP Stop.lacksOrganization := by
  induction stops generalizing s with
  | nil => exact ⟨rfl, rfl⟩
  | cons stop stops ih =>
    obtain ⟨hfirst, hrest⟩ := h
    obtain ⟨hspaces, horganizations⟩ := ih hrest
    simp only [List.length_cons, List.countP_cons, hfirst.lacksSpace_eq,
      hfirst.lacksOrganization_eq]
    have hspaced := hfirst.isOk_space
    cases hspace : stop.space.isOk <;> cases horganization : stop.organization.isOk <;>
      simp_all <;> omega

theorem Preloads.strict (h : Preloads c w s stops s') (hstrict : c.ignoresMissing = false) :
    stops.countP (·.space.isOk) = stops.length
      ∧ stops.countP (·.organization.isOk) = stops.length := by
  constructor
  · refine List.countP_eq_length.2 fun stop hstop => ?_
    obtain ⟨s, -, -, hexcused, -, -⟩ := h.mem hstop
    exact isOk_of_excused hstrict hexcused
  · refine List.countP_eq_length.2 fun stop hstop => ?_
    obtain ⟨s, -, -, -, -, hexcused'⟩ := h.mem hstop
    exact isOk_of_excused hstrict hexcused'

/-! ## The report -/

/-- **What a report says is so**: of the apps that were listed, for how many a space was found, and
for how many an organization. What was listed last for each app is in the store. -/
theorem fillAll_truthful {report : FillReport} (hretains : s.backend.retains)
    (h : c.fillAll w s = (.ok report, s')) :
    ∃ found stops, ((w s.elapsed).fetcher.all .app).answer = .ok found
      ∧ stops.map Stop.listed = found
      ∧ Preloads c w (s.fetched ((w s.elapsed).fetcher.all .app).asked) stops s'
      ∧ report.apps = found.length
      ∧ report.organizations ≤ report.spaces ∧ report.spaces ≤ report.apps
      ∧ (c.ignoresMissing = false →
        report.spaces = report.apps ∧ report.organizations = report.apps)
      -- What is not counted was looked up, and found to be missing.
      ∧ report.apps = report.spaces + stops.countP Stop.lacksSpace
      ∧ report.spaces = report.organizations + stops.countP Stop.lacksOrganization
      -- In the place of a space that is missing, nothing is looked up.
      ∧ (∀ stop ∈ stops, ∀ e, stop.space = .error e →
        stop.organization = .error (.invalidGuid "") ∧ stop.ended = stop.spaced)
      ∧ ∀ listed ∈ found, ∃ key r n, Key.parse .app listed.1 = .ok key
        ∧ lastListed? found key = some r ∧ s.elapsed < n ∧ n < s'.elapsed
        ∧ s'.backend.Keeps key (c.normalizedAt w n key r) := by
  have hfills := fills_fillAll c w hretains
  rw [h] at hfills
  obtain _ | @⟨stops, _, hanswer, hpreloads⟩ | _ := hfills
  rw [foldl_counted, FillReport.zero, Nat.zero_add, Nat.zero_add, Nat.zero_add]
  obtain ⟨hspaces, horganizations⟩ := hpreloads.balance
  refine ⟨_, stops, hanswer, rfl, hpreloads, (List.length_map _).symm, ?_, ?_, fun hstrict => ?_,
    hspaces, horganizations, fun stop hstop e hmissing => ?_, fun listed hlisted => ?_⟩
  · exact horganizations ▸ Nat.le_add_right ..
  · exact hspaces ▸ Nat.le_add_right ..
  · exact hpreloads.strict hstrict
  · obtain ⟨s₁, hpreloaded⟩ := hpreloads.mem hstop
    exact hpreloaded.organization_of_missing hmissing
  · obtain ⟨stop, hstop, rfl⟩ := List.mem_map.1 hlisted
    obtain ⟨s₁, henters, -⟩ := hpreloads.mem hstop
    obtain ⟨r, hlast⟩ := Option.isSome_iff_exists.1 (isSome_lastListed? hlisted henters.parsed)
    have hstart : KeepsLast c w (s.elapsed + 1) []
        (s.fetched ((w s.elapsed).fetcher.all .app).asked) := .nothing hretains (Nat.le_refl _)
    have hkeeps := hstart.preloads hpreloads
    rw [List.nil_append, List.map_map] at hkeeps
    obtain ⟨n, hsince, hn, hr⟩ := hkeeps.kept hlast
    exact ⟨_, r, n, henters.parsed, hlast, hsince, hn, hr⟩

/-- An API that lists an app twice, in two spellings and with two names. -/
def relisted : Fetcher :=
  { Fetcher.unknowing with
    all := fun kind => ⟨.ok [("6ba7b810-9dad-11d1-80b4-00c04fd430c8", .named "old"),
      ("6ba7b8109dad11d180b400c04fd430c8", .named "new")], [listPath kind]⟩ }

/-- An app that is listed twice counts twice, and what is kept is what comes last. -/
theorem fillAll_truthful_relisted :
    let c : Cache := ⟨⟨60 * nanosPerSecond, []⟩, true⟩
    let ended := c.fillAll (.still relisted) (.ofBackend (.memory .empty))
    (∃ report, ended.1 = .ok report ∧ report.apps = 2)
      ∧ ∃ key n, Key.parse .app "6ba7b810-9dad-11d1-80b4-00c04fd430c8" = .ok key
        ∧ ended.2.backend.Keeps key (c.normalizedAt (.still relisted) n key (.named "new")) := by
  intro c ended
  have hok : ended.1.isOk := by decide +kernel
  cases hended : ended with
  | mk result s' =>
    cases result with
    | error e =>
      rw [hended] at hok
      cases hok
    | ok report =>
      obtain ⟨found, stops, hanswer, -, -, happs, -, -, -, -, -, -, hkept⟩ :=
        fillAll_truthful (s := .ofBackend (.memory .empty)) rfl hended
      obtain rfl := Except.ok.inj hanswer
      obtain ⟨key, r, n, hkey, hlast, -, -, hkeeps⟩ := hkept _ List.mem_cons_self
      have hsame : Key.parse .app "6ba7b8109dad11d180b400c04fd430c8" = .ok key := hkey
      have hnew : lastListed? ([("6ba7b810-9dad-11d1-80b4-00c04fd430c8", .named "old")]
          ++ [("6ba7b8109dad11d180b400c04fd430c8", .named "new")]) key = some (.named "new") := by
        rw [lastListed?_append, if_pos (toOption_eq_some_iff.2 hsame)]
      obtain rfl := Option.some.inj (hnew.symm.trans hlast)
      exact ⟨⟨report, rfl, happs⟩, key, n, hkey, hkeeps⟩

end MetaCache.Cache
