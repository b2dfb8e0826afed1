import MetaCache.Proofs.Cache.Frame

/-!
# A preload, app by app

A preload goes through the list of apps and stops at each of them: the app is stored as it is
listed, its space is looked up, and then the organization of the space. What is missing on the way
may be excused. If it is not, or if the app cannot be stored, the preload aborts there
(`preloads_or_aborts`).

At every point of a preload the store keeps, for each app that it has come to, what was listed for
it last (`KeepsLast.preloads`). All else is left alone that is not named by an app that was stored,
or by its space (`Preloads.spares`).
-/

namespace MetaCache

open MetaCache.Remote MetaCache.Store

namespace Cache

variable {c : Cache} {w : World} {s s' s₁ s₂ : State} {listed : String × Record} {key : Key}
  {report : FillReport} {e : Error}

/-! ## Stops -/

/-- What came of a listed app. -/
structure Stop where
  listed : String × Record
  /-- The answer to the lookup of its space. -/
  space : Except Error Record
  /-- The state after that. -/
  spaced : State
  /-- The answer to the lookup of the organization of the space. -/
  organization : Except Error Record
  ended : State

/-- What is looked up succeeds, or its error is passed over. -/
def Excuses (c : Cache) (result : Except Error Record) : Prop :=
  ∀ e, result = .error e → c.tolerates e

/-- The record to go on with after a lookup. What is missing counts as empty. -/
def orEmpty (result : Except Error Record) : Record := result.toOption.getD .empty

/-- From one state to another a listed app is stored under its key. -/
structure Enters (c : Cache) (w : World) (listed : String × Record) (key : Key) (s s' : State) :
    Prop where
  parsed : Key.parse .app listed.1 = .ok key
  taken : (s.backend.put key (c.normalizedAt w s.elapsed key listed.2)).1 = .ok ()
  after : s' = s.stored c w key listed.2

/-- A listed app is preloaded. -/
inductive Preloaded (c : Cache) (w : World) (s : State) (stop : Stop) : Prop
  | intro {key : Key} {s₁ : State} (enters : Enters c w stop.listed key s s₁)
      (spaced : c.getEntity .space stop.listed.2.spaceGuid w s₁ = (stop.space, stop.spaced))
      (excused : c.Excuses stop.space)
      (organized : c.getEntity .organization (orEmpty stop.space).organizationGuid w stop.spaced
        = (stop.organization, stop.ended))
      (excused' : c.Excuses stop.organization)

/-- Listed apps are preloaded, one after the other. -/
def Preloads (c : Cache) (w : World) : State → List Stop → State → Prop
  | s, [], s' => s' = s
  | s, stop :: stops, s' => Preloaded c w s stop ∧ Preloads c w stop.ended stops s'

/-- An app that was stored, and its space if one was found. -/
structure Visit where
  listed : String × Record
  space? : Option Record

def Stop.visit (stop : Stop) : Visit := ⟨stop.listed, stop.space.toOption⟩

/-- A preload aborts at a listed app, which may have been stored by then. -/
inductive Aborts (c : Cache) (w : World) (s : State) (listed : String × Record) :
    List Visit → Error → State → Prop
  /-- The text that the app is listed under spells no guid. -/
  | unspelled {e : Error} (parsed : Key.parse .app listed.1 = .error e) : Aborts c w s listed [] e s
  /-- The store does not take the app. -/
  | refused {key : Key} {e : Error} (parsed : Key.parse .app listed.1 = .ok key)
      (refused : (s.backend.put key (c.normalizedAt w s.elapsed key listed.2)).1 = .error e) :
      Aborts c w s listed [] e (s.stored c w key listed.2)
  | space {key : Key} {s₁ s' : State} {e : Error} (enters : Enters c w listed key s s₁)
      (spaced : c.getEntity .space listed.2.spaceGuid w s₁ = (.error e, s'))
      (untolerated : c.tolerates e = false) : Aborts c w s listed [⟨listed, none⟩] e s'
  | organization {key : Key} {s₁ s₂ s' : State} {space : Except Error Record} {e : Error}
      (enters : Enters c w listed key s s₁)
      (spaced : c.getEntity .space listed.2.spaceGuid w s₁ = (space, s₂))
      (excused : c.Excuses space)
      (organized : c.getEntity .organization (orEmpty space).organizationGuid w s₂ = (.error e, s'))
      (untolerated : c.tolerates e = false) :
      Aborts c w s listed [⟨listed, space.toOption⟩] e s'

theorem excuses_or_not (c : Cache) (result : Except Error Record) :
    c.Excuses result ∨ ∃ e, result = .error e ∧ c.tolerates e = false := by
  cases result with
  | ok r => exact .inl fun e h => by cases h
  | error e =>
    cases htolerated : c.tolerates e with
    | true => exact .inl fun e' h => by cases h; exact htolerated
    | false => exact .inr ⟨e, rfl, htolerated⟩

/-- **At a listed app a preload goes on or aborts.** -/
theorem preloaded_or_aborts (c : Cache) (w : World) (listed : String × Record) (s : State) :
    (∃ stop : Stop, stop.listed = listed ∧ Preloaded c w s stop)
      ∨ ∃ last e s', Aborts c w s listed last e s' := by
  cases hparse : Key.parse .app listed.1 with
  | error e => exact .inr ⟨_, _, _, .unspelled hparse⟩
  | ok key =>
    cases hput : (s.backend.put key (c.normalizedAt w s.elapsed key listed.2)).1 with
    | error e => exact .inr ⟨_, _, _, .refused hparse hput⟩
    | ok done =>
      have henters : Enters c w listed key s _ := ⟨hparse, hput, rfl⟩
      cases hspace : c.getEntity .space listed.2.spaceGuid w (s.stored c w key listed.2) with
      | mk space s₂ =>
        obtain hexcused | ⟨e, rfl, huntolerated⟩ := excuses_or_not c space
        · cases horganization : c.getEntity .organization (orEmpty space).organizationGuid w s₂ with
          | mk organization s' =>
            obtain hexcused' | ⟨e, rfl, huntolerated⟩ := excuses_or_not c organization
            · exact .inl ⟨⟨listed, space, s₂, organization, s'⟩, rfl,
                .intro henters hspace hexcused horganization hexcused'⟩
            · exact .inr ⟨_, _, _,
                .organization henters hspace hexcused horganization huntolerated⟩
        · exact .inr ⟨_, _, _, .space henters hspace huntolerated⟩

/-- **A preload of a list comes to its end or aborts at one of the apps.** -/
theorem preloads_or_aborts (c : Cache) (w : World) (found : List (String × Record)) (s : State) :
    (∃ stops s', stops.map Stop.listed = found ∧ Preloads c w s stops s')
      ∨ ∃ stops listed after s₁ last e s', found = stops.map Stop.listed ++ listed :: after
        ∧ Preloads c w s stops s₁ ∧ Aborts c w s₁ listed last e s' := by
  induction found generalizing s with
  | nil => exact .inl ⟨[], s, rfl, rfl⟩
  | cons listed rest ih =>
    obtain ⟨stop, rfl, hpreloaded⟩ | ⟨last, e, s', haborts⟩ := preloaded_or_aborts c w listed s
    · obtain ⟨stops, s', rfl, hrest⟩
          | ⟨stops, other, after, s₁, last, e, s', rfl, hrest, haborts⟩ := ih stop.ended
      · exact .inl ⟨stop :: stops, s', rfl, hpreloaded, hrest⟩
      · exact .inr ⟨stop :: stops, other, after, s₁, last, e, s', rfl, ⟨hpreloaded, hrest⟩, haborts⟩
    · exact .inr ⟨[], listed, rest, s, last, e, s', rfl, rfl, haborts⟩

/-! ## What is reported -/

/-- A report with one more stop. -/
def Stop.counted (stop : Stop) (report : FillReport) : FillReport :=
  ⟨report.apps + 1, report.spaces + if stop.space.isOk then 1 else 0,
    report.organizations + if stop.organization.isOk then 1 else 0⟩

theorem Enters.store (h : Enters c w listed key s s₁) :
    c.store key listed.2 w s = (.ok (c.normalizedAt w s.elapsed key listed.2), s₁) := by
  rw [h.after]
  exact store_of_isOk (by rw [h.taken]; rfl)

/-- After the space has been looked up, and its error excused, the organization is looked up. -/
theorem preload_of_spaced (h : Enters c w listed key s s₁) {space : Except Error Record}
    (hspaced : c.getEntity .space listed.2.spaceGuid w s₁ = (space, s₂))
    (hexcused : c.Excuses space) :
    c.preload report listed w s = c.countOrganization (orEmpty space)
      ⟨report.apps + 1, report.spaces + if space.isOk then 1 else 0, report.organizations⟩
      w s₂ := by
  rw [preload_apply h.parsed h.store rfl, hspaced]
  cases space with
  | ok r => rfl
  | error e =>
    dsimp only
    rw [if_pos (hexcused e rfl)]
    rfl

theorem Preloaded.preload {stop : Stop} (h : Preloaded c w s stop) (report : FillReport) :
    c.preload report stop.listed w s = (.ok (stop.counted report), stop.ended) := by
  obtain ⟨henters, hspaced, hexcused, horganized, hexcused'⟩ := h
  rw [preload_of_spaced henters hspaced hexcused, countOrganization_apply, horganized, Stop.counted]
  cases horganization : stop.organization with
  | ok r => rfl
  | error e =>
    dsimp only
    rw [if_pos (hexcused' e horganization)]
    rfl

theorem Aborts.preload {last : List Visit} (h : Aborts c w s listed last e s')
    (report : FillReport) : c.preload report listed w s = (.error e, s') := by
  cases h with
  | unspelled parsed =>
    unfold MetaCache.Cache.preload
    rw [parsed]
    rfl
  | @refused key _ parsed refused =>
    have hstore : c.store key listed.2 w s = (.error e, s.stored c w key listed.2) := by
      rw [store_apply, refused]
      rfl
    unfold MetaCache.Cache.preload
    rw [Action.ofExcept_bind_ok parsed, Action.bind_error hstore]
  | space enters spaced untolerated =>
    rw [preload_apply enters.parsed enters.store rfl, spaced]
    simp only [untolerated, Bool.false_eq_true, if_false]
  | organization enters spaced excused organized untolerated =>
    rw [preload_of_spaced enters spaced excused, countOrganization_apply, organized]
    simp only [untolerated, Bool.false_eq_true, if_false]

theorem Preloads.foldlM {stops : List Stop} (h : Preloads c w s stops s') (report : FillReport) :
    (stops.map Stop.listed).foldlM c.preload report w s
      = (.ok (stops.foldl (fun report stop => stop.counted report) report), s') := by
  induction stops generalizing s report with
  | nil =>
    obtain rfl : s' = s := h
    rfl
  | cons stop stops ih =>
    obtain ⟨hfirst, hrest⟩ := h
    rw [List.map_cons, List.foldlM_cons, Action.bind_ok (hfirst.preload report), List.foldl_cons]
    exact ih hrest _

theorem Aborts.foldlM {last : List Visit} {stops : List Stop} {after : List (String × Record)}
    (hbefore : Preloads c w s stops s₁) (h : Aborts c w s₁ listed last e s') (report : FillReport) :
    (stops.map Stop.listed ++ listed :: after).foldlM c.preload report w s = (.error e, s') := by
  rw [Action.foldlM_append (hbefore.foldlM report), List.foldlM_cons,
    Action.bind_error (h.preload _)]

theorem fillAll_of_listed (hretains : s.backend.retains) {found : List (String × Record)}
    (hanswer : ((w s.elapsed).fetcher.all .app).answer = .ok found) :
    c.fillAll w s
      = found.foldlM c.preload .zero w (s.fetched ((w s.elapsed).fetcher.all .app).asked) := by
  rw [fillAll_apply, if_pos hretains, hanswer]

/-- What a preload may come to, if the backend keeps anything. -/
inductive Fills (c : Cache) (w : World) (s : State) : Except Error FillReport → State → Prop
  | unlisted {e : Error} (answer : ((w s.elapsed).fetcher.all .app).answer = .error e) :
      Fills c w s (.error e) (s.fetched ((w s.elapsed).fetcher.all .app).asked)
  | whole {stops : List Stop} {s' : State}
      (answer : ((w s.elapsed).fetcher.all .app).answer = .ok (stops.map Stop.listed))
      (preloads : Preloads c w (s.fetched ((w s.elapsed).fetcher.all .app).asked) stops s') :
      Fills c w s (.ok (stops.foldl (fun report stop => stop.counted report) .zero)) s'
  | aborted {stops : List Stop} {listed : String × Record} {after : List (String × Record)}
      {s₁ s' : State} {last : List Visit} {e : Error}
      (answer : ((w s.elapsed).fetcher.all .app).answer
        = .ok (stops.map Stop.listed ++ listed :: after))
      (before : Preloads c w (s.fetched ((w s.elapsed).fetcher.all .app).asked) stops s₁)
      (aborts : Aborts c w s₁ listed last e s') : Fills c w s (.error e) s'

/-- **A preload fails for want of a list, comes to its end, or aborts at one of the apps.** -/
theorem fills_fillAll (c : Cache) (w : World) (hretains : s.backend.retains) :
    Fills c w s (c.fillAll w s).1 (c.fillAll w s).2 := by
  cases hanswer : ((w s.elapsed).fetcher.all .app).answer with
  | error e =>
    rw [fillAll_apply, if_pos hretains, hanswer]
    exact .unlisted hanswer
  | ok found =>
    rw [fillAll_of_listed hretains hanswer]
    obtain ⟨stops, s', rfl, hwhole⟩
        | ⟨stops, listed, after, s₁, last, e, s', rfl, hbefore, haborts⟩ :=
      preloads_or_aborts c w found (s.fetched ((w s.elapsed).fetcher.all .app).asked)
    · rw [hwhole.foldlM]
      exact .whole hanswer hwhole
    · rw [haborts.foldlM hbefore]
      exact .aborted hanswer hbefore haborts

/-! ## What is left alone -/

/-- What may change on account of an app: what is under its own key, under that of the space that it
names, and under that of the organization that the space names, if one was found. -/
inductive Visit.Touches (v : Visit) (key : Key) : Prop
  | app (parsed : Key.parse .app v.listed.1 = .ok key)
  | space (parsed : Key.parse .space v.listed.2.spaceGuid = .ok key)
  | organization {space : Record} (found : v.space? = some space)
      (parsed : Key.parse .organization space.organizationGuid = .ok key)

/-- What is under the key of an app changes on account of this app alone. -/
theorem Visit.touches_app_iff {v : Visit} (happ : key.kind = .app) :
    v.Touches key ↔ Key.parse .app v.listed.1 = .ok key := by
  refine ⟨fun h => ?_, .app⟩
  cases h with
  | app parsed => exact parsed
  | space parsed => cases (Key.kind_of_parse parsed).symm.trans happ
  | organization _ parsed => cases (Key.kind_of_parse parsed).symm.trans happ

/-- An empty record names no organization. -/
theorem parse_orEmpty {space : Except Error Record} {key : Key}
    (h : Key.parse .organization (orEmpty space).organizationGuid = .ok key) :
    ∃ r, space.toOption = some r ∧ Key.parse .organization r.organizationGuid = .ok key := by
  cases space with
  | ok r => exact ⟨r, rfl, h⟩
  | error e =>
    have hblank : Key.parse .organization "" = .ok key := h
    rw [Key.parse_of_error Guid.canonicalize_empty] at hblank
    cases hblank

theorem Enters.spares (h : Enters c w listed key s s₁) (space? : Option Record) :
    s.backend.Spares (Visit.Touches ⟨listed, space?⟩) s₁.backend := by
  rw [h.after]
  refine (spares_stored c w s key listed.2).mono fun other hother => .app ?_
  rw [hother]
  exact h.parsed

theorem Enters.spares_spaced (h : Enters c w listed key s s₁) {space : Except Error Record}
    (hspaced : c.getEntity .space listed.2.spaceGuid w s₁ = (space, s₂)) (space? : Option Record) :
    s.backend.Spares (Visit.Touches ⟨listed, space?⟩) s₂.backend := by
  have hspares := spares_getEntity c .space listed.2.spaceGuid w s₁
  rw [hspaced] at hspares
  exact (h.spares _).trans (hspares.mono fun _ hkey => .space hkey)

theorem Enters.spares_organized (h : Enters c w listed key s s₁) {space : Except Error Record}
    (hspaced : c.getEntity .space listed.2.spaceGuid w s₁ = (space, s₂))
    {organization : Except Error Record} (horganized :
      c.getEntity .organization (orEmpty space).organizationGuid w s₂ = (organization, s')) :
    s.backend.Spares (Visit.Touches ⟨listed, space.toOption⟩) s'.backend := by
  have hspares := spares_getEntity c .organization (orEmpty space).organizationGuid w s₂
  rw [horganized] at hspares
  refine (h.spares_spaced hspaced _).trans (hspares.mono fun key hkey => ?_)
  obtain ⟨r, hr, hparse⟩ := parse_orEmpty hkey
  exact .organization hr hparse

theorem Preloads.spares {stops : List Stop} (h : Preloads c w s stops s') :
    s.backend.Spares (fun key => ∃ v ∈ stops.map Stop.visit, v.Touches key) s'.backend := by
  induction stops generalizing s with
  | nil =>
    obtain rfl : s' = s := h
    exact (Backend.Recounted.refl _).spares _
  | cons stop stops ih =>
    obtain ⟨⟨henters, hspaced, -, horganized, -⟩, hrest⟩ := h
    have hfirst := henters.spares_organized hspaced horganized
    refine (hfirst.mono fun key hkey => ?_).trans ((ih hrest).mono fun key hkey => ?_)
    · exact ⟨stop.visit, List.mem_cons_self, hkey⟩
    · obtain ⟨v, hv, hkey⟩ := hkey
      exact ⟨v, List.mem_cons_of_mem _ hv, hkey⟩

/-- A put that is refused changes nothing. -/
theorem backend_of_unkept
    (h : (s.backend.put key (c.normalizedAt w s.elapsed key listed.2)).1 = .error e) :
    (s.stored c w key listed.2).backend = s.backend := (Backend.put_error (Prod.ext h rfl)).1

theorem Aborts.spares {last : List Visit} (h : Aborts c w s listed last e s') :
    s.backend.Spares (fun key => ∃ v ∈ last, v.Touches key) s'.backend := by
  have hone {v : Visit} {s' : State} (hspares : s.backend.Spares v.Touches s'.backend) :
      s.backend.Spares (fun key => ∃ v' ∈ [v], v'.Touches key) s'.backend :=
    hspares.mono fun _ hkey => ⟨v, List.mem_singleton_self v, hkey⟩
  cases h with
  | unspelled => exact (Backend.Recounted.refl _).spares _
  | refused _ refused =>
    rw [backend_of_unkept refused]
    exact (Backend.Recounted.refl _).spares _
  | space enters spaced => exact hone (enters.spares_spaced spaced none)
  | organization enters spaced _ organized => exact hone (enters.spares_organized spaced organized)

/-! ## What is kept -/

/-- What was listed last under a key. -/
def lastListed? (found : List (String × Record)) (key : Key) : Option Record :=
  (found.reverse.find? fun listed => (Key.parse .app listed.1).toOption = some key).map Prod.snd

theorem lastListed?_append (found : List (String × Record)) (listed : String × Record) (key : Key) :
    lastListed? (found ++ [listed]) key
      = if (Key.parse .app listed.1).toOption = some key then some listed.2
        else lastListed? found key := by
  simp only [lastListed?, List.reverse_append, List.reverse_singleton, List.singleton_append,
    List.find?_cons]
  split <;> next h => simp_all

/-- Only apps are listed. -/
theorem kind_of_lastListed? {found : List (String × Record)} {r : Record}
    (h : lastListed? found key = some r) : key.kind = .app := by
  obtain ⟨listed, hlisted, -⟩ := Option.map_eq_some_iff.1 h
  have hparse := List.find?_some hlisted
  exact Key.kind_of_parse (toOption_eq_some_iff.1 (of_decide_eq_true hparse))

/-- What is listed under a guid is listed last, or something else is. -/
theorem isSome_lastListed? {found : List (String × Record)} (hmem : listed ∈ found)
    (hparse : Key.parse .app listed.1 = .ok key) : (lastListed? found key).isSome := by
  rw [lastListed?, Option.isSome_map, List.find?_isSome]
  exact ⟨listed, List.mem_reverse.2 hmem, decide_eq_true (toOption_eq_some_iff.2 hparse)⟩

/-- The store keeps, for each app, what was listed last for it, normalized since some moment. -/
structure KeepsLast (c : Cache) (w : World) (since : Nat) (found : List (String × Record))
    (s : State) : Prop where
  retains : s.backend.retains
  elapsed : since ≤ s.elapsed
  kept {key : Key} {r : Record} : lastListed? found key = some r →
    ∃ n, since ≤ n ∧ n < s.elapsed ∧ s.backend.Keeps key (c.normalizedAt w n key r)

namespace KeepsLast

variable {since : Nat} {found : List (String × Record)}

theorem nothing (hretains : s.backend.retains) (helapsed : since ≤ s.elapsed) :
    KeepsLast c w since [] s := ⟨hretains, helapsed, fun h => by cases h⟩

/-- Lookups on the way to an app leave the apps alone. -/
theorem lookup (h : KeepsLast c w since found s) {kind : Kind} (hkind : kind ≠ .app) {raw : String}
    {result : Except Error Record} (hget : c.getEntity kind raw w s = (result, s')) :
    KeepsLast c w since found s' := by
  have hsteps := steps_getEntity c kind raw w s
  have hkeeps {key : Key} (happ : key.kind = .app) {r : Record} (hr : s.backend.Keeps key r) :=
    keeps_getEntity (c := c) (w := w) (fun hsame => hkind (hsame.symm.trans happ)) raw s hr
  rw [hget] at hsteps hkeeps
  have helapsed : s.elapsed ≤ s'.elapsed := elapsed_of_steps hsteps
  refine ⟨(Backend.retains_congr (choice_of_steps hsteps)).trans h.retains,
    Nat.le_trans h.elapsed helapsed, fun hlast => ?_⟩
  obtain ⟨n, hsince, hn, hr⟩ := h.kept hlast
  exact ⟨n, hsince, Nat.lt_of_lt_of_le hn helapsed, hkeeps (kind_of_lastListed? hlast) hr⟩

/-- An app that is stored takes the place of what was listed for it before. -/
theorem enters (h : KeepsLast c w since found s) (henters : Enters c w listed key s s₁) :
    KeepsLast c w since (found ++ [listed]) s₁ := by
  obtain ⟨hparse, htaken, rfl⟩ := henters
  refine ⟨(Backend.retains_congr (s.backend.choice_put key _)).trans h.retains,
    Nat.le_succ_of_le h.elapsed, fun {other r} hlast => ?_⟩
  rw [lastListed?_append] at hlast
  split at hlast
  · next hother =>
    obtain rfl := Except.ok.inj (hparse.symm.trans (toOption_eq_some_iff.1 hother))
    cases hlast
    exact ⟨s.elapsed, h.elapsed, Nat.lt_succ_self _, keeps_stored h.retains (by rw [htaken]; rfl)⟩
  · next hother =>
    obtain ⟨n, hsince, hn, hr⟩ := h.kept hlast
    refine ⟨n, hsince, Nat.lt_succ_of_lt hn, hr.put_other (fun hsame => hother ?_) _⟩
    rw [← hsame]
    exact toOption_eq_some_iff.2 hparse

/-- A put that is refused changes nothing. -/
theorem refused (h : KeepsLast c w since found s)
    (hput : (s.backend.put key (c.normalizedAt w s.elapsed key listed.2)).1 = .error e) :
    KeepsLast c w since found (s.stored c w key listed.2) := by
  have hbackend := backend_of_unkept hput
  refine ⟨hbackend ▸ h.retains, Nat.le_succ_of_le h.elapsed, fun hlast => ?_⟩
  obtain ⟨n, hsince, hn, hr⟩ := h.kept hlast
  exact ⟨n, hsince, Nat.lt_succ_of_lt hn, hbackend ▸ hr⟩

theorem preloads {stops : List Stop} (h : KeepsLast c w since found s)
    (hpreloads : Preloads c w s stops s') :
    KeepsLast c w since (found ++ (stops.map Stop.visit).map Visit.listed) s' := by
  -- By induction on the stops: each of them is added to what was listed before.
  induction stops generalizing found s with
  | nil =>
    obtain rfl : s' = s := hpreloads
    rwa [List.map_nil, List.map_nil, List.append_nil]
  | cons stop stops ih =>
    obtain ⟨⟨henters, hspaced, -, horganized, -⟩, hrest⟩ := hpreloads
    have hstop := ((h.enters henters).lookup (by decide) hspaced).lookup (by decide) horganized
    rw [List.map_cons, List.map_cons, List.append_cons]
    exact ih hstop hrest

theorem aborts {last : List Visit} (h : KeepsLast c w since found s)
    (haborts : Aborts c w s listed last e s') :
    KeepsLast c w since (found ++ last.map Visit.listed) s' := by
  cases haborts with
  | unspelled =>
    rwa [List.map_nil, List.append_nil]
  | refused _ refused =>
    rw [List.map_nil, List.append_nil]
    exact h.refused refused
  | space enters spaced => exact (h.enters enters).lookup (by decide) spaced
  | organization enters spaced _ organized =>
    exact ((h.enters enters).lookup (by decide) spaced).lookup (by decide) organized

end KeepsLast

end Cache

end MetaCache
