import MetaCache.Proofs.Cache.Transparency

/-!
# What may stand in for a record

An app is resolved in up to three lookups, its *hops*, of which each takes its guid from the record
before. A hop is passed with the record that is found, or, if the cache ignores missing apps, with
the empty record in the place of one that is missing (`Passes`). The first hop that is not passed
ends the resolution with its error (`Reached.resolveApp_error`), and an app comes of three hops that
are passed (`resolveApp_ok_iff`).

The empty record has no guids, and no guid is spelled by the empty text. So behind an empty record
all hops are passed without a look into the store or a request (`passes_blank`): an app degrades
from one hop on, downwards, and never the other way.
-/

namespace MetaCache

open MetaCache.Remote MetaCache.Store

namespace Error

/-- A failure of storage. -/
def isStorage : Error → Bool
  | storage _ => true
  | _ => false

/-- A complaint about settings. -/
def isConfig : Error → Bool
  | config _ => true
  | _ => false

/-- What ends every resolution. -/
def aborts (e : Error) : Bool := e.isTransport || e.isStorage || e.isConfig

theorem aborts_eq_not_isMissing (e : Error) : e.aborts = !e.isMissing := by
  cases e with
  | remote cause => cases cause <;> rfl
  | _ => rfl

end Error

namespace Cache

variable {c : Cache} {w : World} {s s' : State} {kind : Kind} {raw : String} {r : Record}
  {e : Error}

/-! ## Errors of lookups -/

/-- A lookup depends only on the guid that is spelled. -/
theorem getEntity_text {guid : Guid} (h : Guid.canonicalize raw = .ok guid) (c : Cache)
    (kind : Kind) : c.getEntity kind guid.text = c.getEntity kind raw := by
  unfold getEntity
  rw [Key.parse_of_ok guid.canonicalize_text, Key.parse_of_ok h]

/-- The empty text is looked up in vain, and nothing happens. -/
theorem getEntity_blank (c : Cache) (kind : Kind) (w : World) (s : State) :
    c.getEntity kind "" w s = (.error (.invalidGuid ""), s) :=
  getEntity_of_invalid (Key.parse_of_error Guid.canonicalize_empty kind) c w s

theorem store_error {key : Key} (h : c.store key r w s = (.error e, s')) : e.isStorage := by
  rw [store_apply] at h
  obtain ⟨hresult, -⟩ := Prod.mk.inj h
  cases hput : s.backend.put key
      (c.normalizer.normalize key.kind r (w s.elapsed).now (w s.elapsed).draw) with
  | mk result backend =>
    rw [hput] at hresult
    cases result with
    | ok done => cases hresult
    | error cause =>
      obtain ⟨-, what, rfl⟩ := Backend.put_error hput
      cases hresult
      rfl

/-- A refreshed record is missing for one of two reasons: a fetcher says so, or the store fails. -/
theorem refresh_error {key : Key} (h : c.refresh key w s = (.error e, s')) :
    e.isStorage ∨ ∃ n, ((w n).fetcher.one key.kind key.guid).answer = .error e := by
  rw [refresh_apply] at h
  split at h
  · exact .inl (store_error h)
  · next cause hanswer =>
    split at h
    · obtain ⟨hresult, -⟩ := Prod.mk.inj h
      -- An empty record that cannot be stored is told rather than that the app is missing.
      cases hstore : c.store key .empty w _ with
      | mk result after =>
        rw [hstore] at hresult
        cases result with
        | ok stored =>
          cases hresult
          exact .inr ⟨s.elapsed, hanswer⟩
        | error what =>
          cases hresult
          exact .inl (store_error hstore)
    · cases h
      exact .inr ⟨s.elapsed, hanswer⟩

theorem getEntity_error (h : c.getEntity kind raw w s = (.error e, s')) :
    e = .invalidGuid raw ∨ e.isStorage
      ∨ ∃ n guid, ((w n).fetcher.one kind guid).answer = .error e := by
  cases hguid : Guid.canonicalize raw with
  | error cause =>
    rw [getEntity_of_invalid (Key.parse_of_error hguid kind)] at h
    cases h
    exact .inl (Guid.canonicalize_error hguid)
  | ok guid =>
    have hrefresh {s₁ : State} (h : c.refresh ⟨kind, guid⟩ w s₁ = (.error e, s')) :
        e = .invalidGuid raw ∨ e.isStorage
          ∨ ∃ n guid, ((w n).fetcher.one kind guid).answer = .error e := by
      rcases refresh_error h with hstorage | ⟨n, hanswer⟩
      · exact .inr (.inl hstorage)
      · exact .inr (.inr ⟨n, guid, hanswer⟩)
    rw [getEntity_apply (Key.parse_of_ok hguid kind)] at h
    split at h
    · next cause hfound =>
      cases h
      obtain ⟨what, rfl⟩ := Backend.answer_error hfound
      exact .inr (.inl rfl)
    · exact hrefresh h
    · split at h
      · cases h
      · exact hrefresh h

/-! ## What the store took -/

/-- The store took all that was handed to it between two states. -/
def Taken (s s' : State) : Prop := ∃ new, s'.deposits = s.deposits ++ new ∧ ∀ d ∈ new, d.isKept

theorem Taken.refl (s : State) : Taken s s :=
  ⟨[], by rw [List.append_nil], fun _ hd => absurd hd List.not_mem_nil⟩

theorem Taken.trans {s₁ s₂ : State} (h : Taken s s₁) (h' : Taken s₁ s₂) : Taken s s₂ := by
  obtain ⟨new, hnew, hkept⟩ := h
  obtain ⟨new', hnew', hkept'⟩ := h'
  refine ⟨new ++ new', by rw [hnew', hnew, List.append_assoc], fun d hd => ?_⟩
  exact (List.mem_append.1 hd).elim (hkept d) (hkept' d)

/-- What hands nothing to the store changes nothing about this. -/
theorem Taken.of_deposits {s₁ : State} (h : Taken s₁ s') (hs : s₁.deposits = s.deposits) :
    Taken s s' := by
  obtain ⟨new, hnew, hkept⟩ := h
  exact ⟨new, hs ▸ hnew, hkept⟩

/-- A record that the store refuses makes the error one of storage. -/
theorem store_taken {key : Key} {result : Except Error Record}
    (h : c.store key r w s = (result, s'))
    (hresult : ∀ e, result = .error e → e.isStorage = false) : Taken s s' := by
  cases result with
  | error e =>
    have hstorage := store_error h
    rw [hresult e rfl] at hstorage
    cases hstorage
  | ok stored =>
    rw [store_apply] at h
    obtain ⟨hstored, rfl⟩ := Prod.mk.inj h
    refine ⟨[_], rfl, fun d hd => ?_⟩
    obtain rfl := List.mem_singleton.1 hd
    show (s.backend.put key _).1.isOk = true
    cases hput : (s.backend.put key
        (c.normalizer.normalize key.kind r (w s.elapsed).now (w s.elapsed).draw)).1 with
    | ok done => rfl
    | error cause => rw [hput] at hstored; cases hstored

theorem refresh_taken {key : Key} {result : Except Error Record}
    (h : c.refresh key w s = (result, s'))
    (hresult : ∀ e, result = .error e → e.isStorage = false) : Taken s s' := by
  rw [refresh_apply] at h
  split at h
  · exact (store_taken h hresult).of_deposits rfl
  · split at h
    · obtain ⟨hanswer, rfl⟩ := Prod.mk.inj h
      refine (store_taken (store_apply ..) fun e he => hresult e ?_).of_deposits rfl
      rw [store_apply, he] at hanswer
      exact hanswer.symm
    · cases h
      exact (Taken.refl _).of_deposits rfl

theorem getEntity_taken {result : Except Error Record} (h : c.getEntity kind raw w s = (result, s'))
    (hresult : ∀ e, result = .error e → e.isStorage = false) : Taken s s' := by
  cases hkey : Key.parse kind raw with
  | error e =>
    rw [getEntity_of_invalid hkey] at h
    cases h
    exact .refl s
  | ok key =>
    rw [getEntity_apply hkey] at h
    split at h
    · cases h
      exact (Taken.refl _).of_deposits rfl
    · exact (refresh_taken h hresult).of_deposits rfl
    · split at h
      · cases h
        exact (Taken.refl _).of_deposits rfl
      · exact (refresh_taken h hresult).of_deposits rfl

/-! ## Hops -/

/-- A hop is passed with a record. -/
inductive Passes (c : Cache) (w : World) (kind : Kind) (raw : String) (s : State) :
    Record → State → Prop
  /-- It is the record that is looked up. -/
  | found {r : Record} {s' : State} (answer : c.getEntity kind raw w s = (.ok r, s')) :
      Passes c w kind raw s r s'
  /-- It is the empty one, in the place of one that is missing. -/
  | replaced {e : Error} {s' : State} (answer : c.getEntity kind raw w s = (.error e, s'))
      (ignores : c.ignoresMissing) (missing : e.isMissing) : Passes c w kind raw s .empty s'

theorem passes_iff : Passes c w kind raw s r s' ↔ c.hop kind raw w s = (.ok r, s') := by
  constructor
  · intro h
    cases h with
    | found answer => rw [hop_apply, answer]
    | replaced answer ignores missing =>
      rw [hop_apply, answer]
      simp only [tolerates, ignores, missing, Bool.and_self, if_true]
  · intro h
    rw [hop_apply] at h
    obtain ⟨hresult, rfl⟩ := Prod.mk.inj h
    split at hresult
    · next found hfound =>
      cases hresult
      exact .found (Prod.ext hfound rfl)
    · next cause hcause =>
      split at hresult
      · next htolerated =>
        cases hresult
        obtain ⟨hignores, hmissing⟩ := Bool.and_eq_true_iff.1 htolerated
        exact .replaced (Prod.ext hcause rfl) hignores hmissing
      · cases hresult

theorem hop_error (h : c.getEntity kind raw w s = (.error e, s'))
    (htolerated : c.tolerates e = false) : c.hop kind raw w s = (.error e, s') := by
  rw [hop_apply, h]
  simp only [htolerated, Bool.false_eq_true, if_false]

/-- A hop with the empty text is passed with the empty record, and nothing happens. -/
theorem passes_blank (h : Passes c w kind "" s r s') : r = .empty ∧ s' = s := by
  have hblank := getEntity_blank c kind w s
  cases h with
  | found answer => rw [hblank] at answer; cases answer
  | replaced answer => rw [hblank] at answer; cases answer; exact ⟨rfl, rfl⟩

theorem Passes.taken (h : Passes c w kind raw s r s') : Taken s s' := by
  cases h with
  | found answer => exact getEntity_taken answer fun e he => by cases he
  | @replaced cause _ answer _ missing =>
    refine getEntity_taken answer fun e he => ?_
    cases he
    cases cause with
    | storage cause => cases missing
    | _ => rfl

/-- The hops that are reached on the way from a text to an app, and the states in which they are. -/
inductive Reached (c : Cache) (w : World) (raw : String) (s : State) : Kind → String → State → Prop
  | app : Reached c w raw s .app raw s
  | space {app : Record} {s₁ : State} (first : Passes c w .app raw s app s₁) :
      Reached c w raw s .space app.spaceGuid s₁
  | organization {app space : Record} {s₁ s₂ : State} (first : Passes c w .app raw s app s₁)
      (second : Passes c w .space app.spaceGuid s₁ space s₂) :
      Reached c w raw s .organization space.organizationGuid s₂

/-! ## Resolutions -/

theorem resolveApp_apply {guid : Guid} (h : Guid.canonicalize raw = .ok guid) (c : Cache) (w : World)
    (s : State) :
    c.resolveApp raw w s = (do
      let app ← c.hop .app raw
      let space ← c.hop .space app.spaceGuid
      let organization ← c.hop .organization space.organizationGuid
      return App.assemble guid.text app space organization : Action App) w s := by
  have hhop : c.hop .app guid.text = c.hop .app raw := by
    unfold hop
    rw [getEntity_text h]
  rw [resolveApp, Action.ofExcept_bind_ok h, hhop]

theorem resolveApp_of_invalid (h : ∀ guid, Guid.canonicalize raw ≠ .ok guid) (c : Cache) (w : World)
    (s : State) : c.resolveApp raw w s = (.error (.invalidGuid raw), s) := by
  cases hguid : Guid.canonicalize raw with
  | ok guid => exact absurd hguid (h guid)
  | error cause =>
    rw [resolveApp, Action.bind_apply, Action.ofExcept, hguid, Guid.canonicalize_error hguid]

/-- **An app comes of three hops that are passed**, each with the guid of the record before. -/
theorem resolveApp_ok_iff {guid : Guid} (h : Guid.canonicalize raw = .ok guid) {a : App} :
    c.resolveApp raw w s = (.ok a, s') ↔
      ∃ app s₁ space s₂ organization, Passes c w .app raw s app s₁
        ∧ Passes c w .space app.spaceGuid s₁ space s₂
        ∧ Passes c w .organization space.organizationGuid s₂ organization s'
        ∧ a = App.assemble guid.text app space organization := by
  rw [resolveApp_apply h]
  simp only [Action.bind_eq_ok_iff, passes_iff]
  constructor
  · rintro ⟨app, s₁, happ, space, s₂, hspace, organization, s₃, horganization, hdone⟩
    cases hdone
    exact ⟨app, s₁, space, s₂, organization, happ, hspace, horganization, rfl⟩
  · rintro ⟨app, s₁, space, s₂, organization, happ, hspace, horganization, rfl⟩
    exact ⟨app, s₁, happ, space, s₂, hspace, organization, s', horganization, rfl⟩

/-- **The error of a hop that is reached and not tolerated ends the resolution.** -/
theorem Reached.resolveApp_error {guid : Guid} (hguid : Guid.canonicalize raw = .ok guid)
    {text : String} {s₁ : State} (h : Reached c w raw s kind text s₁)
    (he : c.getEntity kind text w s₁ = (.error e, s')) (htolerated : c.tolerates e = false) :
    c.resolveApp raw w s = (.error e, s') := by
  have hhop := hop_error he htolerated
  rw [resolveApp_apply hguid]
  cases h with
  | app => exact Action.bind_error hhop
  | space first => rw [Action.bind_ok (passes_iff.1 first), Action.bind_error hhop]
  | organization first second =>
    rw [Action.bind_ok (passes_iff.1 first), Action.bind_ok (passes_iff.1 second),
      Action.bind_error hhop]

/-- An app is resolved if every hop that is reached is passed. -/
theorem resolveApp_isOk_iff {guid : Guid} (hguid : Guid.canonicalize raw = .ok guid) :
    (c.resolveApp raw w s).1.isOk ↔
      ∀ {kind text s₁ e s₂}, Reached c w raw s kind text s₁ →
        c.getEntity kind text w s₁ = (.error e, s₂) → c.tolerates e := by
  constructor
  · intro hok kind text s₁ e s₂ hreached he
    cases htolerated : c.tolerates e with
    | true => rfl
    | false =>
      rw [hreached.resolveApp_error hguid he htolerated] at hok
      cases hok
  · intro h
    have hpasses {kind text s₁} (hreached : Reached c w raw s kind text s₁) :
        ∃ r s₂, Passes c w kind text s₁ r s₂ := by
      cases hanswer : c.getEntity kind text w s₁ with
      | mk result s₂ =>
        cases result with
        | ok r => exact ⟨r, s₂, .found hanswer⟩
        | error e =>
          obtain ⟨hignores, hmissing⟩ := Bool.and_eq_true_iff.1 (h hreached hanswer)
          exact ⟨.empty, s₂, .replaced hanswer hignores hmissing⟩
    -- Each hop that is passed leads to the next one, and there are three.
    obtain ⟨app, s₁, happ⟩ := hpasses .app
    obtain ⟨space, s₂, hspace⟩ := hpasses (.space happ)
    obtain ⟨organization, s₃, horganization⟩ := hpasses (.organization happ hspace)
    rw [(resolveApp_ok_iff hguid).2
      ⟨app, s₁, space, s₂, organization, happ, hspace, horganization, rfl⟩]
    rfl

/-- Where nothing is ignored, the error of any hop that is reached ends the resolution. -/
theorem Reached.resolveApp_error_of_strict (hstrict : c.ignoresMissing = false) {text : String}
    {s₁ : State} (h : Reached c w raw s kind text s₁)
    (he : c.getEntity kind text w s₁ = (.error e, s')) :
    c.resolveApp raw w s = (.error e, s') := by
  cases hguid : Guid.canonicalize raw with
  | ok guid =>
    refine h.resolveApp_error hguid he ?_
    rw [tolerates, hstrict, Bool.false_and]
  | error cause =>
    have hrefused := getEntity_of_invalid (Key.parse_of_error hguid .app) c w s
    -- The first hop fails, so there is no other one.
    have hfirst {app : Record} {s₁ : State} (hpasses : Passes c w .app raw s app s₁) : False := by
      cases hpasses with
      | found answer => rw [hrefused] at answer; cases answer
      | replaced _ ignores _ => rw [hstrict] at ignores; cases ignores
    cases h with
    | app =>
      rw [hrefused] at he
      cases he
      rw [Guid.canonicalize_error hguid]
      exact resolveApp_of_invalid (fun guid hok => by rw [hguid] at hok; cases hok) c w s
    | space first => exact (hfirst first).elim
    | organization first => exact (hfirst first).elim

theorem resolveApp_isOk_iff_of_strict (hstrict : c.ignoresMissing = false) :
    (c.resolveApp raw w s).1.isOk ↔
      ∀ {kind text s₁}, Reached c w raw s kind text s₁ → (c.getEntity kind text w s₁).1.isOk := by
  constructor
  · intro hok kind text s₁ hreached
    cases hanswer : c.getEntity kind text w s₁ with
    | mk result s₂ =>
      cases result with
      | ok r => rfl
      | error e =>
        rw [hreached.resolveApp_error_of_strict hstrict hanswer] at hok
        cases hok
  · intro h
    have happ : (c.getEntity .app raw w s).1.isOk := h .app
    cases hguid : Guid.canonicalize raw with
    | error cause =>
      rw [getEntity_of_invalid (Key.parse_of_error hguid .app)] at happ
      cases happ
    | ok guid =>
      refine (resolveApp_isOk_iff hguid).2 fun {kind text s₁ e s₂} hreached he => ?_
      have hok := h hreached
      rw [he] at hok
      cases hok

/-- Behind an app without guids nothing is found, and nothing is looked for. -/
theorem passes_of_blank {app space organization : Record} {s₁ s₂ : State}
    (happ : app.timeless = .empty) (hspace : Passes c w .space app.spaceGuid s₁ space s₂)
    (horganization : Passes c w .organization space.organizationGuid s₂ organization s') :
    space = .empty ∧ organization = .empty ∧ s' = s₁ := by
  rw [show app.spaceGuid = "" from congrArg Record.spaceGuid happ] at hspace
  obtain ⟨rfl, rfl⟩ := passes_blank hspace
  obtain ⟨rfl, rfl⟩ := passes_blank horganization
  exact ⟨rfl, rfl, rfl⟩

/-- An app that is put together of an empty record says nothing but its guid. -/
theorem assemble_blank {app : Record} (h : app.timeless = .empty) (guid : String) :
    App.assemble guid app .empty .empty = ⟨guid, "", "", "", "", "", false⟩ := by
  have hname : app.name = "" := congrArg Record.name h
  have hspaceGuid : app.spaceGuid = "" := congrArg Record.spaceGuid h
  have henvironment : app.environment = .empty := congrArg Record.environment h
  simp only [App.assemble, hname, hspaceGuid, Record.isOptedOut, henvironment]
  rfl

/-- **What may stand in for a record on the way to an app**, whatever is in the store and whatever
the API answers. -/
theorem resolveApp_substitutes (c : Cache) (w : World) (s : State) (raw : String) :
    -- A text that spells no guid is refused, and nothing happens.
    ((∀ guid, Guid.canonicalize raw ≠ .ok guid) →
      c.resolveApp raw w s = (.error (.invalidGuid raw), s))
    -- Without being told to ignore what is missing, a cache puts up with no error.
    ∧ (c.ignoresMissing = false →
      ((c.resolveApp raw w s).1.isOk ↔ ∀ {kind text s₁}, Reached c w raw s kind text s₁ →
        (c.getEntity kind text w s₁).1.isOk)
      ∧ ∀ {kind text s₁ e s₂}, Reached c w raw s kind text s₁ →
        c.getEntity kind text w s₁ = (.error e, s₂) → c.resolveApp raw w s = (.error e, s₂))
    -- If it is told to, it puts up with what is missing and with nothing else.
    ∧ (c.ignoresMissing → ∀ {guid}, Guid.canonicalize raw = .ok guid →
      ((c.resolveApp raw w s).1.isOk ↔ ∀ {kind text s₁ e s₂}, Reached c w raw s kind text s₁ →
        c.getEntity kind text w s₁ = (.error e, s₂) → e.aborts = false)
      ∧ ∀ {kind text s₁ e s₂}, Reached c w raw s kind text s₁ →
        c.getEntity kind text w s₁ = (.error e, s₂) → e.aborts →
          c.resolveApp raw w s = (.error e, s₂))
    -- Complaints about settings come from a fetcher only.
    ∧ (∀ {kind text s₁ e s₂}, c.getEntity kind text w s₁ = (.error e, s₂) → e.isConfig →
      ∃ n guid, ((w n).fetcher.one kind guid).answer = .error e)
    -- From an empty record on there is nothing, and nothing is done.
    ∧ ∀ {a s'}, c.resolveApp raw w s = (.ok a, s') →
      ∃ guid app s₁ space s₂ organization, Guid.canonicalize raw = .ok guid
        ∧ Passes c w .app raw s app s₁
        ∧ Passes c w .space app.spaceGuid s₁ space s₂
        ∧ Passes c w .organization space.organizationGuid s₂ organization s'
        ∧ a = App.assemble guid.text app space organization
        ∧ (app.timeless = .empty → a = ⟨guid.text, "", "", "", "", "", false⟩ ∧ s' = s₁)
        ∧ (space.timeless = .empty →
          a.spaceName = "" ∧ a.orgGuid = "" ∧ a.orgName = "" ∧ s' = s₂)
        ∧ (organization.timeless = .empty → a.orgName = "")
        ∧ Taken s s' := by
  refine ⟨fun h => resolveApp_of_invalid h c w s, fun hstrict => ?_, fun hignores guid hguid => ?_,
    fun {kind text s₁ e s₂} he hconfig => ?_, fun {a s'} hok => ?_⟩
  · exact ⟨resolveApp_isOk_iff_of_strict hstrict, Reached.resolveApp_error_of_strict hstrict⟩
  · have htolerated (e : Error) : c.tolerates e = !e.aborts := by
      rw [tolerates, hignores, Bool.true_and, Error.aborts_eq_not_isMissing, Bool.not_not]
    constructor
    · simp only [resolveApp_isOk_iff hguid, htolerated, Bool.not_eq_true']
    · intro kind text s₁ e s₂ hreached he haborts
      exact hreached.resolveApp_error hguid he (by rw [htolerated, haborts]; rfl)
  · rcases getEntity_error he with rfl | hstorage | hanswered
    · cases hconfig
    · cases e with
      | storage cause => cases hconfig
      | _ => cases hstorage
    · exact hanswered
  · cases hguid : Guid.canonicalize raw with
    | error cause =>
      rw [resolveApp_of_invalid (fun guid h => by rw [hguid] at h; cases h)] at hok
      cases hok
    | ok guid =>
      obtain ⟨app, s₁, space, s₂, organization, happ, hspace, horganization, rfl⟩ :=
        (resolveApp_ok_iff hguid).1 hok
      refine ⟨guid, app, s₁, space, s₂, organization, rfl, happ, hspace, horganization, rfl,
        fun hblank => ?_, fun hblank => ?_, congrArg Record.name,
        happ.taken.trans (hspace.taken.trans horganization.taken)⟩
      · obtain ⟨rfl, rfl, rfl⟩ := passes_of_blank hblank hspace horganization
        exact ⟨assemble_blank hblank guid.text, rfl⟩
      · have horgGuid : space.organizationGuid = "" := congrArg Record.organizationGuid hblank
        rw [horgGuid] at horganization
        obtain ⟨rfl, rfl⟩ := passes_blank horganization
        exact ⟨congrArg Record.name hblank, horgGuid, rfl, rfl⟩

/-- A store that is not open is no reason to make do with an empty record. -/
theorem resolveApp_substitutes_closed :
    let c : Cache := ⟨⟨60 * nanosPerSecond, []⟩, true⟩
    let s : State := .ofBackend (.persistent (.ofSite .vacant 8))
    c.resolveApp "6ba7b810-9dad-11d1-80b4-00c04fd430c8" (.still .unknowing) s
      = (.error (.storage .notOpen), s) := by
  intro c s
  obtain ⟨guid, hguid⟩ :
      ∃ guid, Guid.canonicalize "6ba7b810-9dad-11d1-80b4-00c04fd430c8" = .ok guid := ⟨_, rfl⟩
  have hclosed : c.getEntity .app "6ba7b810-9dad-11d1-80b4-00c04fd430c8" (.still .unknowing) s
      = (.error (.storage .notOpen), s) := by
    rw [getEntity_apply (Key.parse_of_ok hguid .app)]
    rfl
  exact ((resolveApp_substitutes c (.still .unknowing) s _).2.2.1 rfl hguid).2 .app hclosed rfl

end Cache

end MetaCache
