import MetaCache.Proofs.Cache.Provenance
import MetaCache.Proofs.Cache.Substitution
import MetaCache.Proofs.Remote.Paths
import MetaCache.Proofs.Store.Keeping

/-!
# No text gets past the guids

Texts that are to be guids come from callers, and from the API: the guid of a space stands in the
record of an app, that of an organization in the record of a space, and apps are listed under guids.
Nobody has checked any of them. A call falls into *errands*, each for one text or for the list of
apps, and one errand leads to the next by the texts that it finds (`Led`).

Whatever the text, an errand asks for one path and writes under one key at most, both of them ending
in the canonical guid that the text spells. A text that spells none does nothing (`Spelled`). Only
the cursors of a list are asked for as they are, each of them right after the page that names it.
-/

namespace MetaCache

open MetaCache.Remote MetaCache.Store

namespace Store

/-! ## Stores that are opened again -/

theorem Backend.extends_openStore (b : Backend) : b.Extends [] b.openStore.2 := by
  cases b with
  | memory m => exact .refl _
  | persistent p =>
    rw [Backend.openStore_persistent]
    -- The result is named here, for unfolding it would compare map sizes with huge numbers.
    cases hopen : p.openStore with
    | mk result p' =>
      intro text value hvalue
      rw [Persistent.contents_of_openStore hopen] at hvalue
      exact .inl hvalue
  | disabled => exact .refl _

theorem Backend.extends_reopened (b : Backend) : b.Extends [] b.reopened := by
  have hclosed : b.Extends [] b.closeStore := by
    cases b with
    | disabled => exact True.intro
    | _ => exact fun _ _ h => .inl h
  exact hclosed.trans b.closeStore.extends_openStore

theorem Backend.extends_renewed (b : Backend) : b.Extends [] b.renewed := by
  have hremade : b.Extends [] b.remade := by
    cases b with
    | memory m =>
      intro key r hr
      cases hr
    | persistent p => exact fun _ _ h => .inl h
    | disabled => exact True.intro
  exact hremade.trans b.remade.extends_openStore

end Store

namespace Cache

variable {c : Cache} {w : World}

/-! ## Effects -/

/-- From one state to another, these paths were asked for and these keys were written under. -/
structure Effect (s s' : State) (paths : List String) (keys : List Key) : Prop where
  asked : s'.asked = s.asked ++ paths
  written : s'.deposits.map Deposit.key = s.deposits.map Deposit.key ++ keys
  held : s.backend.Extends keys s'.backend

namespace Effect

variable {s s₁ s₂ s' : State} {paths paths' : List String} {keys keys' : List Key}

theorem refl (s : State) : Effect s s [] [] :=
  ⟨(List.append_nil _).symm, (List.append_nil _).symm, .refl _⟩

theorem trans (h : Effect s s₁ paths keys) (h' : Effect s₁ s₂ paths' keys') :
    Effect s s₂ (paths ++ paths') (keys ++ keys') where
  asked := by rw [h'.asked, h.asked, List.append_assoc]
  written := by rw [h'.written, h.written, List.append_assoc]
  held := h.held.trans h'.held

/-- What was asked for and written under is determined by the states. -/
theorem unique (h : Effect s s' paths keys) (h' : Effect s s' paths' keys') :
    paths' = paths ∧ keys' = keys :=
  ⟨List.append_cancel_left (h'.asked.symm.trans h.asked),
    List.append_cancel_left (h'.written.symm.trans h.written)⟩

theorem looked (s : State) (key : Key) : Effect s (s.looked key) [] [] :=
  ⟨(List.append_nil _).symm, (List.append_nil _).symm, s.backend.extends_get key⟩

theorem later (s : State) : Effect s s.later [] [] :=
  ⟨(List.append_nil _).symm, (List.append_nil _).symm, .refl _⟩

theorem fetched (s : State) (paths : List String) : Effect s (s.fetched paths) paths [] :=
  ⟨rfl, (List.append_nil _).symm, .refl _⟩

theorem stored (s : State) (key : Key) (r : Record) : Effect s (s.stored c w key r) [] [key] where
  asked := (List.append_nil _).symm
  written := List.map_append
  held := s.backend.extends_put key _

end Effect

/-- What may be done for a text that is to be a guid: with a guid, its path is asked for and its key
written under; with none, nothing. -/
inductive Spelled (kind : Kind) (raw : String) : List String → List Key → Prop
  | guid {guid : Guid} {asked : List String} {written : List Key}
      (spells : Guid.canonicalize raw = .ok guid) (shape : Guid.IsCanonical guid.text)
      (asks : asked <+: ["/v2/" ++ kind.segment ++ "/" ++ guid.text])
      (writes : written.map Key.text <+: [kind.segment ++ "/" ++ guid.text]) :
      Spelled kind raw asked written
  | none (nothing : ∀ guid, Guid.canonicalize raw ≠ .ok guid) : Spelled kind raw [] []

/-! ## Errands -/

/-- Stores an app that was listed. -/
def keepListed (c : Cache) (raw : String) (r : Record) : Action Record := do
  let key ← Action.ofExcept (Key.parse .app raw)
  c.store key r

/-- Asks for the list of apps. -/
def listApps : Action (List (String × Record)) := .fetch fun fetcher => fetcher.all .app

/-- Something that a cache turns to in the course of a call, and what comes of it. -/
inductive Errand
  /-- A text is looked up as the guid of an entity. -/
  | lookup (kind : Kind) (raw : String) (result : Except Error Record)
  /-- An app is stored under the guid that it is listed with. -/
  | keep (raw : String) (r : Record) (result : Except Error Record)
  /-- The list of apps is asked for. -/
  | list (result : Except Error (List (String × Record)))

/-- The errand is run from one state to another. -/
def Errand.Runs (c : Cache) (w : World) (s s' : State) : Errand → Prop
  | lookup kind raw result => c.getEntity kind raw w s = (result, s')
  | keep raw r result => c.keepListed raw r w s = (result, s')
  | list result => listApps w s = (result, s')

/-- The record of an entity that an errand leaves to go on with. -/
inductive Errand.Leaves : Errand → Kind → Record → Prop
  | found {kind : Kind} {raw : String} {r : Record} : Leaves (.lookup kind raw (.ok r)) kind r
  /-- What is missing counts as empty. -/
  | missed {kind : Kind} {raw : String} {e : Error} :
      Leaves (.lookup kind raw (.error e)) kind .empty
  | kept {raw : String} {r stored : Record} : Leaves (.keep raw r (.ok stored)) .app stored

/-- Why a cache runs an errand, after others in the same call: it is told to, or the text comes from
what they have left. -/
inductive Led : Use → List Errand → Errand → Prop
  | told {kind : Kind} {raw : String} {result : Except Error Record} :
      Led (.lookup kind raw) [] (.lookup kind raw result)
  | resolved {raw : String} {result : Except Error Record} :
      Led (.resolve raw) [] (.lookup .app raw result)
  | filled {result : Except Error (List (String × Record))} : Led .fill [] (.list result)
  | listed {before : List Errand} {found : List (String × Record)} {raw : String} {r : Record}
      {result : Except Error Record} (list : .list (.ok found) ∈ before)
      (mem : (raw, r) ∈ found) : Led .fill before (.keep raw r result)
  | space {u : Use} {before : List Errand} {last : Errand} {app : Record}
      {result : Except Error Record} (leaves : last.Leaves .app app) :
      Led u (before ++ [last]) (.lookup .space app.spaceGuid result)
  | organization {u : Use} {before : List Errand} {last : Errand} {space : Record}
      {result : Except Error Record} (leaves : last.Leaves .space space) :
      Led u (before ++ [last]) (.lookup .organization space.organizationGuid result)

/-- An errand with all that was asked for and written under on it. -/
structure Exchange where
  errand : Errand
  asked : List String
  written : List Key

namespace Exchange

/-- The errand is run, and this is its effect. -/
structure Happens (c : Cache) (w : World) (s s' : State) (x : Exchange) : Prop where
  runs : x.errand.Runs c w s s'
  effect : Effect s s' x.asked x.written

/-- Nothing is done but what a text spells, and what pages name. -/
def Guarded (t : Nat → Transport) (x : Exchange) : Prop :=
  match x.errand with
  | .lookup kind raw _ => Spelled kind raw x.asked x.written
  | .keep raw _ _ => x.asked = [] ∧ Spelled .app raw [] x.written
  | .list _ => (∃ n, IsListing (t n) .app x.asked) ∧ x.written = []

end Exchange

section Guarded

variable {t : Nat → Transport} {s s' : State}

theorem Spelled.of_key {kind : Kind} {raw : String} {key : Key}
    (hkey : Key.parse kind raw = .ok key) {asked : List String} {written : List Key}
    (hasked : asked <+: [entityPath key.kind key.guid.text]) (hwritten : written <+: [key]) :
    Spelled kind raw asked written := by
  obtain ⟨guid, hguid, rfl⟩ := Key.parse_ok hkey
  exact .guid hguid guid.isCanonical_text hasked (hwritten.map Key.text)

theorem Spelled.of_error {kind : Kind} {raw : String} {e : Error}
    (hkey : Key.parse kind raw = .error e) : Spelled kind raw [] [] := by
  refine .none fun guid hguid => ?_
  rw [Key.parse_of_ok hguid] at hkey
  cases hkey

/-- A record that is fetched is asked for under one path, and goes under one key. -/
theorem exists_effect_refresh (ht : ∀ n, (w n).fetcher = (t n).fetcher) (c : Cache) (key : Key)
    (s : State) : ∃ written, Effect s (c.refresh key w s).2 [entityPath key.kind key.guid.text] written
      ∧ written <+: [key] := by
  have hasked : ((w s.elapsed).fetcher.one key.kind key.guid).asked
      = [entityPath key.kind key.guid.text] := by
    rw [ht]
    rfl
  have hfetched := Effect.fetched s [entityPath key.kind key.guid.text]
  rw [refresh_apply, hasked]
  split
  · next r hanswer =>
    rw [store_apply]
    exact ⟨[key], hfetched.trans (.stored _ key r), List.prefix_rfl⟩
  · next e hanswer =>
    split
    · exact ⟨[key], hfetched.trans (.stored _ key .empty), List.prefix_rfl⟩
    · exact ⟨[], hfetched, List.nil_prefix⟩

theorem exists_effect_getEntity (ht : ∀ n, (w n).fetcher = (t n).fetcher) (c : Cache) (kind : Kind)
    (raw : String) (s : State) :
    ∃ asked written, Effect s (c.getEntity kind raw w s).2 asked written
      ∧ Spelled kind raw asked written := by
  cases hkey : Key.parse kind raw with
  | error e =>
    rw [getEntity_of_invalid hkey]
    exact ⟨[], [], .refl s, .of_error hkey⟩
  | ok key =>
    have hlooked := Effect.looked s key
    have hrefresh {s₁ : State} (h : Effect s s₁ [] []) :
        ∃ asked written, Effect s (c.refresh key w s₁).2 asked written
          ∧ Spelled kind raw asked written := by
      obtain ⟨written, heffect, hwritten⟩ := exists_effect_refresh ht c key s₁
      exact ⟨_, written, h.trans heffect, .of_key hkey List.prefix_rfl hwritten⟩
    have hnothing : Spelled kind raw [] [] := .of_key hkey List.nil_prefix List.nil_prefix
    rw [getEntity_apply hkey]
    split
    · exact ⟨[], [], hlooked, hnothing⟩
    · exact hrefresh hlooked
    · split
      · exact ⟨[], [], hlooked.trans (.later _), hnothing⟩
      · exact hrefresh (hlooked.trans (.later _))

/-- Every errand has an effect, and it is guarded. -/
theorem Errand.exists_effect (ht : ∀ n, (w n).fetcher = (t n).fetcher) {e : Errand}
    (h : e.Runs c w s s') :
    ∃ asked written, Effect s s' asked written ∧ (Exchange.mk e asked written).Guarded t := by
  cases e with
  | lookup kind raw result =>
    have hs' : s' = (c.getEntity kind raw w s).2 := congrArg Prod.snd h.symm
    rw [hs']
    exact exists_effect_getEntity ht c kind raw s
  | keep raw r result =>
    rw [Runs, keepListed] at h
    cases hkey : Key.parse .app raw with
    | error e =>
      rw [hkey] at h
      cases h
      exact ⟨[], [], .refl _, rfl, .of_error hkey⟩
    | ok key =>
      rw [Action.ofExcept_bind_ok hkey, store_apply] at h
      cases h
      exact ⟨[], [key], .stored s key r, rfl, .of_key hkey List.nil_prefix List.prefix_rfl⟩
  | list result =>
    cases h
    refine ⟨_, [], .fetched s _, ⟨s.elapsed, ?_⟩, rfl⟩
    rw [ht]
    exact (t s.elapsed).isListing_fetchAll .app

theorem Exchange.Happens.guarded (ht : ∀ n, (w n).fetcher = (t n).fetcher) {x : Exchange}
    (h : x.Happens c w s s') : x.Guarded t := by
  obtain ⟨asked, written, heffect, hguarded⟩ := Errand.exists_effect ht h.runs
  obtain ⟨rfl, rfl⟩ := h.effect.unique heffect
  exact hguarded

/-! ## Calls -/

/-- The errands of a call so far, and the states from which and to which they lead. -/
inductive Session (c : Cache) (w : World) : Use → List Exchange → State → State → Prop
  | start (u : Use) (s : State) : Session c w u [] s s
  | more {u : Use} {before : List Exchange} {x : Exchange} {s s₁ s₂ : State}
      (earlier : Session c w u before s s₁) (led : Led u (before.map Exchange.errand) x.errand)
      (happens : x.Happens c w s₁ s₂) : Session c w u (before ++ [x]) s s₂
  /-- The store is closed and opened, which is nobody's errand. -/
  | reopen (s : State) : Session c w .reopen [] s { s with backend := s.backend.reopened }
  | restart (s : State) :
      Session c w .restart [] s { s with backend := s.backend.renewed, fetches := 0 }

/-- One call after another. -/
def Dialog (c : Cache) (w : World) : List (Use × List Exchange) → State → State → Prop
  | [], s, s' => s' = s
  | (u, exchanges) :: rest, s, s' =>
    ∃ s₁, Session c w u exchanges s s₁ ∧ Dialog c w rest s₁ s'

variable {u : Use} {before exchanges : List Exchange} {s₁ s₂ : State}

theorem Session.effect (h : Session c w u exchanges s s') :
    Effect s s' (exchanges.flatMap Exchange.asked) (exchanges.flatMap Exchange.written) := by
  induction h with
  | start u s => exact .refl s
  | more _ _ happens ih =>
    simp only [List.flatMap_append, List.flatMap_singleton]
    exact ih.trans happens.effect
  | reopen s =>
    exact ⟨(List.append_nil _).symm, (List.append_nil _).symm, s.backend.extends_reopened⟩
  | restart s =>
    exact ⟨(List.append_nil _).symm, (List.append_nil _).symm, s.backend.extends_renewed⟩

theorem Session.guarded (ht : ∀ n, (w n).fetcher = (t n).fetcher)
    (h : Session c w u exchanges s s') : ∀ x ∈ exchanges, x.Guarded t := by
  induction h with
  | more _ _ happens ih =>
    intro x hx
    rcases List.mem_append.1 hx with hx | hx
    · exact ih x hx
    · obtain rfl := List.mem_singleton.1 hx
      exact happens.guarded ht
  | _ => exact fun x hx => absurd hx List.not_mem_nil

/-- One more errand can be run. -/
theorem Session.errand (ht : ∀ n, (w n).fetcher = (t n).fetcher)
    (h : Session c w u before s s₁) {e : Errand} (hled : Led u (before.map Exchange.errand) e)
    (hruns : e.Runs c w s₁ s₂) :
    ∃ x, x.errand = e ∧ Session c w u (before ++ [x]) s s₂ := by
  obtain ⟨asked, written, heffect, -⟩ := Errand.exists_effect ht hruns
  exact ⟨⟨e, asked, written⟩, rfl, h.more hled ⟨hruns, heffect⟩⟩

/-- A text is looked up, and what comes of it is left to go on with. -/
theorem Session.lookup (ht : ∀ n, (w n).fetcher = (t n).fetcher) (h : Session c w u before s s₁)
    {kind : Kind} {raw : String}
    (hled : ∀ result, Led u (before.map Exchange.errand) (.lookup kind raw result)) :
    ∃ x, Session c w u (before ++ [x]) s (c.getEntity kind raw w s₁).2
      ∧ (∀ r, (c.getEntity kind raw w s₁).1 = .ok r → x.errand.Leaves kind r)
      ∧ (∀ e, (c.getEntity kind raw w s₁).1 = .error e → x.errand.Leaves kind .empty) := by
  obtain ⟨x, hx, hmore⟩ :=
    h.errand ht (hled (c.getEntity kind raw w s₁).1) (Prod.ext rfl rfl)
  refine ⟨x, hmore, fun r hr => ?_, fun e he => ?_⟩
  · rw [hx, hr]
    exact .found
  · rw [hx, he]
    exact .missed

theorem Session.hop (ht : ∀ n, (w n).fetcher = (t n).fetcher) (h : Session c w u before s s₁)
    {kind : Kind} {raw : String}
    (hled : ∀ result, Led u (before.map Exchange.errand) (.lookup kind raw result)) :
    ∃ x, Session c w u (before ++ [x]) s (c.hop kind raw w s₁).2
      ∧ ∀ r, (c.hop kind raw w s₁).1 = .ok r → x.errand.Leaves kind r := by
  obtain ⟨x, hmore, hfound, hmissed⟩ := h.lookup ht hled
  refine ⟨x, by rwa [hop_apply], fun r hr => ?_⟩
  cases passes_iff.2 (Prod.ext hr rfl) with
  | found answer => exact hfound r (congrArg Prod.fst answer)
  | replaced answer _ _ => exact hmissed _ (congrArg Prod.fst answer)

theorem led_space {last : Exchange} {app : Record} (h : last.errand.Leaves .app app)
    (result : Except Error Record) :
    Led u ((before ++ [last]).map Exchange.errand) (.lookup .space app.spaceGuid result) := by
  rw [List.map_append]
  exact .space h

theorem led_organization {last : Exchange} {space : Record} (h : last.errand.Leaves .space space)
    (result : Except Error Record) : Led u ((before ++ [last]).map Exchange.errand)
      (.lookup .organization space.organizationGuid result) := by
  rw [List.map_append]
  exact .organization h

/-- After the errands of an action come those of the next one, if there is a next one. -/
theorem Session.bind {α β : Type} {x : Action α} {f : α → Action β} {after : List Exchange}
    (hx : Session c w u (before ++ after) s (x w s₁).2)
    (hf : ∀ a, (x w s₁).1 = .ok a →
      ∃ more, Session c w u (before ++ after ++ more) s (f a w (x w s₁).2).2) :
    ∃ more, Session c w u (before ++ more) s ((x >>= f) w s₁).2 := by
  cases hdone : (x w s₁).1 with
  | ok a =>
    obtain ⟨more, hmore⟩ := hf a hdone
    rw [List.append_assoc] at hmore
    exact ⟨after ++ more, by rwa [Action.bind_of_ok hdone]⟩
  | error e => exact ⟨after, by rwa [Action.bind_of_error hdone]⟩

/-- What changes nothing takes no errand. -/
theorem Session.idle (h : Session c w u before s s₁) :
    ∃ more, Session c w u (before ++ more) s s₁ :=
  ⟨[], by rwa [List.append_nil]⟩

theorem exists_session_resolveApp (ht : ∀ n, (w n).fetcher = (t n).fetcher) (c : Cache)
    (raw : String) (s : State) :
    ∃ exchanges, Session c w (.resolve raw) exchanges s (c.resolveApp raw w s).2 := by
  have hstart : Session c w (.resolve raw) [] s s := .start _ s
  cases hguid : Guid.canonicalize raw with
  | error e =>
    obtain ⟨x, hx, -⟩ := hstart.lookup ht fun result => .resolved
    rw [getEntity_of_invalid (Key.parse_of_error hguid .app)] at hx
    rw [resolveApp_of_invalid (fun guid h => by rw [hguid] at h; cases h)]
    exact ⟨_, hx⟩
  | ok guid =>
    rw [resolveApp_apply hguid]
    -- Each hop is an errand, and one that fails is the last.
    obtain ⟨x, hx, happ⟩ := hstart.hop ht fun result => .resolved
    refine hx.bind fun app happDone => ?_
    obtain ⟨y, hy, hspace⟩ := hx.hop ht (led_space (happ app happDone))
    refine hy.bind fun space hspaceDone => ?_
    obtain ⟨z, hz, -⟩ := hy.hop ht (led_organization (hspace space hspaceDone))
    exact hz.bind fun organization _ => hz.idle

theorem exists_session_countOrganization (ht : ∀ n, (w n).fetcher = (t n).fetcher)
    (h : Session c w u before s s₁) {space : Record}
    (hled : ∀ result, Led u (before.map Exchange.errand)
      (.lookup .organization space.organizationGuid result)) (report : FillReport) :
    ∃ more, Session c w u (before ++ more) s (c.countOrganization space report w s₁).2 := by
  obtain ⟨x, hx, -⟩ := h.lookup ht hled
  unfold countOrganization
  refine Session.bind (x := Action.attempt _) hx fun result _ => ?_
  cases result with
  | ok r => exact hx.idle
  | error e =>
    simp only
    split <;> exact hx.idle

theorem exists_session_preload (ht : ∀ n, (w n).fetcher = (t n).fetcher)
    (h : Session c w .fill before s s₁) {found : List (String × Record)}
    (hlist : .list (.ok found) ∈ before.map Exchange.errand) {listed : String × Record}
    (hmem : listed ∈ found) (report : FillReport) :
    ∃ more, Session c w .fill (before ++ more) s (c.preload report listed w s₁).2 := by
  obtain ⟨raw, r⟩ := listed
  unfold preload
  rw [← Action.bind_assoc]
  have hruns : (Errand.keep raw r (c.keepListed raw r w s₁).1).Runs c w s₁
      (c.keepListed raw r w s₁).2 := rfl
  obtain ⟨x, hx, hkept⟩ := h.errand ht (.listed hlist hmem) hruns
  refine Session.bind hkept fun app happ => ?_
  have hleaves : x.errand.Leaves .app app := by
    rw [hx, show (c.keepListed raw r w s₁).1 = .ok app from happ]
    exact .kept
  obtain ⟨y, hy, hfound, hmissed⟩ := hkept.lookup ht (led_space hleaves)
  refine Session.bind (x := Action.attempt _) hy fun result hresult => ?_
  have hresult := Except.ok.inj hresult
  -- However the space was looked up, the organization comes next.
  cases result with
  | ok space =>
    exact exists_session_countOrganization ht hy (led_organization (hfound space hresult)) _
  | error e =>
    simp only
    split
    · exact exists_session_countOrganization ht hy (led_organization (hmissed e hresult)) _
    · exact hy.idle

theorem exists_session_fold (ht : ∀ n, (w n).fetcher = (t n).fetcher)
    (h : Session c w .fill before s s₁) {found : List (String × Record)}
    (hlist : .list (.ok found) ∈ before.map Exchange.errand) {rest : List (String × Record)}
    (hrest : rest ⊆ found) (report : FillReport) :
    ∃ more, Session c w .fill (before ++ more) s (rest.foldlM c.preload report w s₁).2 := by
  induction rest generalizing before s₁ report with
  | nil => exact h.idle
  | cons listed rest ih =>
    obtain ⟨hmem, hrest⟩ := List.cons_subset.1 hrest
    obtain ⟨xs, hxs⟩ := exists_session_preload ht h hlist hmem report
    rw [List.foldlM_cons]
    refine Session.bind hxs fun report _ => ih hxs ?_ hrest report
    rw [List.map_append]
    exact List.mem_append_left _ hlist

theorem exists_session_fillAll (ht : ∀ n, (w n).fetcher = (t n).fetcher) (c : Cache) (s : State) :
    ∃ exchanges, Session c w .fill exchanges s (c.fillAll w s).2 := by
  have hstart : Session c w .fill [] s s := .start _ s
  unfold fillAll
  split
  · have hruns : (Errand.list (listApps w s).1).Runs c w s (listApps w s).2 := rfl
    obtain ⟨x, hx, hlisted⟩ := hstart.errand ht .filled hruns
    refine Session.bind (x := listApps) hlisted fun found hfound => ?_
    refine exists_session_fold ht hlisted ?_ (List.Subset.refl found) .zero
    rw [List.nil_append, List.map_singleton, hx, hfound]
    exact List.mem_singleton_self _
  · exact ⟨[], hstart⟩

theorem exists_session_use (ht : ∀ n, (w n).fetcher = (t n).fetcher) (c : Cache) (s : State)
    (u : Use) : ∃ exchanges, Session c w u exchanges s (c.use w s u) := by
  cases u with
  | lookup kind raw =>
    obtain ⟨x, hx, -⟩ := (Session.start (c := c) (w := w) (.lookup kind raw) s).lookup ht
      fun result => .told
    exact ⟨_, hx⟩
  | resolve raw => exact exists_session_resolveApp ht c raw s
  | fill => exact exists_session_fillAll ht c s
  | reopen => exact ⟨[], .reopen s⟩
  | restart => exact ⟨[], .restart s⟩

end Guarded

/-- **Whatever texts come in, only guids come out.** Every path that is ever asked for and every key
that is ever written under ends in the canonical guid of the text that it is for, but for the paths
of a list. A text that spells no guid leads to no request and to nothing in the store. -/
theorem uses_guarded (c : Cache) (now : Nat → Instant) (draw : Nat → UInt64) (t : Nat → Transport)
    (s : State) (uses : List Use) :
    ∃ dialog : List (Use × List Exchange), dialog.map Prod.fst = uses
      ∧ Dialog c (.over now draw t) dialog s (uses.foldl (c.use (.over now draw t)) s)
      ∧ Effect s (uses.foldl (c.use (.over now draw t)) s)
        (dialog.flatMap fun call => call.2.flatMap Exchange.asked)
        (dialog.flatMap fun call => call.2.flatMap Exchange.written)
      ∧ ∀ call ∈ dialog, ∀ x ∈ call.2, x.Guarded t := by
  induction uses generalizing s with
  | nil => exact ⟨[], rfl, rfl, .refl s, fun call hcall => absurd hcall List.not_mem_nil⟩
  | cons u uses ih =>
    have ht (n : Nat) : (World.over now draw t n).fetcher = (t n).fetcher := rfl
    obtain ⟨exchanges, hsession⟩ := exists_session_use ht c s u
    obtain ⟨dialog, huses, hdialog, heffect, hguarded⟩ := ih (c.use (.over now draw t) s u)
    refine ⟨(u, exchanges) :: dialog, by rw [List.map_cons, huses], ⟨_, hsession, hdialog⟩,
      hsession.effect.trans heffect, fun call hcall => ?_⟩
    rcases List.mem_cons.1 hcall with rfl | hcall
    · exact hsession.guarded ht
    · exact hguarded call hcall

end Cache

end MetaCache
