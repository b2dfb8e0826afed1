import MetaCache.Cache.ReadThrough
import MetaCache.Proofs.Store.Answers
import Mathlib.Logic.Relation

/-!
# What calls do, step by step

Whatever a cache is asked to do, it does four things to its state: it looks into the store, it takes
a moment, it asks the API, and it stores a normalized record. One equation per operation says which
of them it does (`store_apply`, `refresh_apply`, `getEntity_apply`). Every call is a sequence of
them, so what the four steps keep holds after every call and at every point inside one.

A record that is stored has a *source*: the API has answered it for its key, has listed it, or has
said that there is no such app.
-/

namespace MetaCache.Cache

open MetaCache.Remote MetaCache.Store

namespace State

/-- After a look into the store. -/
def looked (s : State) (key : Key) : State := { s with backend := (s.backend.get key).2 }

/-- After a moment. -/
def later (s : State) : State := { s with elapsed := s.elapsed + 1 }

/-- After a fetch that asked for some paths. -/
def fetched (s : State) (paths : List String) : State :=
  { s with fetches := s.fetches + 1, elapsed := s.elapsed + 1, asked := s.asked ++ paths }

/-- After a record was handed to the store. -/
def deposited (s : State) (key : Key) (r : Record) (now : Instant) : State :=
  { s with
    backend := (s.backend.put key r).2
    deposits := s.deposits ++ [⟨key, r, now, (s.backend.put key r).1.isOk⟩] }

/-- After a record was normalized and stored. -/
def stored (s : State) (c : Cache) (w : World) (key : Key) (r : Record) : State :=
  s.later.deposited key (c.normalizer.normalize key.kind r (w s.elapsed).now (w s.elapsed).draw)
    (w s.elapsed).now

end State

variable {c : Cache} {w : World}

/-! ## Equations -/

theorem Action.attempt_bind {α β : Type} (x : Action α) (f : Except Error α → Action β) (w : World)
    (s : State) : (Action.attempt x >>= f) w s = f (x w s).1 w (x w s).2 := rfl

theorem Action.ofExcept_bind_ok {α β : Type} {result : Except Error α} {a : α}
    (h : result = .ok a) (f : α → Action β) (w : World) (s : State) :
    (Action.ofExcept result >>= f) w s = f a w s := by
  rw [Action.bind_apply, Action.ofExcept, h]

theorem Action.attempt_eq_ok_iff {α : Type} {x : Action α} {w : World} {s s' : State}
    {result : Except Error α} : Action.attempt x w s = (.ok result, s') ↔ x w s = (result, s') := by
  rw [attempt, Prod.ext_iff, Prod.ext_iff]
  exact and_congr_left fun _ => ⟨Except.ok.inj, congrArg Except.ok⟩

/-- After an action that succeeds the next one goes on. -/
theorem Action.bind_ok {α β : Type} {x : Action α} {f : α → Action β} {w : World} {s s₁ : State}
    {a : α} (h : x w s = (.ok a, s₁)) : (x >>= f) w s = f a w s₁ := by
  rw [Action.bind_apply, h]

/-- After an action that fails nothing else is done. -/
theorem Action.bind_error {α β : Type} {x : Action α} {f : α → Action β} {w : World} {s s₁ : State}
    {e : Error} (h : x w s = (.error e, s₁)) : (x >>= f) w s = (.error e, s₁) := by
  rw [Action.bind_apply, h]

theorem Action.bind_of_ok {α β : Type} {x : Action α} {f : α → Action β} {w : World} {s : State}
    {a : α} (h : (x w s).1 = .ok a) : (x >>= f) w s = f a w (x w s).2 :=
  Action.bind_ok (Prod.ext h rfl)

theorem Action.bind_of_error {α β : Type} {x : Action α} {f : α → Action β} {w : World} {s : State}
    {e : Error} (h : (x w s).1 = .error e) : (x >>= f) w s = (.error e, (x w s).2) :=
  Action.bind_error (Prod.ext h rfl)

theorem Action.bind_assoc {α β γ : Type} (x : Action α) (f : α → Action β) (g : β → Action γ) :
    x >>= f >>= g = x >>= fun a => f a >>= g := by
  funext w s
  cases hdone : x w s with
  | mk result s₁ =>
    cases result with
    | error e => rw [Action.bind_error (Action.bind_error hdone), Action.bind_error hdone]
    | ok a =>
      rw [Action.bind_ok hdone, Action.bind_apply, Action.bind_ok hdone, Action.bind_apply]

/-- One action after another succeeds if both do. -/
theorem Action.bind_eq_ok_iff {α β : Type} {x : Action α} {f : α → Action β} {w : World}
    {s s' : State} {b : β} :
    (x >>= f) w s = (.ok b, s') ↔ ∃ a s₁, x w s = (.ok a, s₁) ∧ f a w s₁ = (.ok b, s') := by
  rw [Action.bind_apply]
  constructor
  · intro h
    split at h
    · next a s₁ hx => exact ⟨a, s₁, hx, h⟩
    · cases h
  · rintro ⟨a, s₁, hx, hf⟩
    rw [hx]
    exact hf

/-- Over a list that has come to some point, the rest goes on from there. -/
theorem Action.foldlM_append {α β : Type} {f : β → α → Action β} {before rest : List α} {b b' : β}
    {s s₁ : State} (h : before.foldlM f b w s = (.ok b', s₁)) :
    (before ++ rest).foldlM f b w s = rest.foldlM f b' w s₁ := by
  induction before generalizing b s with
  | nil =>
    cases h
    rfl
  | cons a before ih =>
    rw [List.foldlM_cons] at h
    obtain ⟨b₁, s₂, hfirst, hrest⟩ := Action.bind_eq_ok_iff.1 h
    rw [List.cons_append, List.foldlM_cons, Action.bind_ok hfirst]
    exact ih hrest

theorem store_apply (c : Cache) (key : Key) (r : Record) (w : World) (s : State) :
    c.store key r w s =
      ((s.backend.put key
          (c.normalizer.normalize key.kind r (w s.elapsed).now (w s.elapsed).draw)).1.map
        fun _ => c.normalizer.normalize key.kind r (w s.elapsed).now (w s.elapsed).draw,
        s.stored c w key r) := by
  show (Action.deposit key _ _ >>= fun _ => pure _ : Action Record) w s.later = _
  rw [Action.bind_apply, Action.deposit]
  simp only [State.later, State.stored, State.deposited, Action.pure_apply]
  cases (s.backend.put key
    (c.normalizer.normalize key.kind r (w s.elapsed).now (w s.elapsed).draw)).1 <;> rfl

/-- What comes of storing is the normalized record. -/
theorem store_eq_ok {c : Cache} {key : Key} {r stored : Record} {w : World} {s s' : State}
    (h : c.store key r w s = (.ok stored, s')) :
    stored = c.normalizer.normalize key.kind r (w s.elapsed).now (w s.elapsed).draw
      ∧ s' = s.stored c w key r := by
  rw [store_apply] at h
  obtain ⟨hresult, rfl⟩ := Prod.mk.inj h
  refine ⟨?_, rfl⟩
  cases hput : (s.backend.put key
      (c.normalizer.normalize key.kind r (w s.elapsed).now (w s.elapsed).draw)).1 with
  | error e => rw [hput] at hresult; cases hresult
  | ok done =>
    rw [hput] at hresult
    exact (Except.ok.inj hresult).symm

/-- What the store takes is answered. -/
theorem store_of_isOk {c : Cache} {key : Key} {r : Record} {w : World} {s : State}
    (h : (s.backend.put key
      (c.normalizer.normalize key.kind r (w s.elapsed).now (w s.elapsed).draw)).1.isOk) :
    c.store key r w s
      = (.ok (c.normalizer.normalize key.kind r (w s.elapsed).now (w s.elapsed).draw),
        s.stored c w key r) := by
  rw [store_apply]
  cases hput : (s.backend.put key
      (c.normalizer.normalize key.kind r (w s.elapsed).now (w s.elapsed).draw)).1 with
  | ok done => rfl
  | error e =>
    rw [hput] at h
    cases h

theorem refresh_apply (c : Cache) (key : Key) (w : World) (s : State) :
    c.refresh key w s =
      match ((w s.elapsed).fetcher.one key.kind key.guid).answer with
      | .ok r =>
        c.store key r w (s.fetched ((w s.elapsed).fetcher.one key.kind key.guid).asked)
      | .error e =>
        if key.kind = .app && c.tolerates e then
          ((c.store key .empty w
              (s.fetched ((w s.elapsed).fetcher.one key.kind key.guid).asked)).1.bind
            fun _ => .error e,
            (s.fetched ((w s.elapsed).fetcher.one key.kind key.guid).asked).stored c w key .empty)
        else (.error e, s.fetched ((w s.elapsed).fetcher.one key.kind key.guid).asked) := by
  rw [refresh, Action.attempt_bind]
  have hfetch : Action.fetch (fun fetcher => fetcher.one key.kind key.guid) w s =
    (((w s.elapsed).fetcher.one key.kind key.guid).answer,
      s.fetched ((w s.elapsed).fetcher.one key.kind key.guid).asked) := rfl
  rw [hfetch]
  cases ((w s.elapsed).fetcher.one key.kind key.guid).answer with
  | ok r => rfl
  | error e =>
    dsimp only
    split
    · rw [Action.bind_apply, store_apply]
      dsimp only
      generalize (s.fetched _).backend.put key _ = done
      cases done.1 <;> rfl
    · rfl

theorem freshRecord?_apply (key : Key) (w : World) (s : State) :
    freshRecord? key w s =
      match s.backend.answer key with
      | .error e => (.error e, s.looked key)
      | .ok none => (.ok none, s.looked key)
      | .ok (some r) =>
        (.ok (if r.isFreshAt (w s.elapsed).now then some r else none), (s.looked key).later) := by
  rw [freshRecord?, Action.bind_apply]
  simp only [Action.onBackend, Backend.answer]
  cases (s.backend.get key).1 with
  | error e => rfl
  | ok found => cases found <;> rfl

theorem getEntity_apply {kind : Kind} {raw : String} {key : Key}
    (hkey : Key.parse kind raw = .ok key) (c : Cache) (w : World) (s : State) :
    c.getEntity kind raw w s =
      match s.backend.answer key with
      | .error e => (.error e, s.looked key)
      | .ok none => c.refresh key w (s.looked key)
      | .ok (some r) =>
        if r.isFreshAt (w s.elapsed).now then (.ok r, (s.looked key).later)
        else c.refresh key w (s.looked key).later := by
  rw [getEntity, Action.ofExcept_bind_ok hkey, Action.bind_apply, freshRecord?_apply]
  cases s.backend.answer key with
  | error e => rfl
  | ok found =>
    cases found with
    | none => rfl
    | some r =>
      dsimp only
      split <;> rfl

theorem getEntity_of_invalid {kind : Kind} {raw : String} {e : Error}
    (hkey : Key.parse kind raw = .error e) (c : Cache) (w : World) (s : State) :
    c.getEntity kind raw w s = (.error e, s) := by
  rw [getEntity, Action.bind_apply, Action.ofExcept, hkey]

theorem hop_apply (c : Cache) (kind : Kind) (raw : String) (w : World) (s : State) :
    c.hop kind raw w s =
      ((match (c.getEntity kind raw w s).1 with
        | .ok r => .ok r
        | .error e => if c.tolerates e then .ok .empty else .error e),
        (c.getEntity kind raw w s).2) := by
  rw [hop, Action.attempt_bind]
  cases (c.getEntity kind raw w s).1 with
  | ok r => rfl
  | error e =>
    dsimp only
    split <;> rfl

theorem countOrganization_apply (c : Cache) (space : Record) (report : FillReport) (w : World)
    (s : State) :
    c.countOrganization space report w s =
      ((match (c.getEntity .organization space.organizationGuid w s).1 with
        | .ok _ => .ok { report with organizations := report.organizations + 1 }
        | .error e => if c.tolerates e then .ok report else .error e),
        (c.getEntity .organization space.organizationGuid w s).2) := by
  rw [countOrganization, Action.attempt_bind]
  cases (c.getEntity .organization space.organizationGuid w s).1 with
  | ok r => rfl
  | error e =>
    dsimp only
    split <;> rfl

/-- A listed app is stored first, and its space and its organization are looked up then. -/
theorem preload_apply {listed : String × Record} {key : Key} {app : Record} {s s₁ : State}
    (hparse : Key.parse .app listed.1 = .ok key) (hstore : c.store key listed.2 w s = (.ok app, s₁))
    (happ : app.spaceGuid = listed.2.spaceGuid) {report : FillReport} :
    c.preload report listed w s =
      match (c.getEntity .space listed.2.spaceGuid w s₁).1 with
      | .ok space => c.countOrganization space
          ⟨report.apps + 1, report.spaces + 1, report.organizations⟩ w
          (c.getEntity .space listed.2.spaceGuid w s₁).2
      | .error e => if c.tolerates e then c.countOrganization .empty
          ⟨report.apps + 1, report.spaces, report.organizations⟩ w
          (c.getEntity .space listed.2.spaceGuid w s₁).2
        else (.error e, (c.getEntity .space listed.2.spaceGuid w s₁).2) := by
  unfold preload
  rw [Action.ofExcept_bind_ok hparse, Action.bind_ok hstore, happ, Action.attempt_bind]
  cases (c.getEntity .space listed.2.spaceGuid w s₁).1 with
  | ok space => rfl
  | error e =>
    simp only
    split <;> rfl

theorem fillAll_apply (c : Cache) (w : World) (s : State) :
    c.fillAll w s =
      if s.backend.retains then
        match ((w s.elapsed).fetcher.all .app).answer with
        | .ok found =>
          found.foldlM c.preload .zero w (s.fetched ((w s.elapsed).fetcher.all .app).asked)
        | .error e => (.error e, s.fetched ((w s.elapsed).fetcher.all .app).asked)
      else (.ok .zero, s) := by
  have hfetch : Action.fetch (fun fetcher => fetcher.all .app) w s
    = (((w s.elapsed).fetcher.all .app).answer,
      s.fetched ((w s.elapsed).fetcher.all .app).asked) := rfl
  unfold fillAll
  split
  · cases hanswer : ((w s.elapsed).fetcher.all .app).answer with
    | error e => exact Action.bind_error (hanswer ▸ hfetch)
    | ok found => exact Action.bind_ok (hanswer ▸ hfetch)
  · rfl

/-! ## Steps -/

/-- Where a record to be stored comes from. -/
inductive Source (c : Cache) (w : World) (key : Key) : Record → Prop
  /-- The API has answered it. -/
  | fetched {n : Nat} {r : Record}
      (answer : ((w n).fetcher.one key.kind key.guid).answer = .ok r) : Source c w key r
  /-- The API has listed it. -/
  | listed {n : Nat} {found : List (String × Record)} {raw : String} {r : Record}
      (answer : ((w n).fetcher.all .app).answer = .ok found) (mem : (raw, r) ∈ found)
      (parsed : Key.parse .app raw = .ok key) : Source c w key r
  /-- The API has said that there is no such app. -/
  | missing {n : Nat} {e : Error} (isApp : key.kind = .app)
      (answer : ((w n).fetcher.one key.kind key.guid).answer = .error e)
      (tolerated : c.tolerates e) : Source c w key .empty

/-- One of the four things that a cache does to its state. -/
inductive Step (c : Cache) (w : World) : State → State → Prop
  | look (s : State) (key : Key) : Step c w s (s.looked key)
  | moment (s : State) : Step c w s s.later
  | ask (s : State) (paths : List String) : Step c w s (s.fetched paths)
  | store (s : State) {key : Key} {r : Record} (source : Source c w key r) :
      Step c w s (s.stored c w key r)

/-- Any number of steps. -/
abbrev Steps (c : Cache) (w : World) : State → State → Prop := Relation.ReflTransGen (Step c w)

/-- One action after another. -/
theorem steps_bind {α β : Type} {x : Action α} {f : α → Action β} {s : State}
    (hx : Steps c w s (x w s).2)
    (hf : ∀ a, (x w s).1 = .ok a → Steps c w (x w s).2 (f a w (x w s).2).2) :
    Steps c w s ((x >>= f) w s).2 := by
  cases hdone : (x w s).1 with
  | ok a =>
    rw [Action.bind_of_ok hdone]
    exact hx.trans (hf a hdone)
  | error e =>
    rw [Action.bind_of_error hdone]
    exact hx

end MetaCache.Cache
