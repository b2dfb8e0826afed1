import MetaCache.Cache.ReadThrough
import MetaCache.Proofs.Remote.Asked

/-!
# A cache depends on what it asks for

The journal of paths only grows, and it is complete: in two worlds that are the same but for the
fetchers, and whose fetchers agree on the paths in the journal, an action does the same
(`Confined`). Actions that are put together of confined ones are confined, so all calls to a cache
are.
-/

namespace MetaCache.Cache

open MetaCache.Remote MetaCache.Store

/-- Two worlds are the same but for the answers to other paths. -/
structure World.AgreesOn (w w' : World) (paths : List String) : Prop where
  now : ∀ n, (w' n).now = (w n).now
  draw : ∀ n, (w' n).draw = (w n).draw
  fetcher : ∀ n, (w n).fetcher.AgreesOn (w' n).fetcher paths

/-- An action depends on nothing in the world but the clock, chance, and the answers to the paths
that it adds to the journal. -/
structure Confined {α : Type} (x : Action α) : Prop where
  grows : ∀ (w : World) (s : State), s.asked ⊆ (x w s).2.asked
  congr : ∀ {w w' : World} {s : State} {paths : List String},
    w.AgreesOn w' paths → (x w s).2.asked ⊆ paths → x w' s = x w s

namespace Confined

variable {α β : Type}

theorem ofExcept (result : Except Error α) : Confined (Action.ofExcept result) :=
  ⟨fun _ _ => List.Subset.refl _, fun _ _ => rfl⟩

theorem pure (a : α) : Confined (pure a : Action α) :=
  ⟨fun _ _ => List.Subset.refl _, fun _ _ => rfl⟩

theorem bind {x : Action α} {f : α → Action β} (hx : Confined x) (hf : ∀ a, Confined (f a)) :
    Confined (x >>= f) where
  grows w s := by
    rw [Action.bind_apply]
    have hgrows := hx.grows w s
    split
    · next a s' hdone =>
      rw [hdone] at hgrows
      exact List.Subset.trans hgrows ((hf a).grows w s')
    · next e s' hdone =>
      rw [hdone] at hgrows
      exact hgrows
  congr := by
    intro w w' s paths hagree hasked
    rw [Action.bind_apply] at hasked ⊢
    rw [Action.bind_apply]
    split at hasked
    · next a s' hdone =>
      have hbefore : (x w s).2.asked ⊆ paths := by
        rw [hdone]
        exact List.Subset.trans ((hf a).grows w s') hasked
      rw [hx.congr hagree hbefore, hdone]
      exact (hf a).congr hagree hasked
    · next e s' hdone =>
      rw [hx.congr hagree (by rwa [hdone]), hdone]

theorem attempt {x : Action α} (hx : Confined x) : Confined (Action.attempt x) where
  grows := hx.grows
  congr := by
    intro w w' s paths hagree hasked
    unfold Action.attempt
    rw [hx.congr hagree hasked]

theorem onBackend (use : Backend → Outcome Backend α) : Confined (Action.onBackend use) :=
  ⟨fun _ _ => List.Subset.refl _, fun _ _ => rfl⟩

theorem deposit (key : Key) (r : Record) (now : Instant) : Confined (Action.deposit key r now) :=
  ⟨fun _ _ => List.Subset.refl _, fun _ _ => rfl⟩

/-- What is done with a moment must not touch its fetcher. -/
theorem moment_bind {f : Moment → Action α} (hf : ∀ m, Confined (f m))
    (hsame : ∀ {m m' : Moment}, m'.now = m.now → m'.draw = m.draw → f m' = f m) :
    Confined (Action.moment >>= f) where
  grows w s := (hf (w s.elapsed)).grows w { s with elapsed := s.elapsed + 1 }
  congr := by
    intro w w' s paths hagree hasked
    show f (w' s.elapsed) w' _ = f (w s.elapsed) w _
    rw [hsame (hagree.now s.elapsed) (hagree.draw s.elapsed)]
    exact (hf (w s.elapsed)).congr hagree hasked

theorem fetch_one (kind : Kind) (guid : Guid) :
    Confined (Action.fetch fun fetcher => fetcher.one kind guid) where
  grows _ _ := List.subset_append_left ..
  congr := by
    intro w w' s paths hagree hasked
    have hpaths := List.Subset.trans (List.subset_append_right ..) hasked
    have hreply := (hagree.fetcher s.elapsed).one hpaths
    unfold Action.fetch
    simp only [hreply]

theorem fetch_all (kind : Kind) : Confined (Action.fetch fun fetcher => fetcher.all kind) where
  grows _ _ := List.subset_append_left ..
  congr := by
    intro w w' s paths hagree hasked
    have hpaths := List.Subset.trans (List.subset_append_right ..) hasked
    have hreply := (hagree.fetcher s.elapsed).all hpaths
    unfold Action.fetch
    simp only [hreply]

theorem foldlM {σ : Type} {f : σ → α → Action σ} (hf : ∀ s a, Confined (f s a)) (start : σ)
    (as : List α) : Confined (as.foldlM f start) := by
  induction as generalizing start with
  | nil => exact .pure start
  | cons a as ih =>
    rw [List.foldlM_cons]
    exact (hf start a).bind ih

end Confined

variable (c : Cache)

theorem confined_store (key : Key) (r : Record) : Confined (c.store key r) := by
  unfold store
  refine .moment_bind (fun m => (Confined.deposit ..).bind fun _ => .pure _) ?_
  intro m m' hnow hdraw
  rw [hnow, hdraw]

theorem confined_refresh (key : Key) : Confined (c.refresh key) := by
  unfold refresh
  refine (Confined.fetch_one ..).attempt.bind fun result => ?_
  cases result with
  | ok r => exact c.confined_store key r
  | error e =>
    simp only
    split
    · exact (c.confined_store key .empty).bind fun _ => .ofExcept _
    · exact .ofExcept _

theorem confined_freshRecord? (key : Key) : Confined (freshRecord? key) := by
  unfold freshRecord?
  refine (Confined.onBackend _).bind fun found => ?_
  cases found with
  | none => exact .pure none
  | some r =>
    refine .moment_bind (fun m => .pure _) ?_
    intro m m' hnow _
    rw [hnow]

theorem confined_getEntity (kind : Kind) (raw : String) : Confined (c.getEntity kind raw) := by
  unfold getEntity
  refine (Confined.ofExcept _).bind fun key => (confined_freshRecord? key).bind fun found => ?_
  cases found with
  | none => exact c.confined_refresh key
  | some r => exact .pure r

theorem confined_hop (kind : Kind) (raw : String) : Confined (c.hop kind raw) := by
  unfold hop
  refine (c.confined_getEntity kind raw).attempt.bind fun result => ?_
  cases result with
  | ok r => exact .pure r
  | error e =>
    simp only
    split
    · exact .pure _
    · exact .ofExcept _

theorem confined_resolveApp (raw : String) : Confined (c.resolveApp raw) := by
  unfold resolveApp
  exact (Confined.ofExcept _).bind fun guid => (c.confined_hop .app guid.text).bind fun app =>
    (c.confined_hop .space app.spaceGuid).bind fun space =>
      (c.confined_hop .organization space.organizationGuid).bind fun _ => .pure _

theorem confined_countOrganization (space : Record) (report : FillReport) :
    Confined (c.countOrganization space report) := by
  unfold countOrganization
  refine (c.confined_getEntity ..).attempt.bind fun result => ?_
  cases result with
  | ok r => exact .pure _
  | error e =>
    simp only
    split
    · exact .pure _
    · exact .ofExcept _

theorem confined_preload (report : FillReport) (listed : String × Record) :
    Confined (c.preload report listed) := by
  have horganization (spaced : Record × FillReport) :
    Confined (c.countOrganization spaced.1 spaced.2) := c.confined_countOrganization ..
  unfold preload
  refine (Confined.ofExcept _).bind fun key => (c.confined_store key listed.2).bind fun app => ?_
  refine (c.confined_getEntity .space app.spaceGuid).attempt.bind fun result => ?_
  cases result with
  | ok space => exact (Confined.pure _).bind horganization
  | error e =>
    simp only
    split
    · exact (Confined.pure _).bind horganization
    · exact (Confined.ofExcept _).bind horganization

theorem confined_fillAll : Confined c.fillAll := by
  have hfill : Confined (do
      let apps ← Action.fetch fun fetcher => fetcher.all .app
      apps.foldlM c.preload .zero : Action FillReport) :=
    (Confined.fetch_all .app).bind fun apps => .foldlM c.confined_preload .zero apps
  constructor
  · intro w s
    unfold fillAll
    split
    · exact hfill.grows w s
    · exact List.Subset.refl _
  · intro w w' s paths hagree hasked
    unfold fillAll at hasked ⊢
    by_cases hretains : s.backend.retains
    · rw [if_pos hretains] at hasked ⊢
      rw [if_pos hretains]
      exact hfill.congr hagree hasked
    · rw [if_neg hretains, if_neg hretains]

end MetaCache.Cache
