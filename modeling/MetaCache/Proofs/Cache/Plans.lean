import MetaCache.Proofs.Cache.Steps

/-!
# Calls as plans

What a call does next depends on the cache and on what came back before, and on nothing else. A
*plan* says how: it is a tree of lookups and of records to be stored, with a branch for everything
that may come back. Every call is a plan that is carried out (`action_resolvePlan`,
`fillAll_eq_plan`). So it can be told of a call which lookups it makes, one after the other, and
from which states (`Plan.lookups`), though the call itself keeps no record of them.
-/

namespace MetaCache.Cache

open MetaCache.Remote MetaCache.Store

/-- What remains to be done, depending on what comes back. -/
inductive Plan (α : Type)
  | done (result : Except Error α)
  /-- Looks up an entity, and goes on in any case. -/
  | lookUp (kind : Kind) (raw : String) (next : Except Error Record → Plan α)
  /-- Stores a record, and goes on with what was stored. -/
  | keep (key : Key) (r : Record) (next : Record → Plan α)

/-- A lookup in the course of a call. -/
structure Lookup where
  kind : Kind
  raw : String
  /-- The state in which it begins. -/
  before : State

namespace Plan

variable {α β : Type}

protected def bind : Plan α → (α → Plan β) → Plan β
  | done (.ok a), f => f a
  | done (.error e), _ => done (.error e)
  | lookUp kind raw next, f => lookUp kind raw fun result => (next result).bind f
  | keep key r next, f => keep key r fun stored => (next stored).bind f

instance : Monad Plan where
  pure a := done (.ok a)
  bind := Plan.bind

/-- Carries out a plan. -/
def action (c : Cache) : Plan α → Action α
  | done result => .ofExcept result
  | lookUp kind raw next =>
    Action.attempt (c.getEntity kind raw) >>= fun result => (next result).action c
  | keep key r next => c.store key r >>= fun stored => (next stored).action c

/-- The lookups that are made when a plan is carried out, in order. -/
def lookups (c : Cache) : Plan α → World → State → List Lookup
  | done _, _, _ => []
  | lookUp kind raw next, w, s =>
    ⟨kind, raw, s⟩ ::
      (next (c.getEntity kind raw w s).1).lookups c w (c.getEntity kind raw w s).2
  | keep key r next, w, s =>
    match (c.store key r w s).1 with
    | .ok stored => (next stored).lookups c w (c.store key r w s).2
    | .error _ => []

variable {c : Cache} {w : World}

theorem action_bind (p : Plan α) (f : α → Plan β) :
    (p >>= f).action c = p.action c >>= fun a => (f a).action c := by
  show (p.bind f).action c = _
  induction p with
  | done result => cases result <;> rfl
  | lookUp kind raw next ih =>
    simp only [Plan.bind, action, ih]
    exact (Action.bind_assoc _ _ _).symm
  | keep key r next ih =>
    simp only [Plan.bind, action, ih]
    exact (Action.bind_assoc _ _ _).symm

theorem action_foldlM {γ : Type} {f : β → γ → Plan β} {g : β → γ → Action β}
    (h : ∀ b a, (f b a).action c = g b a) (start : β) (as : List γ) :
    (as.foldlM f start).action c = as.foldlM g start := by
  induction as generalizing start with
  | nil => rfl
  | cons a as ih =>
    rw [List.foldlM_cons, List.foldlM_cons, action_bind, h]
    simp only [ih]

/-- **What is told of each lookup, and of storing, is told of a plan and its lookups**, if it can be
put together. -/
theorem tell {R : List Lookup → State → State → Prop} (hnothing : ∀ s, R [] s s)
    (htogether : ∀ {first next s s₁ s₂}, R first s s₁ → R next s₁ s₂ → R (first ++ next) s s₂)
    (hlookup : ∀ kind raw s, R [⟨kind, raw, s⟩] s (c.getEntity kind raw w s).2)
    (hstore : ∀ key r s, R [] s (c.store key r w s).2) (p : Plan α) (s : State) :
    R (p.lookups c w s) s (p.action c w s).2 := by
  induction p generalizing s with
  | done result => exact hnothing s
  | lookUp kind raw next ih => exact htogether (hlookup kind raw s) (ih _ _)
  | keep key r next ih =>
    have hfirst := hstore key r s
    unfold lookups action
    cases hdone : (c.store key r w s).1 with
    | ok stored =>
      rw [Action.bind_of_ok hdone]
      exact htogether hfirst (ih stored _)
    | error e =>
      rw [Action.bind_of_error hdone]
      exact hfirst

end Plan

/-! ## The plans of calls -/

/-- What comes of something missing, if it is tolerated. -/
def excused {α : Type} (c : Cache) (instead : α) (e : Error) : Plan α :=
  .done (if c.tolerates e then .ok instead else .error e)

def hopPlan (c : Cache) (kind : Kind) (raw : String) : Plan Record :=
  .lookUp kind raw fun
    | .ok r => pure r
    | .error e => c.excused .empty e

def resolvePlan (c : Cache) (raw : String) : Plan App := do
  let guid ← Plan.done (Guid.canonicalize raw)
  let app ← c.hopPlan .app guid.text
  let space ← c.hopPlan .space app.spaceGuid
  let organization ← c.hopPlan .organization space.organizationGuid
  return App.assemble guid.text app space organization

def organizationPlan (c : Cache) (space : Record) (report : FillReport) : Plan FillReport :=
  .lookUp .organization space.organizationGuid fun
    | .ok _ => pure { report with organizations := report.organizations + 1 }
    | .error e => c.excused report e

def preloadPlan (c : Cache) (report : FillReport) (listed : String × Record) :
    Plan FillReport := do
  let key ← Plan.done (Key.parse .app listed.1)
  .keep key listed.2 fun app =>
    .lookUp .space app.spaceGuid fun
      | .ok space =>
        c.organizationPlan space ⟨report.apps + 1, report.spaces + 1, report.organizations⟩
      | .error e => do
        let space ← c.excused .empty e
        c.organizationPlan space ⟨report.apps + 1, report.spaces, report.organizations⟩

/-- What remains of a preload when the apps are listed. -/
def preloadsPlan (c : Cache) (found : List (String × Record)) : Plan FillReport :=
  found.foldlM c.preloadPlan .zero

variable (c : Cache)

theorem action_excused {α : Type} (instead : α) (e : Error) :
    (c.excused instead e).action c = if c.tolerates e then pure instead else .fail e := by
  simp only [excused, Plan.action]
  split <;> rfl

theorem action_hopPlan (kind : Kind) (raw : String) :
    (c.hopPlan kind raw).action c = c.hop kind raw := by
  unfold hop
  simp only [hopPlan, Plan.action]
  congr 1
  funext result
  cases result with
  | ok r => rfl
  | error e => exact c.action_excused _ e

/-- **To resolve an app is to carry out its plan.** -/
theorem action_resolvePlan (raw : String) : (c.resolvePlan raw).action c = c.resolveApp raw := by
  simp only [resolvePlan, Plan.action_bind, action_hopPlan]
  rfl

theorem action_organizationPlan (space : Record) (report : FillReport) :
    (c.organizationPlan space report).action c = c.countOrganization space report := by
  unfold countOrganization
  simp only [organizationPlan, Plan.action]
  congr 1
  funext result
  cases result with
  | ok r => rfl
  | error e => exact c.action_excused _ e

theorem action_preloadPlan (report : FillReport) (listed : String × Record) :
    (c.preloadPlan report listed).action c = c.preload report listed := by
  unfold preload
  simp only [preloadPlan, Plan.action_bind]
  congr 1
  funext key
  simp only [Plan.action]
  congr 1
  funext app
  congr 1
  funext result
  cases result with
  | ok space => exact action_organizationPlan ..
  | error e =>
    simp only [Plan.action_bind, action_organizationPlan, action_excused]
    split <;> rfl

/-- **To preload all apps is to ask for the list and to carry out the plan for it**, unless the
store keeps nothing. -/
theorem fillAll_eq_plan (w : World) (s : State) :
    c.fillAll w s =
      if s.backend.retains then
        match ((w s.elapsed).fetcher.all .app).answer with
        | .ok found =>
          (c.preloadsPlan found).action c w (s.fetched ((w s.elapsed).fetcher.all .app).asked)
        | .error e => (.error e, s.fetched ((w s.elapsed).fetcher.all .app).asked)
      else (.ok .zero, s) := by
  rw [fillAll_apply]
  cases ((w s.elapsed).fetcher.all .app).answer <;>
    simp only [preloadsPlan, Plan.action_foldlM c.action_preloadPlan]

end MetaCache.Cache
