import MetaCache.Proofs.Cache.Ledger
import MetaCache.Proofs.Cache.Preload

/-!
# How a guid is spelled does not matter

Guids come in several spellings, from callers and from the API. Records are stored with the guids of
their space and their organization as the API spells them, so that two caches which have been told
the same in different spellings do not hold the same. But a guid is spelled canonically before it is
used for anything. So two such caches stay equal up to spelling (`State.Respelled`), and whatever is
done with them, they ask the same questions, write under the same keys, and end in the same way
(`uses_respelled`).

The two are compared by their plans: plans that are equal up to spelling are carried out in the same
way.
-/

namespace MetaCache

open MetaCache.Remote MetaCache.Store

theorem Store.Backend.renewed_of_memory {b : Backend} (h : b.choice = .memory) :
    b.renewed = .memory .empty := by
  cases b with
  | memory m => rfl
  | _ => cases h

/-! ## Equal up to spelling -/

/-- Two texts spell the same guid, or they are the same text. -/
inductive Guid.Respelled : String → String → Prop
  | same (raw : String) : Respelled raw raw
  | guid {raw raw' : String} {guid : Guid} (spells : canonicalize raw = .ok guid)
      (spells' : canonicalize raw' = .ok guid) : Respelled raw raw'

theorem Guid.Respelled.canonicalize {raw raw' : String} (h : Respelled raw raw') :
    canonicalize raw = canonicalize raw' := by
  cases h with
  | same => rfl
  | guid spells spells' => rw [spells, spells']

theorem Guid.Respelled.parse {raw raw' : String} (h : Respelled raw raw') (kind : Kind) :
    Key.parse kind raw = Key.parse kind raw' := by
  rw [Key.parse, Key.parse, h.canonicalize]

structure Record.Respelled (r r' : Record) : Prop where
  name : r.name = r'.name
  spaceGuid : Guid.Respelled r.spaceGuid r'.spaceGuid
  organizationGuid : Guid.Respelled r.organizationGuid r'.organizationGuid
  environment : r.environment = r'.environment
  expiresAt : r.expiresAt = r'.expiresAt

theorem Record.Respelled.refl (r : Record) : r.Respelled r :=
  ⟨rfl, .same _, .same _, rfl, rfl⟩

theorem Record.Respelled.isFreshAt {r r' : Record} (h : r.Respelled r') (now : Timestamp) :
    r.isFreshAt now = r'.isFreshAt now := by
  rw [Record.isFreshAt, Record.isFreshAt, h.expiresAt]

theorem Record.Respelled.normalize {r r' : Record} (h : r.Respelled r') (n : Normalizer)
    (kind : Kind) (now : Timestamp) (draw : UInt64) :
    (n.normalize kind r now draw).Respelled (n.normalize kind r' now draw) where
  name := by rw [Normalizer.normalize, Normalizer.normalize, h.name]
  spaceGuid := h.spaceGuid
  organizationGuid := h.organizationGuid
  environment := h.environment
  expiresAt := rfl

structure App.Respelled (a a' : App) : Prop where
  guid : a.guid = a'.guid
  name : a.name = a'.name
  spaceGuid : Guid.Respelled a.spaceGuid a'.spaceGuid
  spaceName : a.spaceName = a'.spaceName
  orgGuid : Guid.Respelled a.orgGuid a'.orgGuid
  orgName : a.orgName = a'.orgName
  ignored : a.ignored = a'.ignored

theorem App.respelled_assemble {app app' space space' organization organization' : Record}
    (happ : app.Respelled app') (hspace : space.Respelled space')
    (horganization : organization.Respelled organization') (guid : String) :
    (App.assemble guid app space organization).Respelled
      (App.assemble guid app' space' organization') where
  guid := rfl
  name := happ.name
  spaceGuid := happ.spaceGuid
  spaceName := hspace.name
  orgGuid := hspace.organizationGuid
  orgName := horganization.name
  ignored := by simp only [App.assemble, Record.isOptedOut, happ.environment]

/-- Two lists have the same entities in the same order, and with them their guids. -/
def ListsRespelled : List (String × Record) → List (String × Record) → Prop :=
  List.Forall₂ fun listed listed' =>
    Guid.Respelled listed.1 listed'.1 ∧ listed.2.Respelled listed'.2

/-- Two fetchers give the same answers up to spelling. -/
structure Remote.Fetcher.Respelled (f f' : Fetcher) : Prop where
  one : ∀ kind guid, Cache.Fits Record.Respelled (f.one kind guid).answer (f'.one kind guid).answer
  all : ∀ kind, Cache.Fits ListsRespelled (f.all kind).answer (f'.all kind).answer

namespace Cache

variable {c : Cache} {w w' : World} {s s' : State}

/-- Two worlds have the same clock, the same draws, and the same answers up to spelling. -/
structure World.Respelled (w w' : World) : Prop where
  now : ∀ n, (w n).now = (w' n).now
  draw : ∀ n, (w n).draw = (w' n).draw
  fetcher : ∀ n, (w n).fetcher.Respelled (w' n).fetcher

inductive Use.Respelled : Use → Use → Prop
  | lookup {raw raw' : String} (kind : Kind) (h : Guid.Respelled raw raw') :
      Respelled (.lookup kind raw) (.lookup kind raw')
  | resolve {raw raw' : String} (h : Guid.Respelled raw raw') :
      Respelled (.resolve raw) (.resolve raw')
  | fill : Respelled .fill .fill
  | reopen : Respelled .reopen .reopen
  | restart : Respelled .restart .restart

structure Deposit.Respelled (d d' : Deposit) : Prop where
  key : d.key = d'.key
  record : d.record.Respelled d'.record
  now : d.now = d'.now
  isKept : d.isKept = d'.isKept

/-- Two caches that keep their records in memory have the same, up to spelling. -/
structure State.Respelled (s s' : State) : Prop where
  choice : s.backend.choice = .memory
  choice' : s'.backend.choice = .memory
  answer : ∀ key, Fits (Option.Rel Record.Respelled) (s.backend.answer key) (s'.backend.answer key)
  elapsed : s.elapsed = s'.elapsed
  deposits : List.Forall₂ Deposit.Respelled s.deposits s'.deposits

namespace State.Respelled

theorem empty : Respelled (.ofBackend (.memory .empty)) (.ofBackend (.memory .empty)) :=
  ⟨rfl, rfl, fun _ => .ok .none, rfl, .nil⟩

theorem looked (h : s.Respelled s') (key : Key) : (s.looked key).Respelled (s'.looked key) where
  choice := (s.backend.choice_get key).trans h.choice
  choice' := (s'.backend.choice_get key).trans h.choice'
  answer other := by
    have hanswer := h.answer other
    rw [← s.backend.answer_get key, ← s'.backend.answer_get key] at hanswer
    exact hanswer
  elapsed := h.elapsed
  deposits := h.deposits

theorem later (h : s.Respelled s') : s.later.Respelled s'.later :=
  ⟨h.choice, h.choice', h.answer, congrArg (· + 1) h.elapsed, h.deposits⟩

theorem fetched (h : s.Respelled s') (paths paths' : List String) :
    (s.fetched paths).Respelled (s'.fetched paths') :=
  ⟨h.choice, h.choice', h.answer, congrArg (· + 1) h.elapsed, h.deposits⟩

theorem normalize (h : s.Respelled s') (hw : World.Respelled w w') {r r' : Record}
    (hr : r.Respelled r') (kind : Kind) :
    (c.normalizer.normalize kind r (w s.elapsed).now (w s.elapsed).draw).Respelled
      (c.normalizer.normalize kind r' (w' s'.elapsed).now (w' s'.elapsed).draw) := by
  rw [← h.elapsed, ← hw.now, ← hw.draw]
  exact hr.normalize ..

theorem stored (h : s.Respelled s') (hw : World.Respelled w w') (key : Key) {r r' : Record}
    (hr : r.Respelled r') : (s.stored c w key r).Respelled (s'.stored c w' key r') where
  choice := (Backend.choice_put ..).trans h.choice
  choice' := (Backend.choice_put ..).trans h.choice'
  answer other := by
    have hput := Backend.put_of_memory h.choice key
      (c.normalizer.normalize key.kind r (w s.elapsed).now (w s.elapsed).draw)
    have hput' := Backend.put_of_memory h.choice' key
      (c.normalizer.normalize key.kind r' (w' s'.elapsed).now (w' s'.elapsed).draw)
    show Fits _ ((s.backend.put key _).2.answer other) ((s'.backend.put key _).2.answer other)
    rw [hput.2, hput'.2]
    split
    · exact .ok (.some (h.normalize hw hr key.kind))
    · exact h.answer other
  elapsed := congrArg (· + 1) h.elapsed
  deposits := by
    have htaken (r : Record) : (s.later.backend.put key r).1 = .ok () :=
      (Backend.put_of_memory h.choice key r).1
    have htaken' (r : Record) : (s'.later.backend.put key r).1 = .ok () :=
      (Backend.put_of_memory h.choice' key r).1
    refine List.rel_append h.deposits (.cons ⟨rfl, h.normalize hw hr key.kind, ?_, ?_⟩ .nil)
    · rw [← h.elapsed, hw.now]
    · rw [htaken, htaken']

end State.Respelled

/-! ## Lookups -/

theorem Fits.bind {α β γ δ : Type} {R : α → β → Prop} {R' : γ → δ → Prop} {x : Except Error α}
    {y : Except Error β} {f : α → Except Error γ} {g : β → Except Error δ} (h : Fits R x y)
    (hrest : ∀ {a b}, R a b → Fits R' (f a) (g b)) : Fits R' (x.bind f) (y.bind g) := by
  cases h with
  | ok related => exact hrest related
  | error e => exact .error e

theorem Fits.eq {α : Type} {x y : Except Error α} (h : Fits Eq x y) : x = y := by
  cases h with
  | ok related => rw [related]
  | error e => rfl

/-- Two actions have ended in the same way, up to spelling. -/
def EndRespelled {α β : Type} (R : α → β → Prop) (x : Except Error α × State)
    (y : Except Error β × State) : Prop :=
  Fits R x.1 y.1 ∧ x.2.Respelled y.2

theorem State.Respelled.store (h : s.Respelled s') (hw : World.Respelled w w') (key : Key)
    {r r' : Record} (hr : r.Respelled r') :
    EndRespelled Record.Respelled (c.store key r w s) (c.store key r' w' s') := by
  rw [store_apply, store_apply, (Backend.put_of_memory h.choice key _).1,
    (Backend.put_of_memory h.choice' key _).1]
  exact ⟨.ok (h.normalize hw hr key.kind), h.stored hw key hr⟩

theorem State.Respelled.refresh (h : s.Respelled s') (hw : World.Respelled w w') (key : Key) :
    EndRespelled Record.Respelled (c.refresh key w s) (c.refresh key w' s') := by
  have hanswer := (hw.fetcher s.elapsed).one key.kind key.guid
  rw [refresh_apply, refresh_apply, ← h.elapsed]
  generalize (w s.elapsed).fetcher.one key.kind key.guid = reply at hanswer ⊢
  generalize (w' s.elapsed).fetcher.one key.kind key.guid = reply' at hanswer ⊢
  obtain ⟨answer, asked⟩ := reply
  obtain ⟨answer', asked'⟩ := reply'
  have hfetched := h.fetched asked asked'
  cases hanswer with
  | ok hr => exact hfetched.store hw key hr
  | error e =>
    have hstored : ((s.fetched asked).stored c w key .empty).Respelled
      ((s'.fetched asked').stored c w' key .empty) := hfetched.stored hw key (.refl .empty)
    simp only
    split
    · have hplaced := hfetched.store (c := c) hw key (.refl .empty)
      exact ⟨hplaced.1.bind fun _ => .error e, hstored⟩
    · exact ⟨.error e, hfetched⟩

/-- **A lookup depends on the guid alone**, and so does what comes of it. -/
theorem State.Respelled.getEntity (h : s.Respelled s') (hw : World.Respelled w w') (kind : Kind)
    {raw raw' : String} (hraw : Guid.Respelled raw raw') :
    EndRespelled Record.Respelled (c.getEntity kind raw w s) (c.getEntity kind raw' w' s') := by
  cases hkey : Key.parse kind raw with
  | error e =>
    rw [getEntity_of_invalid hkey, getEntity_of_invalid (hraw.parse kind ▸ hkey)]
    exact ⟨.error e, h⟩
  | ok key =>
    have hanswer := h.answer key
    have hlooked := h.looked key
    rw [getEntity_apply hkey, getEntity_apply (hraw.parse kind ▸ hkey), ← h.elapsed, ← hw.now]
    generalize s.backend.answer key = answer at hanswer ⊢
    generalize s'.backend.answer key = answer' at hanswer ⊢
    cases hanswer with
    | error e => exact ⟨.error e, hlooked⟩
    | ok hfound =>
      cases hfound with
      | none => exact hlooked.refresh hw key
      | some hr =>
        simp only [← hr.isFreshAt]
        split
        · exact ⟨.ok hr, hlooked.later⟩
        · exact hlooked.later.refresh hw key

/-- The same is looked up from states that are equal up to spelling. -/
structure Lookup.Respelled (l l' : Lookup) : Prop where
  kind : l.kind = l'.kind
  raw : Guid.Respelled l.raw l'.raw
  before : l.before.Respelled l'.before

/-! ## Plans -/

/-- Two plans do the same up to spelling, if what comes back is the same up to spelling. -/
inductive Plan.Respelled {α β : Type} (R : α → β → Prop) : Plan α → Plan β → Prop
  | done {x : Except Error α} {y : Except Error β} (fits : Fits R x y) :
      Respelled R (.done x) (.done y)
  | lookUp {kind : Kind} {raw raw' : String} {next : Except Error Record → Plan α}
      {next' : Except Error Record → Plan β} (spelled : Guid.Respelled raw raw')
      (rest : ∀ {x y}, Fits Record.Respelled x y → Respelled R (next x) (next' y)) :
      Respelled R (.lookUp kind raw next) (.lookUp kind raw' next')
  | keep {key : Key} {r r' : Record} {next : Record → Plan α} {next' : Record → Plan β}
      (spelled : r.Respelled r')
      (rest : ∀ {a b}, Record.Respelled a b → Respelled R (next a) (next' b)) :
      Respelled R (.keep key r next) (.keep key r' next')

namespace Plan.Respelled

variable {α β γ δ : Type} {R : α → β → Prop} {R' : γ → δ → Prop} {p : Plan α} {q : Plan β}

theorem pure {a : α} {b : β} (h : R a b) : Respelled R (Pure.pure a) (Pure.pure b) := .done (.ok h)

theorem bind {f : α → Plan γ} {g : β → Plan δ} (h : Respelled R p q)
    (hrest : ∀ {a b}, R a b → Respelled R' (f a) (g b)) : Respelled R' (p >>= f) (q >>= g) := by
  show Respelled R' (p.bind f) (q.bind g)
  induction h with
  | done fits =>
    cases fits with
    | ok related => exact hrest related
    | error e => exact .done (.error e)
  | lookUp spelled _ ih => exact .lookUp spelled ih
  | keep spelled _ ih => exact .keep spelled ih

theorem foldlM {S : γ → δ → Prop} {f : α → γ → Plan α} {g : β → δ → Plan β}
    (hstep : ∀ {a b x y}, R a b → S x y → Respelled R (f a x) (g b y)) {xs : List γ} {ys : List δ}
    (hlists : List.Forall₂ S xs ys) {a : α} {b : β} (hstart : R a b) :
    Respelled R (xs.foldlM f a) (ys.foldlM g b) := by
  induction hlists generalizing a b with
  | nil => exact .pure hstart
  | cons hfirst _ ih =>
    rw [List.foldlM_cons, List.foldlM_cons]
    exact (hstep hstart hfirst).bind ih

/-- **Plans that are equal up to spelling are carried out in the same way**, lookup by lookup. -/
theorem run (h : Respelled R p q) (hw : World.Respelled w w') (hs : s.Respelled s') :
    EndRespelled R (p.action c w s) (q.action c w' s')
      ∧ List.Forall₂ Lookup.Respelled (p.lookups c w s) (q.lookups c w' s') := by
  induction h generalizing s s' with
  | done fits => exact ⟨⟨fits, hs⟩, .nil⟩
  | @lookUp kind raw raw' next next' spelled rest ih =>
    obtain ⟨hfits, hends⟩ := hs.getEntity (c := c) hw kind spelled
    obtain ⟨hend, hlookups⟩ := ih hfits hends
    exact ⟨hend, .cons ⟨rfl, spelled, hs⟩ hlookups⟩
  | @keep key r r' next next' spelled rest ih =>
    have hstore := hs.store (c := c) hw key spelled
    simp only [action, lookups, Action.bind_apply]
    generalize c.store key r w s = x at hstore ⊢
    generalize c.store key r' w' s' = y at hstore ⊢
    obtain ⟨result, s₁⟩ := x
    obtain ⟨result', s₁'⟩ := y
    obtain ⟨hfits, hends⟩ := hstore
    cases hfits with
    | ok related => exact ih related hends
    | error e => exact ⟨⟨.error e, hends⟩, .nil⟩

end Plan.Respelled

theorem respelled_of_eq {α : Type} {x y : Except Error α} (h : x = y) :
    Plan.Respelled Eq (Plan.done x) (Plan.done y) := by
  subst h
  cases x with
  | ok a => exact .pure rfl
  | error e => exact .done (.error e)

theorem respelled_excused {α β : Type} {R : α → β → Prop} {a : α} {b : β} (h : R a b) (e : Error) :
    Plan.Respelled R (c.excused a e) (c.excused b e) := by
  refine .done ?_
  split
  · exact .ok h
  · exact .error e

theorem respelled_hopPlan (kind : Kind) {raw raw' : String} (h : Guid.Respelled raw raw') :
    Plan.Respelled Record.Respelled (c.hopPlan kind raw) (c.hopPlan kind raw') := by
  refine .lookUp h fun hfits => ?_
  cases hfits with
  | ok hr => exact .pure hr
  | error e => exact respelled_excused (.refl .empty) e

theorem respelled_resolvePlan {raw raw' : String} (h : Guid.Respelled raw raw') :
    Plan.Respelled App.Respelled (c.resolvePlan raw) (c.resolvePlan raw') := by
  refine (respelled_of_eq h.canonicalize).bind fun {guid _} hguid => ?_
  subst hguid
  refine (respelled_hopPlan .app (.same guid.text)).bind fun happ => ?_
  refine (respelled_hopPlan .space happ.spaceGuid).bind fun hspace => ?_
  refine (respelled_hopPlan .organization hspace.organizationGuid).bind fun horganization => ?_
  exact .pure (App.respelled_assemble happ hspace horganization guid.text)

theorem respelled_organizationPlan {space space' : Record} (h : space.Respelled space')
    (report : FillReport) :
    Plan.Respelled Eq (c.organizationPlan space report) (c.organizationPlan space' report) := by
  refine .lookUp h.organizationGuid fun hfits => ?_
  cases hfits with
  | ok _ => exact .pure rfl
  | error e => exact respelled_excused rfl e

theorem respelled_preloadsPlan {found found' : List (String × Record)}
    (h : ListsRespelled found found') :
    Plan.Respelled Eq (c.preloadsPlan found) (c.preloadsPlan found') := by
  refine .foldlM (fun {report _ listed listed'} hreport hlisted => ?_) h rfl
  subst hreport
  refine (respelled_of_eq (hlisted.1.parse .app)).bind fun {key _} hkey => ?_
  subst hkey
  refine .keep hlisted.2 fun happ => .lookUp happ.spaceGuid fun hfits => ?_
  cases hfits with
  | ok hspace => exact respelled_organizationPlan hspace _
  | error e =>
    have hspace := respelled_excused (c := c) (Record.Respelled.refl .empty) e
    exact hspace.bind fun hspace => respelled_organizationPlan hspace _

/-! ## Questions -/

/-- What a fetcher is asked at a moment. -/
inductive Question
  /-- For one entity. -/
  | entity (n : Nat) (key : Key)
  /-- For all apps. -/
  | apps (n : Nat)
  deriving DecidableEq, Repr

/-- The paths that a fetcher asks the API for to answer a question. -/
def Question.asked (w : World) : Question → List String
  | entity n key => ((w n).fetcher.one key.kind key.guid).asked
  | apps n => ((w n).fetcher.all .app).asked

/-- The question that a lookup comes to, if there is nothing fresh in the store. -/
def Lookup.question? (w : World) (l : Lookup) : Option Question :=
  match Key.parse l.kind l.raw with
  | .error _ => none
  | .ok key =>
    match l.before.backend.answer key with
    | .error _ => none
    | .ok none => some (.entity l.before.elapsed key)
    | .ok (some r) =>
      if r.isFreshAt (w l.before.elapsed).now then none
      else some (.entity (l.before.elapsed + 1) key)

/-- The questions in the course of a use, in order. -/
def questionsOf (c : Cache) (w : World) (s : State) (u : Use) : List Question :=
  (if u = .fill ∧ s.backend.retains then [.apps s.elapsed] else [])
    ++ (c.lookupsOf w s u).filterMap (Lookup.question? w)

/-- From one state to another these questions were asked. -/
def Asks (w : World) (questions : List Question) (s s' : State) : Prop :=
  s'.asked = s.asked ++ questions.flatMap (Question.asked w)

theorem Asks.trans {questions more : List Question} {s₁ s₂ : State} (h : Asks w questions s s₁)
    (h' : Asks w more s₁ s₂) : Asks w (questions ++ more) s s₂ := by
  rw [Asks, h', h, List.flatMap_append, List.append_assoc]

theorem Asks.nothing (s : State) : Asks w [] s s := (List.append_nil _).symm

theorem asks_refresh (c : Cache) (key : Key) (s : State) :
    Asks w [.entity s.elapsed key] s (c.refresh key w s).2 := by
  have hasked : Asks w [.entity s.elapsed key] s
      (s.fetched ((w s.elapsed).fetcher.one key.kind key.guid).asked) := by
    simp [Asks, State.fetched, Question.asked]
  rw [refresh_apply]
  split
  · rw [store_apply]
    exact hasked
  · split <;> exact hasked

theorem asks_getEntity (c : Cache) (kind : Kind) (raw : String) (s : State) :
    Asks w ([⟨kind, raw, s⟩].filterMap (Lookup.question? w)) s (c.getEntity kind raw w s).2 := by
  cases hkey : Key.parse kind raw with
  | error e =>
    rw [getEntity_of_invalid hkey]
    simp only [List.filterMap_cons, List.filterMap_nil, Lookup.question?, hkey]
    exact .nothing s
  | ok key =>
    rw [getEntity_apply hkey]
    simp only [List.filterMap_cons, List.filterMap_nil, Lookup.question?, hkey]
    cases s.backend.answer key with
    | error e => exact .nothing s
    | ok found =>
      cases found with
      | none => exact asks_refresh c key (s.looked key)
      | some r =>
        by_cases hfresh : r.isFreshAt (w s.elapsed).now
        · simp only [if_pos hfresh]
          exact .nothing s
        · simp only [if_neg hfresh]
          exact asks_refresh c key (s.looked key).later

theorem asks_action {α : Type} (p : Plan α) (s : State) :
    Asks w ((p.lookups c w s).filterMap (Lookup.question? w)) s (p.action c w s).2 := by
  refine p.tell (R := fun lookups => Asks w (lookups.filterMap (Lookup.question? w))) .nothing
    ?_ (asks_getEntity c) ?_ s
  · intro first next s s₁ s₂ hfirst hnext
    rw [List.filterMap_append]
    exact hfirst.trans hnext
  · intro key r s
    rw [store_apply]
    exact .nothing s

/-- **In the course of a use the API is asked for what the questions take**, and for nothing
else. -/
theorem asks_use (c : Cache) (w : World) (s : State) (u : Use) :
    Asks w (c.questionsOf w s u) s (c.use w s u) := by
  cases u with
  | lookup kind raw => exact asks_getEntity c kind raw s
  | resolve raw =>
    show Asks w _ s (c.resolveApp raw w s).2
    rw [← action_resolvePlan]
    exact asks_action (c.resolvePlan raw) s
  | fill =>
    simp only [questionsOf, lookupsOf, use, fillAll_eq_plan]
    by_cases hretains : s.backend.retains
    · have hlist : Asks w [.apps s.elapsed] s
          (s.fetched ((w s.elapsed).fetcher.all .app).asked) := by
        simp [Asks, State.fetched, Question.asked]
      simp only [hretains, and_self, if_true]
      cases ((w s.elapsed).fetcher.all .app).answer with
      | ok found => exact hlist.trans (asks_action (c.preloadsPlan found) _)
      | error e => exact hlist
    · simp only [hretains]
      exact .nothing s
  | reopen => exact .nothing s
  | restart => exact .nothing s

/-! ## Uses -/

theorem Lookup.Respelled.question? (hw : World.Respelled w w') {l l' : Lookup}
    (h : l.Respelled l') : l.question? w = l'.question? w' := by
  simp only [Lookup.question?, h.kind, h.raw.parse, h.before.elapsed, hw.now]
  cases Key.parse l'.kind l'.raw with
  | error e => rfl
  | ok key =>
    simp only
    have hanswer := h.before.answer key
    generalize l.before.backend.answer key = answer at hanswer ⊢
    generalize l'.before.backend.answer key = answer' at hanswer ⊢
    cases hanswer with
    | error e => rfl
    | ok hfound =>
      cases hfound with
      | none => rfl
      | some hr => simp only [hr.isFreshAt]

theorem filterMap_question? (hw : World.Respelled w w') {lookups lookups' : List Lookup}
    (h : List.Forall₂ Lookup.Respelled lookups lookups') :
    lookups.filterMap (Lookup.question? w) = lookups'.filterMap (Lookup.question? w') := by
  induction h with
  | nil => rfl
  | cons hfirst _ ih => rw [List.filterMap_cons, List.filterMap_cons, hfirst.question? hw, ih]

namespace State.Respelled

variable (h : s.Respelled s') (hw : World.Respelled w w')
include h hw

theorem resolveApp {raw raw' : String} (hraw : Guid.Respelled raw raw') :
    EndRespelled App.Respelled (c.resolveApp raw w s) (c.resolveApp raw' w' s') := by
  rw [← action_resolvePlan, ← action_resolvePlan]
  exact ((respelled_resolvePlan hraw).run hw h).1

theorem fillAll : EndRespelled Eq (c.fillAll w s) (c.fillAll w' s')
    ∧ List.Forall₂ Lookup.Respelled (c.lookupsOf w s .fill) (c.lookupsOf w' s' .fill) := by
  have hretains : s.backend.retains := Backend.retains_congr (b := .memory .empty) h.choice
  have hretains' : s'.backend.retains := Backend.retains_congr (b := .memory .empty) h.choice'
  have hanswer := (hw.fetcher s.elapsed).all .app
  simp only [lookupsOf, fillAll_eq_plan, if_pos hretains, if_pos hretains', ← h.elapsed]
  generalize (w s.elapsed).fetcher.all .app = reply at hanswer ⊢
  generalize (w' s.elapsed).fetcher.all .app = reply' at hanswer ⊢
  obtain ⟨answer, asked⟩ := reply
  obtain ⟨answer', asked'⟩ := reply'
  have hfetched := h.fetched asked asked'
  cases hanswer with
  | ok hfound => exact (respelled_preloadsPlan hfound).run hw hfetched
  | error e => exact ⟨⟨.error e, hfetched⟩, .nil⟩

theorem lookupsOf {u u' : Use} (hu : u.Respelled u') :
    List.Forall₂ Lookup.Respelled (c.lookupsOf w s u) (c.lookupsOf w' s' u') := by
  cases hu with
  | lookup kind hraw => exact .cons ⟨rfl, hraw, h⟩ .nil
  | resolve hraw => exact ((respelled_resolvePlan hraw).run hw h).2
  | fill => exact (h.fillAll hw).2
  | reopen => exact .nil
  | restart => exact .nil

/-- **Equal questions are asked**, if the uses are equal up to spelling. -/
theorem questionsOf {u u' : Use} (hu : u.Respelled u') :
    c.questionsOf w s u = c.questionsOf w' s' u' := by
  have hretains : s.backend.retains = s'.backend.retains :=
    Backend.retains_congr (h.choice.trans h.choice'.symm)
  have hfill : u = .fill ↔ u' = .fill := by cases hu <;> simp
  rw [Cache.questionsOf, Cache.questionsOf, filterMap_question? hw (h.lookupsOf hw hu)]
  simp only [hfill, hretains, h.elapsed]

theorem use {u u' : Use} (hu : u.Respelled u') : (c.use w s u).Respelled (c.use w' s' u') := by
  cases hu with
  | lookup kind hraw => exact (h.getEntity hw kind hraw).2
  | resolve hraw => exact (h.resolveApp hw hraw).2
  | fill => exact (h.fillAll hw).1.2
  | reopen =>
    show State.Respelled { s with backend := s.backend.reopened }
      { s' with backend := s'.backend.reopened }
    rw [Backend.reopened_of_volatile (by rw [h.choice]; decide),
      Backend.reopened_of_volatile (by rw [h.choice']; decide)]
    exact h
  | restart =>
    show State.Respelled { s with backend := s.backend.renewed, fetches := 0 }
      { s' with backend := s'.backend.renewed, fetches := 0 }
    rw [Backend.renewed_of_memory h.choice, Backend.renewed_of_memory h.choice']
    exact ⟨rfl, rfl, fun _ => .ok .none, h.elapsed, h.deposits⟩

theorem uses {uses uses' : List Use} (huses : List.Forall₂ Use.Respelled uses uses') :
    (uses.foldl (c.use w) s).Respelled (uses'.foldl (c.use w') s') := by
  induction huses generalizing s s' with
  | nil => exact h
  | cons hu _ ih => exact ih (h.use hw hu)

end State.Respelled

theorem State.Respelled.keys (h : s.Respelled s') :
    s.deposits.map Deposit.key = s'.deposits.map Deposit.key := by
  have hdeposits := h.deposits
  generalize s.deposits = deposits at hdeposits ⊢
  generalize s'.deposits = deposits' at hdeposits ⊢
  induction hdeposits with
  | nil => rfl
  | cons hfirst _ ih => rw [List.map_cons, List.map_cons, hfirst.key, ih]

/-- **How guids are spelled changes nothing but spellings.** After any uses that are equal up to
spelling, on APIs whose answers are equal up to spelling, any further use asks the same questions at
the same moments, writes under the same keys, and ends with the same error or the same result, up to
spelling. -/
theorem uses_respelled (c : Cache) (hw : World.Respelled w w') {uses uses' : List Use}
    (huses : List.Forall₂ Use.Respelled uses uses') :
    let s := c.after w (.memory .empty) uses
    let s' := c.after w' (.memory .empty) uses'
    s.deposits.map Deposit.key = s'.deposits.map Deposit.key
      ∧ (∀ {u u'}, Use.Respelled u u' →
        c.questionsOf w s u = c.questionsOf w' s' u'
          ∧ Asks w (c.questionsOf w s u) s (c.use w s u)
          ∧ Asks w' (c.questionsOf w' s' u') s' (c.use w' s' u')
          ∧ (c.use w s u).deposits.map Deposit.key = (c.use w' s' u').deposits.map Deposit.key)
      ∧ (∀ kind {raw raw'}, Guid.Respelled raw raw' →
        Fits Record.Respelled (c.getEntity kind raw w s).1 (c.getEntity kind raw' w' s').1)
      ∧ (∀ {raw raw'}, Guid.Respelled raw raw' →
        Fits App.Respelled (c.resolveApp raw w s).1 (c.resolveApp raw' w' s').1)
      ∧ (c.fillAll w s).1 = (c.fillAll w' s').1 := by
  intro s s'
  have h : s.Respelled s' := State.Respelled.empty.uses hw huses
  refine ⟨h.keys, fun hu => ?_, fun kind {raw raw'} hraw => (h.getEntity hw kind hraw).1,
    fun hraw => (h.resolveApp hw hraw).1, (h.fillAll hw).1.1.eq⟩
  exact ⟨h.questionsOf hw hu, asks_use c w s _, asks_use c w' s' _, (h.use hw hu).keys⟩

/-- The entity of `uniform`, with its guids in other spellings. -/
def respelledHousehold : Record :=
  { Record.empty with
    spaceGuid := "6BA7B8109DAD11D180B400C04FD430C8"
    organizationGuid := "urn:uuid:6ba7b810-9dad-11d1-80b4-00c04fd430c8" }

/-- The same API as `uniform`, but for spelling. -/
def respelledUniform : Fetcher where
  one kind guid := ⟨.ok respelledHousehold, [entityPath kind guid.text]⟩
  all kind := ⟨.ok [("6ba7b8109dad11d180b400c04fd430c8", respelledHousehold),
    ("\x7b6ba7b810-9dad-11d1-80b4-00c04fd430c8\x7d", respelledHousehold)], [listPath kind]⟩

theorem respelled_uniform : World.Respelled (.still uniform) (.still respelledUniform) := by
  have hhousehold : household.Respelled respelledHousehold :=
    ⟨rfl, .guid rfl rfl, .guid rfl rfl, rfl, rfl⟩
  exact ⟨fun _ => rfl, fun _ => rfl, fun _ => ⟨fun _ _ => .ok hhousehold, fun _ =>
    .ok (.cons ⟨.guid rfl rfl, hhousehold⟩ (.cons ⟨.guid rfl rfl, hhousehold⟩ .nil))⟩⟩

/-- All apps are preloaded, and one is resolved, with different spellings everywhere. -/
theorem uses_respelled_uniform :
    let c : Cache := ⟨⟨60 * nanosPerSecond, []⟩, false⟩
    let s := c.after (.still uniform) (.memory .empty) [.fill]
    let s' := c.after (.still respelledUniform) (.memory .empty) [.fill]
    Fits App.Respelled
        (c.resolveApp "6ba7b810-9dad-11d1-80b4-00c04fd430c8" (.still uniform) s).1
        (c.resolveApp "6BA7B8109DAD11D180B400C04FD430C8" (.still respelledUniform) s').1
      ∧ s.deposits.map Deposit.key = s'.deposits.map Deposit.key := by
  intro c s s'
  have huses : List.Forall₂ Use.Respelled [.fill] [.fill] := .cons .fill .nil
  obtain ⟨hkeys, -, -, hresolve, -⟩ := uses_respelled c respelled_uniform huses
  exact ⟨hresolve (.guid rfl rfl), hkeys⟩

end Cache

end MetaCache
