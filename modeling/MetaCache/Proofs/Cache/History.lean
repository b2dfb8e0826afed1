import MetaCache.Proofs.Cache.Steps

/-!
# What a cache has done, and when

A *log* tells what a cache has done so far, with the moments at which it asked the API and stored
records. It is no part of the state: it goes along with the steps (`Act`), and every call can be
logged (`Tracked`). What the log adds to the steps is an order. A record that is stored has an
*origin* in what the log says at the time, so that nothing is stored on the ground of an answer that
the API has not given yet.

The log may be forgotten again, and then the calls are sequences of steps (`steps_getEntity`,
`steps_resolveApp`, `steps_fillAll`).
-/

namespace MetaCache.Cache

open MetaCache.Remote MetaCache.Store

/-- What a cache has done. Moments are numbered as in the world. -/
inductive Event
  /-- It has looked into the store. -/
  | looked (key : Key)
  /-- It has asked the API for an entity. -/
  | asked (n : Nat) (key : Key)
  /-- It has asked the API for the list of apps. -/
  | listed (n : Nat)
  /-- It has normalized a record and handed it to the store. -/
  | stored (n : Nat) (key : Key) (r : Record)

/-- Where a record to be stored comes from, after what is in the log. -/
inductive Origin (c : Cache) (w : World) (log : List Event) (key : Key) : Record → Prop
  /-- It is the answer to the request that was just made. -/
  | fetched {n : Nat} {r : Record} (asked : log.getLast? = some (.asked n key))
      (answer : ((w n).fetcher.one key.kind key.guid).answer = .ok r) : Origin c w log key r
  /-- It was listed under a guid that spells the one of the key. -/
  | listed {n : Nat} {found : List (String × Record)} {raw : String} {r : Record}
      (listed : .listed n ∈ log) (answer : ((w n).fetcher.all .app).answer = .ok found)
      (mem : (raw, r) ∈ found) (parsed : Key.parse .app raw = .ok key) : Origin c w log key r
  /-- It is the empty one, because the request that was just made was for an app that is missing,
  and the cache ignores missing apps. -/
  | missing {n : Nat} {e : Error} (isApp : key.kind = .app)
      (asked : log.getLast? = some (.asked n key))
      (answer : ((w n).fetcher.one key.kind key.guid).answer = .error e)
      (ignores : c.ignoresMissing) (missing : e.isMissing) : Origin c w log key .empty

variable {c : Cache} {w : World}

theorem Origin.source {log : List Event} {key : Key} {r : Record} (h : Origin c w log key r) :
    Source c w key r := by
  cases h with
  | fetched _ answer => exact .fetched answer
  | listed _ answer mem parsed => exact .listed answer mem parsed
  | missing isApp _ answer ignores missing =>
    exact .missing isApp answer (Bool.and_eq_true_iff.2 ⟨ignores, missing⟩)

/-! ## Steps that are logged -/

/-- A state with the log of how it came about. -/
structure History where
  log : List Event
  state : State

/-- A step, and what the log says of it. -/
inductive Act (c : Cache) (w : World) : History → History → Prop
  | look (h : History) (key : Key) : Act c w h ⟨h.log ++ [.looked key], h.state.looked key⟩
  | moment (h : History) : Act c w h ⟨h.log, h.state.later⟩
  | ask (h : History) (key : Key) :
      Act c w h ⟨h.log ++ [.asked h.state.elapsed key],
        h.state.fetched ((w h.state.elapsed).fetcher.one key.kind key.guid).asked⟩
  | list (h : History) :
      Act c w h ⟨h.log ++ [.listed h.state.elapsed],
        h.state.fetched ((w h.state.elapsed).fetcher.all .app).asked⟩
  | store (h : History) {key : Key} {r : Record} (origin : Origin c w h.log key r) :
      Act c w h ⟨h.log ++ [.stored h.state.elapsed key r], h.state.stored c w key r⟩

/-- Any number of steps that are logged. -/
abbrev Acts (c : Cache) (w : World) : History → History → Prop := Relation.ReflTransGen (Act c w)

theorem Act.step {h h' : History} (hact : Act c w h h') : Step c w h.state h'.state := by
  cases hact with
  | look key => exact .look _ key
  | moment => exact .moment _
  | ask key => exact .ask _ _
  | list => exact .ask _ _
  | store origin => exact .store _ origin.source

/-- The log only grows. -/
theorem Act.log {h h' : History} (hact : Act c w h h') : h.log <+: h'.log := by
  cases hact with
  | moment => exact List.prefix_rfl
  | _ => exact List.prefix_append ..

theorem log_of_acts {h h' : History} (hacts : Acts c w h h') : h.log <+: h'.log := by
  induction hacts with
  | refl => exact List.prefix_rfl
  | tail _ hact ih => exact ih.trans hact.log

theorem steps_of_acts {h h' : History} (hacts : Acts c w h h') : Steps c w h.state h'.state :=
  hacts.lift History.state fun _ _ => Act.step

/-! ## Calls that are logged -/

/-- After some known events, whatever an action does can be logged. -/
def Tracked {α : Type} (c : Cache) (w : World) (known : List Event) (x : Action α) : Prop :=
  ∀ log s, known ⊆ log → ∃ log', Acts c w ⟨log, s⟩ ⟨log', (x w s).2⟩

namespace Tracked

variable {α β : Type} {known : List Event}

/-- An action goes in steps, whatever has to be known before. -/
theorem steps_known {x : Action α} (h : Tracked c w known x) (s : State) :
    Steps c w s (x w s).2 := by
  obtain ⟨log', hacts⟩ := h known s (List.Subset.refl _)
  exact steps_of_acts hacts

theorem steps {x : Action α} (h : Tracked c w [] x) (s : State) : Steps c w s (x w s).2 :=
  h.steps_known s

theorem ofExcept (result : Except Error α) : Tracked c w known (Action.ofExcept result) :=
  fun log _ _ => ⟨log, .refl⟩

theorem pure (a : α) : Tracked c w known (pure a : Action α) := fun log _ _ => ⟨log, .refl⟩

theorem attempt {x : Action α} (hx : Tracked c w known x) : Tracked c w known (Action.attempt x) :=
  hx

theorem bind {x : Action α} {f : α → Action β} (hx : Tracked c w known x)
    (hf : ∀ a, Tracked c w known (f a)) : Tracked c w known (x >>= f) := by
  intro log s hknown
  obtain ⟨log₁, hacts⟩ := hx log s hknown
  cases hdone : x w s with
  | mk result s₁ =>
    rw [hdone] at hacts
    cases result with
    | error e => exact ⟨log₁, by rw [Action.bind_error hdone]; exact hacts⟩
    | ok a =>
      -- Logs only grow, so what `x` knows is still there when `f` begins.
      obtain ⟨log₂, hmore⟩ := hf a log₁ s₁ (List.Subset.trans hknown (log_of_acts hacts).subset)
      exact ⟨log₂, by rw [Action.bind_ok hdone]; exact hacts.trans hmore⟩

/-- What comes after a given result may know that it is given. -/
theorem ofExcept_bind {result : Except Error α} {f : α → Action β}
    (hf : ∀ a, result = .ok a → Tracked c w known (f a)) :
    Tracked c w known (Action.ofExcept result >>= f) := by
  intro log s hknown
  cases hresult : result with
  | error e => exact ⟨log, .refl⟩
  | ok a => exact hf a hresult log s hknown

theorem foldlM {f : β → α → Action β} {as : List α}
    (h : ∀ a ∈ as, ∀ b, Tracked c w known (f b a)) (start : β) :
    Tracked c w known (as.foldlM f start) := by
  induction as generalizing start with
  | nil => exact .pure start
  | cons a as ih =>
    rw [List.foldlM_cons]
    exact (h a List.mem_cons_self start).bind
      fun b => ih (fun a ha => h a (List.mem_cons_of_mem _ ha)) b

end Tracked

variable {known : List Event}

theorem tracked_store {key : Key} {r : Record}
    (h : ∀ log, known ⊆ log → Origin c w log key r) : Tracked c w known (c.store key r) := by
  intro log s hknown
  rw [store_apply]
  exact ⟨_, .single (.store ⟨log, s⟩ (h log hknown))⟩

theorem tracked_refresh (c : Cache) (key : Key) : Tracked c w known (c.refresh key) := by
  intro log s _
  rw [refresh_apply]
  have hask := Act.ask (c := c) (w := w) ⟨log, s⟩ key
  -- What is stored afterwards is stored on the ground of this request.
  have hasked : (log ++ [Event.asked s.elapsed key]).getLast? = some (.asked s.elapsed key) :=
    List.getLast?_concat
  split
  · next r hanswer =>
    rw [store_apply]
    exact ⟨_, .head hask (.single (.store _ (.fetched hasked hanswer)))⟩
  · next e hanswer =>
    split
    · next htolerated =>
      obtain ⟨happ, htolerated⟩ := Bool.and_eq_true_iff.1 htolerated
      obtain ⟨hignores, hmissing⟩ := Bool.and_eq_true_iff.1 htolerated
      exact ⟨_, .head hask (.single
        (.store _ (.missing (of_decide_eq_true happ) hasked hanswer hignores hmissing)))⟩
    · exact ⟨_, .single hask⟩

theorem tracked_getEntity (c : Cache) (kind : Kind) (raw : String) :
    Tracked c w known (c.getEntity kind raw) := by
  intro log s hknown
  cases hkey : Key.parse kind raw with
  | error e =>
    rw [getEntity_of_invalid hkey]
    exact ⟨log, .refl⟩
  | ok key =>
    rw [getEntity_apply hkey]
    have hlook := Act.look (c := c) (w := w) ⟨log, s⟩ key
    have hmoment := Act.moment (c := c) (w := w) ⟨log ++ [.looked key], s.looked key⟩
    have hrefresh (s : State) := tracked_refresh (w := w) c key (log ++ [.looked key]) s
      (List.Subset.trans hknown (List.subset_append_left ..))
    split
    · exact ⟨_, .single hlook⟩
    · obtain ⟨log', hacts⟩ := hrefresh (s.looked key)
      exact ⟨log', .head hlook hacts⟩
    · split
      · exact ⟨_, .head hlook (.single hmoment)⟩
      · obtain ⟨log', hacts⟩ := hrefresh (s.looked key).later
        exact ⟨log', .head hlook (.head hmoment hacts)⟩

theorem tracked_hop (c : Cache) (kind : Kind) (raw : String) :
    Tracked c w known (c.hop kind raw) := by
  intro log s hknown
  rw [hop_apply]
  exact tracked_getEntity c kind raw log s hknown

theorem tracked_resolveApp (c : Cache) (raw : String) : Tracked c w known (c.resolveApp raw) := by
  unfold resolveApp
  exact (Tracked.ofExcept _).bind fun guid => (tracked_hop c .app guid.text).bind fun app =>
    (tracked_hop c .space app.spaceGuid).bind fun space =>
      (tracked_hop c .organization space.organizationGuid).bind fun _ => .pure _

theorem tracked_countOrganization (c : Cache) (space : Record) (report : FillReport) :
    Tracked c w known (c.countOrganization space report) := by
  unfold countOrganization
  refine (tracked_getEntity c .organization space.organizationGuid).attempt.bind fun result => ?_
  cases result with
  | ok r => exact .pure _
  | error e =>
    simp only
    split
    · exact .pure _
    · exact .ofExcept _

theorem tracked_preload (c : Cache) {n : Nat} {found : List (String × Record)}
    (hanswer : ((w n).fetcher.all .app).answer = .ok found) {listed : String × Record}
    (hmem : listed ∈ found) (report : FillReport) :
    Tracked c w [.listed n] (c.preload report listed) := by
  unfold preload
  refine .ofExcept_bind fun key hkey => ?_
  refine (tracked_store fun log hlog => .listed (hlog List.mem_cons_self) hanswer hmem hkey).bind
    fun app => (tracked_getEntity c .space app.spaceGuid).attempt.bind fun result => ?_
  -- However the space was looked up, the organization comes next.
  have horganization (spaced : Record × FillReport) :
      Tracked c w [.listed n] (c.countOrganization spaced.1 spaced.2) :=
    tracked_countOrganization c spaced.1 spaced.2
  cases result with
  | ok space => exact (Tracked.pure _).bind horganization
  | error e =>
    simp only
    split
    · exact (Tracked.pure _).bind horganization
    · exact (Tracked.ofExcept _).bind horganization

theorem tracked_fillAll (c : Cache) : Tracked c w known c.fillAll := by
  intro log s _
  rw [fillAll_apply]
  split
  · have hlist := Act.list (c := c) (w := w) ⟨log, s⟩
    split
    · next found hanswer =>
      obtain ⟨log', hacts⟩ := Tracked.foldlM
        (fun listed hmem report => tracked_preload c hanswer hmem report) .zero
        (log ++ [.listed s.elapsed]) _ (List.subset_append_right ..)
      exact ⟨log', .head hlist hacts⟩
    · exact ⟨_, .single hlist⟩
  · exact ⟨log, .refl⟩

/-! ## Calls without the log -/

theorem steps_getEntity (c : Cache) (kind : Kind) (raw : String) (w : World) (s : State) :
    Steps c w s (c.getEntity kind raw w s).2 := (tracked_getEntity c kind raw).steps s

theorem steps_hop (c : Cache) (kind : Kind) (raw : String) (w : World) (s : State) :
    Steps c w s (c.hop kind raw w s).2 := (tracked_hop c kind raw).steps s

theorem steps_resolveApp (c : Cache) (raw : String) (w : World) (s : State) :
    Steps c w s (c.resolveApp raw w s).2 := (tracked_resolveApp c raw).steps s

theorem steps_fillAll (c : Cache) (w : World) (s : State) : Steps c w s (c.fillAll w s).2 :=
  (tracked_fillAll c).steps s

end MetaCache.Cache
