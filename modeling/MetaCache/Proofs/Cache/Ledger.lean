import MetaCache.Proofs.Cache.Journal
import MetaCache.Proofs.Cache.Plans
import MetaCache.Proofs.Cache.Placeholders
import MetaCache.Proofs.Remote.Paths
import Mathlib.Data.Finset.Card
import Mathlib.Algebra.GroupWithZero.Nat

/-!
# What the counters tell

A cache counts its fetches, a store counts its hits and misses and knows how many entries it has,
and the API sees requests. Nothing compares these numbers, and a call may break off after any of
them has changed. They agree all the same (`counters_ledger`): what a lookup adds to each of them
depends on what it comes upon in the store, and that is settled before the API is asked.
-/

namespace MetaCache

open MetaCache.Remote MetaCache.Store

namespace Store.Backend

variable {b : Backend} {key : Key}

theorem tally_of_disabled (h : b.choice = .disabled) : b.tally = .zero := by
  cases b with
  | disabled => rfl
  | _ => cases h

/-- Only lookups are counted. -/
theorem tally_put (h : b.choice = .memory) (key : Key) (r : Record) :
    (b.put key r).2.tally.hits = b.tally.hits ∧ (b.put key r).2.tally.misses = b.tally.misses := by
  cases b with
  | memory m => exact ⟨rfl, rfl⟩
  | _ => cases h

theorem tally_get (h : b.choice = .memory) {found : Option Record}
    (hanswer : b.answer key = .ok found) :
    (b.get key).2.tally.hits = b.tally.hits + (if found.isSome then 1 else 0)
      ∧ (b.get key).2.tally.misses = b.tally.misses + (if found.isSome then 0 else 1) := by
  cases b with
  | memory m =>
    rw [answer_memory] at hanswer
    obtain rfl := Except.ok.inj hanswer
    simp only [get, Memory.get, tally, Memory.tally]
    split <;> next hfound => simp [hfound]
  | _ => cases h

/-- Only a persistent store may fail to answer. -/
theorem exists_answer (h : b.choice ≠ .persistent) (key : Key) :
    ∃ found, b.answer key = .ok found := by
  cases b with
  | memory m => exact ⟨_, answer_memory m key⟩
  | disabled => exact ⟨none, rfl⟩
  | persistent p => exact absurd rfl h

theorem reopened_of_volatile (h : b.choice ≠ .persistent) : b.reopened = b := by
  cases b with
  | persistent p => exact absurd rfl h
  | _ => rfl

end Store.Backend

namespace Cache

variable {c : Cache} {w : World} {s s₁ s₂ s' : State}

/-! ## Lookups -/

/-- What a lookup comes upon. -/
inductive Fate
  /-- The text spells no guid, and nothing is looked up. -/
  | unspelled
  | missed
  /-- There is a record, but it has expired. -/
  | stale
  | fresh
  deriving DecidableEq, Repr

def Lookup.fate (w : World) (l : Lookup) : Fate :=
  match Key.parse l.kind l.raw with
  | .error _ => .unspelled
  | .ok key =>
    match l.before.backend.answer key with
    | .ok (some r) => if r.isFreshAt (w l.before.elapsed).now then .fresh else .stale
    | _ => .missed

/-- Whether the text spells a guid. -/
def Lookup.isSpelled (l : Lookup) : Bool := (Guid.canonicalize l.raw).isOk

/-- How many lookups come upon something. -/
def fated (w : World) (fate : Fate) (lookups : List Lookup) : Nat :=
  lookups.countP fun l => l.fate w = fate

theorem fated_append (fate : Fate) (lookups more : List Lookup) :
    fated w fate (lookups ++ more) = fated w fate lookups + fated w fate more :=
  List.countP_append

theorem fated_singleton (fate : Fate) (l : Lookup) :
    fated w fate [l] = if l.fate w = fate then 1 else 0 := by
  simp [fated, List.countP_cons]

theorem isSpelled_iff {l : Lookup} : l.isSpelled ↔ l.fate w ≠ .unspelled := by
  unfold Lookup.isSpelled Lookup.fate
  cases hguid : Guid.canonicalize l.raw with
  | error e => simp [Key.parse_of_error hguid, Except.isOk, Except.toBool]
  | ok guid =>
    simp only [Key.parse_of_ok hguid, Except.isOk, Except.toBool, true_iff]
    split
    · split <;> exact Fate.noConfusion
    · exact Fate.noConfusion

/-- A guid that is looked up is there and fresh, or there and stale, or not there. -/
theorem countP_isSpelled (w : World) (lookups : List Lookup) :
    lookups.countP Lookup.isSpelled
      = fated w .fresh lookups + fated w .stale lookups + fated w .missed lookups := by
  induction lookups with
  | nil => rfl
  | cons l lookups ih =>
    rw [← List.singleton_append, fated_append, fated_append, fated_append, List.countP_append, ih,
      fated_singleton, fated_singleton, fated_singleton, List.countP_singleton]
    have hspelled := isSpelled_iff (w := w) (l := l)
    cases hfate : l.fate w <;> simp [hfate] at hspelled <;> simp [hspelled] <;> omega

/-! ## Accounts -/

/-- From one state to another, this was added to what is counted. A store counts if it is one in
memory. -/
structure Added (hits misses fetches requests : Nat) (s s' : State) : Prop where
  choice : s'.backend.choice = s.backend.choice
  hits : s.backend.choice = .memory → s'.backend.tally.hits = s.backend.tally.hits + hits
  misses : s.backend.choice = .memory → s'.backend.tally.misses = s.backend.tally.misses + misses
  fetches : s'.fetches = s.fetches + fetches
  requests : s'.asked.length = s.asked.length + requests

namespace Added

variable {h h' m m' f f' r r' : Nat}

theorem refl (s : State) : Added 0 0 0 0 s s := ⟨rfl, fun _ => rfl, fun _ => rfl, rfl, rfl⟩

theorem trans (first : Added h m f r s s₁) (next : Added h' m' f' r' s₁ s₂) :
    Added (h + h') (m + m') (f + f') (r + r') s s₂ where
  choice := next.choice.trans first.choice
  hits hs := by rw [next.hits (first.choice.trans hs), first.hits hs, Nat.add_assoc]
  misses hs := by rw [next.misses (first.choice.trans hs), first.misses hs, Nat.add_assoc]
  fetches := by rw [next.fetches, first.fetches, Nat.add_assoc]
  requests := by rw [next.requests, first.requests, Nat.add_assoc]

theorem later (s : State) : Added 0 0 0 0 s s.later := ⟨rfl, fun _ => rfl, fun _ => rfl, rfl, rfl⟩

theorem fetched (s : State) (paths : List String) :
    Added 0 0 1 paths.length s (s.fetched paths) :=
  ⟨rfl, fun _ => rfl, fun _ => rfl, rfl, List.length_append⟩

theorem looked {key : Key} {found : Option Record} (hanswer : s.backend.answer key = .ok found) :
    Added (if found.isSome then 1 else 0) (if found.isSome then 0 else 1) 0 0 s (s.looked key) where
  choice := s.backend.choice_get key
  hits hs := (Backend.tally_get hs hanswer).1
  misses hs := (Backend.tally_get hs hanswer).2
  fetches := rfl
  requests := rfl

theorem stored (s : State) (key : Key) (r : Record) : Added 0 0 0 0 s (s.stored c w key r) where
  choice := s.backend.choice_put key _
  hits hs := (Backend.tally_put hs key _).1
  misses hs := (Backend.tally_put hs key _).2
  fetches := rfl
  requests := rfl

end Added

/-- What lookups add to what is counted, and fetches of a list that is spread over pages. -/
def Booked (w : World) (lookups : List Lookup) (pages : List Nat) : State → State → Prop :=
  Added (fated w .fresh lookups + fated w .stale lookups) (fated w .missed lookups)
    (fated w .missed lookups + fated w .stale lookups + pages.length)
    (fated w .missed lookups + fated w .stale lookups + pages.sum)

theorem Booked.trans {lookups lookups' : List Lookup} {pages pages' : List Nat}
    (h : Booked w lookups pages s s₁) (h' : Booked w lookups' pages' s₁ s₂) :
    Booked w (lookups ++ lookups') (pages ++ pages') s s₂ := by
  unfold Booked at h h' ⊢
  simp only [fated_append, List.length_append, List.sum_append]
  convert Added.trans h h' using 1 <;> omega

/-- Each fetch of one entity is one request. -/
def AsksOnce (w : World) : Prop :=
  ∀ n kind guid, ((w n).fetcher.one kind guid).asked.length = 1

/-! ## Calls -/

theorem added_refresh (hw : AsksOnce w) (c : Cache) (key : Key) (s : State) :
    Added 0 0 1 1 s (c.refresh key w s).2 := by
  have hfetched := Added.fetched s ((w s.elapsed).fetcher.one key.kind key.guid).asked
  rw [hw] at hfetched
  rw [refresh_apply]
  split
  · rw [store_apply]
    exact hfetched.trans (.stored _ _ _)
  · split
    · exact hfetched.trans (.stored _ _ _)
    · exact hfetched

/-- **A lookup is counted for what it comes upon**, whatever comes of it in the end. -/
theorem booked_getEntity (hw : AsksOnce w) (hs : s.backend.choice ≠ .persistent) (c : Cache)
    (kind : Kind) (raw : String) : Booked w [⟨kind, raw, s⟩] [] s (c.getEntity kind raw w s).2 := by
  unfold Booked
  simp only [fated_singleton]
  cases hkey : Key.parse kind raw with
  | error e =>
    have hfate : Lookup.fate w ⟨kind, raw, s⟩ = .unspelled := by simp only [Lookup.fate, hkey]
    rw [getEntity_of_invalid hkey, hfate]
    exact .refl s
  | ok key =>
    obtain ⟨found, hanswer⟩ := Backend.exists_answer hs key
    have hlooked := Added.looked hanswer
    rw [getEntity_apply hkey, hanswer]
    cases found with
    | none =>
      have hfate : Lookup.fate w ⟨kind, raw, s⟩ = .missed := by
        simp only [Lookup.fate, hkey, hanswer]
      rw [hfate]
      exact hlooked.trans (added_refresh hw c key _)
    | some r =>
      have hfate : Lookup.fate w ⟨kind, raw, s⟩
          = if r.isFreshAt (w s.elapsed).now then .fresh else .stale := by
        simp only [Lookup.fate, hkey, hanswer]
      rw [hfate]
      by_cases hfresh : r.isFreshAt (w s.elapsed).now
      · simp only [if_pos hfresh]
        exact hlooked.trans (.later _)
      · simp only [if_neg hfresh]
        exact (hlooked.trans (.later _)).trans (added_refresh hw c key _)

theorem booked_action (hw : AsksOnce w) {α : Type} (p : Plan α)
    (hs : s.backend.choice ≠ .persistent) :
    Booked w (p.lookups c w s) [] s (p.action c w s).2 := by
  refine p.tell (R := fun lookups s s' => s.backend.choice ≠ .persistent →
    Booked w lookups [] s s') (fun s _ => .refl s) ?_ ?_ ?_ s hs
  · intro first next s s₁ s₂ hfirst hnext hs
    have hbooked := hfirst hs
    exact hbooked.trans (hnext (hbooked.choice ▸ hs))
  · intro kind raw s hs
    exact booked_getEntity hw hs c kind raw
  · intro key r s _
    rw [store_apply]
    exact .stored s key r

/-- The lookups in the course of a use, in order. -/
def lookupsOf (c : Cache) (w : World) (s : State) : Use → List Lookup
  | .lookup kind raw => [⟨kind, raw, s⟩]
  | .resolve raw => (c.resolvePlan raw).lookups c w s
  | .fill =>
    if s.backend.retains then
      match ((w s.elapsed).fetcher.all .app).answer with
      | .ok found =>
        (c.preloadsPlan found).lookups c w (s.fetched ((w s.elapsed).fetcher.all .app).asked)
      | .error _ => []
    else []
  | _ => []

/-- The number of pages that are asked for, if it is a preload. -/
def pagesOf (w : World) (s : State) : Use → List Nat
  | .fill => if s.backend.retains then [((w s.elapsed).fetcher.all .app).asked.length] else []
  | _ => []

/-- What can be told of each of some uses from the state that it begins in. -/
def along {β : Type} (c : Cache) (w : World) (tell : State → Use → List β) :
    State → List Use → List β
  | _, [] => []
  | s, u :: uses => tell s u ++ c.along w tell (c.use w s u) uses

theorem booked_use (hw : AsksOnce w) (hs : s.backend.choice ≠ .persistent) {u : Use}
    (hu : u ≠ .restart) : Booked w (c.lookupsOf w s u) (pagesOf w s u) s (c.use w s u) := by
  cases u with
  | lookup kind raw => exact booked_getEntity hw hs c kind raw
  | resolve raw =>
    show Booked w _ [] s (c.resolveApp raw w s).2
    rw [← action_resolvePlan]
    exact booked_action hw _ hs
  | fill =>
    simp only [lookupsOf, pagesOf, use, fillAll_eq_plan]
    split
    · have hfetched : Booked w [] [((w s.elapsed).fetcher.all .app).asked.length] s
          (s.fetched ((w s.elapsed).fetcher.all .app).asked) := by
        simpa [Booked, fated] using Added.fetched s ((w s.elapsed).fetcher.all .app).asked
      cases ((w s.elapsed).fetcher.all .app).answer with
      | ok found => exact hfetched.trans (booked_action hw (c.preloadsPlan found) hs)
      | error e => exact hfetched
    · exact .refl s
  | reopen =>
    show Booked w [] [] s { s with backend := s.backend.reopened }
    rw [Backend.reopened_of_volatile hs]
    exact .refl s
  | restart => exact absurd rfl hu

/-- **What is counted after any uses is what their lookups have come upon, and the pages.** -/
theorem booked_uses (hw : AsksOnce w) (hs : s.backend.choice ≠ .persistent) {uses : List Use}
    (huses : .restart ∉ uses) :
    Booked w (c.along w (c.lookupsOf w) s uses) (c.along w (pagesOf w) s uses) s
      (uses.foldl (c.use w) s) := by
  induction uses generalizing s with
  | nil => exact .refl s
  | cons u uses ih =>
    obtain ⟨hu, hrest⟩ := List.ne_and_not_mem_of_not_mem_cons huses
    have hfirst := booked_use (c := c) hw hs hu.symm
    exact hfirst.trans (ih (hfirst.choice ▸ hs) hrest)

/-- Each preload asks for pages, unless the store keeps nothing. -/
theorem length_pages (hw : AsksOnce w) (hs : s.backend.choice ≠ .persistent) {uses : List Use}
    (huses : .restart ∉ uses) : (c.along w (pagesOf w) s uses).length
      = if s.backend.retains then uses.count .fill else 0 := by
  induction uses generalizing s with
  | nil => exact (ite_self 0).symm
  | cons u uses ih =>
    obtain ⟨hu, hrest⟩ := List.ne_and_not_mem_of_not_mem_cons huses
    have hchoice := (booked_use (c := c) hw hs hu.symm).choice
    rw [along, List.length_append, ih (hchoice ▸ hs) hrest, Backend.retains_congr hchoice,
      List.count_cons, Nat.add_comm]
    cases u with
    | fill =>
      simp only [pagesOf]
      split <;> rfl
    | _ => rfl

theorem one_le_of_mem_pages {t : Nat → Transport} (ht : ∀ n, (w n).fetcher = (t n).fetcher)
    {uses : List Use} {n : Nat} (hn : n ∈ c.along w (pagesOf w) s uses) : 1 ≤ n := by
  induction uses generalizing s with
  | nil => cases hn
  | cons u uses ih =>
    rcases List.mem_append.1 hn with hn | hn
    · cases u with
      | fill =>
        simp only [pagesOf] at hn
        split at hn
        · obtain rfl := List.mem_singleton.1 hn
          have hfirst := ((t s.elapsed).isListing_fetchAll .app).first
          rw [ht]
          exact List.length_pos_of_mem (List.mem_of_mem_head? hfirst)
        · cases hn
      | _ => cases hn
    · exact ih hn

theorem sum_pages {pages : List Nat} (h : ∀ n ∈ pages, 1 ≤ n) :
    pages.sum = pages.length + (pages.map (· - 1)).sum := by
  induction pages with
  | nil => rfl
  | cons n pages ih =>
    have hn := h n List.mem_cons_self
    have hrest := ih fun n hn => h n (List.mem_cons_of_mem _ hn)
    rw [List.sum_cons, List.map_cons, List.sum_cons, List.length_cons, hrest]
    omega

/-! ## Entries -/

/-- The keys under which the store has ever taken a record. -/
def State.keptKeys (s : State) : Finset Key :=
  ((s.deposits.filter Deposit.isKept).map Deposit.key).toFinset

theorem State.mem_keptKeys {key : Key} :
    key ∈ s.keptKeys ↔ ∃ d ∈ s.deposits, d.isKept ∧ d.key = key := by
  simp [keptKeys, and_assoc]

theorem State.latest?_eq_none_iff {key : Key} : s.latest? key = none ↔ key ∉ s.keptKeys := by
  simp only [State.latest?, lastKept?, List.find?_eq_none, List.mem_reverse, State.mem_keptKeys,
    Bool.and_eq_true, decide_eq_true_eq, not_exists]
  exact forall_congr' fun d => ⟨fun h hd => h hd.1 hd.2.symm, fun h hd hkept => h ⟨hd, hkept.symm⟩⟩

/-- **There are as many entries as keys under which anything was taken.** -/
theorem entries_eq_card {b : Backend} (h : Sound c w b s) (hs : s.backend.choice = .memory) :
    s.backend.tally.entries = s.keptKeys.card := by
  cases hb : s.backend with
  | memory m =>
    have hmem (key : Key) : key ∈ m.records.keys ↔ key ∈ s.keptKeys := by
      have hanswer := h.answer key
      rw [hb, Backend.answer_memory] at hanswer
      have hnone : m.records.get? key = none ↔ s.latest? key = none := by
        rw [Except.ok.inj hanswer, Option.map_eq_none_iff]
      rw [← not_iff_not, ← Table.get?_eq_none_iff, hnone, State.latest?_eq_none_iff]
    have hkeys : m.records.keys.toFinset = s.keptKeys := by
      ext key
      rw [List.mem_toFinset, hmem]
    have hcard : m.records.keys.toFinset.card = m.records.size :=
      (List.toFinset_card_of_nodup m.records.distinct).trans (List.length_map _)
    rw [← hkeys, hcard]
    rfl
  | _ => rw [hb] at hs; cases hs

theorem steps_use (hs : s.backend.choice ≠ .persistent) {u : Use} (hu : u ≠ .restart) :
    Steps c w s (c.use w s u) := by
  cases u with
  | lookup kind raw => exact steps_getEntity ..
  | resolve raw => exact steps_resolveApp ..
  | fill => exact steps_fillAll ..
  | reopen =>
    show Steps c w s { s with backend := s.backend.reopened }
    rw [Backend.reopened_of_volatile hs]
  | restart => exact absurd rfl hu

theorem steps_uses (hs : s.backend.choice ≠ .persistent) {uses : List Use}
    (huses : .restart ∉ uses) : Steps c w s (uses.foldl (c.use w) s) := by
  induction uses generalizing s with
  | nil => exact .refl
  | cons u uses ih =>
    obtain ⟨hu, hrest⟩ := List.ne_and_not_mem_of_not_mem_cons huses
    have hfirst := steps_use (c := c) (w := w) hs hu.symm
    exact hfirst.trans (ih (choice_of_steps hfirst ▸ hs) hrest)

/-- What was taken once stays counted. -/
theorem entries_mono {b : Backend} (h : Sound c w b s) (hs : s.backend.choice = .memory)
    (hsteps : Steps c w s s') : s.backend.tally.entries ≤ s'.backend.tally.entries := by
  have hsuits : Suits w b.choice := by
    rw [← h.choice, hs]
    exact True.intro
  have hs' := (choice_of_steps hsteps).trans hs
  have h' := h.steps (keepable_of_suits hsuits) hsteps
  rw [entries_eq_card h hs, entries_eq_card h' hs']
  refine Finset.card_le_card fun key hkey => ?_
  obtain ⟨d, hd, hkept⟩ := State.mem_keptKeys.1 hkey
  exact State.mem_keptKeys.2 ⟨d, (deposits_of_steps hsteps).subset hd, hkept⟩

theorem sound_after (c : Cache) (w : World) {uses : List Use} (huses : .restart ∉ uses) :
    Sound c w (.memory .empty) (c.after w (.memory .empty) uses) :=
  (sound_start fun _ => rfl).steps (keepable_of_suits True.intro)
    (steps_uses (by decide) huses)

theorem entries_after_mono {before uses : List Use} (huses : .restart ∉ uses)
    (hbefore : before <+: uses) : (c.after w (.memory .empty) before).backend.tally.entries
      ≤ (c.after w (.memory .empty) uses).backend.tally.entries := by
  obtain ⟨more, rfl⟩ := hbefore
  have hsound := sound_after c w fun h => huses (List.mem_append_left more h)
  have hmore : .restart ∉ more := fun h => huses (List.mem_append_right before h)
  have hsteps : Steps c w (c.after w (.memory .empty) before)
      (c.after w (.memory .empty) (before ++ more)) := by
    rw [after, after, List.foldl_append]
    exact steps_uses (hsound.choice ▸ by decide) hmore
  exact entries_mono hsound hsound.choice hsteps

/-! ## The ledger -/

/-- **The counters agree**, whatever the API answers, whatever fails, and whatever time it is. In
memory, hits and misses are the guids looked up; fetches are misses, stale hits and preloads;
requests are fetches and the further pages of lists; entries are the keys under which anything was
ever taken, and never become fewer. A disabled store counts nothing, and a preload does nothing
then. -/
theorem counters_ledger (c : Cache) (now : Nat → Instant) (draw : Nat → UInt64)
    (t : Nat → Transport) {uses : List Use} (huses : .restart ∉ uses) :
    (let w : World := .over now draw t
      let s := c.after w (.memory .empty) uses
      let lookups := c.along w (c.lookupsOf w) (.ofBackend (.memory .empty)) uses
      let pages := c.along w (pagesOf w) (.ofBackend (.memory .empty)) uses
      s.backend.tally.hits + s.backend.tally.misses = lookups.countP Lookup.isSpelled
        ∧ s.fetches = s.backend.tally.misses + fated w .stale lookups + uses.count .fill
        ∧ pages.length = uses.count .fill ∧ (∀ n ∈ pages, 1 ≤ n)
        ∧ s.asked.length = s.fetches + (pages.map (· - 1)).sum
        ∧ s.backend.tally.entries = s.keptKeys.card
        ∧ ∀ before, before <+: uses →
          (c.after w (.memory .empty) before).backend.tally.entries ≤ s.backend.tally.entries)
    ∧ (let w : World := .over now draw t
      let s := c.after w .disabled uses
      s.backend.tally = .zero ∧ c.fillAll w s = (.ok .zero, s) ∧ s.fetches = s.asked.length) := by
  have hw : AsksOnce (.over now draw t) := fun _ _ _ => rfl
  constructor
  · intro w s lookups pages
    have hempty : (State.ofBackend (.memory .empty)).backend.choice ≠ .persistent := by decide
    have hbooked : Booked w lookups pages _ s := booked_uses hw hempty huses
    have hlength : pages.length = uses.count .fill := length_pages hw hempty huses
    have hpages : ∀ n ∈ pages, 1 ≤ n := fun n hn => one_le_of_mem_pages (fun _ => rfl) hn
    have hhits : s.backend.tally.hits = 0 + (fated w .fresh lookups + fated w .stale lookups) :=
      hbooked.hits rfl
    have hmisses : s.backend.tally.misses = 0 + fated w .missed lookups := hbooked.misses rfl
    have hfetches : s.fetches
      = 0 + (fated w .missed lookups + fated w .stale lookups + pages.length) := hbooked.fetches
    have hrequests : s.asked.length
      = 0 + (fated w .missed lookups + fated w .stale lookups + pages.sum) := hbooked.requests
    have hsum := sum_pages hpages
    refine ⟨?_, by omega, hlength, hpages, by omega,
      entries_eq_card (sound_after c w huses) hbooked.choice, fun _ => entries_after_mono huses⟩
    rw [countP_isSpelled w lookups]
    omega
  · intro w s
    have hempty : (State.ofBackend .disabled).backend.choice ≠ .persistent := by decide
    have hbooked : Booked w (c.along w (c.lookupsOf w) (.ofBackend .disabled) uses)
      (c.along w (pagesOf w) (.ofBackend .disabled) uses) _ s := booked_uses hw hempty huses
    have hpages : c.along w (pagesOf w) (.ofBackend .disabled) uses = [] :=
      List.eq_nil_of_length_eq_zero (length_pages hw hempty huses)
    have hretains : s.backend.retains = false :=
      Backend.retains_congr (b := .disabled) hbooked.choice
    refine ⟨Backend.tally_of_disabled hbooked.choice, ?_, ?_⟩
    · rw [fillAll_apply, hretains]
      rfl
    · have hfetches := hbooked.fetches
      rw [hpages] at hfetches hbooked
      exact hfetches.trans hbooked.requests.symm

/-- An app that is missing is resolved twice, and then all apps, of which there is no list. -/
theorem counters_ledger_barren :
    let c : Cache := ⟨⟨60 * nanosPerSecond, []⟩, true⟩
    let w : World := .over (fun _ => .epoch) (fun _ => 0) fun _ => barren
    let uses : List Use := [.resolve "6ba7b810-9dad-11d1-80b4-00c04fd430c8",
      .resolve "6ba7b810-9dad-11d1-80b4-00c04fd430c8", .fill]
    let s := c.after w (.memory .empty) uses
    .restart ∉ uses ∧ s.backend.tally = ⟨1, 1, 1⟩ ∧ s.fetches = 2 ∧ s.keptKeys.card = 1
      ∧ (c.along w (c.lookupsOf w) (.ofBackend (.memory .empty)) uses).countP Lookup.isSpelled
        = 2 := by
  intro c w uses s
  have huses : .restart ∉ uses := by decide
  obtain ⟨hspelled, -, -, -, -, hentries, -⟩ :=
    (counters_ledger c (fun _ => .epoch) (fun _ => 0) (fun _ => barren) huses).1
  have htally : s.backend.tally = ⟨1, 1, 1⟩ := by decide +kernel
  have hfetches : s.fetches = 2 := by decide +kernel
  refine ⟨huses, htally, hfetches, hentries.symm.trans ?_, hspelled.symm.trans ?_⟩
  · exact congrArg Tally.entries htally
  · exact congrArg (fun tally => tally.hits + tally.misses) htally

end Cache

end MetaCache
