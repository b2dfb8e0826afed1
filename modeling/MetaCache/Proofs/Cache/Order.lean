import MetaCache.Proofs.Cache.Agreement
import MetaCache.Proofs.Cache.Preload
import MetaCache.Proofs.Remote.Paths
import Mathlib.Data.List.Nodup

/-!
# A preload does not depend on the order of the list

Apps are preloaded one by one, and one of them may find in the store what was fetched for another.
Nevertheless the order in which they are listed does not matter, nor how the list is split into
pages (`fillAll_order`). While the clock stands still, what a lookup sees under a key is the same
before and after any other lookup: what the store had at first if that is fresh, and else what the
API tells (`seen`). So it can be said in advance whether an app can be preloaded, what it counts for
(`tallied`) and what it writes (`Writes`).
-/

namespace MetaCache

open MetaCache.Remote MetaCache.Store

/-- One report on top of another. -/
def FillReport.plus (a b : FillReport) : FillReport :=
  ⟨a.apps + b.apps, a.spaces + b.spaces, a.organizations + b.organizations⟩

theorem FillReport.plus_right_comm (a b c : FillReport) :
    (a.plus b).plus c = (a.plus c).plus b := by
  simp only [plus, FillReport.mk.injEq]
  omega

namespace Cache

variable {c : Cache} {f : Fetcher} {b : Backend} {now : Instant} {w : World} {s : State}
  {old new : List Deposit}

/-! ## What is seen -/

/-- There is something under the key, and it is fresh. -/
def HasFresh (b : Backend) (now : Instant) (key : Key) : Prop :=
  ∃ r, b.answer key = .ok (some r) ∧ r.isFreshAt now

/-- What is seen under a key: what the store had at first if that is fresh, else what the API tells.
Expiries do not count. -/
def seen (c : Cache) (f : Fetcher) (b : Backend) (now : Instant) (key : Key) :
    Except Error Record :=
  match b.answer key with
  | .ok (some r) => if r.isFreshAt now then .ok r.timeless else c.told f key
  | _ => c.told f key

theorem seen_of_fresh {key : Key} {r : Record} (h : b.answer key = .ok (some r))
    (hfresh : r.isFreshAt now) : c.seen f b now key = .ok r.timeless := by
  rw [seen, h]
  exact if_pos hfresh

theorem seen_of_stale {key : Key} (h : ¬ HasFresh b now key) : c.seen f b now key = c.told f key := by
  unfold seen
  split
  · next r hr => rw [if_neg fun hfresh => h ⟨r, hr, hfresh⟩]
  · rfl

/-- What a lookup sees. -/
def sight (c : Cache) (f : Fetcher) (b : Backend) (now : Instant) (kind : Kind) (raw : String) :
    Except Error Record :=
  (Key.parse kind raw).bind (c.seen f b now)

/-- What a lookup writes: what the API answers, unless there was something fresh. -/
structure Fetches (f : Fetcher) (b : Backend) (now : Instant) (kind : Kind) (raw : String)
    (key : Key) (r : Record) : Prop where
  parsed : Key.parse kind raw = .ok key
  stale : ¬ HasFresh b now key
  answer : (f.one key.kind key.guid).answer = .ok r

/-! ## What becomes of a store -/

/-- What has become of the entry under a key: nothing has touched it, or a record is there that has
been stored since. -/
inductive Outcome (c : Cache) (b : Backend) (now : Instant) (s : State) (new : List Deposit)
    (key : Key) : Option Record → Prop
  | kept (answer : s.backend.answer key = b.answer key) (untouched : ∀ d ∈ new, d.key ≠ key) :
      Outcome c b now s new key none
  | written {r : Record} (draw : UInt64)
      (answer : s.backend.answer key = .ok (some (c.normalizer.normalize key.kind r now draw)))
      (stored : ⟨key, c.normalizer.normalize key.kind r now draw, now, true⟩ ∈ new) :
      Outcome c b now s new key (some r)

/-- A store in memory in the middle of a preload: written is what was to be written so far, and all
else is as it was. What was written for lookups was not fresh before, and the API has answered it. -/
structure Filled (c : Cache) (f : Fetcher) (b : Backend) (now : Instant) (old : List Deposit)
    (W : Key → Record → Prop) (s : State) (new : List Deposit) : Prop where
  choice : s.backend.choice = .memory
  deposits : s.deposits = old ++ new
  entry : ∀ key, (∃ r, Outcome c b now s new key (some r) ∧ W key r)
    ∨ (Outcome c b now s new key none ∧ ∀ r, ¬ W key r)
  fetched : ∀ {key r}, W key r → key.kind ≠ .app →
    ¬ HasFresh b now key ∧ (f.one key.kind key.guid).answer = .ok r

namespace Filled

variable {W W' : Key → Record → Prop}

theorem start (hs : s.backend.choice = .memory) :
    Filled c f s.backend now s.deposits (fun _ _ => False) s [] where
  choice := hs
  deposits := (List.append_nil _).symm
  entry _ := .inr ⟨.kept rfl fun _ hd => absurd hd List.not_mem_nil, fun _ => not_false⟩
  fetched h := h.elim

theorem congr (h : Filled c f b now old W s new) (hW : ∀ key r, W' key r ↔ W key r) :
    Filled c f b now old W' s new := by
  have hsame : W' = W := funext fun key => funext fun r => propext (hW key r)
  rwa [hsame]

/-- What stores nothing changes nothing. -/
theorem frame {s' : State} (h : Filled c f b now old W s new)
    (hchoice : s'.backend.choice = s.backend.choice)
    (hanswer : ∀ key, s'.backend.answer key = s.backend.answer key)
    (hdeposits : s'.deposits = s.deposits) : Filled c f b now old W s' new where
  choice := hchoice.trans h.choice
  deposits := hdeposits.trans h.deposits
  entry key := by
    rcases h.entry key with ⟨r, houtcome, hr⟩ | ⟨houtcome, hr⟩
    · cases houtcome with
      | written draw answer stored =>
        exact .inl ⟨r, .written draw ((hanswer key).trans answer) stored, hr⟩
    · cases houtcome with
      | kept answer untouched => exact .inr ⟨.kept ((hanswer key).trans answer) untouched, hr⟩
  fetched := h.fetched

theorem looked (h : Filled c f b now old W s new) (key : Key) :
    Filled c f b now old W (s.looked key) new :=
  h.frame (s.backend.choice_get key) (s.backend.answer_get key) rfl

theorem later (h : Filled c f b now old W s new) : Filled c f b now old W s.later new :=
  h.frame rfl (fun _ => rfl) rfl

theorem asked (h : Filled c f b now old W s new) (paths : List String) :
    Filled c f b now old W (s.fetched paths) new :=
  h.frame rfl (fun _ => rfl) rfl

/-- A record that is stored is written, and nothing else changes. -/
theorem stored (h : Filled c f b now old W s new) (hnow : ∀ n, (w n).now = now) {key : Key}
    {r : Record} (hr : W' key r) (hother : ∀ other, other ≠ key → ∀ r', W' other r' ↔ W other r')
    (hfetched : ∀ {other r'}, W' other r' → other.kind ≠ .app →
      ¬ HasFresh b now other ∧ (f.one other.kind other.guid).answer = .ok r') :
    ∃ more, Filled c f b now old W' (s.stored c w key r) (new ++ more) := by
  obtain ⟨hput, hanswer⟩ := Backend.put_of_memory h.choice key
    (c.normalizer.normalize key.kind r now (w s.elapsed).draw)
  have hdeposit : (s.stored c w key r).deposits = s.deposits
      ++ [⟨key, c.normalizer.normalize key.kind r now (w s.elapsed).draw, now, true⟩] := by
    simp only [State.stored, State.deposited, hnow]
    rw [show s.later.backend = s.backend from rfl, hput]
    rfl
  refine ⟨_, (Backend.choice_put ..).trans h.choice,
    by rw [hdeposit, h.deposits, List.append_assoc], fun other => ?_, hfetched⟩
  have hafter : (s.stored c w key r).backend.answer other = if other = key
      then .ok (some (c.normalizer.normalize key.kind r now (w s.elapsed).draw))
      else s.backend.answer other := by
    simp only [State.stored, State.deposited, hnow]
    exact hanswer other
  by_cases hkey : other = key
  · subst hkey
    rw [if_pos rfl] at hafter
    exact .inl ⟨r, .written _ hafter (List.mem_append_right _ (List.mem_singleton_self _)), hr⟩
  · rw [if_neg hkey] at hafter
    rcases h.entry other with ⟨r', houtcome, hr'⟩ | ⟨houtcome, hnone⟩
    · cases houtcome with
      | written draw answer stored =>
        exact .inl ⟨r', .written draw (hafter.trans answer) (List.mem_append_left _ stored),
          (hother other hkey r').2 hr'⟩
    · cases houtcome with
      | kept answer untouched =>
        refine .inr ⟨.kept (hafter.trans answer) fun d hd => ?_,
          fun r' hr' => hnone r' ((hother other hkey r').1 hr')⟩
        rcases List.mem_append.1 hd with hd | hd
        · exact untouched d hd
        · rw [List.mem_singleton.1 hd]
          exact Ne.symm hkey

/-- Fetching what was not fresh at first. -/
theorem refresh (h : Filled c f b now old W s new) (hnow : ∀ n, (w n).now = now)
    (hone : ∀ n kind guid, ((w n).fetcher.one kind guid).answer = (f.one kind guid).answer)
    {kind : Kind} (hkind : kind ≠ .app) {raw : String} {key : Key}
    (hparse : Key.parse kind raw = .ok key) (hstale : ¬ HasFresh b now key) :
    (c.refresh key w s).1.map Record.timeless = c.told f key
      ∧ ∃ more, Filled c f b now old (fun k r => W k r ∨ Fetches f b now kind raw k r)
        (c.refresh key w s).2 (new ++ more) := by
  have hnotApp : key.kind ≠ .app := Key.kind_of_parse hparse ▸ hkind
  have hfetched {other : Key} {r : Record} (hr : W other r ∨ Fetches f b now kind raw other r)
      (hother : other.kind ≠ .app) :
      ¬ HasFresh b now other ∧ (f.one other.kind other.guid).answer = .ok r :=
    hr.elim (fun hr => h.fetched hr hother) fun hr => ⟨hr.stale, hr.answer⟩
  rw [refresh_apply, hone, told]
  cases hanswer : (f.one key.kind key.guid).answer with
  | ok r =>
    have hasked := h.asked ((w s.elapsed).fetcher.one key.kind key.guid).asked
    simp only [store_apply]
    constructor
    · rw [(Backend.put_of_memory hasked.choice ..).1]
      exact congrArg Except.ok (c.normalizer.timeless_normalize ..)
    · refine hasked.stored hnow (.inr ⟨hparse, hstale, hanswer⟩) (fun other hother r' => ?_) hfetched
      refine or_iff_left fun hr' => hother ?_
      exact Except.ok.inj (hr'.parsed.symm.trans hparse)
  | error e =>
    simp only [hnotApp, decide_false, Bool.false_and, Bool.false_eq_true, if_false]
    refine ⟨rfl, [], ?_⟩
    rw [List.append_nil]
    refine (h.asked _).congr fun other r => or_iff_left fun hr => ?_
    obtain rfl := Except.ok.inj (hr.parsed.symm.trans hparse)
    rw [hr.answer] at hanswer
    cases hanswer

/-- What is fresh now is what can be seen, and what is not was not fresh at first either. -/
theorem fresh_or_stale (h : Filled c f b now old W s new) {key : Key} (hkind : key.kind ≠ .app) :
    (∃ r, s.backend.answer key = .ok (some r) ∧ r.isFreshAt now
      ∧ c.seen f b now key = .ok r.timeless
      ∧ ∀ r', ¬ HasFresh b now key → (f.one key.kind key.guid).answer = .ok r' → W key r')
    ∨ ¬ HasFresh s.backend now key ∧ ¬ HasFresh b now key := by
  -- Either the entry has been written since, or it is the one that was there at first.
  rcases h.entry key with ⟨r, houtcome, hr⟩ | ⟨houtcome, -⟩
  · obtain ⟨hstale, htold⟩ := h.fetched hr hkind
    cases houtcome with
    | written draw answer _ =>
      by_cases hfresh : (c.normalizer.normalize key.kind r now draw).isFreshAt now
      · refine .inl ⟨_, answer, hfresh, ?_, fun r' _ hr' => ?_⟩
        · rw [seen_of_stale hstale, told, htold]
          exact congrArg Except.ok (c.normalizer.timeless_normalize ..).symm
        · rw [htold] at hr'
          cases hr'
          exact hr
      · refine .inr ⟨?_, hstale⟩
        rintro ⟨r', hr', hfresh'⟩
        rw [answer] at hr'
        cases hr'
        exact hfresh hfresh'
  · cases houtcome with
    | kept answer _ =>
      by_cases hfresh : HasFresh b now key
      · obtain ⟨r, hr, hfresh⟩ := hfresh
        exact .inl ⟨r, answer.trans hr, hfresh, seen_of_fresh hr hfresh,
          fun r' hstale => absurd ⟨r, hr, hfresh⟩ hstale⟩
      · refine .inr ⟨?_, hfresh⟩
        rintro ⟨r, hr, hfresh'⟩
        exact hfresh ⟨r, answer.symm.trans hr, hfresh'⟩

/-- **A lookup sees what can be said in advance**, and writes what can be said in advance. -/
theorem getEntity (h : Filled c f b now old W s new) (hnow : ∀ n, (w n).now = now)
    (hone : ∀ n kind guid, ((w n).fetcher.one kind guid).answer = (f.one kind guid).answer)
    {kind : Kind} (hkind : kind ≠ .app) (raw : String) :
    (c.getEntity kind raw w s).1.map Record.timeless = c.sight f b now kind raw
      ∧ ∃ more, Filled c f b now old (fun k r => W k r ∨ Fetches f b now kind raw k r)
        (c.getEntity kind raw w s).2 (new ++ more) := by
  cases hparse : Key.parse kind raw with
  | error e =>
    rw [getEntity_of_invalid hparse, sight, hparse]
    refine ⟨rfl, [], ?_⟩
    rw [List.append_nil]
    exact h.congr fun other r => or_iff_left fun hr => by
      rw [hr.parsed] at hparse
      cases hparse
  | ok key =>
    have hsight : c.sight f b now kind raw = c.seen f b now key := by
      rw [sight, hparse]
      rfl
    rw [getEntity_apply hparse, hsight, hnow]
    rcases h.fresh_or_stale (Key.kind_of_parse hparse ▸ hkind) with
      ⟨r, hr, hfresh, hseen, hwritten⟩ | ⟨hstale, hfirst⟩
    · rw [hr, hseen]
      dsimp only
      rw [if_pos hfresh]
      refine ⟨rfl, [], ?_⟩
      rw [List.append_nil]
      refine (h.looked key).later.congr fun other r' => or_iff_left_of_imp fun hr' => ?_
      obtain rfl := Except.ok.inj (hr'.parsed.symm.trans hparse)
      exact hwritten r' hr'.stale hr'.answer
    · rw [seen_of_stale hfirst]
      obtain ⟨found, hfound⟩ := Backend.exists_answer_of_memory h.choice key
      rw [hfound]
      cases found with
      | none => exact (h.looked key).refresh hnow hone hkind hparse hfirst
      | some r =>
        dsimp only
        rw [if_neg fun hfresh => hstale ⟨r, hfound, hfresh⟩]
        exact (h.looked key).later.refresh hnow hone hkind hparse hfirst

end Filled

/-! ## Preloads -/

/-- What comes of counting the organization of a space. -/
def counted (c : Cache) (f : Fetcher) (b : Backend) (now : Instant) (space : Record)
    (report : FillReport) : Except Error FillReport :=
  match c.sight f b now .organization space.organizationGuid with
  | .ok _ => .ok { report with organizations := report.organizations + 1 }
  | .error e => if c.tolerates e then .ok report else .error e

/-- What comes of preloading a listed app. -/
def tallied (c : Cache) (f : Fetcher) (b : Backend) (now : Instant) (report : FillReport)
    (listed : String × Record) : Except Error FillReport :=
  match Key.parse .app listed.1 with
  | .error e => .error e
  | .ok _ =>
    let report := { report with apps := report.apps + 1 }
    match c.sight f b now .space listed.2.spaceGuid with
    | .ok space => c.counted f b now space { report with spaces := report.spaces + 1 }
    | .error e => if c.tolerates e then c.counted f b now .empty report else .error e

/-- The space of a listed app, or an empty record in its place. -/
def spaced (c : Cache) (f : Fetcher) (b : Backend) (now : Instant) (listed : String × Record) :
    Record :=
  (c.sight f b now .space listed.2.spaceGuid).toOption.getD .empty

/-- What is written when a listed app is preloaded. -/
inductive Writes (c : Cache) (f : Fetcher) (b : Backend) (now : Instant)
    (listed : String × Record) (key : Key) : Record → Prop
  | app (parsed : Key.parse .app listed.1 = .ok key) : Writes c f b now listed key listed.2
  | space {r : Record} (fetches : Fetches f b now .space listed.2.spaceGuid key r) :
      Writes c f b now listed key r
  | organization {r : Record}
      (fetches : Fetches f b now .organization (c.spaced f b now listed).organizationGuid key r) :
      Writes c f b now listed key r

theorem writes_iff {listed : String × Record} {key : Key}
    (hparse : Key.parse .app listed.1 = .ok key) {k : Key} {r : Record} :
    Writes c f b now listed k r ↔ (k = key ∧ r = listed.2)
      ∨ Fetches f b now .space listed.2.spaceGuid k r
      ∨ Fetches f b now .organization (c.spaced f b now listed).organizationGuid k r := by
  constructor
  · intro h
    cases h with
    | app parsed => exact .inl ⟨Except.ok.inj (parsed.symm.trans hparse), rfl⟩
    | space fetches => exact .inr (.inl fetches)
    | organization fetches => exact .inr (.inr fetches)
  · rintro (⟨rfl, rfl⟩ | h | h)
    · exact .app hparse
    · exact .space h
    · exact .organization h

namespace Filled

variable {W : Key → Record → Prop}

theorem countOrganization (h : Filled c f b now old W s new) (hnow : ∀ n, (w n).now = now)
    (hone : ∀ n kind guid, ((w n).fetcher.one kind guid).answer = (f.one kind guid).answer)
    (space : Record) (report : FillReport) :
    (c.countOrganization space report w s).1 = c.counted f b now space report
      ∧ ∃ more, Filled c f b now old
        (fun k r => W k r ∨ Fetches f b now .organization space.organizationGuid k r)
        (c.countOrganization space report w s).2 (new ++ more) := by
  obtain ⟨hsight, more, hmore⟩ := h.getEntity hnow hone (by decide : Kind.organization ≠ .app)
    space.organizationGuid
  unfold MetaCache.Cache.countOrganization
  rw [Action.attempt_bind, counted, ← hsight]
  cases hdone : (c.getEntity .organization space.organizationGuid w s).1 with
  | ok r => exact ⟨rfl, more, hmore⟩
  | error e =>
    simp only [Except.map]
    split <;> exact ⟨rfl, more, hmore⟩

/-- An app is stored as it was listed, whatever the API says of it. -/
theorem storedApp (h : Filled c f b now old W s new) (hnow : ∀ n, (w n).now = now) {key : Key}
    (happ : key.kind = .app) (r : Record) :
    ∃ more, Filled c f b now old (fun k r' => W k r' ∨ k = key ∧ r' = r) (s.stored c w key r)
      (new ++ more) := by
  refine h.stored hnow (.inr ⟨rfl, rfl⟩) (fun other hother r' => ?_) fun hr' hother => ?_
  · exact or_iff_left fun hr' => hother hr'.1
  · exact hr'.elim (fun hr' => h.fetched hr' hother) fun hr' => absurd (hr'.1 ▸ happ) hother

/-- **A listed app is preloaded as can be said in advance.** -/
theorem preload (h : Filled c f b now old W s new) (hnow : ∀ n, (w n).now = now)
    (hone : ∀ n kind guid, ((w n).fetcher.one kind guid).answer = (f.one kind guid).answer)
    (listed : String × Record) (report : FillReport) :
    (c.preload report listed w s).1 = c.tallied f b now report listed
      ∧ ((c.tallied f b now report listed).isOk → ∃ more, Filled c f b now old
        (fun k r => W k r ∨ Writes c f b now listed k r) (c.preload report listed w s).2
        (new ++ more)) := by
  cases hparse : Key.parse .app listed.1 with
  | error e =>
    have htally : c.tallied f b now report listed = .error e := by rw [tallied, hparse]
    unfold MetaCache.Cache.preload
    rw [htally, hparse]
    exact ⟨rfl, fun hok => by cases hok⟩
  | ok key =>
    have happ : key.kind = .app := Key.kind_of_parse hparse
    obtain ⟨more₁, hstored⟩ := h.storedApp hnow happ listed.2
    have hstore : c.store key listed.2 w s = (.ok (c.normalizer.normalize key.kind listed.2
        (w s.elapsed).now (w s.elapsed).draw), s.stored c w key listed.2) := by
      rw [store_apply, (Backend.put_of_memory h.choice ..).1]
      rfl
    obtain ⟨hsight, more₂, hspaced⟩ :=
      hstored.getEntity hnow hone (by decide : Kind.space ≠ .app) listed.2.spaceGuid
    rw [preload_apply hparse hstore rfl]
    have hcount (space : Record) (hspace : (c.spaced f b now listed).organizationGuid
        = space.organizationGuid) (report : FillReport) :
        (c.countOrganization space report w (c.getEntity .space listed.2.spaceGuid w
            (s.stored c w key listed.2)).2).1 = c.counted f b now space report
          ∧ ∃ more, Filled c f b now old (fun k r => W k r ∨ Writes c f b now listed k r)
            (c.countOrganization space report w (c.getEntity .space listed.2.spaceGuid w
              (s.stored c w key listed.2)).2).2 (new ++ more) := by
      obtain ⟨hcounted, more₃, horganized⟩ := hspaced.countOrganization hnow hone space report
      refine ⟨hcounted, more₁ ++ more₂ ++ more₃, ?_⟩
      rw [← List.append_assoc, ← List.append_assoc]
      refine horganized.congr fun k r => ?_
      rw [writes_iff hparse, hspace, or_assoc, or_assoc]
    rw [tallied, hparse]
    cases hdone : (c.getEntity .space listed.2.spaceGuid w (s.stored c w key listed.2)).1 with
    | ok space =>
      rw [hdone] at hsight
      have hseen : c.spaced f b now listed = space.timeless := by
        rw [spaced, ← hsight]
        rfl
      obtain ⟨hcounted, hfilled⟩ := hcount space (congrArg Record.organizationGuid hseen :) _
      rw [← hsight]
      exact ⟨hcounted, fun _ => hfilled⟩
    | error e =>
      rw [hdone] at hsight
      have hseen : c.spaced f b now listed = .empty := by
        rw [spaced, ← hsight]
        rfl
      rw [← hsight]
      simp only [Except.map]
      split
      · obtain ⟨hcounted, hfilled⟩ := hcount .empty (congrArg Record.organizationGuid hseen) _
        exact ⟨hcounted, fun _ => hfilled⟩
      · exact ⟨rfl, fun hok => by cases hok⟩

/-- **Listed apps are preloaded as can be said in advance.** -/
theorem preloads (h : Filled c f b now old W s new) (hnow : ∀ n, (w n).now = now)
    (hone : ∀ n kind guid, ((w n).fetcher.one kind guid).answer = (f.one kind guid).answer)
    (found : List (String × Record)) (report : FillReport) :
    (found.foldlM c.preload report w s).1 = found.foldlM (c.tallied f b now) report
      ∧ ((found.foldlM (c.tallied f b now) report).isOk → ∃ more, Filled c f b now old
        (fun k r => W k r ∨ ∃ listed ∈ found, Writes c f b now listed k r)
        (found.foldlM c.preload report w s).2 (new ++ more)) := by
  induction found generalizing W s new report with
  | nil =>
    refine ⟨rfl, fun _ => ⟨[], ?_⟩⟩
    rw [List.append_nil]
    exact h.congr fun k r => by simp
  | cons listed rest ih =>
    obtain ⟨htallied, hfilled⟩ := h.preload hnow hone listed report
    rw [List.foldlM_cons, List.foldlM_cons]
    cases hdone : c.tallied f b now report listed with
    | error e =>
      rw [hdone] at htallied
      rw [Action.bind_of_error htallied]
      exact ⟨rfl, fun hok => by cases hok⟩
    | ok report' =>
      rw [hdone] at htallied hfilled
      rw [Action.bind_of_ok htallied]
      obtain ⟨more, hmore⟩ := hfilled rfl
      obtain ⟨hrest, hfilled'⟩ := ih hmore report'
      refine ⟨hrest, fun hok => ?_⟩
      obtain ⟨more', hmore'⟩ := hfilled' hok
      refine ⟨more ++ more', ?_⟩
      rw [← List.append_assoc]
      refine hmore'.congr fun k r => ?_
      simp only [List.exists_mem_cons_iff, or_assoc]

end Filled

/-! ## Reports -/

theorem counted_plus (space : Record) (report gain : FillReport) :
    c.counted f b now space (report.plus gain)
      = (c.counted f b now space gain).map report.plus := by
  unfold counted
  split
  · rfl
  · split <;> rfl

/-- An app counts for the same, whatever has been counted before. -/
theorem tallied_eq (report : FillReport) (listed : String × Record) :
    c.tallied f b now report listed = (c.tallied f b now .zero listed).map report.plus := by
  unfold tallied
  split
  · rfl
  · simp only
    split
    · exact counted_plus _ report ⟨1, 1, 0⟩
    · split
      · exact counted_plus _ report ⟨1, 0, 0⟩
      · rfl

/-- What a listed app counts for. -/
def gain (c : Cache) (f : Fetcher) (b : Backend) (now : Instant) (listed : String × Record) :
    FillReport :=
  (c.tallied f b now .zero listed).toOption.getD .zero

/-- A preload succeeds if it does for every app, and the report is the sum of what they count for. -/
theorem tallies_eq_ok_iff {found : List (String × Record)} {report report' : FillReport} :
    found.foldlM (c.tallied f b now) report = .ok report' ↔
      (∀ listed ∈ found, (c.tallied f b now .zero listed).isOk)
        ∧ found.foldl (fun sum listed => sum.plus (c.gain f b now listed)) report = report' := by
  induction found generalizing report with
  | nil =>
    rw [List.foldlM_nil, List.foldl_nil]
    exact ⟨fun h => ⟨fun _ hmem => absurd hmem List.not_mem_nil, Except.ok.inj h⟩,
      fun h => congrArg Except.ok h.2⟩
  | cons listed rest ih =>
    rw [List.foldlM_cons, List.foldl_cons, List.forall_mem_cons, tallied_eq, gain]
    cases c.tallied f b now .zero listed with
    | error e =>
      constructor
      · intro h
        cases h
      · rintro ⟨⟨h, -⟩, -⟩
        cases h
    | ok gained =>
      refine ih.trans ?_
      constructor
      · rintro ⟨hrest, hsum⟩
        exact ⟨⟨rfl, hrest⟩, hsum⟩
      · rintro ⟨⟨-, hrest⟩, hsum⟩
        exact ⟨hrest, hsum⟩

/-- The order does not matter to success, nor to the report. -/
theorem tallies_perm {found found' : List (String × Record)} (h : found.Perm found')
    (report report' : FillReport) :
    found.foldlM (c.tallied f b now) report = .ok report'
      ↔ found'.foldlM (c.tallied f b now) report = .ok report' := by
  rw [tallies_eq_ok_iff, tallies_eq_ok_iff,
    h.foldl_eq' (fun _ _ _ _ sum => FillReport.plus_right_comm sum _ _)]
  exact and_congr_left fun _ => forall_congr' fun listed => by rw [h.mem_iff]

/-! ## All apps -/

/-- Guids that are listed are spelled once each. -/
def Distinct (found : List (String × Record)) : Prop :=
  (found.filterMap fun listed => (Key.parse .app listed.1).toOption).Nodup

theorem eq_of_distinct {found : List (String × Record)} (h : Distinct found)
    {one other : String × Record} (hone : one ∈ found) (hother : other ∈ found) {key : Key}
    (hparse : Key.parse .app one.1 = .ok key) (hparse' : Key.parse .app other.1 = .ok key) :
    one = other := by
  rw [Distinct, List.Nodup, List.pairwise_filterMap] at h
  by_contra hne
  have hsymm : Std.Symm fun one other : String × Record =>
      ∀ k, (Key.parse .app one.1).toOption = some k →
        ∀ k', (Key.parse .app other.1).toOption = some k' → k ≠ k' :=
    ⟨fun _ _ hdiffer k hk k' hk' => Ne.symm (hdiffer k' hk' k hk)⟩
  exact h.forall hone hother hne key (toOption_eq_some_iff.2 hparse) key
    (toOption_eq_some_iff.2 hparse') rfl

/-- Under the key of an app, it is what was listed that is written. -/
theorem Writes.listed_of_app {listed : String × Record} {key : Key} {r : Record}
    (h : Writes c f b now listed key r) (happ : key.kind = .app) :
    Key.parse .app listed.1 = .ok key ∧ r = listed.2 := by
  cases h with
  | app parsed => exact ⟨parsed, rfl⟩
  | space fetches =>
    have hkind := Key.kind_of_parse fetches.parsed
    rw [happ] at hkind
    cases hkind
  | organization fetches =>
    have hkind := Key.kind_of_parse fetches.parsed
    rw [happ] at hkind
    cases hkind

/-- Under any other key, it is what the API answers. -/
theorem Writes.answer {listed : String × Record} {key : Key} {r : Record}
    (h : Writes c f b now listed key r) (happ : key.kind ≠ .app) :
    (f.one key.kind key.guid).answer = .ok r := by
  cases h with
  | app parsed => exact absurd (Key.kind_of_parse parsed) happ
  | space fetches => exact fetches.answer
  | organization fetches => exact fetches.answer

/-- Of every key it is settled which record is written under it, if any. -/
theorem writes_unique {found : List (String × Record)} (h : Distinct found) {key : Key}
    {r r' : Record} (hr : ∃ listed ∈ found, Writes c f b now listed key r)
    (hr' : ∃ listed ∈ found, Writes c f b now listed key r') : r = r' := by
  obtain ⟨listed, hmem, hwrites⟩ := hr
  obtain ⟨listed', hmem', hwrites'⟩ := hr'
  by_cases happ : key.kind = .app
  · obtain ⟨hparse, rfl⟩ := hwrites.listed_of_app happ
    obtain ⟨hparse', rfl⟩ := hwrites'.listed_of_app happ
    rw [eq_of_distinct h hmem hmem' hparse hparse']
  · exact Except.ok.inj ((hwrites.answer happ).symm.trans (hwrites'.answer happ))

/-- A preload of a list from a store in memory, in terms of what can be said in advance. -/
theorem fillAll_tallies (hnow : ∀ n, (w n).now = now)
    (hone : ∀ n kind guid, ((w n).fetcher.one kind guid).answer = (f.one kind guid).answer)
    {found : List (String × Record)} (hall : ∀ n, ((w n).fetcher.all .app).answer = .ok found)
    (hs : s.backend.choice = .memory) :
    (c.fillAll w s).1 = found.foldlM (c.tallied f s.backend now) .zero
      ∧ ((c.fillAll w s).1.isOk → ∃ new, Filled c f s.backend now s.deposits
        (fun k r => ∃ listed ∈ found, Writes c f s.backend now listed k r) (c.fillAll w s).2 new) := by
  have hretains : s.backend.retains := Backend.retains_congr (b := .memory .empty) hs
  have hstart : Filled c f s.backend now s.deposits (fun _ _ => False)
      (s.fetched ((w s.elapsed).fetcher.all .app).asked) [] := (Filled.start hs).asked _
  obtain ⟨hresult, hfilled⟩ := hstart.preloads hnow hone found .zero
  rw [fillAll_apply, if_pos hretains, hall]
  refine ⟨hresult, fun hok => ?_⟩
  rw [hresult] at hok
  obtain ⟨more, hmore⟩ := hfilled hok
  exact ⟨_, hmore.congr fun k r => by rw [false_or]⟩

/-- What two preloads have left under each key is the same. -/
theorem Filled.agree {old' new' : List Deposit} {s' : State} {W : Key → Record → Prop}
    (h : Filled c f b now old W s new) (h' : Filled c f b now old' W s' new')
    (hunique : ∀ key r r', W key r → W key r' → r = r') (key : Key) :
    ∃ outcome, Outcome c b now s new key outcome ∧ Outcome c b now s' new' key outcome := by
  rcases h.entry key with ⟨r, hr, hW⟩ | ⟨hr, hW⟩
  · rcases h'.entry key with ⟨r', hr', hW'⟩ | ⟨-, hW'⟩
    · obtain rfl := hunique key r r' hW hW'
      exact ⟨some r, hr, hr'⟩
    · exact absurd hW (hW' r)
  · rcases h'.entry key with ⟨r', -, hW'⟩ | ⟨hr', -⟩
    · exact absurd hW' (hW r')
    · exact ⟨none, hr, hr'⟩

/-- **A preload depends neither on the order in which apps are listed nor on how the list is split
into pages**, as long as the API and the clock stand still. If it succeeds, it has stored the same
records under the same keys, but for lifetimes that are left to chance, and has touched nothing
else. -/
theorem fillAll_order (c : Cache) (now : Instant) (draw draw' : Nat → UInt64) {t t' : Transport}
    (hone : ∀ kind guid, (t'.fetchOne kind guid).answer = (t.fetchOne kind guid).answer)
    {pages pages' : List (String × List (String × Record))} (hpages : IsPaged t .app pages)
    (hpages' : IsPaged t' .app pages')
    (hperm : (pages.flatMap Prod.snd).Perm (pages'.flatMap Prod.snd))
    (hdistinct : Distinct (pages.flatMap Prod.snd)) {s s' : State} {m : Memory}
    (hs : s.backend = .memory m) (hs' : s'.backend = .memory m) :
    let w := World.over (fun _ => now) draw fun _ => t
    let w' := World.over (fun _ => now) draw' fun _ => t'
    ((c.fillAll w s).1.isOk ↔ (c.fillAll w' s').1.isOk)
      ∧ ((c.fillAll w s).1.isOk → (c.fillAll w s).1 = (c.fillAll w' s').1
        ∧ ∃ new new', (c.fillAll w s).2.deposits = s.deposits ++ new
          ∧ (c.fillAll w' s').2.deposits = s'.deposits ++ new'
          ∧ ∀ key, ∃ outcome, Outcome c (.memory m) now (c.fillAll w s).2 new key outcome
            ∧ Outcome c (.memory m) now (c.fillAll w' s').2 new' key outcome) := by
  intro w w'
  have hchoice : s.backend.choice = .memory := by rw [hs]; rfl
  have hchoice' : s'.backend.choice = .memory := by rw [hs']; rfl
  have hall (n : Nat) : ((w n).fetcher.all .app).answer = .ok (pages.flatMap Prod.snd) :=
    congrArg Reply.answer (Transport.fetchAll_of_pages hpages)
  have hall' (n : Nat) : ((w' n).fetcher.all .app).answer = .ok (pages'.flatMap Prod.snd) :=
    congrArg Reply.answer (Transport.fetchAll_of_pages hpages')
  obtain ⟨hresult, hfilled⟩ := fillAll_tallies (c := c) (f := t.fetcher) (w := w) (fun _ => rfl)
    (fun _ _ _ => rfl) hall hchoice
  obtain ⟨hresult', hfilled'⟩ := fillAll_tallies (c := c) (f := t.fetcher) (w := w') (fun _ => rfl)
    (fun _ kind guid => hone kind guid) hall' hchoice'
  rw [hs] at hresult hfilled
  rw [hs'] at hresult' hfilled'
  have hsame (report : FillReport) :
      (c.fillAll w s).1 = .ok report ↔ (c.fillAll w' s').1 = .ok report := by
    rw [hresult, hresult']
    exact tallies_perm hperm .zero report
  have hok {report : FillReport} (h : (c.fillAll w s).1 = .ok report) :
      ∃ new new', (c.fillAll w s).2.deposits = s.deposits ++ new
        ∧ (c.fillAll w' s').2.deposits = s'.deposits ++ new'
        ∧ ∀ key, ∃ outcome, Outcome c (.memory m) now (c.fillAll w s).2 new key outcome
          ∧ Outcome c (.memory m) now (c.fillAll w' s').2 new' key outcome := by
    obtain ⟨new, hnew⟩ := hfilled (by rw [h]; rfl)
    obtain ⟨new', hnew'⟩ := hfilled' (by rw [(hsame report).1 h]; rfl)
    -- What is to be written depends on what is listed, but not on where it is listed.
    have hnew' : Filled c t.fetcher (.memory m) now s'.deposits
        (fun k r => ∃ listed ∈ pages.flatMap Prod.snd, Writes c t.fetcher (.memory m) now listed k r)
        (c.fillAll w' s').2 new' := hnew'.congr fun k r => by simp only [hperm.mem_iff]
    exact ⟨new, new', hnew.deposits, hnew'.deposits,
      hnew.agree hnew' fun _ _ _ => writes_unique hdistinct⟩
  cases hdone : (c.fillAll w s).1 with
  | ok report =>
    have hdone' := (hsame report).1 hdone
    rw [hdone']
    exact ⟨Iff.rfl, fun _ => ⟨rfl, hok hdone⟩⟩
  | error e =>
    refine ⟨⟨fun h => (by cases h), fun h => ?_⟩, fun h => by cases h⟩
    cases hdone' : (c.fillAll w' s').1 with
    | error e' => rw [hdone'] at h; cases h
    | ok report =>
      rw [(hsame report).2 hdone'] at hdone
      cases hdone

/-- Two apps, listed on one page. -/
def onePage : Routes :=
  [(listPath .app,
    bareRoute none ["6ba7b810-9dad-11d1-80b4-00c04fd430c8", "6ba7b811-9dad-11d1-80b4-00c04fd430c8"])]

/-- The same apps, each listed on a page of its own. -/
def twoPages : Routes :=
  [(listPath .app,
    bareRoute (some "/v2/apps?page=2") ["6ba7b811-9dad-11d1-80b4-00c04fd430c8"]),
    ("/v2/apps?page=2", bareRoute none ["6ba7b810-9dad-11d1-80b4-00c04fd430c8"])]

/-- Where there are only paths with a query, no entity is found. -/
theorem fetchOne_of_queries {routes : Routes} (h : ∀ path ∈ routes.map Prod.fst, '?' ∈ path.toList)
    (kind : Kind) (guid : Guid) :
    (routes.transport.fetchOne kind guid).answer = .error (.remote (.notFound kind guid.text)) := by
  have hnot : entityPath kind guid.text ∉ routes.map Prod.fst := fun hmem =>
    query_notMem_entityPath kind guid (h _ hmem)
  have hanswer : routes.transport.answer (entityPath kind guid.text) = Routes.notFound.answer :=
    congrArg Route.answer (Routes.find_of_notMem hnot)
  simp only [Transport.fetchOne, hanswer]
  rfl

/-- Two apps are preloaded in either order, though their spaces are missing. -/
theorem fillAll_order_pages :
    let c : Cache := ⟨⟨60 * nanosPerSecond, []⟩, true⟩
    let s : State := .ofBackend (.memory .empty)
    ((c.fillAll (.over (fun _ => .epoch) (fun _ => 0) fun _ => onePage.transport) s).1.isOk ↔
      (c.fillAll (.over (fun _ => .epoch) (fun _ => 1) fun _ => twoPages.transport) s).1.isOk) := by
  intro c s
  have hone (kind : Kind) (guid : Guid) : (twoPages.transport.fetchOne kind guid).answer
      = (onePage.transport.fetchOne kind guid).answer := by
    rw [fetchOne_of_queries (by decide), fetchOne_of_queries (by decide)]
  have hpages : IsPaged onePage.transport .app [(listPath .app,
      [("6ba7b810-9dad-11d1-80b4-00c04fd430c8", .empty),
        ("6ba7b811-9dad-11d1-80b4-00c04fd430c8", .empty)])] :=
    ⟨rfl, pageOf_bareRoute _ (by decide) _, by decide⟩
  have hpages' : IsPaged twoPages.transport .app
      [(listPath .app, [("6ba7b811-9dad-11d1-80b4-00c04fd430c8", .empty)]),
        ("/v2/apps?page=2", [("6ba7b810-9dad-11d1-80b4-00c04fd430c8", .empty)])] :=
    ⟨rfl, ⟨pageOf_bareRoute _ (by decide) _, pageOf_bareRoute _ (by decide) _⟩, by decide⟩
  have hdistinct : Distinct [("6ba7b810-9dad-11d1-80b4-00c04fd430c8", .empty),
      ("6ba7b811-9dad-11d1-80b4-00c04fd430c8", .empty)] := by
    unfold Distinct
    decide +kernel
  exact (fillAll_order c .epoch (fun _ => 0) (fun _ => 1) hone hpages hpages' (.swap ..) hdistinct
    rfl rfl).1

end Cache

end MetaCache
