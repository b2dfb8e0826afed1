import MetaCache.Proofs.Cache.Journal
import MetaCache.Proofs.Number.Jitter

/-!
# The window of freshness

What a record in the store is worth depends on when it was normalized. Before three quarters of the
lifetime are over it is served without a request, whatever the API would say by now; from five
quarters on it is not served any more, and what is answered comes from a new request
(`freshness_window`). The journal tells when that was, the window of the jitter tells how long.

A persistent store rounds expiries down to a millisecond, so the first bound is less by that much.
-/

namespace MetaCache

open MetaCache.Remote MetaCache.Store

/-- Outside of leap seconds a record is fresh for as many nanoseconds as there are until it
expires. -/
theorem Record.isFreshAt_iff {r : Record} (hr : r.expiresAt.isLeap = false) (now : Instant) :
    r.isFreshAt now ↔ now.nanos < r.expiresAt.nanos :=
  decide_eq_true_iff.trans (Timestamp.lt_iff_nanos now.isLeap_eq_false hr)

/-- How much earlier than normalization says a stored record may expire, in nanoseconds. -/
def BackendChoice.margin : BackendChoice → Nat
  | persistent => nanosPerMilli
  | _ => 0

theorem BackendChoice.kept_expiresAt (choice : BackendChoice) {r : Record}
    (hr : r.expiresAt.isLeap = false) :
    (choice.kept r).expiresAt.isLeap = false
      ∧ r.expiresAt.nanos - choice.margin ≤ (choice.kept r).expiresAt.nanos
      ∧ (choice.kept r).expiresAt.nanos ≤ r.expiresAt.nanos := by
  have hlast := Timestamp.le_last_of_ordinary hr
  have hfloor := Timestamp.floorMillis_bounds hlast
  cases choice with
  | memory => simp [kept, margin, hr]
  | disabled => simp [kept, margin, hr]
  | persistent =>
    exact ⟨(Timestamp.floorMillis_spec hlast).1, Int.le_of_lt hfloor.1, hfloor.2⟩

namespace Cache

variable {c : Cache} {w : World} {b : Backend} {s : State}

theorem lifetime_of_settings {settings : CacheSettings} (h : Cache.ofSettings settings = .ok c) :
    c.normalizer.lifetime = settings.baseTtlSecs.toNat * nanosPerSecond := by
  rw [ofSettings] at h
  split at h
  · cases h
    rfl
  · cases h

theorem ignoresMissing_of_settings {settings : CacheSettings}
    (h : Cache.ofSettings settings = .ok c) : c.ignoresMissing = settings.ignoreMissingApps := by
  rw [ofSettings] at h
  split at h
  · cases h
    rfl
  · cases h

/-- What comes of the answer to a request, normalized at a moment. -/
def outcome (c : Cache) (key : Key) (answer : Except Error Record) (m : Moment) :
    Except Error Record :=
  answer.map fun r => c.normalizer.normalize key.kind r m.now m.draw

/-- An answer from a new request for the key, which is made at one moment and stored at the next:
from nothing else, unless the store refuses the record. -/
structure Requested (c : Cache) (key : Key) (s : State) (made stored : Moment)
    (answered : Except Error Record × State) : Prop where
  fetches : answered.2.fetches = s.fetches + 1
  asked : answered.2.asked = s.asked ++ (made.fetcher.one key.kind key.guid).asked
  answer : answered.1 = c.outcome key (made.fetcher.one key.kind key.guid).answer stored
    ∨ ∃ cause, answered.1 = .error (.storage cause)
  unrefused : (s.backend.choice = .persistent → answered.2.Unrefused) →
    answered.1 = c.outcome key (made.fetcher.one key.kind key.guid).answer stored

/-- A record is stored, or the error is one of storage. -/
theorem store_result (c : Cache) (key : Key) (r : Record) (w : World) (s : State) :
    (c.store key r w s).1 = c.outcome key (.ok r) (w s.elapsed)
      ∨ ∃ cause, (c.store key r w s).1 = .error (.storage cause) := by
  rw [store_apply, outcome]
  generalize hr' : c.normalizer.normalize key.kind r (w s.elapsed).now (w s.elapsed).draw = r'
  cases hput : s.backend.put key r' with
  | mk result backend =>
    cases result with
    | ok done => exact .inl (by rw [← hr']; rfl)
    | error e =>
      obtain ⟨-, cause, rfl⟩ := Backend.put_error hput
      exact .inr ⟨cause, rfl⟩

/-- A refreshed record comes from a new request. -/
theorem requested_of_refresh (c : Cache) (key : Key) (w : World) (s : State) :
    Requested c key s (w s.elapsed) (w (s.elapsed + 1)) (c.refresh key w s) := by
  -- Both branches that store, store in the state after the fetch.
  let s₁ := s.fetched ((w s.elapsed).fetcher.one key.kind key.guid).asked
  have hstored (r : Record) : (c.store key r w s₁).1 = c.outcome key (.ok r) (w (s.elapsed + 1))
      ∨ ∃ cause, (c.store key r w s₁).1 = .error (.storage cause) := store_result c key r w s₁
  have hkept (r : Record) (h : s₁.backend.choice = .persistent → (s₁.stored c w key r).Unrefused) :
      (c.store key r w s₁).1 = c.outcome key (.ok r) (w (s.elapsed + 1)) := store_ok h
  have hrefresh := refresh_apply c key w s
  cases hanswer : ((w s.elapsed).fetcher.one key.kind key.guid).answer with
  | ok r =>
    have hsnd : (c.store key r w s₁).2 = s₁.stored c w key r := by rw [store_apply]
    simp only [hanswer] at hrefresh
    rw [hrefresh]
    refine ⟨by rw [hsnd]; rfl, by rw [hsnd]; rfl, hanswer ▸ hstored r, fun hput => ?_⟩
    rw [hsnd] at hput
    rw [hanswer]
    exact hkept r hput
  | error e =>
    simp only [hanswer] at hrefresh
    rw [hrefresh]
    split
    · refine ⟨rfl, rfl, ?_, fun hput => ?_⟩
      · rcases hstored .empty with h | ⟨cause, h⟩
        · exact .inl (by rw [h, hanswer]; rfl)
        · exact .inr ⟨cause, by rw [h]; rfl⟩
      · rw [hanswer, hkept .empty hput]
        rfl
    · exact ⟨rfl, rfl, .inl (by rw [hanswer]; rfl), fun _ => by rw [hanswer]; rfl⟩

/-- Where the record in the store has expired, an entity is answered from a new request. -/
theorem requested_of_stale {kind : Kind} {raw : String} {key : Key}
    (hkey : Key.parse kind raw = .ok key) {r : Record}
    (hfound : s.backend.answer key = .ok (some r)) (hstale : r.isFreshAt (w s.elapsed).now = false) :
    Requested c key s (w (s.elapsed + 1)) (w (s.elapsed + 2)) (c.getEntity kind raw w s) := by
  rw [getEntity_apply hkey, hfound]
  simp only [hstale, Bool.false_eq_true, if_false]
  have h := requested_of_refresh c key w (s.looked key).later
  exact ⟨h.fetches, h.asked, h.answer, fun hput =>
    h.unrefused fun hchoice => hput ((Backend.choice_get ..).symm.trans hchoice)⟩

/-- The last record in the journal is what the store answers. -/
theorem Sound.answer_latest (h : Sound c w b s) {key : Key} {d : Deposit}
    (hd : s.latest? key = some d) :
    s.backend.answer key = .ok (some (b.choice.kept d.record))
      ∧ ∃ draw, d.record.expiresAt = c.normalizer.expiry d.now draw := by
  refine ⟨?_, ?_⟩
  · rw [h.answer key, hd]
    rfl
  · obtain ⟨n, r, -, hnow, hrecord⟩ :=
      h.source d (List.mem_reverse.1 (List.mem_of_find?_eq_some hd))
    exact ⟨(w n).draw, by rw [hrecord, hnow]; rfl⟩

/-- **A record is served before three quarters of its lifetime are over and not from five quarters
on**, in every state that a cache passes through. -/
theorem freshness_window {settings : CacheSettings} (hc : Cache.ofSettings settings = .ok c)
    (hsuits : Suits w b.choice) (hs : Visited c w b s) {kind : Kind} {raw : String} {key : Key}
    (hkey : Key.parse kind raw = .ok key) {d : Deposit} (hd : s.latest? key = some d) :
    ((w s.elapsed).now.nanos
        < min (d.now.nanos + (750000000 * settings.baseTtlSecs.toNat : Nat)) Instant.last.nanos
          - b.choice.margin →
      (c.getEntity kind raw w s).1 = .ok (b.choice.kept d.record)
        ∧ (c.getEntity kind raw w s).2.fetches = s.fetches
        ∧ (c.getEntity kind raw w s).2.asked = s.asked)
    ∧ (d.now.nanos + (1250000000 * settings.baseTtlSecs.toNat : Nat) ≤ (w s.elapsed).now.nanos →
      Requested c key s (w (s.elapsed + 1)) (w (s.elapsed + 2)) (c.getEntity kind raw w s)) := by
  obtain ⟨hfound, draw, hexpiry⟩ := (hs.sound (keepable_of_suits hsuits)).answer_latest hd
  have hlifetime := lifetime_of_settings hc
  have hordinary := c.normalizer.isLeap_expiry d.now.isLeap_eq_false draw
  have hbounds := Normalizer.expiry_bounds hlifetime settings.baseTtlSecs.toNat_lt
    d.now.isLeap_eq_false draw
  rw [← hexpiry] at hordinary hbounds
  obtain ⟨hkept, hmargin⟩ := b.choice.kept_expiresAt hordinary
  rw [Instant.toTimestamp_last]
  refine ⟨fun hearly => ?_, fun hlate => ?_⟩
  · have hfresh : (b.choice.kept d.record).isFreshAt (w s.elapsed).now := by
      rw [Record.isFreshAt_iff hkept]
      omega
    rw [getEntity_apply hkey, hfound]
    dsimp only
    rw [if_pos hfresh]
    exact ⟨rfl, rfl, rfl⟩
  · refine requested_of_stale hkey hfound (Bool.eq_false_iff.2 ?_)
    rw [Ne, Record.isFreshAt_iff hkept]
    omega

/-- A missing app that a cache ignores is stored as empty. -/
theorem getEntity_missing {raw : String} {key : Key} (hkey : Key.parse .app raw = .ok key)
    (hc : c.ignoresMissing) (hs : s.backend.answer key = .ok none)
    (hw : (w s.elapsed).fetcher = .unknowing) :
    (c.getEntity .app raw w s).2 = ((s.looked key).fetched []).stored c w key .empty := by
  obtain ⟨guid, -, rfl⟩ := Key.parse_ok hkey
  have hrefresh := refresh_apply c ⟨.app, guid⟩ w (s.looked ⟨.app, guid⟩)
  rw [show (s.looked _).elapsed = s.elapsed from rfl, hw] at hrefresh
  simp only [Fetcher.unknowing] at hrefresh
  rw [if_pos (by simp [tolerates, hc]; rfl)] at hrefresh
  rw [getEntity_apply hkey, hs]
  exact congrArg Prod.snd hrefresh

/-- A world in which two moments are at the epoch and all others later. -/
def World.later (now : Instant) : World := fun n => ⟨if n < 2 then .epoch else now, 0, .unknowing⟩

/-- An app that is missing, looked up twice over a memory that was empty. The API is asked once if
the clock stands still, and twice if it goes on to the end of time. -/
theorem freshness_window_missing :
    let c : Cache := ⟨⟨60 * nanosPerSecond, []⟩, true⟩
    let twice (w : World) := (c.getEntity .app "6ba7b810-9dad-11d1-80b4-00c04fd430c8" w
      (c.getEntity .app "6ba7b810-9dad-11d1-80b4-00c04fd430c8" w (.ofBackend (.memory .empty))).2).2
    (twice (.later .epoch)).fetches = 1 ∧ (twice (.later .last)).fetches = 2 := by
  have hsettings : ofSettings { CacheSettings.inMemory 60 with ignoreMissingApps := true }
    = .ok ⟨⟨60 * nanosPerSecond, []⟩, true⟩ := rfl
  obtain ⟨guid, hguid⟩ : ∃ guid, Guid.canonicalize "6ba7b810-9dad-11d1-80b4-00c04fd430c8" = .ok guid :=
    ⟨_, rfl⟩
  have hkey := Key.parse_of_ok hguid .app
  have honce (now : Instant) := getEntity_missing (c := ⟨⟨60 * nanosPerSecond, []⟩, true⟩)
    (w := .later now) (s := .ofBackend (.memory .empty)) hkey rfl rfl rfl
  have hvisited (now : Instant) := Visited.lookup (c := ⟨⟨60 * nanosPerSecond, []⟩, true⟩)
    (w := .later now) (.start (b := .memory .empty) fun _ => rfl) .app
    "6ba7b810-9dad-11d1-80b4-00c04fd430c8"
  simp only [honce] at hvisited ⊢
  have hwindow (now : Instant) := freshness_window hsettings (by exact True.intro) (hvisited now) hkey
    (latest_stored rfl _ _)
  have hearly : Instant.epoch.nanos
      < min (Instant.epoch.nanos + (750000000 * 60 : Nat)) Instant.last.nanos - (0 : Nat) := by decide
  have hlate : Instant.epoch.nanos + (1250000000 * 60 : Nat) ≤ Instant.last.nanos := by decide
  exact ⟨((hwindow .epoch).1 hearly).2.1, ((hwindow .last).2 hlate).fetches⟩

end Cache

end MetaCache
