import MetaCache.Proofs.Store.Places
import MetaCache.Proofs.Store.Refinement

/-!
# Closing a persistent store and opening it again

What a store has made at its place is there when it is opened again after it was closed, and so it
is for a new store at the same path. There is one exception: at a path that ends with a slash, or
with a dot behind one, a store can be made and used, but once it is closed, neither it nor a new one
can be opened, and what was stored is lost (`persistent_refines_memory`).

A store that is closed answers nothing, and one that refuses a record stays as it is.
-/

namespace MetaCache.Store

/-- What is done with a persistent store in the course of time. -/
inductive Move
  | call (call : Call)
  | openStore
  | closeStore
  /-- The store is closed, and a new one at the same path takes its place. -/
  | renew

/-- A persistent store, and the disk as it was when the store was made. -/
structure Placed where
  disk : Disk
  store : Persistent

namespace Placed

def made (d : Disk) (text : String) (mapSizeMiB : UInt64) : Placed :=
  ⟨d, .ofSite (d.site text) mapSizeMiB⟩

/-- The disk once the store is closed. -/
def left (text : String) (s : Placed) : Disk := s.disk.settleStore text s.store.closeStore

def perform (text : String) (s : Placed) : Move → Answer × Placed
  | .call call => ((s.store.respond call).1, { s with store := (s.store.respond call).2 })
  | .openStore => (.done s.store.openStore.1, { s with store := s.store.openStore.2 })
  | .closeStore => (.done (.ok ()), { s with store := s.store.closeStore })
  | .renew => (.done (.ok ()), made (s.left text) text s.store.mapSizeMiB)

end Placed

namespace Persistent

variable {p : Persistent}

/-! ## Opening -/

theorem openStore_of_isOpen (h : p.isOpen) : p.openStore = (.ok (), p) := by
  unfold openStore
  rw [if_pos h]

theorem openStore_of_usable (hclosed : p.isOpen = false) (hsize : p.mapBytes < UInt64.size)
    (hroom : p.mapBytes ≤ largestMap) (husable : p.site.isUsable) :
    p.openStore = (.ok (), { p with site := p.site.settled, wasTried := true, isOpen := true }) := by
  unfold openStore
  rw [if_neg (by simp [hclosed]), if_neg (Nat.not_le.2 hsize), if_neg (by simp [husable])]
  exact if_neg (Nat.not_lt.2 hroom)

theorem openStore_of_unusable (hclosed : p.isOpen = false) (hsize : p.mapBytes < UInt64.size)
    (husable : p.site.isUsable = false) :
    p.openStore = (.error (.storage (.unavailable "no store can be opened at the path")),
      { p with wasTried := true }) := by
  unfold openStore
  rw [if_neg (by simp [hclosed]), if_neg (Nat.not_le.2 hsize), if_pos (by simp [husable])]

theorem openStore_of_full (hclosed : p.isOpen = false) (hsize : p.mapBytes < UInt64.size)
    (hfull : largestMap < p.mapBytes) (husable : p.site.isUsable) :
    p.openStore = (.error (.storage (.unavailable "no room for the map")),
      { p with site := p.site.settled, wasTried := true }) := by
  unfold openStore
  rw [if_neg (by simp [hclosed]), if_neg (Nat.not_le.2 hsize), if_neg (by simp [husable])]
  exact if_pos hfull

/-- All that opening a closed store can do. -/
theorem openStore_cases (hclosed : p.isOpen = false) :
    p.openStore.2 = p
      ∨ p.site.isUsable = false ∧ p.openStore.2 = { p with wasTried := true }
      ∨ p.site.isUsable ∧ ∃ isOpen,
        p.openStore.2 = { p with site := p.site.settled, wasTried := true, isOpen }
        ∧ (isOpen → p.mapBytes < UInt64.size ∧ p.mapBytes ≤ largestMap) := by
  by_cases hsize : p.mapBytes < UInt64.size
  · by_cases husable : p.site.isUsable
    · refine .inr (.inr ⟨husable, ?_⟩)
      by_cases hroom : p.mapBytes ≤ largestMap
      · rw [openStore_of_usable hclosed hsize hroom husable]
        exact ⟨true, rfl, fun _ => ⟨hsize, hroom⟩⟩
      · rw [openStore_of_full hclosed hsize (Nat.lt_of_not_le hroom) husable]
        exact ⟨false, by simp only [← hclosed], nofun⟩
    · have hunusable : p.site.isUsable = false := by simpa using husable
      exact .inr (.inl ⟨hunusable, by rw [openStore_of_unusable hclosed hsize hunusable]⟩)
  · left
    unfold openStore
    rw [if_neg (by simp [hclosed]), if_pos (Nat.le_of_not_lt hsize)]

theorem get_of_closed (h : p.isOpen = false) (key : Key) :
    p.get key = (.error (.storage .notOpen), p) := by
  unfold get
  rw [if_neg (by simp [h])]

theorem put_of_closed (h : p.isOpen = false) (key : Key) (r : Record) :
    p.put key r = (.error (.storage .notOpen), p) := by
  unfold put
  rw [if_neg (by simp [h])]

/-- All that calls change of a store. -/
theorem respond_cases (p : Persistent) (call : Call) :
    (∃ hits misses, (p.respond call).2 = p.withCounts hits misses)
      ∨ p.isOpen ∧ ∃ volume, (p.respond call).2 = { p with site := p.site.withVolume volume } := by
  cases call with
  | get key => exact .inl (p.get_snd key)
  | put key r =>
    cases hput : p.put key r with
    | mk result p' =>
      simp only [respond, hput]
      cases result with
      | error e => exact .inl ⟨p.hits, p.misses, (put_error hput).1⟩
      | ok done =>
        obtain ⟨hopen, -, volume, -, -, hp'⟩ := put_ok hput
        exact .inr ⟨hopen, volume, hp'⟩
  | stats => exact .inl ⟨p.hits, p.misses, rfl⟩

end Persistent

namespace Placed

variable {text : String} {s t : Placed}

/-! ## Stores at their places -/

/-- A store is made at the place, whether it is open or not. -/
structure Attached (text : String) (s : Placed) : Prop where
  usable : (s.disk.site text).isUsable
  made : s.store.site = ⟨.store s.store.site.volume, Path.endsInName text, Path.endsInName text⟩
  fresh : s.store.wasTried = false → s.disk.site text = s.store.site

/-- What holds whatever was done with a store. -/
structure Valid (text : String) (s : Placed) : Prop where
  place : s.store.isOpen = false ∧ s.store.site = s.disk.site text ∨ s.Attached text
  opened : s.store.isOpen → s.store.wasTried ∧ s.store.mapBytes < UInt64.size
    ∧ s.store.mapBytes ≤ Persistent.largestMap

theorem Valid.attached (h : s.Valid text) (hopen : s.store.isOpen) : s.Attached text := by
  rcases h.place with ⟨hclosed, -⟩ | hattached
  · rw [hopen] at hclosed
    cases hclosed
  · exact hattached

theorem valid_made (d : Disk) (text : String) (mapSizeMiB : UInt64) :
    (made d text mapSizeMiB).Valid text :=
  ⟨.inl ⟨rfl, rfl⟩, nofun⟩

theorem Attached.call (h : s.Attached text) (hvalid : s.Valid text) (call : Call) :
    (s.perform text (.call call)).2.Attached text := by
  rcases s.store.respond_cases call with ⟨hits, misses, hnext⟩ | ⟨hopen, volume, hnext⟩
  · simp only [perform, hnext]
    exact ⟨h.usable, h.made, h.fresh⟩
  · simp only [perform, hnext]
    refine ⟨h.usable, ?_, fun htried => ?_⟩
    · rw [h.made]
      rfl
    · rw [(hvalid.opened hopen).1] at htried
      cases htried

theorem Attached.openStore (h : s.Attached text) : (s.perform text .openStore).2.Attached text := by
  simp only [perform]
  cases hclosed : s.store.isOpen with
  | true =>
    rw [Persistent.openStore_of_isOpen hclosed]
    exact h
  | false =>
    rcases Persistent.openStore_cases hclosed with hsame | ⟨-, htried⟩ | ⟨-, isOpen, hsettled, -⟩
    · rw [hsame]
      exact h
    · rw [htried]
      exact ⟨h.usable, h.made, nofun⟩
    · rw [hsettled]
      refine ⟨h.usable, ?_, nofun⟩
      rw [h.made]
      rfl

/-- A store that opens has made itself at its place. -/
theorem attached_of_openStore (hplace : s.store.site = s.disk.site text)
    (husable : s.store.site.isUsable) {isOpen : Bool} :
    (Placed.mk s.disk { s.store with site := s.store.site.settled, wasTried := true, isOpen }).Attached
      text := by
  rw [hplace] at husable
  refine ⟨husable, ?_, nofun⟩
  rw [← Disk.leadsBack_of_isUsable husable, ← hplace]
  rfl

theorem Valid.call (h : s.Valid text) (call : Call) : (s.perform text (.call call)).2.Valid text := by
  refine ⟨?_, ?_⟩
  · rcases h.place with ⟨hclosed, hplace⟩ | hattached
    · left
      rcases s.store.respond_cases call with ⟨hits, misses, hnext⟩ | ⟨hopen, -⟩
      · simp only [Placed.perform, hnext]
        exact ⟨hclosed, hplace⟩
      · rw [hclosed] at hopen
        cases hopen
    · exact .inr (hattached.call h call)
  · rcases s.store.respond_cases call with ⟨hits, misses, hnext⟩ | ⟨-, volume, hnext⟩ <;>
      simp only [Placed.perform, hnext] <;> exact h.opened

theorem Valid.openStore (h : s.Valid text) : (s.perform text .openStore).2.Valid text := by
  simp only [Placed.perform]
  cases hclosed : s.store.isOpen with
  | true =>
    rw [Persistent.openStore_of_isOpen hclosed]
    exact h
  | false =>
    refine ⟨?_, ?_⟩
    · rcases h.place with ⟨-, hplace⟩ | hattached
      · rcases Persistent.openStore_cases hclosed with hsame | ⟨-, htried⟩ | ⟨husable, _, hmade, -⟩
        · rw [hsame]
          exact .inl ⟨hclosed, hplace⟩
        · rw [htried]
          exact .inl ⟨hclosed, hplace⟩
        · rw [hmade]
          exact .inr (attached_of_openStore hplace husable)
      · exact .inr hattached.openStore
    · rcases Persistent.openStore_cases hclosed with hsame | ⟨-, htried⟩ | ⟨-, _, hmade, hroom⟩
      · rw [hsame]
        exact h.opened
      · rw [htried]
        exact fun hopen => absurd (hclosed.symm.trans hopen) nofun
      · rw [hmade]
        exact fun hopen => ⟨rfl, hroom hopen⟩

theorem Valid.closeStore (h : s.Valid text) : (s.perform text .closeStore).2.Valid text := by
  refine ⟨?_, nofun⟩
  rcases h.place with ⟨-, hplace⟩ | hattached
  · exact .inl ⟨rfl, hplace⟩
  · exact .inr ⟨hattached.usable, hattached.made, hattached.fresh⟩

theorem Valid.perform (h : s.Valid text) (move : Move) : (s.perform text move).2.Valid text := by
  cases move with
  | call call => exact h.call call
  | openStore => exact h.openStore
  | closeStore => exact h.closeStore
  | renew => exact valid_made _ text _

theorem valid_run (h : s.Valid text) (moves : List Move) :
    (run (Placed.perform text) s moves).2.Valid text := by
  induction moves generalizing s with
  | nil => exact h
  | cons move moves ih => exact ih (h.perform move)

/-! ## Opening again -/

/-- A store that nobody has tried to open leaves the disk as it was. -/
theorem left_of_untried (h : s.store.wasTried = false) : s.left text = s.disk := by
  unfold left Disk.settleStore
  rw [if_neg (by simp [Persistent.closeStore, h])]

/-- **Where the path leads back, a new store finds what the old one had.** -/
theorem Attached.site_left (h : s.Attached text) (hends : Path.endsInName text) :
    (s.left text).site text = s.store.site := by
  cases htried : s.store.wasTried with
  | false =>
    rw [left_of_untried htried]
    exact h.fresh htried
  | true =>
    have hground : s.store.site.ground = .store s.store.site.volume := congrArg Site.ground h.made
    have hfound := Disk.site_settleStore (p := s.store.closeStore) h.usable htried hground
    rw [hends] at hfound
    have hmade := h.made
    rw [hends] at hmade
    exact hfound.trans hmade.symm

theorem Attached.isUsable (h : s.Attached text) : s.store.site.isUsable = Path.endsInName text := by
  rw [h.made]
  rfl

theorem Attached.settled (h : s.Attached text) : s.store.site.settled = s.store.site := by
  rw [h.made]
  rfl

theorem Attached.renew (h : s.Attached text) (hends : Path.endsInName text) :
    (s.perform text .renew).2.Attached text := by
  have hfound := h.site_left hends
  refine ⟨?_, ?_, fun _ => rfl⟩
  · exact (congrArg Site.isUsable hfound).trans (h.isUsable.trans hends)
  · simp only [Placed.perform, Placed.made, Persistent.ofSite, hfound]
    exact h.made

theorem Attached.perform (h : s.Attached text) (hvalid : s.Valid text)
    (hends : Path.endsInName text) (move : Move) : (s.perform text move).2.Attached text := by
  cases move with
  | call call => exact h.call hvalid call
  | openStore => exact h.openStore
  | closeStore => exact ⟨h.usable, h.made, h.fresh⟩
  | renew => exact h.renew hends

/-- A store that is opened again is as it was. -/
theorem Valid.reopen (h : s.Valid text) (hopen : s.store.isOpen) (hends : Path.endsInName text) :
    (run (Placed.perform text) s [.closeStore, .openStore]).2 = s := by
  obtain ⟨htried, hsize, hroom⟩ := h.opened hopen
  have husable : s.store.closeStore.site.isUsable := (h.attached hopen).isUsable.trans hends
  have hagain : s.store.closeStore.openStore.2 = s.store := by
    rw [Persistent.openStore_of_usable (p := s.store.closeStore) rfl hsize hroom husable]
    have hsettled := (h.attached hopen).settled
    obtain ⟨disk, mapSizeMiB, site, isOpen, wasTried, hits, misses⟩ := s
    obtain rfl : isOpen = true := hopen
    obtain rfl : wasTried = true := htried
    simp only [Persistent.closeStore, hsettled]
  rw [run_pair]
  exact congrArg (Placed.mk s.disk) hagain

/-- A new store is as the old one was, but for the counts. -/
theorem Valid.reopen_new (h : s.Valid text) (hopen : s.store.isOpen) (hends : Path.endsInName text) :
    (run (Placed.perform text) s [.renew, .openStore]).2
      = ⟨s.left text, s.store.withCounts 0 0⟩ := by
  obtain ⟨htried, hsize, hroom⟩ := h.opened hopen
  have hfound := (h.attached hopen).site_left hends
  have husable : s.store.site.isUsable := (h.attached hopen).isUsable.trans hends
  have hagain : (Persistent.ofSite s.store.site s.store.mapSizeMiB).openStore.2
      = s.store.withCounts 0 0 := by
    rw [Persistent.openStore_of_usable (p := .ofSite s.store.site s.store.mapSizeMiB) rfl hsize hroom
      husable]
    have hsettled := (h.attached hopen).settled
    obtain ⟨disk, mapSizeMiB, site, isOpen, wasTried, hits, misses⟩ := s
    obtain rfl : isOpen = true := hopen
    obtain rfl : wasTried = true := htried
    simp only [Persistent.ofSite, Persistent.withCounts, hsettled]
  rw [run_pair]
  simp only [Placed.perform, made, hfound, hagain]

end Placed

/-! ## Counts -/

/-- An answer without what has been counted of lookups. -/
def Answer.uncounted : Answer → Answer
  | counted tally => counted { tally with hits := 0, misses := 0 }
  | other => other

namespace Persistent

theorem openStore_withCounts (p : Persistent) (hits misses : Nat) :
    (p.withCounts hits misses).openStore
      = (p.openStore.1, p.openStore.2.withCounts hits misses) := by
  obtain ⟨mapSizeMiB, site, isOpen, wasTried, hits₀, misses₀⟩ := p
  cases isOpen with
  | true => rfl
  | false =>
    simp only [openStore, withCounts, mapBytes, Bool.false_eq_true, if_false]
    by_cases hsize : UInt64.size ≤ mapSizeMiB.toNat * CacheSettings.bytesPerMiB
    · simp only [hsize, if_true]
    · by_cases husable : site.isUsable
      · by_cases hroom : largestMap < mapSizeMiB.toNat * CacheSettings.bytesPerMiB
        · simp [hsize, husable, hroom]
        · simp [hsize, husable, hroom]
      · simp [hsize, husable]

/-- Calls depend on the counts in nothing but the counts. -/
theorem respond_withCounts (p : Persistent) (hits misses : Nat) (call : Call) :
    ((p.withCounts hits misses).respond call).1.uncounted = (p.respond call).1.uncounted
      ∧ ∃ hits' misses', ((p.withCounts hits misses).respond call).2
        = (p.respond call).2.withCounts hits' misses' := by
  cases call with
  | get key =>
    obtain ⟨hits₁, misses₁, hsnd₁⟩ := p.get_snd key
    obtain ⟨hits₂, misses₂, hsnd₂⟩ := (p.withCounts hits misses).get_snd key
    simp only [respond, get_withCounts, hsnd₁, hsnd₂]
    exact ⟨trivial, hits₂, misses₂, rfl⟩
  | put key r =>
    simp only [respond, put_withCounts]
    exact ⟨trivial, hits, misses, rfl⟩
  | stats => exact ⟨rfl, hits, misses, rfl⟩

end Persistent

namespace Placed

variable {text : String} {s t : Placed}

/-- Stores that differ in their counts only, on disks that may differ. -/
structure Alike (text : String) (s t : Placed) : Prop where
  valid : s.Valid text ∧ t.Valid text
  attached : s.Attached text ∧ t.Attached text
  store : ∃ hits misses, t.store = s.store.withCounts hits misses

/-- Nothing depends on the counts but the counts. -/
theorem Alike.perform (h : s.Alike text t) (hends : Path.endsInName text) (move : Move) :
    (t.perform text move).1.uncounted = (s.perform text move).1.uncounted
      ∧ (s.perform text move).2.Alike text (t.perform text move).2 := by
  have hvalid := And.intro (h.valid.1.perform move) (h.valid.2.perform move)
  have hattached := And.intro (h.attached.1.perform h.valid.1 hends move)
    (h.attached.2.perform h.valid.2 hends move)
  obtain ⟨hits, misses, hstore⟩ := h.store
  cases move with
  | call call =>
    obtain ⟨hanswer, hnext⟩ := s.store.respond_withCounts hits misses call
    rw [← hstore] at hanswer hnext
    exact ⟨hanswer, hvalid, hattached, hnext⟩
  | openStore =>
    have hopened := s.store.openStore_withCounts hits misses
    rw [← hstore] at hopened
    refine ⟨?_, hvalid, hattached, hits, misses, congrArg Prod.snd hopened⟩
    simp only [Placed.perform, hopened]
  | closeStore =>
    refine ⟨rfl, hvalid, hattached, hits, misses, ?_⟩
    simp only [Placed.perform, hstore]
    rfl
  | renew =>
    refine ⟨rfl, hvalid, hattached, 0, 0, ?_⟩
    simp only [Placed.perform, made, h.attached.1.site_left hends, h.attached.2.site_left hends,
      hstore]
    rfl

theorem Alike.run (h : s.Alike text t) (hends : Path.endsInName text) (moves : List Move) :
    (Store.run (Placed.perform text) t moves).1.map Answer.uncounted
      = (Store.run (Placed.perform text) s moves).1.map Answer.uncounted := by
  induction moves generalizing s t with
  | nil => rfl
  | cons move moves ih =>
    obtain ⟨hanswer, hnext⟩ := h.perform hends move
    simp only [Store.run, List.map_cons, hanswer, ih hnext]

/-! ## Lost stores -/

/-- A closed store that cannot be opened any more, and no new one either. -/
structure Lost (text : String) (s : Placed) : Prop where
  closed : s.store.isOpen = false
  size : s.store.mapBytes < UInt64.size
  unusable : s.store.site.isUsable = false
  stuck : (s.left text).prepare text = (s.left text, none)

/-- Where the path does not lead back, a store that is closed is lost. -/
theorem Valid.lost (h : s.Valid text) (hopen : s.store.isOpen)
    (hends : Path.endsInName text = false) : (s.perform text .closeStore).2.Lost text := by
  obtain ⟨htried, hsize, -⟩ := h.opened hopen
  have hattached := h.attached hopen
  exact ⟨rfl, hsize, hattached.isUsable.trans hends,
    Disk.prepare_settleStore (p := s.store.closeStore) hattached.usable htried
      (congrArg Site.ground hattached.made) hends⟩

theorem Lost.renew (h : s.Lost text) : (s.perform text .renew).2.Lost text := by
  refine ⟨rfl, h.size, ?_, ?_⟩
  · simp only [Placed.perform, made, Persistent.ofSite]
    unfold Disk.site
    rw [h.stuck]
    rfl
  · simp only [Placed.perform]
    rw [left_of_untried (by rfl)]
    exact h.stuck

theorem Lost.openStore (h : s.Lost text) : (s.perform text .openStore).2.Lost text := by
  simp only [Placed.perform, Persistent.openStore_of_unusable h.closed h.size h.unusable]
  refine ⟨h.closed, h.size, h.unusable, ?_⟩
  have hstuck := h.stuck
  cases htried : s.store.wasTried with
  | true =>
    rw [← htried]
    exact hstuck
  | false =>
    rw [left_of_untried htried] at hstuck
    have hsame : (Placed.mk s.disk { s.store with wasTried := true }).left text = s.disk := by
      unfold left Disk.settleStore
      rw [if_pos (by rfl), hstuck]
    rw [hsame]
    exact hstuck

theorem Lost.perform (h : s.Lost text) (move : Move) : (s.perform text move).2.Lost text := by
  cases move with
  | call call =>
    cases call with
    | get key => simpa only [Placed.perform, Persistent.respond, Persistent.get_of_closed h.closed]
    | put key r => simpa only [Placed.perform, Persistent.respond, Persistent.put_of_closed h.closed]
    | stats => exact h
  | openStore => exact h.openStore
  | closeStore => exact ⟨rfl, h.size, h.unusable, h.stuck⟩
  | renew => exact h.renew

/-- **A lost store answers no lookup**, whatever is done with it. -/
theorem Lost.found (h : s.Lost text) {moves : List Move} {result : Except Error (Option Record)}
    (hfound : .found result ∈ (Store.run (Placed.perform text) s moves).1) :
    result = .error (.storage .notOpen) := by
  induction moves generalizing s with
  | nil => cases hfound
  | cons move moves ih =>
    rcases List.mem_cons.1 hfound with hanswer | hlater
    · rcases move with ⟨key | ⟨key, r⟩⟩ | _ <;> cases hanswer
      rw [Persistent.get_of_closed h.closed]
    · exact ih (h.perform move) hlater

end Placed

/-! ## What holds of persistent stores -/

/-- **A persistent store answers as memory does, and survives being closed where its path ends with
a name.** The store has been used in any way since it was made at the path.

As long as every put succeeds, an open store that began empty answers as memory does, but for the
expiries. If the path ends with a name, closing the store and opening it again changes nothing, and
neither does a new store at the same path, but for the counts, which begin anew. If it ends with a
slash or a dot, the store cannot be opened again in any way, and no lookup is answered any more. A
closed store refuses lookups and puts and stays as it is, and so does a store that refuses a
record. -/
theorem persistent_refines_memory {d : Disk} {text : String} {mapSizeMiB : UInt64}
    {moves : List Move} {s : Placed}
    (hs : (run (Placed.perform text) (.made d text mapSizeMiB) moves).2 = s) :
    (s.store.isOpen → s.store.site.contents = .empty → s.store.hits = 0 → s.store.misses = 0 →
      ∀ calls : List Call, (∀ call ∈ calls, call.IsStorable) →
        (∀ e, .done (.error e) ∉ (run Persistent.respond s.store calls).1) →
        (run Persistent.respond s.store calls).1
          = (run Memory.respond .empty calls).1.map Answer.floored)
    ∧ (s.store.isOpen → Path.endsInName text →
      (∀ later, (run (Placed.perform text)
          (run (Placed.perform text) s [.closeStore, .openStore]).2 later).1
        = (run (Placed.perform text) s later).1)
      ∧ (run (Placed.perform text) s [.renew, .openStore]).2.store = s.store.withCounts 0 0
      ∧ ∀ later, (run (Placed.perform text)
          (run (Placed.perform text) s [.renew, .openStore]).2 later).1.map Answer.uncounted
        = (run (Placed.perform text) s later).1.map Answer.uncounted)
    ∧ (s.store.isOpen → Path.endsInName text = false →
      ∀ restart ∈ [Move.closeStore, .renew], ∀ later result,
        .found result ∈ (run (Placed.perform text) (s.perform text restart).2 later).1 →
          result = .error (.storage .notOpen))
    ∧ (s.store.isOpen = false → ∀ key r,
      s.store.get key = (.error (.storage .notOpen), s.store)
        ∧ s.store.put key r = (.error (.storage .notOpen), s.store))
    ∧ ∀ key r e, (s.store.put key r).1 = .error e → (s.store.put key r).2 = s.store := by
  have hvalid : s.Valid text := by
    rw [← hs]
    exact Placed.valid_run (Placed.valid_made d text mapSizeMiB) moves
  refine ⟨fun hopen hempty hhits hmisses calls hstorable hput => ?_, fun hopen hends => ?_,
    fun hopen hends restart hrestart later result hfound => ?_, fun hclosed key r => ?_,
    fun key r e hput => ?_⟩
  · exact run_refines (refines_empty hopen hempty hhits hmisses) hstorable hput
  · have hattached := hvalid.attached hopen
    have hrenew := hvalid.reopen_new hopen hends
    have halike : s.Alike text (run (Placed.perform text) s [.renew, .openStore]).2 := by
      refine ⟨⟨hvalid, Placed.valid_run hvalid _⟩, ⟨hattached, ?_⟩, 0, 0, by rw [hrenew]⟩
      exact (hattached.renew hends).openStore
    exact ⟨fun later => by rw [hvalid.reopen hopen hends], by rw [hrenew],
      fun later => halike.run hends later⟩
  · have hlost := hvalid.lost hopen hends
    simp only [List.mem_cons, List.not_mem_nil, or_false] at hrestart
    rcases hrestart with rfl | rfl
    · exact hlost.found hfound
    · exact hlost.renew.found hfound
  · exact ⟨Persistent.get_of_closed hclosed key, Persistent.put_of_closed hclosed key r⟩
  · exact (Persistent.put_error (Prod.ext hput rfl)).1

/-- A store of 8 MiB answers as memory does. At a path that ends with a name, a record that is put
before a restart is found after it, as it was before. At the same path with a slash behind it, it is
not. -/
theorem persistent_refines_memory_slash :
    let key : Key := ⟨.app, ⟨List.replicate 32 0, rfl⟩⟩
    let calls : List Call := [.put key (.named "n"), .get key, .stats]
    let opened (text : String) := (run (Placed.perform text) (.made .empty text 8) [.openStore]).2
    (run Persistent.respond (opened "s/a").store calls).1
        = (run Memory.respond .empty calls).1.map Answer.floored
      ∧ (run (Placed.perform "s/a")
            (run (Placed.perform "s/a") (opened "s/a") [.closeStore, .openStore]).2
            (calls.map .call)).1
          = (run (Placed.perform "s/a") (opened "s/a") (calls.map .call)).1
      ∧ (run (Placed.perform "s/a/") ((opened "s/a/").perform "s/a/" .closeStore).2
          [.openStore, .call (.get key)]).1.getLast? = some (.found (.error (.storage .notOpen))) := by
  intro key calls opened
  have hopened (text : String) (back : Bool)
      (hsite : Disk.empty.site text = ⟨.vacant, false, back⟩) :
      (opened text).store = ⟨8, ⟨.store .empty, back, back⟩, true, true, 0, 0⟩ := by
    have hopen : (Persistent.ofSite ⟨.vacant, false, back⟩ 8).openStore
        = (.ok (), ⟨8, ⟨.store .empty, back, back⟩, true, true, 0, 0⟩) := by
      cases back <;> exact Persistent.openStore_of_usable rfl (by decide) (by decide) rfl
    simp only [opened, run, Placed.perform, Placed.made, hsite, hopen]
  have hname := hopened "s/a" true rfl
  have hslash := hopened "s/a/" false rfl
  have hput : ((opened "s/a").store.put key (.named "n")).1 = .ok () := by
    rw [hname]
    rfl
  have hstorable : ∀ call ∈ calls, call.IsStorable := by
    intro call hcall
    rcases List.mem_cons.1 hcall with rfl | hother
    · exact ⟨Record.storable_named "n", by decide⟩
    · simp only [List.mem_cons, List.not_mem_nil, or_false] at hother
      rcases hother with rfl | rfl <;> trivial
  obtain ⟨hmemory, hback, -⟩ := persistent_refines_memory (s := opened "s/a") rfl
  obtain ⟨-, -, hlost, -⟩ := persistent_refines_memory (s := opened "s/a/") rfl
  have hisOpen : (opened "s/a").store.isOpen := by rw [hname]
  refine ⟨hmemory hisOpen ?_ ?_ ?_ calls hstorable ?_, (hback hisOpen (by decide)).1 _, ?_⟩
  · rw [hname]
    rfl
  · rw [hname]
  · rw [hname]
  · intro e
    simp [calls, run, Persistent.respond, hput]
  · have hanswer := hlost (by rw [hslash]) (by decide) .closeStore List.mem_cons_self
      [.openStore, .call (.get key)] _ (List.mem_cons_of_mem _ List.mem_cons_self)
    exact congrArg (fun result => some (Answer.found result)) hanswer

end MetaCache.Store
