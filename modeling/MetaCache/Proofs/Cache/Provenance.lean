import MetaCache.Proofs.Cache.Journal

/-!
# Where stored records come from

A cache is used: entities are looked up, apps are resolved, all apps are preloaded, and in between
the store is closed and opened, or the process ends and another one goes on. Whatever the order, and
whatever the API answers in the meantime, every record that is handed to the store is one that the
API has just answered or has listed, or the empty one in the place of a missing app, and it was
normalized once (`deposits_provenance`). A record that is stored already is never normalized again.

What normalization does to a name is said in its own words: the first suffix that fits is taken off,
and no other (`Stripped`).
-/

namespace MetaCache

open MetaCache.Remote MetaCache.Store

/-! ## Names -/

/-- A name without the first of some suffixes that it ends with. -/
inductive Stripped (suffixes : List String) (name : String) : String → Prop
  /-- It ends with none of them. -/
  | whole (none : ∀ suffix ∈ suffixes, ¬ suffix.toList <:+ name.toList) :
      Stripped suffixes name name
  | cut {before after : List String} {suffix rest : String}
      (first : suffixes = before ++ suffix :: after)
      (skipped : ∀ other ∈ before, ¬ other.toList <:+ name.toList) (ends : name = rest ++ suffix) :
      Stripped suffixes name rest

namespace Normalizer

theorem dropSuffix?_eq_none_iff {suffix name : String} :
    dropSuffix? suffix name = none ↔ ¬ suffix.toList <:+ name.toList := by
  rw [dropSuffix?]
  split <;> next h => simpa [List.isSuffixOf_iff_suffix] using h

theorem dropSuffix?_eq_some {suffix name rest : String} (h : dropSuffix? suffix name = some rest) :
    name = rest ++ suffix := by
  rw [dropSuffix?] at h
  split at h
  · next hends =>
    obtain ⟨front, hfront⟩ := List.isSuffixOf_iff_suffix.1 hends
    obtain rfl := Option.some.inj h
    apply String.toList_injective
    simp [← hfront]
  · cases h

theorem stripped_stripName (n : Normalizer) (name : String) :
    Stripped n.suffixes name (n.stripName name) := by
  rw [stripName]
  cases hfound : n.suffixes.findSome? (dropSuffix? · name) with
  | none =>
    rw [List.findSome?_eq_none_iff] at hfound
    exact .whole fun suffix hsuffix => dropSuffix?_eq_none_iff.1 (hfound suffix hsuffix)
  | some rest =>
    obtain ⟨before, suffix, after, hfirst, hrest, hskipped⟩ := List.findSome?_eq_some_iff.1 hfound
    exact .cut hfirst (fun other hother => dropSuffix?_eq_none_iff.1 (hskipped other hother))
      (dropSuffix?_eq_some hrest)

end Normalizer

/-! ## Stores over time -/

namespace Store

/-- A store that is closed and opened again. -/
def Backend.reopened (b : Backend) : Backend := b.closeStore.openStore.2

/-- A new store of the same kind: a persistent one is at the same place, and one in memory begins
anew. -/
def Backend.remade : Backend → Backend
  | memory _ => .memory .empty
  | persistent p => .persistent (.ofSite p.site p.mapSizeMiB)
  | disabled => .disabled

/-- What a new process makes of a store. -/
def Backend.renewed (b : Backend) : Backend := b.remade.openStore.2

end Store

namespace Cache

variable {c : Cache} {w : World}

/-! ## Uses of a cache -/

/-- What is done with a cache from outside. -/
inductive Use
  | lookup (kind : Kind) (raw : String)
  | resolve (raw : String)
  | fill
  /-- The store is closed and opened again. -/
  | reopen
  /-- The process ends, and another one goes on. -/
  | restart
  deriving DecidableEq, Repr

/-- The state after one use. -/
def use (c : Cache) (w : World) (s : State) : Use → State
  | .lookup kind raw => (c.getEntity kind raw w s).2
  | .resolve raw => (c.resolveApp raw w s).2
  | .fill => (c.fillAll w s).2
  | .reopen => { s with backend := s.backend.reopened }
  | .restart => { s with backend := s.backend.renewed, fetches := 0 }

/-- The state after some uses of a new cache. -/
def after (c : Cache) (w : World) (b : Backend) (uses : List Use) : State :=
  uses.foldl (c.use w) (.ofBackend b)

/-- What happens in the course of time: a step of the cache, or something to the store. -/
inductive Turn (c : Cache) (w : World) : History → History → Prop
  | act {h h' : History} (act : Act c w h h') : Turn c w h h'
  | reopen (h : History) :
      Turn c w h ⟨h.log, { h.state with backend := h.state.backend.reopened }⟩
  | restart (h : History) :
      Turn c w h ⟨h.log, { h.state with backend := h.state.backend.renewed, fetches := 0 }⟩

/-- Any number of turns. -/
abbrev Course (c : Cache) (w : World) : History → History → Prop :=
  Relation.ReflTransGen (Turn c w)

theorem course_of_tracked {α : Type} {x : Action α} (hx : Tracked c w [] x) (h : History) :
    ∃ log, Course c w h ⟨log, (x w h.state).2⟩ := by
  obtain ⟨log, hacts⟩ := hx h.log h.state (List.nil_subset _)
  exact ⟨log, hacts.lift id fun _ _ => .act⟩

theorem course_use (c : Cache) (w : World) (h : History) (u : Use) :
    ∃ log, Course c w h ⟨log, c.use w h.state u⟩ := by
  cases u with
  | lookup kind raw => exact course_of_tracked (tracked_getEntity c kind raw) h
  | resolve raw => exact course_of_tracked (tracked_resolveApp c raw) h
  | fill => exact course_of_tracked (tracked_fillAll c) h
  | reopen => exact ⟨h.log, .single (.reopen h)⟩
  | restart => exact ⟨h.log, .single (.restart h)⟩

theorem course_uses (c : Cache) (w : World) (h : History) (uses : List Use) :
    ∃ log, Course c w h ⟨log, uses.foldl (c.use w) h.state⟩ := by
  induction uses generalizing h with
  | nil => exact ⟨h.log, .refl⟩
  | cons u uses ih =>
    obtain ⟨log, hfirst⟩ := course_use c w h u
    obtain ⟨log', hrest⟩ := ih ⟨log, c.use w h.state u⟩
    exact ⟨log', hfirst.trans hrest⟩

/-! ## What was handed to the store -/

/-- A record was handed to the store at a place in the log, where it had an origin, and was
normalized for it. -/
def Recorded (c : Cache) (w : World) (log : List Event) (d : Deposit) : Prop :=
  ∃ past n r future, log = past ++ .stored n d.key r :: future ∧ Origin c w past d.key r
    ∧ d.record = c.normalizer.normalize d.key.kind r (w n).now (w n).draw

theorem Recorded.extended {log log' : List Event} {d : Deposit} (h : Recorded c w log d)
    (hlog : log <+: log') : Recorded c w log' d := by
  obtain ⟨past, n, r, future, rfl, horigin, hrecord⟩ := h
  obtain ⟨more, rfl⟩ := hlog
  exact ⟨past, n, r, future ++ more, by rw [List.append_assoc]; rfl, horigin, hrecord⟩

/-- All that was handed to the store is in the log. -/
def History.Complete (c : Cache) (w : World) (h : History) : Prop :=
  ∀ d ∈ h.state.deposits, Recorded c w h.log d

theorem History.Complete.act {h h' : History} (hcomplete : h.Complete c w) (hact : Act c w h h') :
    h'.Complete c w := by
  intro d hd
  have hbefore (hd : d ∈ h.state.deposits) : Recorded c w h'.log d :=
    (hcomplete d hd).extended hact.log
  cases hact with
  | @store key r origin =>
    -- The log had everything but the last deposit, and gets that with this step.
    rcases List.mem_append.1 hd with hd | hd
    · exact hbefore hd
    · obtain rfl := List.mem_singleton.1 hd
      exact ⟨h.log, h.state.elapsed, r, [], rfl, origin, rfl⟩
  | _ => exact hbefore hd

theorem History.Complete.turn {h h' : History} (hcomplete : h.Complete c w)
    (hturn : Turn c w h h') : h'.Complete c w := by
  cases hturn with
  | act hact => exact hcomplete.act hact
  | reopen => exact hcomplete
  | restart => exact hcomplete

theorem History.Complete.course {h h' : History} (hcomplete : h.Complete c w)
    (hcourse : Course c w h h') : h'.Complete c w := by
  induction hcourse with
  | refl => exact hcomplete
  | tail _ hturn ih => exact ih.turn hturn

/-! ## What is in the store -/

/-- Everything in a store is the record of a deposit, under its key. -/
def Stocked (deposits : List Deposit) : Backend → Prop
  | .memory m => ∀ key r, m.records.get? key = some r → ∃ d ∈ deposits, d.key = key ∧ d.record = r
  | .persistent p => ∀ text value, p.site.contents.get? text = some value →
      ∃ d ∈ deposits, d.key.text = text ∧ encodeRecord d.record = .ok value
  | .disabled => True

theorem Stocked.mono {deposits more : List Deposit} {b : Backend} (h : Stocked deposits b)
    (hmore : deposits ⊆ more) : Stocked more b := by
  cases b with
  | memory m =>
    intro key r hr
    obtain ⟨d, hd, hrest⟩ := h key r hr
    exact ⟨d, hmore hd, hrest⟩
  | persistent p =>
    intro text value hvalue
    obtain ⟨d, hd, hrest⟩ := h text value hvalue
    exact ⟨d, hmore hd, hrest⟩
  | disabled => exact True.intro

theorem Stocked.get {deposits : List Deposit} {b : Backend} (h : Stocked deposits b) (key : Key) :
    Stocked deposits (b.get key).2 := by
  cases b with
  | memory m =>
    intro other r hr
    exact h other r (m.records_get key ▸ hr)
  | persistent p =>
    obtain ⟨hits, misses, hsnd⟩ := p.get_snd key
    show Stocked deposits (.persistent (p.get key).2)
    rw [hsnd]
    exact h
  | disabled => exact True.intro

theorem Stocked.put {deposits : List Deposit} {b : Backend} (h : Stocked deposits b) {d : Deposit}
    (hd : d ∈ deposits) : Stocked deposits (b.put d.key d.record).2 := by
  cases b with
  | memory m =>
    intro key r hr
    rw [Memory.put, Table.get?_put] at hr
    split at hr
    · next hkey => exact ⟨d, hd, hkey.symm, Option.some.inj hr⟩
    · exact h key r hr
  | persistent p =>
    rw [Backend.put_persistent]
    cases hput : p.put d.key d.record with
    | mk result p' =>
      cases result with
      | error e =>
        obtain ⟨rfl, -⟩ := Persistent.put_error hput
        exact h
      | ok done =>
        obtain ⟨-, stored, volume, hstored, hcontents, rfl⟩ := Persistent.put_ok hput
        intro text value hvalue
        rw [Site.contents_withVolume, hcontents, Table.get?_put] at hvalue
        -- Either it is the value just put, or it was there before.
        split at hvalue
        · next htext =>
          obtain rfl := Option.some.inj hvalue
          exact ⟨d, hd, htext.symm, hstored⟩
        · exact h text value hvalue
  | disabled => exact True.intro

/-- Closing a store loses nothing, and opening one neither. -/
theorem Stocked.openStore {deposits : List Deposit} {b : Backend} (h : Stocked deposits b) :
    Stocked deposits b.openStore.2 := by
  cases b with
  | memory m => exact h
  | persistent p =>
    rw [Backend.openStore_persistent]
    -- The result is named here, for unfolding it would compare map sizes with huge numbers.
    cases hopen : p.openStore with
    | mk result p' =>
      intro text value hvalue
      rw [Persistent.contents_of_openStore hopen] at hvalue
      exact h text value hvalue
  | disabled => exact True.intro

theorem Stocked.reopened {deposits : List Deposit} {b : Backend} (h : Stocked deposits b) :
    Stocked deposits b.reopened := by
  have hclosed : Stocked deposits b.closeStore := by cases b <;> exact h
  exact hclosed.openStore

theorem Stocked.remade {deposits : List Deposit} {b : Backend} (h : Stocked deposits b) :
    Stocked deposits b.remade := by
  cases b with
  | memory m =>
    intro key r hr
    cases hr
  | persistent p => exact h
  | disabled => exact True.intro

theorem Stocked.act {h h' : History} (hstocked : Stocked h.state.deposits h.state.backend)
    (hact : Act c w h h') : Stocked h'.state.deposits h'.state.backend := by
  cases hact with
  | look key => exact hstocked.get key
  | store =>
    exact (hstocked.mono (List.subset_append_left ..)).put
      (List.mem_append_right _ (List.mem_singleton_self _))
  | _ => exact hstocked

theorem Stocked.turn {h h' : History} (hstocked : Stocked h.state.deposits h.state.backend)
    (hturn : Turn c w h h') : Stocked h'.state.deposits h'.state.backend := by
  cases hturn with
  | act hact => exact hstocked.act hact
  | reopen => exact hstocked.reopened
  | restart => exact hstocked.remade.openStore

theorem Stocked.course {h h' : History} (hstocked : Stocked h.state.deposits h.state.backend)
    (hcourse : Course c w h h') : Stocked h'.state.deposits h'.state.backend := by
  induction hcourse with
  | refl => exact hstocked
  | tail _ hturn ih => exact ih.turn hturn

/-- **Every record that a cache ever hands to its store was answered or listed by the API**, or is
the empty one in the place of an app that is missing, and was normalized once. A store that was
empty holds nothing else. -/
theorem deposits_provenance (c : Cache) (w : World) (b : Backend) (uses : List Use) :
    ∃ log, Course c w ⟨[], .ofBackend b⟩ ⟨log, c.after w b uses⟩
      ∧ (∀ d ∈ (c.after w b uses).deposits, ∃ past n r future,
        log = past ++ .stored n d.key r :: future ∧ Origin c w past d.key r
        ∧ d.record = c.normalizer.normalize d.key.kind r (w n).now (w n).draw
        ∧ (d.key.kind = .app → Stripped c.normalizer.suffixes r.name d.record.name)
        ∧ (d.key.kind ≠ .app → d.record.name = r.name)
        ∧ d.record.spaceGuid = r.spaceGuid ∧ d.record.organizationGuid = r.organizationGuid
        ∧ d.record.environment = r.environment)
      ∧ (Stocked [] b → Stocked (c.after w b uses).deposits (c.after w b uses).backend) := by
  obtain ⟨log, hcourse⟩ := course_uses c w ⟨[], .ofBackend b⟩ uses
  have hcomplete : History.Complete c w ⟨log, c.after w b uses⟩ :=
    History.Complete.course (fun _ hd => absurd hd List.not_mem_nil) hcourse
  refine ⟨log, hcourse, fun d hd => ?_, fun hempty => Stocked.course hempty hcourse⟩
  obtain ⟨past, n, r, future, hlog, horigin, hrecord⟩ := hcomplete d hd
  refine ⟨past, n, r, future, hlog, horigin, hrecord, fun happ => ?_, fun happ => ?_, ?_⟩
  · rw [hrecord, Normalizer.normalize, if_pos happ]
    exact c.normalizer.stripped_stripName r.name
  · rw [hrecord, Normalizer.normalize, if_neg happ]
  · rw [hrecord]
    exact ⟨rfl, rfl, rfl⟩

end Cache

end MetaCache
