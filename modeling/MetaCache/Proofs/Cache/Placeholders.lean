import MetaCache.Proofs.Cache.Provenance
import MetaCache.Proofs.Cache.Transparency

/-!
# Records without an entity

A cache that does not ignore missing apps has no reason to make up records. What it has under a key
comes from an entity that the API has answered for it, with one exception: a page may list an app
without an entity, and what is listed is stored as it is (`records_carried`). Asked for the same app
alone, the API would have been taken to say that it is missing.
-/

namespace MetaCache.Cache

open MetaCache.Remote MetaCache.Store

variable {c : Cache} {w : World} {t : Nat → Transport}

/-- An answer to a request in the log had the record for the key in it; `t` tells what the API
answers at each moment. -/
inductive Carried (t : Nat → Transport) (log : List Event) (key : Key) (r : Record) : Prop
  /-- It was the answer to the path of the entity. -/
  | single {n : Nat} {response : Response} (asked : .asked n key ∈ log)
      (answer : (t n).answer (entityPath key.kind key.guid.text) = .ok response)
      (success : response.isSuccess) (entity : readEntity response.body = .ok (some r))
  /-- It was a page of the list of apps. -/
  | listed {n : Nat} {path raw : String} (listed : .listed n ∈ log)
      (paged : path ∈ ((t n).fetchAll .app).asked) (entry : (t n).Lists path (raw, some r))
      (parsed : Key.parse .app raw = .ok key)

/-- A page of the list of apps had the key in it, but no record for it. -/
def ListedBare (t : Nat → Transport) (log : List Event) (key : Key) : Prop :=
  ∃ n path raw, .listed n ∈ log ∧ path ∈ ((t n).fetchAll .app).asked ∧ (t n).Lists path (raw, none)
    ∧ Key.parse .app raw = .ok key

theorem Origin.carried (hstrict : c.ignoresMissing = false)
    (ht : ∀ n, (w n).fetcher = (t n).fetcher) {log : List Event} {key : Key} {r : Record} (h : Origin c w log key r) :
    Carried t log key r ∨ r = .empty ∧ ListedBare t log key := by
  cases h with
  | @fetched n _ asked answer =>
    rw [ht] at answer
    obtain ⟨response, hanswer, hsuccess, hread⟩ := Transport.readEntity_of_fetchOne answer
    exact .inl (.single (List.mem_of_getLast? asked) hanswer hsuccess hread)
  | @listed n _ _ _ listed answer mem parsed =>
    rw [ht] at answer
    obtain ⟨path, hpath, ⟨raw, entity⟩, hentry, hone⟩ := Transport.entry_of_fetchAll answer mem
    cases hone
    cases entity with
    | some r => exact .inl (.listed listed hpath hentry parsed)
    | none => exact .inr ⟨rfl, n, path, raw, listed, hpath, hentry, parsed⟩
  | missing _ _ _ ignores => rw [hstrict] at ignores; cases ignores

theorem Carried.extended {log log' : List Event} {key : Key} {r : Record} (h : Carried t log key r)
    (hlog : log <+: log') : Carried t log' key r := by
  cases h with
  | single asked answer success entity => exact .single (hlog.subset asked) answer success entity
  | listed listed paged entry parsed => exact .listed (hlog.subset listed) paged entry parsed

theorem ListedBare.extended {log log' : List Event} {key : Key} (h : ListedBare t log key)
    (hlog : log <+: log') : ListedBare t log' key := by
  obtain ⟨n, path, raw, hlisted, hrest⟩ := h
  exact ⟨n, path, raw, hlog.subset hlisted, hrest⟩

/-- Whatever was handed to the store was carried by an answer, or listed bare. -/
theorem Recorded.carried (hstrict : c.ignoresMissing = false)
    (ht : ∀ n, (w n).fetcher = (t n).fetcher) {log : List Event} {d : Deposit}
    (h : Recorded c w log d) :
    ∃ n r, d.record = c.normalizer.normalize d.key.kind r (w n).now (w n).draw
      ∧ (Carried t log d.key r ∨ r = .empty ∧ ListedBare t log d.key) := by
  obtain ⟨past, n, r, future, rfl, horigin, hrecord⟩ := h
  refine ⟨n, r, hrecord, ?_⟩
  have hpast : past <+: past ++ .stored n d.key r :: future := List.prefix_append ..
  exact (horigin.carried hstrict ht).imp (·.extended hpast) (·.imp_right (·.extended hpast))

/-! ## Lookups -/

/-- What is found in a store was handed to it under the same key. -/
theorem Stocked.deposit_of_answer {deposits : List Deposit} {b : Backend}
    (h : Stocked deposits b) {key : Key} {r : Record} (hanswer : b.answer key = .ok (some r)) :
    ∃ d ∈ deposits, d.key = key := by
  cases b with
  | memory m =>
    rw [Backend.answer_memory] at hanswer
    obtain ⟨d, hd, hkey, -⟩ := h key r (Except.ok.inj hanswer)
    exact ⟨d, hd, hkey⟩
  | persistent p =>
    rw [Backend.answer_persistent (Backend.isOpen_of_answer hanswer)] at hanswer
    split at hanswer
    · next value hvalue =>
      obtain ⟨d, hd, htext, -⟩ := h key.text value hvalue
      exact ⟨d, hd, Key.text_injective htext⟩
    · cases hanswer
  | disabled => cases hanswer

/-- A record that comes of a refreshment has been handed to the store. -/
theorem deposit_of_refresh {key : Key} {s s' : State} {r : Record}
    (h : c.refresh key w s = (.ok r, s')) : ∃ d ∈ s'.deposits, d.key = key := by
  rw [refresh_apply] at h
  split at h
  · rw [store_apply] at h
    obtain ⟨-, rfl⟩ := Prod.mk.inj h
    exact ⟨_, List.mem_append_right _ (List.mem_singleton_self _), rfl⟩
  · split at h
    · obtain ⟨hanswer, -⟩ := Prod.mk.inj h
      cases hstore : (c.store key .empty w _).1 <;> rw [hstore] at hanswer <;> cases hanswer
    · cases h

theorem deposit_of_getEntity {kind : Kind} {raw : String} {key : Key}
    (hkey : Key.parse kind raw = .ok key) {s s' : State} (hs : Stocked s.deposits s.backend)
    {r : Record} (h : c.getEntity kind raw w s = (.ok r, s')) : ∃ d ∈ s'.deposits, d.key = key := by
  rw [getEntity_apply hkey] at h
  split at h
  · cases h
  · exact deposit_of_refresh h
  · next hanswer =>
    split at h
    · obtain ⟨-, rfl⟩ := Prod.mk.inj h
      exact hs.deposit_of_answer hanswer
    · exact deposit_of_refresh h

/-- **Without being told to ignore what is missing, a cache makes up no record**: what it has under
a key was carried by an answer for the key, unless a page listed the key without a record. The same
goes for every entity that it says it has found. -/
theorem records_carried (hstrict : c.ignoresMissing = false)
    (ht : ∀ n, (w n).fetcher = (t n).fetcher) {b : Backend} (hempty : Stocked [] b)
    (uses : List Use) :
    ∃ log, Course c w ⟨[], .ofBackend b⟩ ⟨log, c.after w b uses⟩
      ∧ Stocked (c.after w b uses).deposits (c.after w b uses).backend
      ∧ (∀ d ∈ (c.after w b uses).deposits,
        ∃ n r, d.record = c.normalizer.normalize d.key.kind r (w n).now (w n).draw
          ∧ (Carried t log d.key r ∨ r = .empty ∧ ListedBare t log d.key))
      ∧ ∀ {kind raw r s'}, c.getEntity kind raw w (c.after w b uses) = (.ok r, s') →
        ∃ key log', Key.parse kind raw = .ok key ∧ Acts c w ⟨log, c.after w b uses⟩ ⟨log', s'⟩
          ∧ ((∃ r, Carried t log' key r) ∨ ListedBare t log' key) := by
  obtain ⟨log, hcourse⟩ := course_uses c w ⟨[], .ofBackend b⟩ uses
  have hcomplete : History.Complete c w ⟨log, c.after w b uses⟩ :=
    History.Complete.course (fun _ hd => absurd hd List.not_mem_nil) hcourse
  have hstocked : Stocked (c.after w b uses).deposits (c.after w b uses).backend :=
    Stocked.course hempty hcourse
  refine ⟨log, hcourse, hstocked, fun d hd => (hcomplete d hd).carried hstrict ht, ?_⟩
  intro kind raw r s' hget
  cases hkey : Key.parse kind raw with
  | error e =>
    rw [getEntity_of_invalid hkey] at hget
    cases hget
  | ok key =>
    -- The lookup is logged as well, since what it finds may be what it has just stored.
    obtain ⟨log', hacts⟩ := tracked_getEntity c kind raw log (c.after w b uses) (List.nil_subset _)
    rw [hget] at hacts
    obtain ⟨d, hd, rfl⟩ := deposit_of_getEntity hkey hstocked hget
    have hafter : History.Complete c w ⟨log', s'⟩ :=
      hcomplete.course (hacts.lift id fun _ _ => .act)
    obtain ⟨n, r, -, hcarried | ⟨-, hbare⟩⟩ := (hafter d hd).carried hstrict ht
    · exact ⟨d.key, log', rfl, hacts, .inl ⟨r, hcarried⟩⟩
    · exact ⟨d.key, log', rfl, hacts, .inr hbare⟩

/-- An API that has nothing at all. -/
def barren : Transport :=
  .ofAnswers [.ok ⟨404, []⟩] (fun _ => .ok ⟨404, []⟩) fun _ => List.mem_singleton_self _

theorem not_listedBare_barren (log : List Event) (key : Key) :
    ¬ ListedBare (fun _ => barren) log key := by
  rintro ⟨n, path, raw, -, -, ⟨response, entries, hanswer, hsuccess, -⟩, -⟩
  cases hanswer
  exact absurd hsuccess (by decide)

theorem not_carried_barren (log : List Event) (key : Key) (r : Record) :
    ¬ Carried (fun _ => barren) log key r := by
  intro h
  cases h with
  | single _ answer success => cases answer; exact absurd success (by decide)
  | listed _ _ entry =>
    obtain ⟨response, entries, hanswer, hsuccess, -⟩ := entry
    cases hanswer
    exact absurd hsuccess (by decide)

/-- Where the API has nothing, nothing gets into the store, and nothing is found. -/
theorem records_carried_barren :
    let c : Cache := ⟨⟨60 * nanosPerSecond, []⟩, false⟩
    let s := c.after (.still barren.fetcher) (.memory .empty)
      [.fill, .resolve "6ba7b810-9dad-11d1-80b4-00c04fd430c8"]
    s.deposits = []
      ∧ ∀ r, (c.getEntity .app "6ba7b810-9dad-11d1-80b4-00c04fd430c8" (.still barren.fetcher) s).1
        ≠ .ok r := by
  intro c s
  obtain ⟨log, -, -, hdeposits, hget⟩ := records_carried (c := c) (w := .still barren.fetcher)
    (t := fun _ => barren) rfl (fun _ => rfl) (b := .memory .empty) (fun _ _ hr => by cases hr)
    [.fill, .resolve "6ba7b810-9dad-11d1-80b4-00c04fd430c8"]
  constructor
  · refine List.eq_nil_iff_forall_not_mem.2 fun d hd => ?_
    obtain ⟨n, r, -, hcarried | ⟨-, hbare⟩⟩ := hdeposits d hd
    · exact not_carried_barren _ _ _ hcarried
    · exact not_listedBare_barren _ _ hbare
  · intro r hr
    obtain ⟨key, log', -, -, ⟨r, hcarried⟩ | hbare⟩ := hget (Prod.ext hr rfl)
    · exact not_carried_barren _ _ _ hcarried
    · exact not_listedBare_barren _ _ hbare

end MetaCache.Cache
