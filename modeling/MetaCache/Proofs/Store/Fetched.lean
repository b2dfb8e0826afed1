import MetaCache.Proofs.Number.Jitter
import MetaCache.Proofs.Remote.Decoded
import MetaCache.Proofs.Store.Keeping
import MetaCache.Proofs.Store.Refinement

/-!
# What was fetched reads back from the store

A record comes out of a document twice: first out of an answer, where it stands inside an envelope or
a page, and later out of a stored value, where it stands alone. Both times the document is read in
the same way, and there is the same limit to its nesting. What stands alone nests less deep, so a
record that the first reading lets through is never lost to the second (`Gives.storable`).

Once it is put, it stays until something else is put under its key (`Keeps.run`), and every lookup
finds it as it was put, but for the expiry, which is rounded down to a millisecond.
-/

namespace MetaCache.Store

open MetaCache.Remote

/-- A transport has given a record, alone or in a list. -/
inductive Gives (t : Transport) (r : Record) : Prop
  | single {kind : Kind} {guid : Guid} (answer : (t.fetchOne kind guid).answer = .ok r) : Gives t r
  | listed {kind : Kind} {found : List (String × Record)} {raw : String}
      (answer : (t.fetchAll kind).answer = .ok found) (mem : (raw, r) ∈ found) : Gives t r

variable {t : Transport} {r : Record} {p p' : Persistent} {key : Key}

theorem Gives.nested (h : Gives t r) : Nested r := by
  cases h with
  | single answer => exact t.nested_fetchOne answer
  | listed answer mem => exact t.nested_fetchAll answer _ mem

/-- **What is given can be stored**, normalized in any way, if its numbers are whole. -/
theorem Gives.storable (h : Gives t r) (hexact : r.environment.toValue.isExact) (n : Normalizer)
    (kind : Kind) (now : Timestamp) (draw : UInt64) : (n.normalize kind r now draw).Storable :=
  -- Normalization leaves the environment alone.
  show r.Storable from ⟨hexact, h.nested⟩

/-! ## Stores in use -/

theorem Backend.Keeps.respond (h : (Backend.persistent p).Keeps key r) {call : Call}
    (hcall : ∀ r', call ≠ .put key r') : (Backend.persistent (p.respond call).2).Keeps key r := by
  cases call with
  | get other => exact h.get other
  | put other r' =>
    refine h.put_other (fun hother => ?_) r'
    rw [hother] at hcall
    exact hcall r' rfl
  | stats => exact h

theorem Backend.Keeps.run (h : (Backend.persistent p).Keeps key r) {calls : List Call}
    (hcalls : ∀ r', .put key r' ∉ calls) :
    (Backend.persistent (Store.run Persistent.respond p calls).2).Keeps key r := by
  induction calls generalizing p with
  | nil => exact h
  | cons call calls ih =>
    refine ih (h.respond fun r' hcall => ?_) fun r' hput => hcalls r' (List.mem_cons_of_mem _ hput)
    rw [hcall] at hcalls
    exact hcalls r' List.mem_cons_self

/-- **Whatever was fetched is found again once it is put**, as it was normalized, with the expiry
rounded down to a millisecond: at once, after any calls that put nothing else under the key, and
after the store is closed and opened. -/
theorem fetched_reads_back (hr : Gives t r) (hexact : r.environment.toValue.isExact)
    (n : Normalizer) (now : Instant) (draw : UInt64)
    (hput : p.put key (n.normalize key.kind r now draw) = (.ok (), p')) {calls : List Call}
    (hcalls : ∀ r', .put key r' ∉ calls) :
    ((run Persistent.respond p' calls).2.get key).1
        = .ok (some (n.normalize key.kind r now draw).floored)
      ∧ ∀ p'', (run Persistent.respond p' calls).2.closeStore.openStore = (.ok (), p'') →
        (p''.get key).1 = .ok (some (n.normalize key.kind r now draw).floored) := by
  have hkeep : BackendChoice.persistent.CanKeep (n.normalize key.kind r now draw) :=
    ⟨hr.storable hexact n key.kind now draw,
      Timestamp.le_last_of_ordinary (n.isLeap_expiry now.isLeap_eq_false draw)⟩
  have hback : (Backend.persistent p).put key (n.normalize key.kind r now draw)
      = (.ok (), .persistent p') := by
    rw [Backend.put_persistent, hput]
  have hkeeps := (Backend.keeps_put rfl hback).run hcalls
  exact ⟨hkeeps.answer hkeep, fun p'' hopened => (hkeeps.reopened hopened).answer hkeep⟩

/-- An answer with an entity that is an array, has an unseen character in its name, and names a
variable twice. -/
def terse : Transport :=
  .ofAnswers [.ok ⟨200, terseBody⟩] (fun _ => .ok ⟨200, terseBody⟩) fun _ => List.mem_singleton_self _
where
  terseBody : List UInt8 := Json.bytesOf
    "\x7b\"entity\":[\"\\u0001\\ud83d\\ude00\",null,\"\",\x7b\"k\":true,\"k\":\x7b\"x\":[-1]\x7d\x7d]\x7d"

/-- The entity is put into a store of 8 MiB, and looked up after the counts. -/
theorem fetched_reads_back_terse :
    let n : Normalizer := ⟨60 * nanosPerSecond, []⟩
    let key : Key := ⟨.space, ⟨List.replicate 32 0, rfl⟩⟩
    let p : Persistent := ⟨8, ⟨.store .empty, true, true⟩, true, true, 0, 0⟩
    ∃ r p', (terse.fetchOne key.kind key.guid).answer = .ok r
      ∧ p.put key (n.normalize key.kind r .epoch 0) = (.ok (), p')
      ∧ ((run Persistent.respond p' [.stats]).2.get key).1
        = .ok (some (n.normalize key.kind r .epoch 0).floored) := by
  intro n key p
  -- The answer and the put are evaluated together, and only to a `Bool`.
  have hstored : ((terse.fetchOne key.kind key.guid).answer.toOption.any fun r =>
      r.environment.toValue.isExact && (p.put key (n.normalize key.kind r .epoch 0)).1.isOk)
      = true := by
    decide +kernel
  cases hr : (terse.fetchOne key.kind key.guid).answer with
  | error e => simp [hr, Except.toOption] at hstored
  | ok r =>
    simp only [hr, Except.toOption, Option.any_some, Bool.and_eq_true] at hstored
    obtain ⟨hexact, hok⟩ := hstored
    cases hput : p.put key (n.normalize key.kind r .epoch 0) with
    | mk result p' =>
      rw [hput] at hok
      cases result with
      | error e => cases hok
      | ok done =>
        have hcalls : ∀ r', Call.put key r' ∉ [Call.stats] := by simp
        exact ⟨r, p', rfl, hput, (fetched_reads_back (.single hr) hexact n .epoch 0 hput hcalls).1⟩

end MetaCache.Store
