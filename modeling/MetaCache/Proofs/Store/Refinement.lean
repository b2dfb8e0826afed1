import MetaCache.Proofs.Store.Answers

/-!
# A persistent store answers as memory does

Stores are asked for records, given records, and asked what they have counted. An open persistent
store that began empty gives the same answers to all of this as a store in memory, as long as it
takes what it is given, except that expiries come back rounded down to a millisecond
(`run_refines`). What connects the two is `Refines`: the same keys lead to the same records, there
are as many entries, and the counts are the same. Each single call keeps it.
-/

namespace MetaCache.Store

/-! ## Calls and runs -/

/-- What stores are asked to do while they are in use. -/
inductive Call
  | get (key : Key)
  | put (key : Key) (r : Record)
  | stats

/-- What comes of it. -/
inductive Answer
  | found (result : Except Error (Option Record))
  | done (result : Except Error Unit)
  | counted (tally : Tally)

/-- An answer with the expiry of its record rounded down. -/
def Answer.floored : Answer → Answer
  | found result => found (result.map (Option.map Record.floored))
  | other => other

/-- The answers of a system to one input after the other, and its state in the end. -/
def run {σ ι ω : Type} (step : σ → ι → ω × σ) : σ → List ι → List ω × σ
  | s, [] => ([], s)
  | s, i :: is => ((step s i).1 :: (run step (step s i).2 is).1, (run step (step s i).2 is).2)

theorem run_pair {σ ι ω : Type} (step : σ → ι → ω × σ) (s : σ) (i j : ι) :
    (run step s [i, j]).2 = (step (step s i).2 j).2 := rfl

def Memory.respond (m : Memory) : Call → Answer × Memory
  | .get key => (.found (.ok (m.get key).1), (m.get key).2)
  | .put key r => (.done (.ok ()), m.put key r)
  | .stats => (.counted m.tally, m)

def Persistent.respond (p : Persistent) : Call → Answer × Persistent
  | .get key => (.found (p.get key).1, (p.get key).2)
  | .put key r => (.done (p.put key r).1, (p.put key r).2)
  | .stats => (.counted p.tally, p)

/-! ## Refinement -/

/-- An open persistent store has what a store in memory has. -/
structure Refines (p : Persistent) (m : Memory) : Prop where
  isOpen : p.isOpen
  answer : ∀ key, (Backend.persistent p).answer key = .ok ((m.records.get? key).map Record.floored)
  entries : p.site.contents.size = m.records.size
  hits : p.hits = m.hits
  misses : p.misses = m.misses

variable {p : Persistent} {m : Memory}

theorem refines_empty (hopen : p.isOpen) (hempty : p.site.contents = .empty) (hhits : p.hits = 0)
    (hmisses : p.misses = 0) : Refines p .empty where
  isOpen := hopen
  answer key := by
    rw [Backend.answer_persistent hopen, hempty]
    rfl
  entries := by
    rw [hempty]
    rfl
  hits := hhits
  misses := hmisses

/-- Both have an entry under the same keys. -/
theorem Refines.get?_eq_none_iff (h : Refines p m) (key : Key) :
    p.site.contents.get? key.text = none ↔ m.records.get? key = none := by
  have hanswer := h.answer key
  rw [Backend.answer_persistent h.isOpen] at hanswer
  constructor
  · intro hnone
    rw [hnone] at hanswer
    simpa using (Except.ok.inj hanswer).symm
  · intro hnone
    rw [hnone] at hanswer
    cases hvalue : p.site.contents.get? key.text with
    | none => rfl
    | some value =>
      rw [hvalue] at hanswer
      simp only at hanswer
      cases hread : decodeRecord key value <;> rw [hread] at hanswer <;> cases hanswer

/-- A lookup finds the same, and counts the same. -/
theorem Refines.get (h : Refines p m) (key : Key) :
    (p.get key).1 = .ok ((m.get key).1.map Record.floored) ∧ Refines (p.get key).2 (m.get key).2 := by
  have hfound : (m.get key).1 = m.records.get? key := by
    unfold Memory.get
    split <;> next hr => rw [hr]
  have hrecords : (m.get key).2.records = m.records := by
    unfold Memory.get
    split <;> rfl
  have hcounts : (p.get key).2.hits = (m.get key).2.hits
      ∧ (p.get key).2.misses = (m.get key).2.misses := by
    have hiff := h.get?_eq_none_iff key
    unfold Persistent.get Memory.get
    rw [if_pos h.isOpen]
    cases hvalue : p.site.contents.get? key.text <;> cases hr : m.records.get? key <;>
      simp_all [h.hits, h.misses]
  obtain ⟨hits, misses, hsnd⟩ := p.get_snd key
  refine ⟨by rw [hfound]; exact h.answer key, ?_, ?_, ?_, hcounts.1, hcounts.2⟩
  · rw [hsnd]
    exact h.isOpen
  · intro other
    rw [hrecords, ← h.answer other]
    exact Backend.answer_get (.persistent p) key other
  · rw [hrecords, hsnd]
    exact h.entries

/-- A record that both take is found in both. -/
theorem Refines.put (h : Refines p m) {p' : Persistent} {key : Key} {r : Record}
    (hr : BackendChoice.persistent.CanKeep r) (hput : p.put key r = (.ok (), p')) : Refines p' (m.put key r) := by
  obtain ⟨-, value, volume, -, hcontents, hp'⟩ := Persistent.put_ok hput
  have hback : (Backend.persistent p).put key r = (.ok (), .persistent p') := by
    rw [Backend.put_persistent, hput]
  constructor
  · rw [hp']
    exact h.isOpen
  · intro other
    rw [Backend.answer_put hback hr other, h.answer other, Memory.put, Table.get?_put]
    split <;> rfl
  · have hmem : key.text ∈ p.site.contents.keys ↔ key ∈ m.records.keys := by
      have hnone := h.get?_eq_none_iff key
      rw [Table.get?_eq_none_iff, Table.get?_eq_none_iff] at hnone
      exact Decidable.not_iff_not.1 hnone
    rw [hp', Site.contents_withVolume, hcontents, Memory.put, Table.size_put, Table.size_put,
      h.entries]
    simp [hmem]
  · rw [hp']
    exact h.hits
  · rw [hp']
    exact h.misses

theorem Refines.tally (h : Refines p m) : p.tally = m.tally := by
  unfold Persistent.tally Memory.tally
  rw [if_pos h.isOpen, h.hits, h.misses, h.entries]

/-- Whether a store may be asked to keep the record of a call. -/
def Call.IsStorable : Call → Prop
  | .put _ r => r.Storable ∧ r.expiresAt ≤ .last
  | _ => True

/-- Each call has the same answer, and leaves both the same. -/
theorem Refines.respond (h : Refines p m) {call : Call} (hstorable : call.IsStorable)
    (hput : ∀ e, (p.respond call).1 ≠ .done (.error e)) :
    (p.respond call).1 = (m.respond call).1.floored
      ∧ Refines (p.respond call).2 (m.respond call).2 := by
  cases call with
  | get key =>
    obtain ⟨hanswer, hnext⟩ := h.get key
    refine ⟨?_, hnext⟩
    simp only [Persistent.respond, Memory.respond, Answer.floored, hanswer]
    rfl
  | put key r =>
    cases hdone : p.put key r with
    | mk result p' =>
      simp only [Persistent.respond, Memory.respond, hdone] at hput ⊢
      cases result with
      | error e => exact absurd rfl (hput e)
      | ok done => exact ⟨rfl, h.put hstorable hdone⟩
  | stats =>
    refine ⟨?_, h⟩
    simp only [Persistent.respond, Memory.respond, Answer.floored, h.tally]

/-- **As long as every put succeeds, a persistent store answers as memory does**, but for the
expiries. -/
theorem run_refines (h : Refines p m) {calls : List Call} (hstorable : ∀ call ∈ calls, call.IsStorable)
    (hput : ∀ e, .done (.error e) ∉ (run Persistent.respond p calls).1) :
    (run Persistent.respond p calls).1 = (run Memory.respond m calls).1.map Answer.floored := by
  induction calls generalizing p m with
  | nil => rfl
  | cons call calls ih =>
    simp only [run, List.mem_cons, not_or, List.map_cons] at hput ⊢
    obtain ⟨hanswer, hnext⟩ := h.respond (hstorable call List.mem_cons_self)
      fun e he => (hput e).1 he.symm
    rw [hanswer, ih hnext (fun other hother => hstorable other (List.mem_cons_of_mem _ hother))
      fun e => (hput e).2]

end MetaCache.Store
