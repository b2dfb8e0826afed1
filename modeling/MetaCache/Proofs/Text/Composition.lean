import MetaCache.Text.Composition
import Mathlib.Data.List.Induction

/-!
# The characters of the composed form

A character before the marks is not composed of others, does not change places with marks, and is
not united with a letter before it. At the end of a text there is no mark behind it either, so it is
still the last character of the composed form (`composed_append`), and a text in ASCII is its own
composed form (`composed_of_forall`).

The composed form of any text has no other characters than parts of those in the text, and what
parts are united to (`composed_forall`).
-/

namespace MetaCache.Text

theorem parts_of_lt {n : Nat} (h : n < 0x80) : parts n = [n] := by
  unfold parts
  rw [if_pos h]

/-- What is no mark goes to the end. -/
theorem settle_of_lt {n : Nat} (h : n < 0x300) (text : List Nat) : settle n text = n :: text := by
  cases text with
  | nil => rfl
  | cons m rest =>
    unfold settle
    rw [if_neg (by simp [combiningClass_eq_zero h])]

theorem ordered_append {n : Nat} (h : n < 0x300) (text : List Nat) :
    ordered (text ++ [n]) = ordered text ++ [n] := by
  unfold ordered
  rw [List.foldl_append, List.foldl_cons, List.foldl_nil, settle_of_lt h, List.reverse_cons]

/-- What is no mark is not united with anything before it. -/
theorem Composing.step_of_lt {n : Nat} (h : n < 0x300) (t : Composing) :
    t.step n = ⟨t.reversed, some n, []⟩ := by
  have hadd : t.add n = ⟨t.reversed, some n, []⟩ := by
    unfold add
    rw [if_pos (combiningClass_eq_zero h)]
  have hunite (letter : Nat) : unite? letter n = none := by
    unfold unite?
    rw [if_pos h]
  unfold step
  split
  · rw [hunite, ← hadd]
    split <;> rfl
  · exact hadd

theorem compose_append {n : Nat} (h : n < 0x300) (text : List Nat) :
    compose (text ++ [n]) = compose text ++ [n] := by
  unfold compose
  rw [List.foldl_append, List.foldl_cons, List.foldl_nil, Composing.step_of_lt h]
  simp [Composing.reversed]

/-- **A character of ASCII at the end stays at the end.** -/
theorem composed_append {n : Nat} (h : n < 0x80) (text : List Nat) :
    composed (text ++ [n]) = composed text ++ [n] := by
  have hlow : n < 0x300 := Nat.lt_trans h (by decide)
  unfold composed
  rw [List.flatMap_append, List.flatMap_singleton, parts_of_lt h, ordered_append hlow,
    compose_append hlow]

theorem composed_of_forall {text : List Nat} (h : ∀ n ∈ text, n < 0x80) : composed text = text := by
  induction text using List.reverseRecOn with
  | nil => rfl
  | append_singleton text n ih =>
    rw [composed_append (h n (by simp)), ih fun m hm => h m (List.mem_append_left _ hm)]

/-! ## Where characters come from -/

/-- Settling loses nothing and adds nothing. -/
theorem settle_perm (n : Nat) (text : List Nat) : (settle n text).Perm (n :: text) := by
  induction text with
  | nil => exact .refl _
  | cons m rest ih =>
    unfold settle
    split
    · exact (ih.cons m).trans (.swap n m rest)
    · exact .refl _

theorem ordered_perm (text : List Nat) : (ordered text).Perm text := by
  have hfold (done : List Nat) :
      (text.foldl (fun done n => settle n done) done).Perm (text.reverse ++ done) := by
    induction text generalizing done with
    | nil => exact .refl _
    | cons n text ih =>
      rw [List.foldl_cons, List.reverse_cons, List.append_assoc, List.singleton_append]
      exact (ih _).trans ((settle_perm n done).append_left _)
  unfold ordered
  exact (List.reverse_perm _).trans ((hfold []).trans (by simp))

namespace Composing

variable {P : Nat → Prop}

theorem mem_add {t : Composing} {n m : Nat} (h : m ∈ (t.add n).reversed) :
    m = n ∨ m ∈ t.reversed := by
  unfold add at h
  split at h <;> simpa [reversed] using h

theorem step_forall (hunite : ∀ {a b both}, unite? a b = some both → P both) {t : Composing}
    {n : Nat} (ht : ∀ m ∈ t.reversed, P m) (hn : P n) : ∀ m ∈ (t.step n).reversed, P m := by
  have hadd : ∀ m ∈ (t.add n).reversed, P m := by
    intro m hm
    rcases mem_add hm with rfl | hm
    · exact hn
    · exact ht m hm
  unfold step
  split
  · next letter hletter =>
    split
    · split
      · next both hboth =>
        intro m hm
        simp only [reversed, List.mem_append, Option.mem_toList, Option.some.injEq] at hm
        rcases hm with (hm | rfl) | hm
        · exact ht m (by simp [reversed, hm])
        · exact hunite hboth
        · exact ht m (by simp [reversed, hm])
      · exact hadd
    · exact hadd
  · exact hadd

end Composing

/-- **A composed text has what parts of its characters have, and what parts are united to.** -/
theorem composed_forall {P : Nat → Prop} (hunite : ∀ {a b both}, unite? a b = some both → P both)
    {text : List Nat} (h : ∀ n ∈ text, ∀ m ∈ parts n, P m) : ∀ m ∈ composed text, P m := by
  have hfold {ordered : List Nat} (hordered : ∀ n ∈ ordered, P n) {t : Composing}
      (ht : ∀ m ∈ t.reversed, P m) : ∀ m ∈ (ordered.foldl Composing.step t).reversed, P m := by
    induction ordered generalizing t with
    | nil => exact ht
    | cons n ordered ih =>
      rw [List.foldl_cons]
      exact ih (fun m hm => hordered m (List.mem_cons_of_mem _ hm))
        (Composing.step_forall hunite ht (hordered n List.mem_cons_self))
  intro m hm
  refine hfold (fun n hn => ?_) (fun m hm => ?_) m (List.mem_reverse.1 hm)
  · obtain ⟨whole, hwhole, hn⟩ := List.mem_flatMap.1 ((ordered_perm _).mem_iff.1 hn)
    exact h whole hwhole n hn
  · simp [Composing.reversed] at hm

end MetaCache.Text
