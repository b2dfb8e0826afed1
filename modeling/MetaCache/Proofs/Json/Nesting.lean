import MetaCache.Proofs.Json.Schemas

/-!
# What was read nests within its levels

A reader that opens one container fewer with every level cannot end with data that nests deeper
than its levels (`ofSchema_yields`). So whatever a document held may be written again inside a
document with as many levels.
-/

namespace MetaCache.Json

open MetaCache.Text

variable {α β σ : Type}

/-- Whenever the reader ends well, `P` holds of what it ends with. -/
def Yields (r : Reader α) (P : α → Prop) : Prop :=
  ∀ (i : Input) (a : α) (rest : Input), r i = .done a rest → P a

namespace Yields

variable {P : α → Prop} {Q : β → Prop}

theorem trivial (r : Reader α) : Yields r fun _ => True := fun _ _ _ _ => True.intro

theorem pure {a : α} (h : P a) : Yields (Pure.pure a) P := by
  intro i b rest hdone
  cases hdone
  exact h

theorem bind {r : Reader α} {f : α → Reader β} (hr : Yields r P)
    (hf : ∀ a, P a → Yields (f a) Q) : Yields (r >>= f) Q := by
  intro i b rest hdone
  rw [Reader.bind_apply] at hdone
  split at hdone
  · next a rest' hread => exact hf a (hr _ _ _ hread) _ _ _ hdone
  · cases hdone

/-- Where nothing is known about what is read first. -/
theorem after (r : Reader α) {f : α → Reader β} (hf : ∀ a, Yields (f a) Q) :
    Yields (r >>= f) Q := (trivial r).bind fun a _ => hf a

theorem map {r : Reader α} {f : α → β} (hr : Yields r P) (h : ∀ a, P a → Q (f a)) :
    Yields (do return f (← r)) Q := hr.bind fun a ha => pure (h a ha)

theorem mismatch (what : Mismatch) : Yields (Reader.mismatch what) P :=
  fun _ _ _ hdone => by cases hdone

theorem failHere (what : Malformed) : Yields (Reader.failHere what) P :=
  fun _ _ _ hdone => by cases hdone

theorem failNext (what : Malformed) : Yields (Reader.failNext what) P := by
  intro i a rest hdone
  rw [Reader.failNext] at hdone
  split at hdone <;> cases hdone

theorem located {r : Reader α} (hr : Yields r P) : Yields (Reader.located r) P := by
  intro i a rest hdone
  rw [Reader.located] at hdone
  split at hdone
  · next hread =>
    cases hdone
    exact hr _ _ _ hread
  · cases hdone

theorem enclosed {inside : Reader α} {close : Reader Unit} (h : Yields inside P) :
    Yields (Reader.enclosed inside close) P := by
  intro i a rest hdone
  rw [Reader.enclosed] at hdone
  split at hdone
  · next hread =>
    split at hdone
    · cases hdone
      exact h _ _ _ hread
    · cases hdone
  · split at hdone <;> cases hdone

/-- A container is only entered while a level is left. -/
theorem opening {levels : Nat} {inside : Nat → Reader α}
    (h : ∀ l, levels = l + 1 → Yields (inside l) P) : Yields (Reader.opening levels inside) P := by
  cases levels with
  | zero => exact failNext _
  | succ l => exact after _ fun _ => h l rfl

theorem unexpected (expected : String) : Yields (Reader.unexpected (α := α) expected) P := by
  refine located (after _ fun b => ?_)
  split
  · exact failNext _
  · split; · exact after _ fun _ => after _ fun _ => mismatch _
    split; · exact after _ fun _ => after _ fun _ => mismatch _
    split; · exact after _ fun _ => after _ fun _ => mismatch _
    split; · exact after _ fun _ => after _ fun _ => mismatch _
    split; · exact after _ fun _ => mismatch _
    split; · exact after _ fun _ => after _ fun _ => mismatch _
    split; · exact mismatch _
    split; · exact mismatch _
    exact failNext _

/-! ## Loops -/

variable {I : σ → Prop}

theorem itemsWithin {step : σ → Reader σ} (hstep : ∀ s, I s → Yields (step s) I) {rounds : Nat}
    (first : Bool) {s : σ} (hs : I s) : Yields (Reader.itemsWithin step rounds first s) I := by
  induction rounds generalizing first s with
  | zero => exact pure hs
  | succ rounds ih =>
    refine after _ fun more => ?_
    cases more with
    | true => exact (hstep s hs).bind fun s hs => ih false hs
    | false => exact pure hs

/-- What every item keeps, the loop over items keeps. -/
theorem items {step : σ → Reader σ} (hstep : ∀ s, I s → Yields (step s) I) {s : σ} (hs : I s) :
    Yields (Reader.items step s) I :=
  fun _ _ _ hdone => itemsWithin hstep true hs _ _ _ hdone

theorem membersWithin {step : σ → String → Reader σ}
    (hstep : ∀ s name, I s → Yields (step s name) I) {rounds : Nat} (first : Bool) {s : σ}
    (hs : I s) : Yields (Reader.membersWithin step rounds first s) I := by
  induction rounds generalizing first s with
  | zero => exact pure hs
  | succ rounds ih =>
    refine after _ fun more => ?_
    cases more with
    | true =>
      exact after _ fun _ => after _ fun name => (hstep s name hs).bind fun s hs => ih false hs
    | false => exact pure hs

/-- What every member keeps, the loop over members keeps. -/
theorem members {step : σ → String → Reader σ}
    (hstep : ∀ s name, I s → Yields (step s name) I) {s : σ} (hs : I s) :
    Yields (Reader.members step s) I :=
  fun _ _ _ hdone => membersWithin hstep true hs _ _ _ hdone

theorem list {levels : Nat} {step : Nat → σ → Reader σ}
    (hstep : ∀ l, levels = l + 1 → ∀ s, I s → Yields (step l s) I) {s : σ} (hs : I s) :
    Yields (Reader.list levels step s) I :=
  located (opening fun l hl => enclosed (items (hstep l hl) hs))

theorem object {levels : Nat} {step : Nat → σ → String → Reader σ}
    (hstep : ∀ l, levels = l + 1 → ∀ s name, I s → Yields (step l s name) I) {s : σ} (hs : I s) :
    Yields (Reader.object levels step s) I :=
  located (opening fun l hl => enclosed (members (hstep l hl) hs))

end Yields

/-! ## Values -/

mutual
/-- The canonical form nests no deeper. -/
theorem depth_canonical_le : ∀ v : Value, v.canonical.depth ≤ v.depth
  | .null => Nat.le_refl _
  | .bool _ => Nat.le_refl _
  | .number _ => Nat.le_refl _
  | .string _ => Nat.le_refl _
  | .array items => Nat.succ_le_succ (itemsDepth_canonicalItems_le items)
  | .object members => by
    refine Nat.succ_le_succ (membersDepth_le_iff.2 fun m hm => ?_)
    exact membersDepth_le_iff.1 (membersDepth_canonicalMembers_le members) m (sortMembers_mem hm)

theorem itemsDepth_canonicalItems_le :
    ∀ items : List Value, itemsDepth (canonicalItems items) ≤ itemsDepth items
  | [] => Nat.le_refl _
  | item :: rest => by
    have h := depth_canonical_le item
    have hrest := itemsDepth_canonicalItems_le rest
    simp only [canonicalItems, itemsDepth]
    omega

theorem membersDepth_canonicalMembers_le :
    ∀ members : List (String × Value), membersDepth (canonicalMembers members) ≤ membersDepth members
  | [] => Nat.le_refl _
  | (_, value) :: rest => by
    have h := depth_canonical_le value
    have hrest := membersDepth_canonicalMembers_le rest
    simp only [canonicalMembers, membersDepth]
    omega
end

mutual
/-- The canonical form has no other numbers. -/
theorem isExact_canonical : ∀ v : Value, v.isExact → v.canonical.isExact
  | .null, h => h
  | .bool _, h => h
  | .number _, h => h
  | .string _, h => h
  | .array items, h => itemsExact_canonicalItems items h
  | .object members, h =>
    membersExact_iff.2 fun m hm =>
      membersExact_iff.1 (membersExact_canonicalMembers members h) m (sortMembers_mem hm)

theorem itemsExact_canonicalItems :
    ∀ items : List Value, itemsExact items → itemsExact (canonicalItems items)
  | [], h => h
  | item :: rest, h => by
    simp only [canonicalItems, itemsExact, Bool.and_eq_true] at h ⊢
    exact ⟨isExact_canonical item h.1, itemsExact_canonicalItems rest h.2⟩

theorem membersExact_canonicalMembers :
    ∀ members : List (String × Value), membersExact members → membersExact (canonicalMembers members)
  | [], h => h
  | (_, value) :: rest, h => by
    simp only [canonicalMembers, membersExact, Bool.and_eq_true] at h ⊢
    exact ⟨isExact_canonical value h.1, membersExact_canonicalMembers rest h.2⟩
end

namespace Reader

theorem scalar_yields {array object : Reader Value} {levels : Nat}
    (harray : Yields array fun v => v.depth ≤ levels)
    (hobject : Yields object fun v => v.depth ≤ levels) :
    Yields (value.scalar array object) fun v => v.depth ≤ levels := by
  refine .after _ fun b => ?_
  split
  · exact .failNext _
  · split; · exact .after _ fun _ => .after _ fun _ => .pure (Nat.zero_le _)
    split; · exact .after _ fun _ => .after _ fun _ => .pure (Nat.zero_le _)
    split; · exact .after _ fun _ => .after _ fun _ => .pure (Nat.zero_le _)
    split; · exact .after _ fun _ => .after _ fun _ => .pure (Nat.zero_le _)
    split; · exact .after _ fun _ => .pure (Nat.zero_le _)
    split; · exact .after _ fun _ => .after _ fun _ => .pure (Nat.zero_le _)
    split; · exact harray
    split; · exact hobject
    exact .failNext _

/-- **A value that was read nests within the levels it was read with.** -/
theorem value_yields (levels : Nat) : Yields (value levels) fun v => v.depth ≤ levels := by
  induction levels with
  | zero => exact scalar_yields (.failNext _) (.failNext _)
  | succ levels ih =>
    refine scalar_yields ?_ ?_
    · refine Yields.map (P := fun done : List Value => ∀ v ∈ done, v.depth ≤ levels)
        (.list (fun _ _ done hdone => ih.map fun v hv => ?_) (by simp)) fun done hdone => ?_
      · exact List.forall_mem_cons.2 ⟨hv, hdone⟩
      · exact Nat.succ_le_succ (itemsDepth_le_iff.2 fun v hv => hdone v (List.mem_reverse.1 hv))
    · refine Yields.map (P := fun done : List (String × Value) => ∀ m ∈ done, m.2.depth ≤ levels)
        (.object (fun _ _ done name hdone => .after _ fun _ => ih.map fun v hv => ?_) (by simp))
        fun done hdone => ?_
      · exact List.forall_mem_cons.2 ⟨hv, hdone⟩
      · exact Nat.succ_le_succ (membersDepth_le_iff.2 fun m hm => hdone m (List.mem_reverse.1 hm))

theorem within_ofMembers {levels : Nat} {members : List (String × Value)}
    (h : ∀ m ∈ members, m.2.depth ≤ levels) : (Object.ofMembers members).Within (levels + 1) :=
  Nat.le_trans (depth_canonical_le (.object members))
    (Nat.succ_le_succ (membersDepth_le_iff.2 h))

theorem anyMembers_yields (levels : Nat) : Yields (anyMembers levels) (Object.Within levels) := by
  refine .after _ fun b => ?_
  split
  · cases levels with
    | zero => exact .bind (P := fun _ => False) (.located (.failNext _)) fun _ h => h.elim
    | succ levels =>
      refine Yields.map (P := fun done : List (String × Value) => ∀ m ∈ done, m.2.depth ≤ levels)
        (.object (fun l hl done name hdone => .after _ fun _ => ?_) (by simp)) fun done hdone => ?_
      · cases hl
        exact (value_yields levels).map fun v hv => List.forall_mem_cons.2 ⟨hv, hdone⟩
      · exact within_ofMembers fun m hm => hdone m (List.mem_reverse.1 hm)
  · exact .unexpected _

end Reader

/-! ## Data -/

/-- Every content given so far nests. -/
def DraftNests (P : Nat → Object → Prop) (levels : Nat) : (fields : Fields) → fields.Draft → Prop
  | .nil, _ => True
  | .cons _ _ schema rest, (given, more) =>
    (∀ content ∈ given, schema.Nests P levels content) ∧ DraftNests P levels rest more

theorem draftNests_blank {P : Nat → Object → Prop} {levels : Nat} :
    ∀ fields : Fields, DraftNests P levels fields fields.blank
  | .nil => True.intro
  | .cons _ _ _ rest => ⟨fun _ h => absurd h (Option.not_mem_none _), draftNests_blank rest⟩

theorem nests_of_complete {P : Nat → Object → Prop} {levels : Nat} :
    ∀ {fields : Fields} {draft : fields.Draft} {contents : fields.Carrier},
      DraftNests P levels fields draft → fields.complete draft = .ok contents →
        fields.Nests P levels contents
  | .nil, _, _, _, _ => True.intro
  | .cons _ .required _ rest, (none, _), _, _, hdone => by cases hdone
  | .cons _ .required _ rest, (some content, more), contents, hdraft, hdone => by
    rw [Fields.complete] at hdone
    cases hmore : rest.complete more with
    | error what => simp [hmore, Except.map] at hdone
    | ok others =>
      simp only [hmore, Except.map, Except.ok.injEq] at hdone
      subst hdone
      exact ⟨hdraft.1 content rfl, nests_of_complete hdraft.2 hmore⟩
  | .cons _ .mayBeAbsent _ rest, (given, more), contents, hdraft, hdone => by
    rw [Fields.complete] at hdone
    cases hmore : rest.complete more with
    | error what => simp [hmore, Except.map] at hdone
    | ok others =>
      simp only [hmore, Except.map, Except.ok.injEq] at hdone
      subst hdone
      exact ⟨hdraft.1, nests_of_complete hdraft.2 hmore⟩

namespace Reader

mutual
/-- **Data that was read nests within the levels it was read with.** -/
theorem ofSchema_yields : ∀ (schema : Schema) (levels : Nat),
    Yields (ofSchema schema levels) (schema.Nests Object.Within levels)
  | .text _, _ => fun _ _ _ _ => True.intro
  | .flag, _ => fun _ _ _ _ => True.intro
  | .natural _, _ => fun _ _ _ _ => True.intro
  | .choice _, _ => fun _ _ _ _ => True.intro
  | .object, levels => anyMembers_yields levels
  | .optional content, levels => by
    refine .after _ fun b => ?_
    split
    · exact .after _ fun _ => .after _ fun _ => .pure fun _ h => absurd h (Option.not_mem_none _)
    · exact (ofSchema_yields content levels).map fun _ h a ha => Option.some.inj ha ▸ h
  | .list item, levels => by
    refine .after _ fun b => ?_
    split
    · cases levels with
      | zero => exact .bind (P := fun _ => False) (.located (.failNext _)) fun _ h => h.elim
      | succ levels =>
        refine Yields.map (P := fun done : List item.Carrier =>
            ∀ a ∈ done, item.Nests Object.Within levels a)
          (.list (fun l hl done hdone => ?_) (by simp))
          fun done hdone a ha => hdone a (List.mem_reverse.1 ha)
        cases hl
        exact (ofSchema_yields item levels).map fun a ha => List.forall_mem_cons.2 ⟨ha, hdone⟩
    · exact .unexpected _
  | .record name strict fields, levels => by
    refine .after _ fun b => ?_
    split
    · refine .located (.opening fun l hl => .enclosed ?_)
      cases hl
      exact inOrder_yields fields _ l 0
    · split
      · refine .located (.opening fun l hl => .enclosed ?_)
        cases hl
        refine .bind (.members (I := DraftNests Object.Within l fields) (fun draft key hdraft => ?_)
          (draftNests_blank fields)) fun draft hdraft => ?_
        · split
          · next read hread => exact byName_yields fields l key draft hdraft read hread
          · split
            · exact .mismatch _
            · exact .after _ fun _ => .after _ fun _ => .pure hdraft
        · split
          · next contents hcontents => exact .pure (nests_of_complete hdraft hcontents)
          · exact .mismatch _
      · exact .unexpected _

theorem byName_yields : ∀ (fields : Fields) (levels : Nat) (key : String) (draft : fields.Draft),
    DraftNests Object.Within levels fields draft →
      ∀ read, byName fields levels key draft = some read →
        Yields read (DraftNests Object.Within levels fields)
  | .nil, _, _, _, _, _, hread => by cases hread
  | .cons name _ schema rest, levels, key, (given, more), hdraft, read, hread => by
    rw [byName] at hread
    split at hread
    · cases hread
      split
      · exact .mismatch _
      · refine .after _ fun _ => (ofSchema_yields schema levels).map fun content hcontent => ?_
        exact ⟨fun c hc => Option.some.inj hc ▸ hcontent, hdraft.2⟩
    · cases hmore : byName rest levels key more with
      | none => simp [hmore] at hread
      | some readMore =>
        simp only [hmore, Option.map_some, Option.some.injEq] at hread
        subst hread
        exact (byName_yields rest levels key more hdraft.2 readMore hmore).map
          fun _ h => ⟨hdraft.1, h⟩

theorem inOrder_yields : ∀ (fields : Fields) (expected : String) (levels index : Nat),
    Yields (inOrder fields expected levels index) (fields.Nests Object.Within levels)
  | .nil, _, _, _ => .pure True.intro
  | .cons _ .required schema rest, expected, levels, index => by
    refine .after _ fun more => ?_
    split
    · refine (ofSchema_yields schema levels).bind fun content hcontent => ?_
      exact (inOrder_yields rest expected levels (index + 1)).map fun _ h => ⟨hcontent, h⟩
    · exact .mismatch _
  | .cons _ .mayBeAbsent schema rest, expected, levels, index => by
    refine .after _ fun more => ?_
    split
    · refine (ofSchema_yields schema levels).bind fun content hcontent => ?_
      exact (inOrder_yields rest expected levels (index + 1)).map
        fun _ h => ⟨fun c hc => Option.some.inj hc ▸ hcontent, h⟩
    · exact (inOrder_yields rest expected levels (index + 1)).map
        fun _ h => ⟨fun _ h => absurd h (Option.not_mem_none _), h⟩
end

end Reader

/-- **What a document held nests as deep as documents may.** -/
theorem nests_of_decode {schema : Schema} {bytes : List UInt8} {data : schema.Carrier}
    (h : decode schema bytes = .ok data) : schema.Nests Object.Within nestingLimit data := by
  have hyields : Yields (do
      let a ← Reader.ofSchema schema nestingLimit
      Reader.finish
      return a) (schema.Nests Object.Within nestingLimit) :=
    (Reader.ofSchema_yields schema nestingLimit).bind fun _ ha => .after _ fun _ => .pure ha
  rw [decode, readDocument] at h
  split at h
  · next hdone =>
    cases h
    exact hyields _ _ _ hdone
  · cases h

end MetaCache.Json
