import MetaCache.Proofs.Cache.Substitution

/-!
# Preloading does what resolving does

All apps can be preloaded at once, or resolved one by one in the order in which they are listed. The
two go different ways about an app, which is stored as it is listed in one case and looked up in the
other. But what a store in memory has after either depends only on which keys have been tried
(`Holds`). So the two are compared step by step: from stores that have had the same keys tried, they
go on to stores that have had the same keys tried, with results that fit together (`Alike`).
-/

namespace MetaCache.Cache

open MetaCache.Remote MetaCache.Store

variable {c : Cache} {f : Fetcher} {w w' : World} {s s' : State}

/-! ## Stores by the keys that were tried -/

/-- A store in memory has what the API tells about some keys, and nothing else. Expiries do not
count. -/
structure Holds (c : Cache) (f : Fetcher) (keys : List Key) (s : State) : Prop where
  choice : s.backend.choice = .memory
  answer : ∀ key, (s.backend.answer key).map (Option.map Record.timeless)
    = .ok (if key ∈ keys then (c.told f key).toOption else none)

namespace Holds

variable {keys : List Key}

theorem empty (c : Cache) (f : Fetcher) (hs : s.backend = .memory .empty) : Holds c f [] s where
  choice := by
    rw [hs]
    rfl
  answer key := by
    rw [hs]
    rfl

/-- The same keys have been tried. -/
theorem congr {keys' : List Key} (h : Holds c f keys s) (hkeys : ∀ key, key ∈ keys' ↔ key ∈ keys) :
    Holds c f keys' s where
  choice := h.choice
  answer key := by simp only [h.answer key, hkeys key]

theorem looked (h : Holds c f keys s) (key : Key) : Holds c f keys (s.looked key) where
  choice := (Backend.choice_get ..).trans h.choice
  answer other := by
    rw [← h.answer other]
    exact congrArg _ (s.backend.answer_get key other)

theorem later (h : Holds c f keys s) : Holds c f keys s.later := ⟨h.choice, h.answer⟩

theorem fetched (h : Holds c f keys s) (paths : List String) : Holds c f keys (s.fetched paths) :=
  ⟨h.choice, h.answer⟩

/-- What is found is what the API tells. -/
theorem told_of_answer (h : Holds c f keys s) {key : Key} {r : Record}
    (hr : s.backend.answer key = .ok (some r)) : key ∈ keys ∧ c.told f key = .ok r.timeless := by
  have hanswer := h.answer key
  rw [hr] at hanswer
  split at hanswer
  · next hkey =>
    refine ⟨hkey, ?_⟩
    cases htold : c.told f key with
    | error e => rw [htold] at hanswer; cases hanswer
    | ok told =>
      rw [htold] at hanswer
      exact congrArg Except.ok (Option.some.inj (Except.ok.inj hanswer)).symm
  · cases hanswer

/-- Trying a key about which the API tells what is there already changes nothing. -/
theorem tried (h : Holds c f keys s) {key : Key}
    (hkey : (s.backend.answer key).map (Option.map Record.timeless)
      = .ok (c.told f key).toOption) : Holds c f (key :: keys) s where
  choice := h.choice
  answer other := by
    by_cases hother : other = key
    · subst hother
      rw [hkey, if_pos List.mem_cons_self]
    · rw [h.answer other]
      simp only [List.mem_cons, hother, false_or]

/-- A record that is stored under a key counts as tried if it is what the API tells. -/
theorem stored (h : Holds c f keys s) {key : Key} {r : Record}
    (hr : (f.one key.kind key.guid).answer = .ok r) :
    Holds c f (key :: keys) (s.stored c w key r) where
  choice := (Backend.choice_put ..).trans h.choice
  answer other := by
    have hanswer := (Backend.put_of_memory h.choice key
      (c.normalizer.normalize key.kind r (w s.elapsed).now (w s.elapsed).draw)).2 other
    show ((s.backend.put key _).2.answer other).map _ = _
    rw [hanswer]
    by_cases hother : other = key
    · subst hother
      rw [if_pos rfl, if_pos List.mem_cons_self, told, hr]
      exact congrArg (fun told => Except.ok (some told)) (c.normalizer.timeless_normalize ..)
    · rw [if_neg hother, h.answer other]
      simp only [List.mem_cons, hother, false_or]

/-- The store is none that could refuse anything. -/
theorem accepted (h : Holds c f keys s) (s' : State) : Accepted s s' := fun hpersistent => by
  rw [h.choice] at hpersistent
  cases hpersistent

theorem refresh (h : Holds c f keys s) (hw : ∀ n, (w n).fetcher = f) {key : Key}
    (hknown : key.kind = .app → ∃ r, (f.one key.kind key.guid).answer = .ok r) :
    Holds c f (key :: keys) (c.refresh key w s).2 := by
  rw [refresh_apply, hw]
  cases hanswer : (f.one key.kind key.guid).answer with
  | ok r =>
    simp only [store_apply]
    exact (h.fetched _).stored hanswer
  | error e =>
    have hkind : key.kind ≠ .app := fun happ => by
      obtain ⟨r, hr⟩ := hknown happ
      rw [hanswer] at hr
      cases hr
    have htold : c.told f key = .error e := by rw [told, hanswer]; rfl
    simp only [hkind, decide_false, Bool.false_and, Bool.false_eq_true, if_false]
    refine (h.fetched _).tried ?_
    -- Nothing can be under the key, because the API has never told anything about it.
    show (s.backend.answer key).map _ = _
    rw [h.answer key, htold]
    simp only [Except.toOption, ite_self]

/-- **A lookup tries its key**, and is answered as the API tells, unless it is for an app that the
API does not know. -/
theorem getEntity (h : Holds c f keys s) (hw : ∀ n, (w n).fetcher = f) {kind : Kind} {raw : String}
    {key : Key} (hkey : Key.parse kind raw = .ok key)
    (hknown : key.kind = .app → ∃ r, (f.one key.kind key.guid).answer = .ok r) :
    Holds c f (key :: keys) (c.getEntity kind raw w s).2
      ∧ (c.getEntity kind raw w s).1.map Record.timeless = c.told f key := by
  rw [getEntity_apply hkey]
  have hlooked := h.looked key
  split
  · next e hanswer =>
    have hfound := h.answer key
    rw [hanswer] at hfound
    cases hfound
  · exact ⟨hlooked.refresh hw hknown, refresh_told hw (hlooked.accepted _)⟩
  · next r hanswer =>
    obtain ⟨hmem, htold⟩ := h.told_of_answer hanswer
    split
    · -- A record that is served from the store had its key tried before.
      refine ⟨hlooked.later.congr fun other => ?_, htold.symm⟩
      rw [List.mem_cons, or_iff_right_of_imp (fun hother => hother ▸ hmem)]
    · exact ⟨hlooked.later.refresh hw hknown, refresh_told hw (hlooked.later.accepted _)⟩

end Holds

/-! ## Actions that fit together -/

/-- Two results fit together: both are errors, and the same ones, or neither is one. -/
inductive Fits {α β : Type} (R : α → β → Prop) : Except Error α → Except Error β → Prop
  | ok {a : α} {b : β} (related : R a b) : Fits R (.ok a) (.ok b)
  | error (e : Error) : Fits R (.error e) (.error e)

theorem fits_of_map {x : Except Error Record} {y : Except Error Record}
    (h : x.map Record.timeless = y.map Record.timeless) :
    Fits (fun r r' => r.timeless = r'.timeless) x y := by
  cases x with
  | ok r =>
    cases y with
    | ok r' => exact .ok (Except.ok.inj h)
    | error e => cases h
  | error e =>
    cases y with
    | ok r' => cases h
    | error e' =>
      cases h
      exact .error e

theorem Fits.map_eq {α : Type} {R : α → Unit → Prop} {x : Except Error α} {y : Except Error Unit}
    (h : Fits R x y) : x.map (fun _ => ()) = y := by
  cases h with
  | ok _ => rfl
  | error e => rfl

/-- From stores that have had the same keys tried, two actions go on to such stores again, with
results that fit together. -/
def Alike {α β : Type} (c : Cache) (f : Fetcher) (w w' : World) (R : α → β → Prop) (x : Action α)
    (y : Action β) : Prop :=
  ∀ keys s s', Holds c f keys s → Holds c f keys s' →
    ∃ more, Holds c f more (x w s).2 ∧ Holds c f more (y w' s').2 ∧ Fits R (x w s).1 (y w' s').1

namespace Alike

variable {α β γ δ : Type} {R : α → β → Prop} {R' : γ → δ → Prop}

theorem pure {a : α} {b : β} (h : R a b) : Alike c f w w' R (pure a) (pure b) :=
  fun keys _ _ hs hs' => ⟨keys, hs, hs', .ok h⟩

theorem fail (e : Error) : Alike c f w w' R (Action.fail e) (Action.fail e) :=
  fun keys _ _ hs hs' => ⟨keys, hs, hs', .error e⟩

theorem bind {x : Action α} {y : Action β} {g : α → Action γ} {h : β → Action δ}
    (hfirst : Alike c f w w' R x y) (hrest : ∀ a b, R a b → Alike c f w w' R' (g a) (h b)) :
    Alike c f w w' R' (x >>= g) (y >>= h) := by
  intro keys s s' hs hs'
  obtain ⟨more, hx, hy, hfits⟩ := hfirst keys s s' hs hs'
  cases hxdone : x w s with
  | mk result s₁ =>
    cases hydone : y w' s' with
    | mk result' s₁' =>
      rw [hxdone] at hx hfits
      rw [hydone] at hy hfits
      cases hfits with
      | ok related =>
        rw [Action.bind_ok hxdone, Action.bind_ok hydone]
        exact hrest _ _ related more s₁ s₁' hx hy
      | error e =>
        rw [Action.bind_error hxdone, Action.bind_error hydone]
        exact ⟨more, hx, hy, .error e⟩

/-- An error is a result like any other to what goes on after it. -/
theorem attempt {x : Action α} {y : Action β} (h : Alike c f w w' R x y) :
    Alike c f w w' (Fits R) (Action.attempt x) (Action.attempt y) := by
  intro keys s s' hs hs'
  obtain ⟨more, hx, hy, hfits⟩ := h keys s s' hs hs'
  exact ⟨more, hx, hy, .ok hfits⟩

end Alike

/-- Lookups of the same entity are alike, unless it is an app that the API does not know. -/
theorem alike_getEntity (hw : ∀ n, (w n).fetcher = f) (hw' : ∀ n, (w' n).fetcher = f) {kind : Kind}
    (hkind : kind ≠ .app) (raw : String) :
    Alike c f w w' (fun r r' => r.timeless = r'.timeless) (c.getEntity kind raw)
      (c.getEntity kind raw) := by
  intro keys s s' hs hs'
  cases hkey : Key.parse kind raw with
  | error e =>
    rw [getEntity_of_invalid hkey, getEntity_of_invalid hkey]
    exact ⟨keys, hs, hs', .error e⟩
  | ok key =>
    have hknown (happ : key.kind = .app) : ∃ r, (f.one key.kind key.guid).answer = .ok r := by
      obtain ⟨guid, -, rfl⟩ := Key.parse_ok hkey
      exact absurd happ hkind
    obtain ⟨hholds, htold⟩ := hs.getEntity hw hkey hknown
    obtain ⟨hholds', htold'⟩ := hs'.getEntity hw' hkey hknown
    exact ⟨key :: keys, hholds, hholds', fits_of_map (htold.trans htold'.symm)⟩

/-- An app that is stored as it is listed, and one that is looked up. -/
theorem alike_store (hw' : ∀ n, (w' n).fetcher = f) {raw : String} {key : Key}
    (hkey : Key.parse .app raw = .ok key) {r : Record}
    (hr : (f.one key.kind key.guid).answer = .ok r) :
    Alike c f w w' (fun r r' => r.timeless = r'.timeless) (c.store key r) (c.hop .app raw) := by
  intro keys s s' hs hs'
  have htold : c.told f key = .ok (c.normalizer.normalize key.kind r .epoch 0).timeless := by
    rw [told, hr]
    rfl
  have hstore : (c.store key r w s).1 = .ok (c.normalizer.normalize key.kind r (w s.elapsed).now
      (w s.elapsed).draw) := store_ok (hs.accepted _)
  obtain ⟨hholds', htold'⟩ := hs'.getEntity (c := c) hw' hkey fun _ => ⟨r, hr⟩
  refine ⟨key :: keys, ?_, by rw [hop_apply]; exact hholds', ?_⟩
  · rw [store_apply]
    exact hs.stored hr
  · rw [hstore, hop_apply]
    rw [htold] at htold'
    cases hfound : (c.getEntity .app raw w' s').1 with
    | error e => rw [hfound] at htold'; cases htold'
    | ok found =>
      rw [hfound] at htold'
      exact .ok ((c.normalizer.timeless_normalize ..).trans (Except.ok.inj htold').symm)

theorem alike_countOrganization (hw : ∀ n, (w n).fetcher = f) (hw' : ∀ n, (w' n).fetcher = f)
    {space space' : Record} (hspace : space.timeless = space'.timeless) (report : FillReport)
    (finish : Record → App) :
    Alike c f w w' (fun _ _ => True) (c.countOrganization space report)
      (c.hop .organization space'.organizationGuid >>= fun organization =>
        pure (finish organization)) := by
  have hguid : space.organizationGuid = space'.organizationGuid :=
    (congrArg Record.organizationGuid hspace :)
  unfold countOrganization hop
  rw [Action.bind_assoc, hguid]
  refine (alike_getEntity hw hw' (by decide) _).attempt.bind fun result result' hfits => ?_
  cases hfits with
  | ok _ => exact .pure True.intro
  | error e =>
    simp only
    split
    · exact .pure True.intro
    · exact .fail e

/-- **A listed app is preloaded as it is resolved.** -/
theorem alike_preload (hf : f.IsConsistent) (hw : ∀ n, (w n).fetcher = f)
    (hw' : ∀ n, (w' n).fetcher = f) {found : List (String × Record)}
    (hfound : (f.all .app).answer = .ok found) {listed : String × Record} (hlisted : listed ∈ found)
    (report : FillReport) :
    Alike c f w w' (fun _ _ => True) (c.preload report listed) (c.resolveApp listed.1) := by
  obtain ⟨raw, r⟩ := listed
  intro keys s s' hs hs'
  cases hguid : Guid.canonicalize raw with
  | error e =>
    have hkey : Key.parse .app raw = .error e := Key.parse_of_error hguid .app
    unfold preload resolveApp
    rw [hkey, hguid]
    exact ⟨keys, hs, hs', .error e⟩
  | ok guid =>
    have hkey : Key.parse .app raw = .ok ⟨.app, guid⟩ := Key.parse_of_ok hguid .app
    rw [resolveApp_apply hguid]
    unfold preload
    rw [Action.ofExcept_bind_ok hkey]
    -- The app is stored on one side and looked up on the other; from there on both do the same.
    refine Alike.bind (alike_store hw' hkey (hf hfound hlisted hguid)) ?_ keys s s' hs hs'
    intro app app' happ
    have hspaceGuid : app.spaceGuid = app'.spaceGuid := (congrArg Record.spaceGuid happ :)
    unfold hop
    rw [Action.bind_assoc, hspaceGuid]
    refine (alike_getEntity hw hw' (by decide) _).attempt.bind fun result result' hfits => ?_
    cases hfits with
    | ok hspace => exact alike_countOrganization hw hw' hspace _ _
    | error e =>
      simp only
      split
      · exact (Alike.pure (R := fun spaced space => spaced.1.timeless = space.timeless) rfl).bind
          fun _ _ hspace => alike_countOrganization hw hw' hspace _ _
      · exact .fail e

/-! ## All apps -/

/-- Resolves apps in order, and stops at the first one that fails. -/
def resolveAll (c : Cache) : List String → Action Unit
  | [] => pure ()
  | raw :: raws => do
    let _ ← c.resolveApp raw
    c.resolveAll raws

theorem alike_preloads (hf : f.IsConsistent) (hw : ∀ n, (w n).fetcher = f)
    (hw' : ∀ n, (w' n).fetcher = f) {found : List (String × Record)}
    (hfound : (f.all .app).answer = .ok found) {rest : List (String × Record)}
    (hrest : rest ⊆ found) (report : FillReport) :
    Alike c f w w' (fun _ _ => True) (rest.foldlM c.preload report)
      (c.resolveAll (rest.map Prod.fst)) := by
  induction rest generalizing report with
  | nil => exact .pure True.intro
  | cons listed rest ih =>
    rw [List.foldlM_cons]
    exact (alike_preload hf hw hw' hfound (hrest List.mem_cons_self) report).bind fun report _ _ =>
      ih (List.Subset.trans (List.subset_cons_self ..) hrest) report

end MetaCache.Cache
