import MetaCache.Remote.Fetcher

/-!
# A fetcher depends on what it asks for

The paths that a fetcher says it has asked for are all that it has asked for: where two transports
answer the same for them, the replies are the same (`fetchOne_congr`, `fetchAll_congr`). This holds
although the transports may name different cursors for other paths, and so may allow lists of
different lengths. Neither limit is ever reached: with the first path and all cursors behind, any
further path is a repetition (`Enough`).
-/

namespace MetaCache.Remote

theorem cursorOf_of_pageOf {path : String} {answer : Except Error Response} {page : Page}
    (h : pageOf path answer = .ok page) : cursorOf answer = page.next := by
  unfold pageOf at h
  cases answer with
  | error e => cases h
  | ok response =>
    simp only at h
    by_cases hsuccess : response.isSuccess
    · rw [if_pos hsuccess] at h
      cases hread : readPage response.body with
      | ok found =>
        rw [hread] at h
        cases h
        simp [cursorOf, hsuccess, hread]
      | error fault => rw [hread] at h; cases h
    · rw [if_neg hsuccess] at h
      cases h

namespace Transport

variable {t t' : Transport} {first path : String} {asked : List String}
  {found : List (String × Record)} {pages pages' : Nat}

/-- There are pages enough for all paths that can come. -/
structure Enough (t : Transport) (first : String) (pages : Nat) (asked : List String)
    (path : String) : Prop where
  nodup : asked.Nodup
  behind : ∀ p ∈ asked, p ∈ first :: t.cursors
  ahead : path ∈ first :: t.cursors
  enough : t.cursors.length + 1 ≤ asked.length + pages

theorem enough_start (t : Transport) (first : String) :
    Enough t first (t.cursors.length + 1) [] first :=
  ⟨.nil, by simp, List.mem_cons_self, by simp⟩

/-- When no page is left, there is no path that has not been asked for. -/
theorem Enough.mem_of_zero (h : Enough t first 0 asked path) : path ∈ asked := by
  refine Decidable.byContradiction fun hnot => ?_
  have hsubset : path :: asked ⊆ first :: t.cursors := List.cons_subset.2 ⟨h.ahead, h.behind⟩
  have hlength := (List.nodup_cons.2 ⟨hnot, h.nodup⟩).length_le_of_subset hsubset
  have henough := h.enough
  simp only [List.length_cons] at hlength
  omega

theorem Enough.next (h : Enough t first (pages + 1) asked path) (hnot : path ∉ asked) {page : Page}
    (hpage : pageOf path (t.answer path) = .ok page) {next : String} (hnext : page.next = some next) :
    Enough t first pages (asked ++ [path]) next where
  nodup := List.nodup_append.2 ⟨h.nodup, by simp, by rintro a ha b hb rfl; simp_all⟩
  behind := by
    intro p hp
    rcases List.mem_append.1 hp with hp | hp
    · exact h.behind p hp
    · rw [List.mem_singleton.1 hp]
      exact h.ahead
  ahead := List.mem_cons_of_mem _ (t.cursorOf_mem ((cursorOf_of_pageOf hpage).trans hnext))
  enough := by
    have := h.enough
    simp only [List.length_append, List.length_singleton]
    omega

theorem follow_of_mem (h : path ∈ asked) (t : Transport) (pages : Nat)
    (found : List (String × Record)) :
    t.follow pages asked found path = ⟨.error (repeated path), asked⟩ := by
  cases pages with
  | zero => rfl
  | succ pages => rw [follow, if_pos h]

theorem follow_of_error {e : Error} (hnot : path ∉ asked)
    (hpage : pageOf path (t.answer path) = .error e) :
    t.follow (pages + 1) asked found path = ⟨.error e, asked ++ [path]⟩ := by
  rw [follow, if_neg hnot, hpage]

theorem follow_of_last {page : Page} (hnot : path ∉ asked)
    (hpage : pageOf path (t.answer path) = .ok page) (hnext : page.next = none) :
    t.follow (pages + 1) asked found path = ⟨.ok (found ++ page.listing), asked ++ [path]⟩ := by
  rw [follow, if_neg hnot, hpage]
  simp only [hnext]

theorem follow_of_next {page : Page} {next : String} (hnot : path ∉ asked)
    (hpage : pageOf path (t.answer path) = .ok page) (hnext : page.next = some next) :
    t.follow (pages + 1) asked found path
      = t.follow pages (asked ++ [path]) (found ++ page.listing) next := by
  rw [follow, if_neg hnot, hpage]
  simp only [hnext]

/-- What was asked for stays so, and all else comes behind it. -/
theorem asked_prefix_follow (t : Transport) (pages : Nat) (asked : List String)
    (found : List (String × Record)) (path : String) :
    asked <+: (t.follow pages asked found path).asked := by
  induction pages generalizing asked found path with
  | zero => exact List.prefix_rfl
  | succ pages ih =>
    by_cases hmem : path ∈ asked
    · have hsame : (t.follow (pages + 1) asked found path).asked = asked :=
        congrArg Reply.asked (follow_of_mem hmem t _ found)
      exact hsame.symm ▸ List.prefix_rfl
    · have happend : asked <+: asked ++ [path] := List.prefix_append ..
      cases hpage : pageOf path (t.answer path) with
      | error e =>
        rw [follow_of_error hmem hpage]
        exact happend
      | ok page =>
        cases hnext : page.next with
        | none =>
          rw [follow_of_last hmem hpage hnext]
          exact happend
        | some next =>
          rw [follow_of_next hmem hpage hnext]
          exact happend.trans (ih ..)

theorem asked_subset_follow (t : Transport) (pages : Nat) (asked : List String)
    (found : List (String × Record)) (path : String) :
    asked ⊆ (t.follow pages asked found path).asked :=
  (t.asked_prefix_follow pages asked found path).subset

theorem mem_asked_follow (h : Enough t first pages asked path) (found : List (String × Record)) :
    path ∈ (t.follow pages asked found path).asked := by
  by_cases hmem : path ∈ asked
  · exact t.asked_subset_follow pages asked found path hmem
  · cases pages with
    | zero => exact absurd h.mem_of_zero hmem
    | succ pages =>
      have hlast : path ∈ asked ++ [path] := by simp
      cases hpage : pageOf path (t.answer path) with
      | error e => rwa [follow_of_error hmem hpage]
      | ok page =>
        cases hnext : page.next with
        | none => rwa [follow_of_last hmem hpage hnext]
        | some next =>
          rw [follow_of_next hmem hpage hnext]
          exact t.asked_subset_follow _ _ _ _ hlast

/-- **A list depends on the answers to the paths that were asked for.** -/
theorem follow_congr (h : Enough t first pages asked path) (h' : Enough t' first pages' asked path)
    (hagree : ∀ p ∈ (t.follow pages asked found path).asked, t'.answer p = t.answer p) :
    t'.follow pages' asked found path = t.follow pages asked found path := by
  induction pages generalizing pages' asked found path with
  | zero => rw [follow_of_mem h.mem_of_zero, follow_of_mem h.mem_of_zero]
  | succ pages ih =>
    by_cases hmem : path ∈ asked
    · rw [follow_of_mem hmem, follow_of_mem hmem]
    · have hanswer := hagree path (mem_asked_follow h found)
      cases pages' with
      | zero => exact absurd h'.mem_of_zero hmem
      | succ pages' =>
        cases hpage : pageOf path (t.answer path) with
        | error e =>
          rw [follow_of_error hmem hpage, follow_of_error hmem (by rw [hanswer, hpage])]
        | ok page =>
          have hpage' : pageOf path (t'.answer path) = .ok page := by rw [hanswer, hpage]
          cases hnext : page.next with
          | none => rw [follow_of_last hmem hpage hnext, follow_of_last hmem hpage' hnext]
          | some next =>
            rw [follow_of_next hmem hpage hnext] at hagree ⊢
            rw [follow_of_next hmem hpage' hnext]
            exact ih (h.next hmem hpage hnext) (h'.next hmem hpage' hnext) hagree

theorem fetchAll_congr {kind : Kind}
    (h : ∀ p ∈ (t.fetchAll kind).asked, t'.answer p = t.answer p) :
    t'.fetchAll kind = t.fetchAll kind :=
  follow_congr (enough_start t _) (enough_start t' _) h

theorem fetchOne_congr {kind : Kind} {guid : Guid}
    (h : ∀ p ∈ (t.fetchOne kind guid).asked, t'.answer p = t.answer p) :
    t'.fetchOne kind guid = t.fetchOne kind guid := by
  have hanswer := h (entityPath kind guid.text) (by simp [fetchOne])
  simp only [fetchOne, hanswer]

end Transport

/-- Two fetchers reply the same where one of them has asked for nothing but some paths. -/
structure Fetcher.AgreesOn (f f' : Fetcher) (paths : List String) : Prop where
  one : ∀ {kind guid}, (f.one kind guid).asked ⊆ paths → f'.one kind guid = f.one kind guid
  all : ∀ {kind}, (f.all kind).asked ⊆ paths → f'.all kind = f.all kind

/-- **A fetcher depends on the answers to the paths that it has asked for.** -/
theorem Transport.fetcher_agreesOn {t t' : Transport} {paths : List String}
    (h : ∀ p ∈ paths, t'.answer p = t.answer p) : t.fetcher.AgreesOn t'.fetcher paths where
  one hasked := fetchOne_congr fun p hp => h p (hasked hp)
  all hasked := fetchAll_congr fun p hp => h p (hasked hp)

end MetaCache.Remote
