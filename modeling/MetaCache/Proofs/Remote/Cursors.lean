import MetaCache.Proofs.Remote.Carried
import MetaCache.Proofs.Remote.Paths
import Mathlib.Data.List.Nodup

/-!
# Where cursors lead

The pages of a list form a *trail*: each of them names the path of the next one. Following a trail
comes to an end in one of three ways (`Ends`): a page names no other, an answer is no page, or a
path comes again. Which of them it is depends on the answers alone, and so do the paths that were
asked for and the entries that were found.

That there is an end at all is due to the paths. None is asked for twice, and of a route table every
path but the first one is named by a page that stands in the table. So there are no more requests
than routes, and one.
-/

namespace MetaCache.Remote

open MetaCache.Json

/-! ## Pages in answers -/

/-- A page as it stands in the answer to a path. -/
structure Leaf where
  path : String
  /-- The path of the next page. It may be left out, or `null`, or empty. -/
  cursor : Option String
  entries : List Entry

namespace Leaf

/-- The answer to the path is a success, and its body is the document of the page. -/
def IsAnswered (t : Transport) (leaf : Leaf) : Prop :=
  ∃ response data, t.answer leaf.path = .ok response ∧ response.isSuccess
    ∧ Json.decode pageSchema response.body = .ok data
    ∧ leaf.cursor = data.1.join ∧ leaf.entries = entriesOfData data

/-- The page names no other. -/
def IsLast (leaf : Leaf) : Prop := leaf.cursor = none ∨ leaf.cursor = some ""

/-- What is found on some pages: entries in order, and without a record they count as empty. -/
def found (leaves : List Leaf) : List (String × Record) :=
  (leaves.flatMap entries).map Entry.listed

theorem found_append (leaves : List Leaf) (leaf : Leaf) :
    found (leaves ++ [leaf]) = found leaves ++ leaf.entries.map Entry.listed := by
  simp [found]

end Leaf

variable {t : Transport} {first path : String} {leaves : List Leaf} {leaf : Leaf}

theorem pageOf_of_isAnswered (h : leaf.IsAnswered t) :
    pageOf leaf.path (t.answer leaf.path)
      = .ok ⟨leaf.cursor.filter (· ≠ ""), leaf.entries.map Entry.listed⟩ := by
  obtain ⟨response, data, hanswer, hsuccess, hdata, hcursor, hentries⟩ := h
  have hread : readPage response.body
      = .ok ⟨leaf.cursor.filter (· ≠ ""), leaf.entries.map Entry.listed⟩ := by
    rw [readPage, hdata, hcursor, hentries]
    show Except.ok (pageOfData data)
      = .ok ⟨_, ((data.2.1.getD []).map entryOfData).map Entry.listed⟩
    rw [List.map_map]
    rfl
  rw [hanswer, pageOf]
  simp only [hsuccess, if_true, hread]

/-- Why the answer to a path is no page. -/
inductive Spoils (t : Transport) (path : String) : Error → Prop
  /-- There is no answer. -/
  | unanswered {e : Error} (answer : t.answer path = .error e) : Spoils t path e
  | refused {response : Response} (answer : t.answer path = .ok response)
      (status : response.isSuccess = false) :
      Spoils t path (.remote (.badStatus path response.status))
  /-- The body is no document of a page. -/
  | unread {response : Response} {fault : Fault} (answer : t.answer path = .ok response)
      (success : response.isSuccess) (body : Json.decode pageSchema response.body = .error fault) :
      Spoils t path (.remote (.decode (path ++ ": " ++ fault.message)))

theorem pageOf_of_spoils {e : Error} (h : Spoils t path e) :
    pageOf path (t.answer path) = .error e := by
  cases h with
  | unanswered answer => rw [answer, pageOf]
  | refused answer status =>
    rw [answer, pageOf]
    simp [status]
  | unread answer success body =>
    have hread : readPage _ = .error _ := congrArg (Except.map pageOfData) body
    rw [answer, pageOf]
    simp only [success, if_true, hread]

/-- An answer is a page, or there is a reason why it is none. -/
theorem isAnswered_or_spoils (t : Transport) (path : String) :
    (∃ leaf : Leaf, leaf.path = path ∧ leaf.IsAnswered t) ∨ ∃ e, Spoils t path e := by
  cases hanswer : t.answer path with
  | error e => exact .inr ⟨e, .unanswered hanswer⟩
  | ok response =>
    cases hsuccess : response.isSuccess with
    | false => exact .inr ⟨_, .refused hanswer hsuccess⟩
    | true =>
      cases hbody : Json.decode pageSchema response.body with
      | error fault => exact .inr ⟨_, .unread hanswer hsuccess hbody⟩
      | ok data =>
        exact .inl ⟨⟨path, data.1.join, entriesOfData data⟩, rfl,
          response, data, hanswer, hsuccess, hbody, rfl, rfl⟩

/-! ## Trails -/

theorem nodup_append_singleton {paths : List String} :
    (paths ++ [path]).Nodup ↔ path ∉ paths ∧ paths.Nodup := by
  rw [← List.concat_eq_append, List.nodup_concat]

/-- Pages from a first path on, each of which names the next one, and the path that the last of them
names. -/
inductive Trail (t : Transport) (first : String) : List Leaf → String → Prop
  | start : Trail t first [] first
  | next {leaves : List Leaf} {leaf : Leaf} {next : String}
      (before : Trail t first leaves leaf.path) (answered : leaf.IsAnswered t)
      (cursor : leaf.cursor = some next) (named : next ≠ "") : Trail t first (leaves ++ [leaf]) next

/-- The pages of a list, up to one that names no other, and no path comes twice. -/
structure IsWhole (t : Transport) (first : String) (before : List Leaf) (last : Leaf) : Prop where
  trail : Trail t first before last.path
  answered : last.IsAnswered t
  isLast : last.IsLast
  distinct : ((before ++ [last]).map Leaf.path).Nodup

/-- How a list breaks off that begins with a path, after some paths were asked for. -/
inductive Breaks (t : Transport) (first : String) : List String → Error → Prop
  /-- An answer is no page. -/
  | spoiled {leaves : List Leaf} {path : String} {e : Error} (trail : Trail t first leaves path)
      (distinct : (leaves.map Leaf.path ++ [path]).Nodup) (spoils : Spoils t path e) :
      Breaks t first (leaves.map Leaf.path ++ [path]) e
  /-- A path comes again. -/
  | repeated {leaves : List Leaf} {path : String} (trail : Trail t first leaves path)
      (distinct : (leaves.map Leaf.path).Nodup) (again : path ∈ leaves.map Leaf.path) :
      Breaks t first (leaves.map Leaf.path) (Transport.repeated path)

/-- How a list ends that begins with a path. -/
inductive Ends (t : Transport) (first : String) : Reply (List (String × Record)) → Prop
  | found {before : List Leaf} {last : Leaf} (whole : IsWhole t first before last) :
      Ends t first ⟨.ok (Leaf.found (before ++ [last])), (before ++ [last]).map Leaf.path⟩
  | broken {asked : List String} {e : Error} (breaks : Breaks t first asked e) :
      Ends t first ⟨.error e, asked⟩

theorem pageOf_of_named {next : String} (answered : leaf.IsAnswered t)
    (cursor : leaf.cursor = some next) (named : next ≠ "") :
    pageOf leaf.path (t.answer leaf.path) = .ok ⟨some next, leaf.entries.map Entry.listed⟩ := by
  rw [pageOf_of_isAnswered answered, cursor, Option.filter_some_pos (by simpa using named)]

theorem pageOf_of_isLast (answered : leaf.IsAnswered t) (isLast : leaf.IsLast) :
    pageOf leaf.path (t.answer leaf.path) = .ok ⟨none, leaf.entries.map Entry.listed⟩ := by
  rw [pageOf_of_isAnswered answered]
  rcases isLast with hcursor | hcursor <;> rw [hcursor] <;> rfl

/-- A trail consists of the first path and of cursors. -/
theorem Trail.mem_cursors (h : Trail t first leaves path) : path ∈ first :: t.cursors := by
  cases h with
  | start => exact List.mem_cons_self
  | next _ answered cursor named =>
    exact List.mem_cons_of_mem _
      (t.cursorOf_mem (cursorOf_of_pageOf (pageOf_of_named answered cursor named)))

theorem Trail.paths_subset (h : Trail t first leaves path) :
    leaves.map Leaf.path ⊆ first :: t.cursors := by
  induction h with
  | start => exact List.nil_subset _
  | next before _ _ _ ih =>
    rw [List.map_append]
    exact List.append_subset.2 ⟨ih, List.cons_subset.2 ⟨before.mem_cursors, List.nil_subset _⟩⟩

/-- Whether it is found or breaks off, a list is asked for by a trail of distinct paths. -/
theorem Ends.asked {reply : Reply (List (String × Record))} (h : Ends t first reply) :
    reply.asked.Nodup ∧ reply.asked ⊆ first :: t.cursors := by
  have hlast {leaves : List Leaf} {path : String} (trail : Trail t first leaves path) :
      leaves.map Leaf.path ++ [path] ⊆ first :: t.cursors :=
    List.append_subset.2 ⟨trail.paths_subset,
      List.cons_subset.2 ⟨trail.mem_cursors, List.nil_subset _⟩⟩
  cases h with
  | found whole =>
    refine ⟨whole.distinct, ?_⟩
    rw [List.map_append]
    exact hlast whole.trail
  | broken breaks =>
    cases breaks with
    | spoiled trail distinct _ => exact ⟨distinct, hlast trail⟩
    | repeated trail distinct _ => exact ⟨distinct, trail.paths_subset⟩

namespace Transport

/-- **Wherever a trail leads, following it comes to an end.** -/
theorem ends_follow {pages : Nat} (trail : Trail t first leaves path)
    (henough : Enough t first pages (leaves.map Leaf.path) path) :
    Ends t first (t.follow pages (leaves.map Leaf.path) (Leaf.found leaves) path) := by
  -- By induction on the pages that may still be asked for: a page lengthens the trail.
  induction pages generalizing leaves path with
  | zero => exact .broken (.repeated trail henough.nodup henough.mem_of_zero)
  | succ pages ih =>
    by_cases hagain : path ∈ leaves.map Leaf.path
    · rw [follow_of_mem hagain]
      exact .broken (.repeated trail henough.nodup hagain)
    · have hdistinct := nodup_append_singleton.2 ⟨hagain, henough.nodup⟩
      rcases isAnswered_or_spoils t path with ⟨leaf, rfl, hanswered⟩ | ⟨e, hspoils⟩
      · by_cases hlast : leaf.IsLast
        · rw [follow_of_last hagain (pageOf_of_isLast hanswered hlast) rfl, ← Leaf.found_append]
          have hwhole : IsWhole t first leaves leaf :=
            ⟨trail, hanswered, hlast, by rwa [List.map_append]⟩
          simpa using Ends.found hwhole
        · obtain ⟨next, hcursor, hnamed⟩ : ∃ next, leaf.cursor = some next ∧ next ≠ "" := by
            cases hcursor : leaf.cursor with
            | none => exact absurd (.inl hcursor) hlast
            | some next => exact ⟨next, rfl, fun hempty => hlast (.inr (hempty ▸ hcursor))⟩
          have hpage := pageOf_of_named hanswered hcursor hnamed
          have hmore := ih (trail.next hanswered hcursor hnamed) (by
            rw [List.map_append]
            exact henough.next hagain hpage rfl)
          rw [follow_of_next hagain hpage rfl, ← Leaf.found_append]
          rwa [List.map_append] at hmore
      · rw [follow_of_error hagain (pageOf_of_spoils hspoils)]
        exact .broken (.spoiled trail hdistinct hspoils)

theorem ends_fetchAll (t : Transport) (kind : Kind) : Ends t (listPath kind) (t.fetchAll kind) :=
  ends_follow .start (enough_start t _)

/-- No page is missed for want of a limit: any other limit that is high enough gives the same. -/
theorem follow_eq_fetchAll {kind : Kind} {pages : Nat} (h : t.cursors.length + 1 ≤ pages) :
    t.follow pages [] [] (listPath kind) = t.fetchAll kind :=
  follow_congr (enough_start t _) ⟨.nil, by simp, List.mem_cons_self, by simpa using h⟩
    fun _ _ => rfl

/-- A trail without a path that comes twice is followed. -/
theorem follow_of_trail (trail : Trail t first leaves path)
    (hdistinct : (leaves.map Leaf.path).Nodup) (pages : Nat) :
    t.follow (pages + leaves.length) [] [] first
      = t.follow pages (leaves.map Leaf.path) (Leaf.found leaves) path := by
  induction trail generalizing pages with
  | start => rfl
  | @next leaves leaf next before answered cursor named ih =>
    rw [List.map_append, List.map_singleton] at hdistinct
    obtain ⟨hagain, hbefore⟩ := nodup_append_singleton.1 hdistinct
    rw [List.length_append, List.length_singleton, Nat.add_comm leaves.length, ← Nat.add_assoc,
      ih hbefore, follow_of_next hagain (pageOf_of_named answered cursor named) rfl,
      Leaf.found_append, List.map_append]
    rfl

/-- What comes of a list is decided where a trail of distinct paths has led to. -/
theorem fetchAll_of_trail {kind : Kind} (trail : Trail t (listPath kind) leaves path)
    (hdistinct : (leaves.map Leaf.path).Nodup) :
    t.fetchAll kind = t.follow (t.cursors.length + 1) (leaves.map Leaf.path) (Leaf.found leaves)
      path := by
  rw [← follow_of_trail trail hdistinct, follow_eq_fetchAll (Nat.le_add_right ..)]

/-- **A list is found if its pages lead to one that names no other.** -/
theorem fetchAll_of_isWhole {kind : Kind} {before : List Leaf} {last : Leaf}
    (h : IsWhole t (listPath kind) before last) :
    t.fetchAll kind
      = ⟨.ok (Leaf.found (before ++ [last])), (before ++ [last]).map Leaf.path⟩ := by
  have hdistinct := h.distinct
  rw [List.map_append, List.map_singleton] at hdistinct
  obtain ⟨hagain, hbefore⟩ := nodup_append_singleton.1 hdistinct
  rw [fetchAll_of_trail h.trail hbefore,
    follow_of_last hagain (pageOf_of_isLast h.answered h.isLast) rfl, Leaf.found_append,
    List.map_append]
  rfl

/-- **A list breaks off where an answer is no page or a path comes again**, whatever is on the pages
before. -/
theorem fetchAll_of_breaks {kind : Kind} {asked : List String} {e : Error}
    (h : Breaks t (listPath kind) asked e) : t.fetchAll kind = ⟨.error e, asked⟩ := by
  cases h with
  | spoiled trail distinct spoils =>
    obtain ⟨hagain, hbefore⟩ := nodup_append_singleton.1 distinct
    rw [fetchAll_of_trail trail hbefore, follow_of_error hagain (pageOf_of_spoils spoils)]
  | repeated trail distinct again => rw [fetchAll_of_trail trail distinct, follow_of_mem again]

end Transport

/-! ## Route tables -/

namespace Routes

/-- Only pages that stand in a table name cursors. -/
theorem length_cursors_le (routes : Routes) : routes.transport.cursors.length ≤ routes.length := by
  have hnone : cursorOf notFound.answer = none := rfl
  show (((notFound :: routes.map Prod.snd).map Route.answer).filterMap cursorOf).length ≤ _
  rw [List.map_cons, List.filterMap_cons_none hnone]
  refine (List.length_filterMap_le ..).trans ?_
  rw [List.length_map, List.length_map]

/-- A list from a table breaks off for no other reason than one of transport. -/
theorem isTransport_of_breaks {routes : Routes} {first : String} {asked : List String} {e : Error}
    (h : Breaks routes.transport first asked e) : e.isTransport := by
  cases h with
  | repeated => rfl
  | @spoiled _ path _ _ _ spoils =>
    cases spoils with
    | refused => rfl
    | unread => rfl
    | unanswered answer =>
      have hroute : (routes.find path).answer = .error e := answer
      cases hfind : routes.find path with
      | respond response => rw [hfind] at hroute; cases hroute
      | fail reason =>
        rw [hfind] at hroute
        cases hroute
        rfl

end Routes

/-- **Cursors are followed exactly, and to an end.** From a route table a list is found if and only
if its pages lead, without a path that comes twice, to one that names no other; found is then what
they list, and asked for is each of them once, in order. Else there is an error of transport: the
one of the first answer that is no page, or that a path has come again. -/
theorem fetchAll_follows (routes : Routes) (kind : Kind) :
    let t := routes.transport
    let reply := t.fetchAll kind
    reply.asked.Nodup ∧ reply.asked.length ≤ routes.length + 1
      ∧ (∀ pages, routes.length + 1 ≤ pages → t.follow pages [] [] (listPath kind) = reply)
      ∧ (∀ found asked, reply = ⟨.ok found, asked⟩ ↔ ∃ before last,
        IsWhole t (listPath kind) before last ∧ found = Leaf.found (before ++ [last])
          ∧ asked = (before ++ [last]).map Leaf.path)
      ∧ (∀ e asked, reply = ⟨.error e, asked⟩ ↔ Breaks t (listPath kind) asked e)
      ∧ ∀ e asked, reply = ⟨.error e, asked⟩ → e.isTransport ∧ e.isMissing = false := by
  intro t reply
  have hends : Ends t (listPath kind) reply := t.ends_fetchAll kind
  have hbroken {e : Error} {asked : List String} (h : reply = ⟨.error e, asked⟩) :
      Breaks t (listPath kind) asked e := by
    rw [h] at hends
    cases hends with
    | broken breaks => exact breaks
  refine ⟨hends.asked.1, ?_, fun pages hpages => ?_, fun found asked => ⟨fun h => ?_, ?_⟩,
    fun e asked => ⟨hbroken, Transport.fetchAll_of_breaks⟩, fun e asked h => ?_⟩
  · have hlength := hends.asked.1.length_le_of_subset hends.asked.2
    have hcursors : t.cursors.length ≤ routes.length := routes.length_cursors_le
    rw [List.length_cons] at hlength
    omega
  · exact Transport.follow_eq_fetchAll
      (Nat.le_trans (Nat.succ_le_succ routes.length_cursors_le) hpages)
  · rw [h] at hends
    cases hends with
    | found whole => exact ⟨_, _, whole, rfl, rfl⟩
  · rintro ⟨before, last, hwhole, rfl, rfl⟩
    exact Transport.fetchAll_of_isWhole hwhole
  · have htransport := Routes.isTransport_of_breaks (hbroken h)
    exact ⟨htransport, Error.not_isMissing_of_isTransport htransport⟩

theorem entriesOfData_barePage (next : Option String) (guids : List String) :
    entriesOfData (barePage next guids) = guids.map fun guid => (guid, none) := List.map_map

/-- Three pages, of which the last one leads back to the second. -/
def circle : Routes :=
  [(listPath .app, bareRoute (some "/v2/apps?page=2") ["a"]),
    ("/v2/apps?page=2", bareRoute (some "/v2/apps?page=3") ["b"]),
    ("/v2/apps?page=3", bareRoute (some "/v2/apps?page=2") ["c"])]

/-- A list whose pages go round in a circle is not found, though the first page is not in it. -/
theorem fetchAll_follows_circle :
    circle.transport.fetchAll .app = ⟨.error (.remote (.decode
        "pagination cursor repeated: /v2/apps?page=2")),
      [listPath .app, "/v2/apps?page=2", "/v2/apps?page=3"]⟩ := by
  have hleaf (path : String) {next : Option String} {guids : List String}
      (h : circle.find path = bareRoute next guids) :
      (Leaf.mk path next (guids.map fun guid => (guid, none))).IsAnswered circle.transport :=
    ⟨_, _, congrArg Route.answer h, rfl, decode_barePage next guids, rfl,
      (entriesOfData_barePage next guids).symm⟩
  have hfirst := hleaf (listPath .app) rfl
  have hsecond := hleaf "/v2/apps?page=2" rfl
  have hthird := hleaf "/v2/apps?page=3" rfl
  have htrail : Trail circle.transport (listPath .app) _ "/v2/apps?page=2" :=
    ((Trail.start.next hfirst rfl (by decide)).next hsecond rfl (by decide)).next hthird rfl
      (by decide)
  exact ((fetchAll_follows circle .app).2.2.2.2.1 _ _).2
    (.repeated htrail (by decide) (by decide))

end MetaCache.Remote
