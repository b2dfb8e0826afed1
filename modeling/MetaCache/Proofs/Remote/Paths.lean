import MetaCache.Proofs.Json.Schemas
import MetaCache.Proofs.Remote.Asked
import MetaCache.Remote.Routes
import Mathlib.Data.List.Chain

/-!
# What the paths are

The API is asked for paths of two kinds. The path of an entity ends in a canonical guid, which is 36
bytes of digits and hyphens, whatever text spelled it (`Guid.isCanonical_text`). The paths of a list
begin with one that is fixed, and every other one is the cursor of the page before it
(`isListing_fetchAll`). A cursor is taken as it is: nothing about it is checked. As long as no cursor
comes again, it does not matter how a list is split into pages (`fetchAll_of_pages`).
-/

namespace MetaCache

open MetaCache.Json MetaCache.Text

/-! ## Canonical guids -/

/-- Where the hyphens are in a canonical guid. -/
def Guid.hyphens : List Nat := [8, 13, 18, 23]

/-- A text of 36 bytes, which are hyphens in four places and lowercase digits in all others. -/
structure Guid.IsCanonical (text : String) : Prop where
  size : (bytesOf text).length = 36
  hyphen : ∀ i ∈ hyphens, (bytesOf text)[i]? = some 0x2d
  digit : ∀ i < 36, i ∉ hyphens → ∃ b, (bytesOf text)[i]? = some b
    ∧ (0x30 ≤ b ∧ b ≤ 0x39 ∨ 0x61 ≤ b ∧ b ≤ 0x66)

theorem Text.hexChar_ascii (d : Fin 16) : (hexChar d).toNat < 0x80 := by
  revert d
  decide

theorem Text.hexChar_byte (d : Fin 16) :
    0x30 ≤ UInt8.ofNat (hexChar d).toNat ∧ UInt8.ofNat (hexChar d).toNat ≤ 0x39
      ∨ 0x61 ≤ UInt8.ofNat (hexChar d).toNat ∧ UInt8.ofNat (hexChar d).toNat ≤ 0x66 := by
  revert d
  decide

namespace Spelling

theorem length_fill {slots : Spelling} {digits : List (Fin 16)}
    (h : digits.length = slots.count .digit) : (slots.fill digits).length = slots.length := by
  induction slots generalizing digits with
  | nil => rfl
  | cons slot slots ih =>
    cases slot with
    | hyphen =>
      have hrest : digits.length = slots.count .digit := by simpa using h
      simp [fill, ih hrest]
    | digit =>
      cases digits with
      | nil => simp at h
      | cons d digits =>
        have hrest : digits.length = slots.count .digit := by simpa using h
        simp [fill, ih hrest]

/-- Each place is filled with what belongs there. -/
theorem getElem?_fill {slots : Spelling} {digits : List (Fin 16)}
    (h : digits.length = slots.count .digit) (i : Nat) :
    (slots[i]? = some .hyphen → (slots.fill digits)[i]? = some '-')
      ∧ (slots[i]? = some .digit → ∃ d, (slots.fill digits)[i]? = some (hexChar d)) := by
  induction slots generalizing digits i with
  | nil => simp
  | cons slot slots ih =>
    cases slot with
    | hyphen =>
      have hrest : digits.length = slots.count .digit := by simpa using h
      cases i with
      | zero => simp [fill]
      | succ i => simpa [fill] using ih hrest i
    | digit =>
      cases digits with
      | nil => simp at h
      | cons d digits =>
        have hrest : digits.length = slots.count .digit := by simpa using h
        cases i with
        | zero => exact ⟨fun hslot => by simp at hslot, fun _ => ⟨d, rfl⟩⟩
        | succ i => simpa [fill] using ih hrest i

/-- There is nothing but digits and hyphens. -/
theorem mem_fill {slots : Spelling} {digits : List (Fin 16)} {c : Char}
    (h : c ∈ slots.fill digits) : c = '-' ∨ ∃ d, c = hexChar d := by
  induction slots generalizing digits with
  | nil => cases h
  | cons slot slots ih =>
    cases slot with
    | hyphen =>
      rcases List.mem_cons.1 h with rfl | h
      · exact .inl rfl
      · exact ih h
    | digit =>
      cases digits with
      | nil =>
        rw [fill] at h
        exact ih h
      | cons d digits =>
        rcases List.mem_cons.1 h with rfl | h
        · exact .inr ⟨d, rfl⟩
        · exact ih h

end Spelling

/-- **The canonical guid has its shape**, whatever the guid. -/
theorem Guid.isCanonical_text (g : Guid) : IsCanonical g.text := by
  have hdigits : g.digits.length = Spelling.hyphenated.count .digit := g.size
  have hascii : ∀ c ∈ g.chars, c.toNat < 0x80 := by
    intro c hc
    rcases Spelling.mem_fill hc with rfl | ⟨d, rfl⟩
    · decide
    · exact hexChar_ascii d
  have hbytes : bytesOf g.text = g.chars.map fun c => UInt8.ofNat c.toNat := by
    rw [text, bytesOf_ofList, utf8_of_ascii hascii]
  have hplace := Spelling.getElem?_fill hdigits
  rw [show Spelling.hyphenated.fill g.digits = g.chars from rfl] at hplace
  refine ⟨?_, fun i hi => ?_, fun i hi hnot => ?_⟩
  · rw [hbytes, List.length_map]
    exact Spelling.length_fill hdigits
  · have hslot : Spelling.hyphenated[i]? = some .hyphen := by
      revert i
      decide
    rw [hbytes, List.getElem?_map, (hplace i).1 hslot]
    rfl
  · have hslot : Spelling.hyphenated[i]? = some .digit := by
      revert i
      decide
    obtain ⟨d, hd⟩ := (hplace i).2 hslot
    rw [hbytes, List.getElem?_map, hd]
    exact ⟨_, rfl, hexChar_byte d⟩

namespace Remote

/-- The path of an entity has no query, so it is never the path of a list. -/
theorem query_notMem_entityPath (kind : Kind) (g : Guid) :
    '?' ∉ (entityPath kind g.text).toList := by
  have hguid : '?' ∉ g.text.toList := by
    rw [Guid.text, String.toList_ofList]
    intro hmem
    rcases Spelling.mem_fill hmem with h | ⟨d, h⟩
    · cases h
    · revert d
      decide
  have hkind : '?' ∉ kind.segment.toList := by cases kind <;> decide
  simp [entityPath, hguid, hkind]

/-! ## Lists -/

/-- An answer is a page, and the next path is its cursor, letter by letter. -/
def Names (t : Transport) (path next : String) : Prop :=
  ∃ response data, t.answer path = .ok response ∧ response.isSuccess
    ∧ Json.decode pageSchema response.body = .ok data ∧ data.1 = some (some next) ∧ next ≠ ""

/-- Paths that begin with a fixed one and go on from page to page. -/
structure IsListing (t : Transport) (kind : Kind) (asked : List String) : Prop where
  first : asked.head? = some (listPath kind)
  next : asked.IsChain (Names t)

namespace Transport

variable {t : Transport}

theorem names_of_pageOf {path next : String} {page : Page}
    (hpage : pageOf path (t.answer path) = .ok page) (hnext : page.next = some next) :
    Names t path next := by
  unfold pageOf at hpage
  split at hpage
  · cases hpage
  · next response hanswer =>
    split at hpage
    · next hsuccess =>
      split at hpage
      · next hread =>
        cases hpage
        rw [readPage] at hread
        cases hdata : Json.decode pageSchema response.body with
        | error fault => rw [hdata] at hread; cases hread
        | ok data =>
          rw [hdata] at hread
          cases hread
          -- The cursor of a page is what the document has there, unless it is empty.
          obtain ⟨hjoin, hne⟩ := Option.filter_eq_some_iff.1 hnext
          exact ⟨response, data, hanswer, hsuccess, hdata, Option.join_eq_some_iff.1 hjoin,
            of_decide_eq_true hne⟩
      · cases hpage
    · cases hpage

/-- Following a cursor adds a path only if it is named by the page before. -/
theorem chain_follow {pages : Nat} {asked : List String} {found : List (String × Record)}
    {path : String} (hasked : asked.IsChain (Names t))
    (hpath : ∀ last ∈ asked.getLast?, Names t last path) :
    (t.follow pages asked found path).asked.IsChain (Names t) := by
  induction pages generalizing asked found path with
  | zero => exact hasked
  | succ pages ih =>
    by_cases hmem : path ∈ asked
    · rw [follow_of_mem hmem]
      exact hasked
    · have hmore : (asked ++ [path]).IsChain (Names t) :=
        List.isChain_append.2 ⟨hasked, .singleton _, by simpa using hpath⟩
      cases hpage : pageOf path (t.answer path) with
      | error e =>
        rw [follow_of_error hmem hpage]
        exact hmore
      | ok page =>
        cases hnext : page.next with
        | none =>
          rw [follow_of_last hmem hpage hnext]
          exact hmore
        | some next =>
          rw [follow_of_next hmem hpage hnext]
          refine ih hmore fun last hlast => ?_
          rw [List.getLast?_concat, Option.mem_some_iff] at hlast
          rw [← hlast]
          exact names_of_pageOf hpage hnext

/-- **The paths of a list begin with a fixed one, and each other one is named by the page before.** -/
theorem isListing_fetchAll (t : Transport) (kind : Kind) :
    IsListing t kind (t.fetchAll kind).asked where
  first := by
    have hfirst : [listPath kind] <+: (t.fetchAll kind).asked := by
      rw [fetchAll]
      cases hpage : pageOf (listPath kind) (t.answer (listPath kind)) with
      | error e =>
        rw [follow_of_error List.not_mem_nil hpage]
        exact List.prefix_rfl
      | ok page =>
        cases hnext : page.next with
        | none =>
          rw [follow_of_last List.not_mem_nil hpage hnext]
          exact List.prefix_rfl
        | some next =>
          rw [follow_of_next List.not_mem_nil hpage hnext]
          exact t.asked_prefix_follow ..
    obtain ⟨more, hmore⟩ := hfirst
    rw [← hmore]
    rfl
  next := chain_follow .nil (by simp)

end Transport

/-! ## Pages -/

/-- Paths in order, with what is listed on the page behind each: every page names the next path, and
the last one names none. -/
def Linked (t : Transport) : List (String × List (String × Record)) → Prop
  | [] => False
  | [(path, listing)] => pageOf path (t.answer path) = .ok ⟨none, listing⟩
  | (path, listing) :: (next, more) :: rest =>
    pageOf path (t.answer path) = .ok ⟨some next, listing⟩ ∧ Linked t ((next, more) :: rest)

/-- A list is split into pages, and no cursor comes again. -/
structure IsPaged (t : Transport) (kind : Kind) (pages : List (String × List (String × Record))) :
    Prop where
  first : pages.head?.map Prod.fst = some (listPath kind)
  linked : Linked t pages
  distinct : (pages.map Prod.fst).Nodup

namespace Transport

variable {t : Transport}

theorem follow_of_linked {path first : String} {listing : List (String × Record)}
    {rest : List (String × List (String × Record))} {limit : Nat} {asked : List String}
    {found : List (String × Record)} (henough : Enough t first limit asked path)
    (hlinked : Linked t ((path, listing) :: rest))
    (hdistinct : (asked ++ path :: rest.map Prod.fst).Nodup) :
    t.follow limit asked found path =
      ⟨.ok (found ++ listing ++ rest.flatMap Prod.snd), asked ++ path :: rest.map Prod.fst⟩ := by
  have hnot : path ∉ asked := fun hmem =>
    (List.nodup_append.1 hdistinct).2.2 path hmem path List.mem_cons_self rfl
  induction rest generalizing path listing limit asked found with
  | nil =>
    cases limit with
    | zero => exact absurd henough.mem_of_zero hnot
    | succ limit =>
      rw [follow_of_last hnot hlinked rfl]
      simp
  | cons page rest ih =>
    obtain ⟨next, more⟩ := page
    obtain ⟨hpage, hrest⟩ := hlinked
    cases limit with
    | zero => exact absurd henough.mem_of_zero hnot
    | succ limit =>
      have hmoved : (asked ++ [path] ++ next :: rest.map Prod.fst).Nodup := by
        simpa using hdistinct
      have hnext : next ∉ asked ++ [path] := fun hmem =>
        (List.nodup_append.1 hmoved).2.2 next hmem next List.mem_cons_self rfl
      rw [follow_of_next hnot hpage rfl, ih (henough.next hnot hpage rfl) hrest hmoved hnext]
      simp

/-- **What is found is what the pages list**, however the list is split. -/
theorem fetchAll_of_pages {kind : Kind} {pages : List (String × List (String × Record))}
    (h : IsPaged t kind pages) :
    t.fetchAll kind = ⟨.ok (pages.flatMap Prod.snd), pages.map Prod.fst⟩ := by
  cases pages with
  | nil => exact h.linked.elim
  | cons page rest =>
    obtain ⟨path, listing⟩ := page
    obtain rfl : path = listPath kind := Option.some.inj h.first
    exact follow_of_linked (enough_start t _) h.linked h.distinct

end Transport

/-! ## Pages of guids -/

/-- A page of entities that are listed without records. -/
def barePage (next : Option String) (guids : List String) : pageSchema.Carrier :=
  (some next, some (guids.map fun guid => ((guid, ()), none, ())), ())

/-- A route to such a page. -/
def bareRoute (next : Option String) (guids : List String) : Route :=
  .respond ⟨200, Json.bytesOf (Json.encode pageSchema (barePage next guids))⟩

theorem decode_barePage (next : Option String) (guids : List String) :
    Json.decode pageSchema (Json.bytesOf (Json.encode pageSchema (barePage next guids)))
      = .ok (barePage next guids) := by
  have hfits : pageSchema.Nests Json.Object.Fits Json.nestingLimit (barePage next guids) := by
    refine ⟨?_, ?_, True.intro⟩
    · rintro _ ⟨⟩ _ _
      exact True.intro
    · rintro _ ⟨⟩ one hone
      obtain ⟨guid, -, rfl⟩ := List.mem_map.1 hone
      exact ⟨⟨True.intro, True.intro⟩, fun _ h => absurd h (Option.not_mem_none _), True.intro⟩
  exact Json.decode_encode (by decide) hfits

theorem pageOf_bareRoute (path : String) {next : Option String} (hnext : next ≠ some "")
    (guids : List String) :
    pageOf path (bareRoute next guids).answer
      = .ok ⟨next, guids.map fun guid => (guid, .empty)⟩ := by
  have hcursor : next.filter (· ≠ "") = next := by
    cases next with
    | none => rfl
    | some cursor => exact Option.filter_some_pos (by simpa using hnext)
  have hread : readPage (Json.bytesOf (Json.encode pageSchema (barePage next guids)))
      = .ok ⟨next, guids.map fun guid => (guid, .empty)⟩ := by
    rw [readPage, decode_barePage]
    exact congrArg Except.ok (congrArg₂ Page.mk hcursor List.map_map)
  rw [bareRoute, Route.answer, pageOf]
  simp only [hread]
  rfl

/-- A path without a route is not found. -/
theorem Routes.find_of_notMem {routes : Routes} {path : String}
    (h : path ∉ routes.map Prod.fst) : routes.find path = notFound := by
  have hnone : routes.filter (·.1 = path) = [] := by
    refine List.filter_eq_nil_iff.2 fun route hroute => ?_
    rw [decide_eq_true_eq]
    rintro rfl
    exact h (List.mem_map_of_mem hroute)
  rw [find, hnone]
  rfl

end Remote

end MetaCache
