import MetaCache.Proofs.Record.Format
import MetaCache.Proofs.Remote.Paths

/-!
# Entities in the bodies around them

An entity stands alone in the body of one answer, and among others in the body of a page. Both
bodies are read by the schema of a record, with other levels left, and a meaning holds one record at
most whatever levels are left (`IsRecordOf.unique`). So an entity is the same record wherever it is
read, and nothing else in the bodies has a say in it.

What is built for entities reads back as their records: the pages of a list as the guids that were
built in, with the record of each entity (`readPage_pageBody`), and the body of a single one as its
record (`readEntity_entityBody`).
-/

namespace MetaCache

open MetaCache.Json MetaCache.Text

/-! ## Values in canonical form -/

theorem canonical_pair {a b : String} (h : a < b) (v w : Value) :
    (Value.object [(a, v), (b, w)]).canonical = .object [(a, v.canonical), (b, w.canonical)] := by
  rw [Value.canonical, canonicalMembers, canonicalMembers, canonicalMembers, sortMembers_of_sorted]
  exact List.pairwise_pair.2 h

theorem canonical_triple {a b c : String} (hab : a < b) (hbc : b < c) (u v w : Value) :
    (Value.object [(a, u), (b, v), (c, w)]).canonical
      = .object [(a, u.canonical), (b, v.canonical), (c, w.canonical)] := by
  rw [Value.canonical, canonicalMembers, canonicalMembers, canonicalMembers, canonicalMembers,
    sortMembers_of_sorted]
  refine List.pairwise_cons.2 ⟨?_, List.pairwise_pair.2 hbc⟩
  rintro _ (_ | ⟨_, _ | ⟨_, ⟨⟩⟩⟩)
  · exact hab
  · exact String.lt_trans hab hbc

/-- Members of an object without depth to spare for the environment. -/
theorem Record.IsRecord.within {levels levels' : Nat} {members : List (String × Value)}
    (h : Record.IsRecord levels members) (hdepth : (Value.object members).depth ≤ levels' + 1) :
    Record.IsRecord levels' members := by
  refine ⟨h.once, h.name, h.space, h.organization, fun v hv => ?_⟩
  refine (h.environment v hv).imp id fun ⟨inner, hinner, _⟩ => ⟨inner, hinner, ?_⟩
  obtain ⟨m, hm, rfl⟩ := List.mem_map.1 hv
  rw [← hinner]
  exact membersDepth_le_iff.1 (Nat.le_of_succ_le_succ hdepth) m (List.mem_filter.1 hm).1

namespace Remote

/-- A built document means the canonical form of its value. -/
theorem document_means {v : Value} (hexact : v.isExact) :
    Document (document v).toList v.canonical.meaning := by
  rw [document, String.toList_ofList]
  exact document_write (isExact_canonical v hexact)

/-! ## Entities -/

/-- The entity is an object, and its document is one of the record. -/
structure IsEntity (entity : Value) (r : Record) : Prop where
  isObject : ∃ members, entity = .object members
  decodes : Record.decode (bytesOf (document entity)) = .ok r

/-- What is around an entity takes levels only. -/
theorem IsEntity.holds {entity : Value} {r : Record} {levels : Nat} (h : IsEntity entity r)
    (hexact : entity.isExact) (hdepth : entity.depth ≤ levels + 1) :
    ∃ data, Record.schema.Holds (levels + 1) entity.canonical.meaning data
      ∧ Record.ofData data = r := by
  obtain ⟨⟨members, rfl⟩, hdecode⟩ := h
  obtain ⟨hrecord, rfl⟩ := (Record.decode_document (document_means hexact)).1 hdecode
  have hcanonical := Nat.le_trans (depth_canonical_le (.object members)) hdepth
  exact ⟨_, Record.holds_object_iff.2 ⟨hrecord.within hcanonical, rfl⟩, Record.ofData_dataOf _⟩

theorem meaning_ne_null {entity : Value} {r : Record} (h : IsEntity entity r) :
    entity.canonical.meaning ≠ .null := by
  obtain ⟨⟨members, rfl⟩, -⟩ := h
  rintro ⟨⟩

/-! ## Bodies of single entities -/

theorem canonical_entityBody (guid : String) (entity : Value) :
    (entityBody guid entity).canonical
      = .object [("entity", entity.canonical), ("metadata", .object
          [("guid", .string guid), ("url", .string ("/v2/unknown/" ++ guid))])] := by
  rw [entityBody, canonical_pair (by decide), canonical_pair (by decide)]
  rfl

theorem readEntity_entityBody {guid : String} {entity : Value} {r : Record} (h : IsEntity entity r)
    (hexact : entity.isExact) (hdepth : entity.depth ≤ nestingLimit - 1) :
    readEntity (bytesOf (document (entityBody guid entity))) = .ok (some r) := by
  obtain ⟨data, hdata, rfl⟩ := h.holds hexact hdepth
  have hbody : (entityBody guid entity).isExact := by
    simp [entityBody, Value.isExact, membersExact, hexact]
  have hholds : envelope.Holds nestingLimit (entityBody guid entity).canonical.meaning
      (some (some data), ()) := by
    rw [canonical_entityBody, Value.meaning, ← named_meanings]
    refine Schema.holds_named.2 ⟨.inr ⟨"entity", _, _, rfl, rfl, ?_⟩,
      fun hstrict => absurd hstrict Bool.false_ne_true⟩
    exact .inr ⟨meaning_ne_null h, data, rfl, hdata⟩
  rw [readEntity, decode_ok_iff.2 ⟨_, document_means hbody, hholds⟩]
  rfl

/-! ## Bodies of pages -/

theorem canonical_countValue (n : Nat) : (countValue n).canonical = countValue n := by
  rw [countValue]
  cases Number.ofNat? n <;> rfl

/-- What a page lists for an entity, in canonical form. -/
def listedValue (one : String × Value) : Value :=
  .object [("entity", one.2.canonical), ("metadata", .object [("guid", .string one.1)])]

theorem canonical_pageBody (next : Option String) (resources : List (String × Value)) :
    (pageBody next resources).canonical
      = .object [("next_url", next.elim .null .string),
          ("resources", .array (resources.map listedValue)),
          ("total_results", countValue resources.length)] := by
  have hnext : (next.elim .null .string : Value).canonical = next.elim .null .string := by
    cases next <;> rfl
  rw [pageBody, canonical_triple (by decide) (by decide), hnext, canonical_countValue,
    Value.canonical, canonicalItems_eq_map, List.map_map]
  simp only [Function.comp_def, canonical_pair (show "entity" < "metadata" by decide)]
  rfl

/-- The numbers on a page are whole, and the page nests no deeper than documents may. -/
def IsFit (resources : List (String × Value)) : Prop :=
  (pageBody none resources).isExact ∧ (pageBody none resources).depth ≤ nestingLimit

theorem isExact_pageBody {next : Option String} {resources : List (String × Value)} :
    (pageBody next resources).isExact = (pageBody none resources).isExact := by
  cases next <;> rfl

theorem IsFit.mem {resources : List (String × Value)} (h : IsFit resources) {one : String × Value}
    (hone : one ∈ resources) : one.2.isExact ∧ one.2.depth ≤ nestingLimit - 3 := by
  obtain ⟨hexact, hdepth⟩ := h
  have hitem := List.mem_map_of_mem (f := fun one : String × Value =>
    Value.object [("entity", one.2), ("metadata", .object [("guid", .string one.1)])]) hone
  constructor
  · simp only [pageBody, Value.isExact, membersExact, Bool.and_eq_true] at hexact
    have := itemsExact_iff.1 hexact.2.1 _ hitem
    simp only [Value.isExact, membersExact, Bool.and_eq_true] at this
    exact this.1
  · simp only [pageBody, Value.depth, membersDepth] at hdepth
    have hle := itemsDepth_le_iff.1 (Nat.le_refl _) _ hitem
    simp only [Value.depth, membersDepth] at hle
    simp only [nestingLimit] at hdepth ⊢
    omega

theorem holds_listedValue {one : String × Value} {r : Record} {levels : Nat}
    (h : IsEntity one.2 r) (hexact : one.2.isExact) (hdepth : one.2.depth ≤ levels + 1) :
    ∃ data, resource.Holds (levels + 2) (listedValue one).meaning data ∧ listed data = (one.1, r) := by
  obtain ⟨data, hdata, rfl⟩ := h.holds hexact hdepth
  refine ⟨((one.1, ()), some (some data), ()), ?_, rfl⟩
  rw [listedValue, Value.meaning, ← named_meanings]
  refine Schema.holds_named.2 ⟨.inr ⟨"metadata", _, _, rfl, rfl, ?_⟩,
    .inr ⟨"entity", _, _, rfl, rfl, .inr ⟨meaning_ne_null h, data, rfl, hdata⟩⟩,
    fun hstrict => absurd hstrict Bool.false_ne_true⟩
  rw [Value.meaning, ← named_meanings]
  exact Schema.holds_named.2 ⟨.inr ⟨"guid", _, _, rfl, rfl, rfl⟩,
    fun hstrict => absurd hstrict Bool.false_ne_true⟩

section

variable {recordOf : Value → Record}

/-- What is listed for some entities, if `recordOf` tells their records. -/
def listingOf (recordOf : Value → Record) (resources : List (String × Value)) :
    List (String × Record) := resources.map fun one => (one.1, recordOf one.2)

theorem holds_listedValues {resources : List (String × Value)} {levels : Nat}
    (h : ∀ one ∈ resources, IsEntity one.2 (recordOf one.2))
    (hfit : ∀ one ∈ resources, one.2.isExact ∧ one.2.depth ≤ levels + 1) :
    ∃ data, List.Forall₂ (resource.Holds (levels + 2)) (itemMeanings (resources.map listedValue)) data
      ∧ data.map listed = listingOf recordOf resources := by
  induction resources with
  | nil => exact ⟨[], .nil, rfl⟩
  | cons one resources ih =>
    obtain ⟨hone, hmore⟩ := List.forall_mem_cons.1 h
    obtain ⟨⟨hexact, hdepth⟩, hfit⟩ := List.forall_mem_cons.1 hfit
    obtain ⟨data, hholds, hlisted⟩ := holds_listedValue hone hexact hdepth
    obtain ⟨more, hholdsMore, hlistedMore⟩ := ih hmore hfit
    exact ⟨data :: more, .cons hholds hholdsMore, congrArg₂ List.cons hlisted hlistedMore⟩

/-- **A page that is built reads as what it lists.** -/
theorem readPage_pageBody {next : Option String} {resources : List (String × Value)}
    (hfit : IsFit resources) (h : ∀ one ∈ resources, IsEntity one.2 (recordOf one.2)) :
    readPage (bytesOf (document (pageBody next resources)))
      = .ok ⟨next.filter (· ≠ ""), listingOf recordOf resources⟩ := by
  have hlevels : ∀ one ∈ resources, one.2.isExact ∧ one.2.depth ≤ nestingLimit - 4 + 1 :=
    fun one hone => hfit.mem hone
  obtain ⟨data, hdata, hlisted⟩ := holds_listedValues h hlevels
  have hnext : OrNull (Schema.string.Holds (nestingLimit - 1))
      (next.elim .null .string : Value).meaning next := by
    cases next with
    | none => exact .inl ⟨rfl, rfl⟩
    | some cursor => exact .inr ⟨by rintro ⟨⟩, cursor, rfl, rfl⟩
  have hholds : pageSchema.Holds nestingLimit (pageBody next resources).canonical.meaning
      (some next, some data, ()) := by
    rw [canonical_pageBody, Value.meaning, ← named_meanings]
    exact Schema.holds_named.2 ⟨.inr ⟨"next_url", _, _, rfl, rfl, hnext⟩,
      .inr ⟨"resources", _, _, rfl, rfl, _, rfl, hdata⟩,
      fun hstrict => absurd hstrict Bool.false_ne_true⟩
  rw [readPage, decode_ok_iff.2 ⟨_, document_means (isExact_pageBody ▸ hfit.1), hholds⟩, ← hlisted]
  rfl

/-! ## Answers -/

/-- The document of the value is the body of the answer to the path. -/
def Serves (t : Transport) (path : String) (v : Value) : Prop :=
  t.answer path = .ok ⟨200, bytesOf (document v)⟩

theorem pageOf_of_serves {t : Transport} {path : String} {next : Option String}
    {resources : List (String × Value)} (h : Serves t path (pageBody next resources))
    (hfit : IsFit resources) (hentities : ∀ one ∈ resources, IsEntity one.2 (recordOf one.2)) :
    pageOf path (t.answer path) = .ok ⟨next.filter (· ≠ ""), listingOf recordOf resources⟩ := by
  rw [show t.answer path = _ from h, pageOf]
  simp only [readPage_pageBody hfit hentities]
  rfl

/-- Paths in order, with the entities that are listed behind each: every page names the next path,
and the last one names none. -/
def ServesChain (t : Transport) : List (String × List (String × Value)) → Prop
  | [] => False
  | [(path, resources)] => Serves t path (pageBody none resources)
  | (path, resources) :: (next, more) :: rest =>
    next ≠ "" ∧ Serves t path (pageBody (some next) resources) ∧ ServesChain t ((next, more) :: rest)

/-- The pages of a list are served, and no path comes twice. -/
structure IsChain (t : Transport) (kind : Kind) (pages : List (String × List (String × Value))) :
    Prop where
  first : pages.head?.map Prod.fst = some (listPath kind)
  served : ServesChain t pages
  distinct : (pages.map Prod.fst).Nodup
  fit : ∀ page ∈ pages, IsFit page.2

theorem linked_of_chain {t : Transport} {pages : List (String × List (String × Value))}
    (h : ServesChain t pages) (hfit : ∀ page ∈ pages, IsFit page.2)
    (hentities : ∀ page ∈ pages, ∀ one ∈ page.2, IsEntity one.2 (recordOf one.2)) :
    Linked t (pages.map fun page => (page.1, listingOf recordOf page.2)) := by
  induction pages with
  | nil => exact h
  | cons page pages ih =>
    obtain ⟨path, resources⟩ := page
    obtain ⟨hpage, hpages⟩ := List.forall_mem_cons.1 hfit
    obtain ⟨hone, hmore⟩ := List.forall_mem_cons.1 hentities
    cases pages with
    | nil => exact pageOf_of_serves h hpage hone
    | cons second pages =>
      obtain ⟨hnext, hserves, hchain⟩ := h
      refine ⟨?_, ih hchain hpages hmore⟩
      rw [pageOf_of_serves hserves hpage hone, Option.filter_some_pos (by simpa using hnext)]

/-- **A list that is built is found as it was built in.** -/
theorem fetchAll_of_chain {t : Transport} {kind : Kind}
    {pages : List (String × List (String × Value))} (h : IsChain t kind pages)
    (hentities : ∀ page ∈ pages, ∀ one ∈ page.2, IsEntity one.2 (recordOf one.2)) :
    (t.fetchAll kind).answer = .ok (listingOf recordOf (pages.flatMap Prod.snd)) := by
  have hpaged : IsPaged t kind (pages.map fun page => (page.1, listingOf recordOf page.2)) := by
    refine ⟨?_, linked_of_chain h.served h.fit hentities, ?_⟩
    · rw [← h.first]
      cases pages <;> rfl
    · rw [List.map_map]
      exact h.distinct
  rw [Transport.fetchAll_of_pages hpaged, List.flatMap_map, listingOf, List.map_flatMap]
  rfl

/-- **A single entity that is built is found.** -/
theorem fetchOne_of_serves {t : Transport} {kind : Kind} {guid : Guid} {raw : String} {entity : Value}
    {r : Record} (h : IsEntity entity r) (hexact : entity.isExact)
    (hdepth : entity.depth ≤ nestingLimit - 1)
    (hserves : Serves t (entityPath kind guid.text) (entityBody raw entity)) :
    (t.fetchOne kind guid).answer = .ok r := by
  have hfull : (bytesOf (document (entityBody raw entity))).all isBlank = false := by
    rw [document, bytesOf_ofList, canonical_entityBody, Value.write, List.cons_append,
      utf8_cons_of_lt (by decide), List.all_cons]
    rfl
  rw [Transport.fetchOne, show t.answer _ = _ from hserves]
  simp only [hfull, readEntity_entityBody h hexact hdepth]
  rfl

end

/-! ## Any bodies -/

/-- The meaning is one of the record, with whatever levels left. -/
def IsRecordOf (m : Meaning) (r : Record) : Prop :=
  ∃ levels data, Record.schema.Holds levels m data ∧ Record.ofData data = r

/-- **An entity is one record, wherever it is read.** -/
theorem IsRecordOf.unique {m : Meaning} {r r' : Record} (h : IsRecordOf m r)
    (h' : IsRecordOf m r') : r = r' := by
  obtain ⟨levels, data, hdata, rfl⟩ := h
  obtain ⟨levels', data', hdata', rfl⟩ := h'
  rw [Schema.Holds.unique hdata hdata']

/-- The part stands in the whole under its name, or in a list of fields at its place. -/
inductive Contains (name : String) (place : Nat) (part : Meaning) : Meaning → Prop
  | named {members : List (Option String × Meaning)} (h : (some name, part) ∈ members) :
    Contains name place part (.object members)
  | placed {items : List Meaning} (h : items[place]? = some part) :
    Contains name place part (.array items)

theorem given_of_mem {α : Type} {H : Meaning → α → Prop} {name : String} {part : Meaning}
    {members : List (String × Meaning)} {given : Option α}
    (hmem : (some name, part) ∈ named members) (h : OrAbsent H (called name members) given) :
    ∃ a, given = some a ∧ H part a := by
  obtain ⟨m, hm, heq⟩ := List.mem_map.1 hmem
  obtain ⟨hname, rfl⟩ := Prod.mk.inj heq
  have hcalled : m ∈ called name members :=
    List.mem_filter.2 ⟨hm, by simpa using Option.some.inj hname⟩
  rcases h with ⟨hnil, -⟩ | ⟨_, _, a, hone, rfl, ha⟩
  · rw [hnil] at hcalled
    cases hcalled
  · rw [hone] at hcalled
    obtain rfl := List.mem_singleton.1 hcalled
    exact ⟨a, rfl, ha⟩

theorem given_of_orNull {α : Type} {H : Meaning → α → Prop} {m : Meaning} {given : Option α}
    (h : OrNull H m given) (hne : m ≠ .null) : ∃ a, given = some a ∧ H m a := by
  rcases h with ⟨hnull, -⟩ | ⟨-, h⟩
  · exact absurd hnull hne
  · exact h

theorem isRecordOf_of_orNull {levels : Nat} {m : Meaning} {given : Option Record.schema.Carrier}
    (h : OrNull (Record.schema.Holds levels) m given) (hne : m ≠ .null) :
    ∃ r, given.map Record.ofData = some r ∧ IsRecordOf m r := by
  obtain ⟨data, rfl, hdata⟩ := given_of_orNull h hne
  exact ⟨_, rfl, levels, data, hdata, rfl⟩

/-- The entity in an envelope. -/
theorem isRecordOf_of_envelope {levels : Nat} {whole entity : Meaning} {data : envelope.Carrier}
    (h : envelope.Holds (levels + 1) whole data) (hcontains : Contains "entity" 0 entity whole)
    (hne : entity ≠ .null) : ∃ r, unwrap data = some r ∧ IsRecordOf entity r := by
  obtain ⟨given, ⟨⟩⟩ := data
  rcases h with ⟨items, rfl, h⟩ | ⟨members, rfl, h⟩
  · cases hcontains with
    | placed hplace =>
      rcases h with ⟨rfl, -⟩ | ⟨m, more, content, rfl, rfl, hcontent, -⟩
      · cases hplace
      · obtain rfl := Option.some.inj hplace
        exact isRecordOf_of_orNull hcontent hne
  · cases hcontains with
    | named hmem =>
      obtain ⟨content, rfl, hcontent⟩ := given_of_mem hmem h.1
      exact isRecordOf_of_orNull hcontent hne

/-- The entity that a page lists. -/
theorem isRecordOf_of_resource {levels : Nat} {whole entity : Meaning} {data : resource.Carrier}
    (h : resource.Holds (levels + 1) whole data) (hcontains : Contains "entity" 1 entity whole)
    (hne : entity ≠ .null) : IsRecordOf entity (listed data).2 := by
  obtain ⟨⟨guid, ⟨⟩⟩, given, ⟨⟩⟩ := data
  obtain ⟨content, rfl, hcontent⟩ : ∃ content, given = some content
      ∧ OrNull (Record.schema.Holds levels) entity content := by
    rcases h with ⟨items, rfl, h⟩ | ⟨members, rfl, h⟩
    · cases hcontains with
      | placed hplace =>
        obtain ⟨first, more, rfl, -, h⟩ := h
        rcases h with ⟨rfl, -⟩ | ⟨m, more, content, rfl, rfl, hcontent, -⟩
        · cases hplace
        · obtain rfl := Option.some.inj hplace
          exact ⟨content, rfl, hcontent⟩
    · cases hcontains with
      | named hmem =>
        obtain ⟨-, hentity, -⟩ := h
        rw [called_others (by decide)] at hentity
        exact given_of_mem hmem hentity
  obtain ⟨r, hr, hrecord⟩ := isRecordOf_of_orNull hcontent hne
  show IsRecordOf entity ((content.map Record.ofData).getD .empty)
  rwa [hr]

/-- What a page lists. -/
theorem listed_of_page {levels : Nat} {whole : Meaning} {items : List Meaning}
    {data : pageSchema.Carrier} (h : pageSchema.Holds (levels + 2) whole data)
    (hcontains : Contains "resources" 1 (.array items) whole) :
    ∃ all : List resource.Carrier, List.Forall₂ (resource.Holds levels) items all
      ∧ (pageOfData data).listing = all.map listed := by
  obtain ⟨next, given, ⟨⟩⟩ := data
  obtain ⟨all, rfl, hall⟩ : ∃ all, given = some all
      ∧ (Schema.list resource).Holds (levels + 1) (.array items) all := by
    rcases h with ⟨fields, rfl, h⟩ | ⟨members, rfl, h⟩
    · cases hcontains with
      | placed hplace =>
        rcases h with ⟨rfl, -⟩ | ⟨first, more, _, rfl, -, -, h⟩
        · cases hplace
        · rcases h with ⟨rfl, -⟩ | ⟨m, more, content, rfl, rfl, hcontent, -⟩
          · cases hplace
          · obtain rfl := Option.some.inj hplace
            exact ⟨content, rfl, hcontent⟩
    · cases hcontains with
      | named hmem =>
        obtain ⟨-, hresources, -⟩ := h
        rw [called_others (by decide)] at hresources
        exact given_of_mem hmem hresources
  obtain ⟨_, hitems, hall⟩ := hall
  cases hitems
  exact ⟨all, hall, rfl⟩

/-! ## The same record everywhere -/

/-- **One entity is one record.** A list that is built of entities is found as their guids and
records in order, and each of these entities alone is found as the same record. More generally, an
entity makes one record wherever it is read: in an envelope, on a page or as a document of its own,
whatever else stands around it. -/
theorem entity_record :
    (∀ (t : Transport) (kind : Kind) (pages : List (String × List (String × Value)))
        (recordOf : Value → Record), IsChain t kind pages →
      (∀ page ∈ pages, ∀ one ∈ page.2, IsEntity one.2 (recordOf one.2)) →
      (t.fetchAll kind).answer
          = .ok ((pages.flatMap Prod.snd).map fun one => (one.1, recordOf one.2))
        ∧ ∀ one ∈ pages.flatMap Prod.snd, ∀ (guid : Guid) (t' : Transport),
            Guid.canonicalize one.1 = .ok guid →
            Serves t' (entityPath kind guid.text) (entityBody one.1 one.2) →
            (t'.fetchOne kind guid).answer = .ok (recordOf one.2))
    ∧ ∀ members : List (Option String × Meaning), ∃ r : Record,
        (∀ (text : String) (whole : Meaning) (found : Option Record),
          Document text.toList whole → Contains "entity" 0 (.object members) whole →
          readEntity (bytesOf text) = .ok found → found = some r)
        ∧ (∀ (text : String) (whole : Meaning) (items : List Meaning) (page : Page),
          Document text.toList whole → Contains "resources" 1 (.array items) whole →
          readPage (bytesOf text) = .ok page →
          List.Forall₂ (fun item found => Contains "entity" 1 (.object members) item → found.2 = r)
            items page.listing)
        ∧ ∀ (text : String) (found : Record), Document text.toList (.object members) →
          Record.decode (bytesOf text) = .ok found → found = r := by
  constructor
  · intro t kind pages recordOf hchain hentities
    refine ⟨fetchAll_of_chain hchain hentities, fun one hone guid t' _ hserves => ?_⟩
    obtain ⟨page, hpage, hone⟩ := List.mem_flatMap.1 hone
    obtain ⟨hexact, hdepth⟩ := (hchain.fit page hpage).mem hone
    exact fetchOne_of_serves (hentities page hpage one hone) hexact (by omega) hserves
  · intro members
    -- An entity that is no record anywhere is never found, so any record will do.
    obtain ⟨r, hr⟩ : ∃ r, ∀ found, IsRecordOf (.object members) found → found = r := by
      by_cases hrecord : ∃ r, IsRecordOf (.object members) r
      · obtain ⟨r, hr⟩ := hrecord
        exact ⟨r, fun found hfound => hfound.unique hr⟩
      · exact ⟨.empty, fun found hfound => absurd ⟨found, hfound⟩ hrecord⟩
    have hne : Meaning.object members ≠ .null := by rintro ⟨⟩
    refine ⟨r, fun text whole found hwhole hcontains hread => ?_,
      fun text whole items page hwhole hcontains hread => ?_, fun text found hentity hread => ?_⟩
    · obtain ⟨data, hdata, rfl⟩ := exists_of_map hread
      obtain ⟨r', hr', hrecord⟩ := isRecordOf_of_envelope (holds_of_decode hwhole hdata) hcontains hne
      rw [hr', hr r' hrecord]
    · obtain ⟨data, hdata, rfl⟩ := exists_of_map hread
      obtain ⟨all, hall, hlisting⟩ := listed_of_page (holds_of_decode hwhole hdata) hcontains
      rw [hlisting, List.forall₂_map_right_iff]
      exact hall.imp fun item data hdata hitem => hr _ (isRecordOf_of_resource hdata hitem hne)
    · obtain ⟨data, hdata, rfl⟩ := exists_of_map hread
      exact hr _ ⟨_, data, holds_of_decode hentity hdata, rfl⟩

/-- Two pages of organizations, and the body of one of them alone. -/
def twoPages : Routes :=
  [(listPath .organization, .respond ⟨200, bytesOf (document
      (pageBody (some "/v2/organizations?page=2")
        [("6BA7B8109DAD11D180B400C04FD430C8", organizationEntity "acme")]))⟩),
    ("/v2/organizations?page=2", .respond ⟨200, bytesOf (document
      (pageBody none [("x", organizationEntity "umbrella")]))⟩),
    ("/v2/organizations/6ba7b810-9dad-11d1-80b4-00c04fd430c8", .respond ⟨200, bytesOf (document
      (entityBody "6BA7B8109DAD11D180B400C04FD430C8" (organizationEntity "acme")))⟩)]

/-- The record of an object. -/
def recordOfValue : Value → Record
  | .object members => .ofMembers members
  | _ => .empty

theorem isEntity_organization (name : String) :
    IsEntity (organizationEntity name) (.named name) := by
  have hdocument : Document (document (organizationEntity name)).toList
      (Value.object [("name", .string name)]).meaning := document_means rfl
  exact ⟨⟨_, rfl⟩, (Record.decode_document hdocument).2 ⟨Record.isRecord_named _ name, rfl⟩⟩

/-- An organization is listed under a guid in capitals and found under the canonical one. -/
theorem entity_record_capitals :
    (twoPages.transport.fetchAll .organization).answer
        = .ok [("6BA7B8109DAD11D180B400C04FD430C8", .named "acme"), ("x", .named "umbrella")]
      ∧ ∃ guid, Guid.canonicalize "6BA7B8109DAD11D180B400C04FD430C8" = .ok guid
        ∧ (twoPages.transport.fetchOne .organization guid).answer = .ok (.named "acme") := by
  obtain ⟨guid, hguid, htext⟩ : ∃ guid,
      Guid.canonicalize "6BA7B8109DAD11D180B400C04FD430C8" = .ok guid
        ∧ guid.text = "6ba7b810-9dad-11d1-80b4-00c04fd430c8" := ⟨_, rfl, by decide +kernel⟩
  have hchain : IsChain twoPages.transport .organization
      [(listPath .organization, [("6BA7B8109DAD11D180B400C04FD430C8", organizationEntity "acme")]),
        ("/v2/organizations?page=2", [("x", organizationEntity "umbrella")])] :=
    ⟨rfl, ⟨by decide, rfl, rfl⟩, by decide,
      List.forall_mem_cons.2 ⟨⟨by decide +kernel, by decide +kernel⟩,
        List.forall_mem_singleton.2 ⟨by decide +kernel, by decide +kernel⟩⟩⟩
  obtain ⟨hall, hone⟩ := entity_record.1 twoPages.transport .organization _
    recordOfValue hchain (List.forall_mem_cons.2 ⟨List.forall_mem_singleton.2 (isEntity_organization "acme"),
      List.forall_mem_singleton.2 (List.forall_mem_singleton.2 (isEntity_organization "umbrella"))⟩)
  refine ⟨hall, guid, hguid, hone _ List.mem_cons_self guid _ hguid ?_⟩
  rw [htext]
  rfl

end Remote

end MetaCache
