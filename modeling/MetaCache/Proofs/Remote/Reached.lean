import MetaCache.Proofs.Remote.Origin
import MetaCache.Proofs.Remote.Paths
import MetaCache.Proofs.Url.Joining

/-!
# Where the paths of the fetcher lead

The fetcher builds paths of two kinds, which are plain: nothing in them is written in another way
when an address is read. A client puts them behind the text of its base address. They lead below the
base address, if a slash behind that text does (`IsSeat`), and otherwise none of them does, though
the base address was accepted (`built_reaches`). A tidy base address always is a seat; what stands
in the way are a query, a fragment, margins behind the address, and slashes that are not the last
characters of the text but are the last of the path.
-/

namespace MetaCache.Remote

open MetaCache.Json MetaCache.Text MetaCache.Url

/-- Paths that the fetcher builds, with their segments and their query. -/
inductive Built : String → List (List Char) → Option (List Char) → Prop
  | entity (kind : Kind) (guid : Guid) :
    Built (entityPath kind guid.text) ["v2".toList, kind.segment.toList, guid.text.toList] none
  | list (kind : Kind) :
    Built (listPath kind) ["v2".toList, kind.segment.toList] (some "results-per-page=100".toList)

/-- The address has the origin of the base address, and behind the path of the base address, its
last slashes apart, a path of its own and its query. -/
structure Reaches (base : Address) (segments : List (List Char)) (query : Option (List Char))
    (a : Address) : Prop where
  origin : a.origin = base.origin
  path : a.path = trimPath base.path ++ segments
  query : a.query = query

namespace Built

variable {path : String} {segments : List (List Char)} {query : Option (List Char)}

theorem toList_eq (h : Built path segments query) :
    path.toList = slashed segments ++ queryText query := by
  cases h with
  | entity kind guid => simp [entityPath, slashed, queryText]
  | list kind => cases kind <;> decide

theorem isPlain_segment (kind : Kind) : IsPlain kind.segment.toList := by
  cases kind <;> decide

theorem isPlain_guid (guid : Guid) : IsPlain guid.text.toList := by
  have hdigit : ∀ d, pathSet (hexChar d) = false ∧ isSlash (hexChar d) = false
      ∧ hexChar d ≠ '.' ∧ hexChar d ≠ '%' := by decide
  intro c hc
  rw [Guid.text, String.toList_ofList] at hc
  rcases Spelling.mem_fill hc with rfl | ⟨d, rfl⟩
  · decide
  · exact hdigit d

theorem isPlainPath (h : Built path segments query) : IsPlainPath segments query := by
  have hv2 : IsPlain "v2".toList := by decide
  cases h with
  | entity kind guid =>
    refine ⟨by simp, ?_, by simp⟩
    simp only [List.forall_mem_cons]
    exact ⟨hv2, isPlain_segment kind, isPlain_guid guid, by simp⟩
  | list kind =>
    have hquery : "results-per-page=100".toList.all (!querySet ·) := by decide
    refine ⟨by simp, ?_, fun cs hcs c hc => ?_⟩
    · simp only [List.forall_mem_cons]
      exact ⟨hv2, isPlain_segment kind, by simp⟩
    · obtain rfl := Option.some.inj hcs
      simpa using List.all_eq_true.1 hquery c hc

theorem segment_ne_nil (h : Built path segments query) : ∀ segment ∈ segments, segment ≠ [] := by
  have hkind (kind : Kind) : kind.segment.toList ≠ [] := by cases kind <;> decide
  have hguid (guid : Guid) : guid.text.toList ≠ [] := by
    intro hnil
    have hsize := (Guid.isCanonical_text guid).size
    rw [bytesOf, String.toList_eq_nil_iff.1 hnil] at hsize
    cases hsize
  cases h with
  | entity kind guid => simp [hkind, hguid]
  | list kind => simp [hkind]

end Built

namespace Client

variable {c : Client} {s : ApiSettings} {path : String} {segments : List (List Char)}
  {query : Option (List Char)}

/-- A path that is built leads where the text of the base address leads with it. -/
theorem lead_built (hpath : Built path segments query) :
    c.lead path = match Url.read (c.baseUrl.toList ++ (slashed segments ++ queryText query)) with
      | .ok (.web address) => .ok ⟨c.join path, address⟩
      | _ => .error (.unreadable (c.join path)) := by
  have hhead : path.toList.head? = some '/' := by
    obtain ⟨rest, hrest, -⟩ := hpath.isPlainPath.exists_rest
    rw [hpath.toList_eq, hrest]
    rfl
  have habsolute : isAbsolute path = false := by
    obtain ⟨rest, hrest⟩ := List.head?_eq_some_iff.1 hhead
    rw [isAbsolute, hrest]
    rfl
  have hjoin : (c.join path).toList = c.baseUrl.toList ++ (slashed segments ++ queryText query) := by
    rw [join, if_pos hhead, String.toList_append, hpath.toList_eq]
  have hurl : c.urlOf path = .ok (c.join path) := by
    rw [urlOf, habsolute]
    rfl
  have hlead := lead_of_urlOf hurl
  rw [hjoin] at hlead
  exact hlead

/-- Only the user is taken out of an address. -/
theorem introduce_address (c : Client) (address : Address) :
    (c.introduce address).1 = address ∨ (c.introduce address).1 = address.withoutUser := by
  unfold introduce
  split
  · exact .inr rfl
  · exact .inl rfl

theorem reaches_introduce {base address : Address} :
    Reaches base segments query { (c.introduce address).1 with fragment := none } ↔
      Reaches base segments query address := by
  rcases c.introduce_address address with h | h <;> rw [h] <;>
    exact ⟨fun ⟨ho, hp, hq⟩ => ⟨ho, hp, hq⟩, fun ⟨ho, hp, hq⟩ => ⟨ho, hp, hq⟩⟩

theorem reaches_below (base : Address) (segments : List (List Char)) (query : Option (List Char)) :
    Reaches base segments query (base.below segments query) := ⟨rfl, rfl, rfl⟩

/-- What a request comes from. -/
theorem request?_eq_some_iff {request : Request} :
    c.request? path = some request ↔
      ∃ lead, c.lead path = .ok lead ∧ canSend (c.introduce lead.address).1
        ∧ request = ⟨{ (c.introduce lead.address).1 with fragment := none },
            (c.introduce lead.address).2⟩ := by
  unfold request?
  constructor
  · intro h
    cases hlead : c.lead path with
    | error fault =>
      rw [errand_of_fault hlead] at h
      cases h
    | ok lead =>
      rw [errand_of_lead hlead] at h
      by_cases hsend : canSend (c.introduce lead.address).1
      · rw [if_pos hsend] at h
        exact ⟨lead, rfl, hsend, (Option.some.inj h).symm⟩
      · rw [if_neg hsend] at h
        cases h
  · rintro ⟨lead, hlead, hsend, rfl⟩
    rw [errand_of_lead hlead, if_pos hsend]
    rfl

/-- **The paths of the fetcher reach the API from a seat, and from nowhere else.** If the base address
was accepted, a path that the fetcher builds is requested at the origin of the base address, below
its path and with the query of its own if and only if a slash behind the text of the base address
leads to its root, and something can be sent to the host. All tidy base addresses are seats,
whatever margins stand in front of them and however many slashes at their end. -/
theorem built_reaches (hc : ofSettings s = .ok c) (hpath : Built path segments query) :
    ((∃ request, c.request? path = some request ∧ Reaches c.base segments query request.address) ↔
      IsSeat c.baseUrl.toList c.base ∧ canSend (c.introduce (c.base.below segments query)).1)
      ∧ ((∃ margins scheme authority front,
          IsTidy c.baseUrl.toList margins scheme authority front) →
        IsSeat c.baseUrl.toList c.base) := by
  obtain ⟨hbase, hurl⟩ := of_ofSettings hc
  obtain ⟨slashes, hslashes, htext⟩ := exists_slashes s.baseUrl
  rw [htext, ← hurl] at hbase
  obtain ⟨scheme, tail, margins, authority, hshares⟩ := exists_shares hslashes hbase
  have hlead := lead_built (c := c) hpath
  refine ⟨⟨?reaches, ?seat⟩, ?tidy⟩
  case reaches =>
    rintro ⟨request, hrequest, hreaches⟩
    obtain ⟨lead, hok, hsend, rfl⟩ := request?_eq_some_iff.1 hrequest
    rw [reaches_introduce] at hreaches
    have hread : Url.read (c.baseUrl.toList ++ (slashed segments ++ queryText query))
        = .ok (.web lead.address) := by
      rw [hlead] at hok
      split at hok
      · next address hread => cases hok; exact hread
      · cases hok
    have hseat := hshares.isSeat_of_read hpath.isPlainPath hpath.segment_ne_nil hread hreaches.path
    rw [hshares.read_below hseat hpath.isPlainPath] at hread
    have haddress : c.base.below segments query = lead.address :=
      Target.web.inj (Except.ok.inj hread)
    exact ⟨hseat, by rwa [haddress]⟩
  case seat =>
    rintro ⟨hseat, hsend⟩
    rw [hshares.read_below hseat hpath.isPlainPath] at hlead
    exact ⟨_, request?_eq_some_iff.2 ⟨_, hlead, hsend, rfl⟩, reaches_introduce.2 (reaches_below ..)⟩
  case tidy =>
    rintro ⟨margins, scheme, authority, front, htidy⟩
    exact htidy.isSeat hslashes hbase

/-- A base address with margins in front of it, uppercase letters, a user, a path and two slashes at
its end. -/
def spacious : ApiSettings := .ofBaseUrl "\t HTTPS://Me@API.test:443/Base//"

/-- Its client asks for an entity below the base address. -/
theorem built_reaches_spacious :
    ∃ c request, ofSettings spacious = .ok c
      ∧ c.request? (listPath .app) = some request
      ∧ Reaches c.base ["v2".toList, "apps".toList] (some "results-per-page=100".toList)
        request.address := by
  have hsent : (match ofSettings spacious with
    | .ok c => decide (IsSeat c.baseUrl.toList c.base)
      && canSend (c.introduce (c.base.below ["v2".toList, "apps".toList]
        (some "results-per-page=100".toList))).1
    | .error _ => false) = true := by
    decide +kernel
  cases hc : ofSettings spacious with
  | error e => rw [hc] at hsent; cases hsent
  | ok c =>
    simp only [hc, Bool.and_eq_true, decide_eq_true_eq] at hsent
    obtain ⟨request, hrequest, hreaches⟩ := (built_reaches hc (.list .app)).1.2 hsent
    exact ⟨c, request, rfl, hrequest, hreaches⟩

/-- A blank behind the address is accepted, though nothing is found below it. -/
example : (match ofSettings (.ofBaseUrl "http://api.test ") with
    | .ok c => decide (¬ IsSeat c.baseUrl.toList c.base)
    | .error _ => false) = true := by
  decide +kernel

end Client

end MetaCache.Remote
