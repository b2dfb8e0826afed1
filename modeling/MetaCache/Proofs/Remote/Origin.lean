import MetaCache.Proofs.Url.Rereading
import MetaCache.Remote.Client

/-!
# Requests stay within the origin

Whatever path a client is asked for, the request goes to the origin of its base address, or there is
none (`origin_of_request`). A path that is an address of its own is compared with the base address,
and the text that its address is written as has the same origin. Any other path is put behind the
base address. Nothing but that request is sent (`sent_get`): redirections are not followed. So what
becomes of a path depends on the answer to its request and on no other answer (`get_congr`).
-/

namespace MetaCache.Remote

open MetaCache.Url

namespace Client

variable {c : Client}

theorem of_ofSettings {s : ApiSettings} (h : ofSettings s = .ok c) :
    Url.read s.baseUrl.toList = .ok (.web c.base) ∧ c.baseUrl = withoutSlashes s.baseUrl := by
  unfold ofSettings at h
  split at h
  · cases h
  · cases h
  · next base hread =>
    split at h
    · cases h
      exact ⟨hread, rfl⟩
    · cases h

/-- A text is the text without the slashes at its end, and slashes. -/
theorem exists_slashes (text : String) :
    ∃ slashes, (∀ c ∈ slashes, c = '/') ∧ text.toList = (withoutSlashes text).toList ++ slashes := by
  refine ⟨(text.toList.reverse.takeWhile (· = '/')).reverse, ?_, ?_⟩
  · intro c hc
    simpa using List.all_eq_true.1 List.all_takeWhile c (List.mem_reverse.1 hc)
  · rw [withoutSlashes, String.toList_ofList, ← List.reverse_append,
      List.takeWhile_append_dropWhile, List.reverse_reverse]

/-- A path is put behind the base address and a slash. -/
theorem exists_join (c : Client) (path : String) :
    ∃ rest, (c.join path).toList = c.baseUrl.toList ++ '/' :: rest := by
  unfold join
  split
  · next hslash =>
    obtain ⟨rest, hrest⟩ := List.head?_eq_some_iff.1 hslash
    exact ⟨rest, by rw [String.toList_append, hrest]⟩
  · exact ⟨path.toList, by simp⟩

/-- The text of a cursor's address is within the origin of the base address, like the cursor. -/
theorem origin_of_cursorUrl {cursor url : String} (h : c.cursorUrl cursor = .ok url)
    {address : Address} (hread : Url.read url.toList = .ok (.web address)) :
    address.origin = c.base.origin := by
  unfold cursorUrl at h
  split at h
  · cases h
  · cases h
  · next compared hcursor =>
    split at h
    · next horigin =>
      cases h
      rw [Address.text, String.toList_ofList] at hread
      rw [← horigin]
      exact origin_of_reread hcursor hread
    · cases h

theorem lead_of_urlOf {path url : String} (h : c.urlOf path = .ok url) :
    c.lead path = match Url.read url.toList with
      | .ok (.web address) => .ok ⟨url, address⟩
      | _ => .error (.unreadable url) := by
  unfold Client.lead
  rw [h]
  rfl

/-- What a path leads to is what the text of its address is read as. -/
theorem read_of_lead {path : String} {lead : Lead} (h : c.lead path = .ok lead) :
    c.urlOf path = .ok lead.url ∧ Url.read lead.url.toList = .ok (.web lead.address) := by
  cases hurl : c.urlOf path with
  | error fault =>
    unfold Client.lead at h
    rw [hurl] at h
    cases h
  | ok url =>
    rw [lead_of_urlOf hurl] at h
    split at h
    · next hread =>
      cases h
      exact ⟨rfl, hread⟩
    · cases h

/-- Where a path leads is within the origin of the base address. -/
theorem origin_of_lead {s : ApiSettings} (hc : ofSettings s = .ok c) {path : String} {lead : Lead}
    (h : c.lead path = .ok lead) : lead.address.origin = c.base.origin := by
  obtain ⟨hurlOf, hread⟩ := read_of_lead h
  unfold urlOf at hurlOf
  split at hurlOf
  · exact origin_of_cursorUrl hurlOf hread
  · rw [← Except.ok.inj hurlOf] at hread
    obtain ⟨hbase, hurl⟩ := of_ofSettings hc
    obtain ⟨slashes, hslashes, htext⟩ := exists_slashes s.baseUrl
    obtain ⟨rest, hjoin⟩ := c.exists_join path
    rw [htext] at hbase
    rw [hjoin, hurl] at hread
    exact origin_of_extended hslashes hbase hread

theorem origin_introduce (c : Client) (address : Address) :
    (c.introduce address).1.origin = address.origin := by
  unfold introduce
  split <;> rfl

theorem errand_of_lead {path : String} {lead : Lead} (h : c.lead path = .ok lead) :
    c.errand path =
      if canSend (c.introduce lead.address).1 then
        .ok ⟨lead.url, (c.introduce lead.address).1, (c.introduce lead.address).2⟩
      else .error (.unsendable lead.url (c.introduce lead.address).1) := by
  unfold errand
  rw [h]
  rfl

theorem errand_of_fault {path : String} {fault : ClientFault} (h : c.lead path = .error fault) :
    c.errand path = .error fault := by
  unfold errand
  rw [h]
  rfl

/-- **Every request goes to the origin of the base address.** -/
theorem origin_of_request {s : ApiSettings} (hc : ofSettings s = .ok c) {path : String}
    {request : Request} (h : c.request? path = some request) :
    request.address.origin = c.base.origin := by
  unfold request? at h
  cases hlead : c.lead path with
  | error fault =>
    rw [errand_of_fault hlead] at h
    cases h
  | ok lead =>
    rw [← origin_of_lead hc hlead, ← c.origin_introduce lead.address]
    rw [errand_of_lead hlead] at h
    by_cases hsend : canSend (c.introduce lead.address).1
    · rw [if_pos hsend] at h
      cases h
      rfl
    · rw [if_neg hsend] at h
      cases h

/-- A cursor that leads to another origin, or nowhere, is asked of no one. -/
theorem request_of_foreign {path : String} (habsolute : isAbsolute path)
    (hforeign : ∀ address, Url.read path.toList = .ok (.web address) →
      address.origin ≠ c.base.origin) :
    c.request? path = none
      ∧ (∀ web, (c.get web path).sent = [])
      ∧ ∃ reason, ∀ web, c.answer web path = .error (.remote (.transport reason)) := by
  have hurl : ∃ fault, c.urlOf path = .error fault := by
    unfold urlOf cursorUrl
    rw [if_pos habsolute]
    split
    · exact ⟨_, rfl⟩
    · exact ⟨_, rfl⟩
    · next address hread =>
      rw [if_neg (hforeign address hread)]
      exact ⟨_, rfl⟩
  have hlead : ∃ fault, c.lead path = .error fault := by
    obtain ⟨fault, hfault⟩ := hurl
    refine ⟨fault, ?_⟩
    unfold Client.lead
    rw [hfault]
    rfl
  obtain ⟨fault, hfault⟩ := hlead
  have herrand := errand_of_fault hfault
  refine ⟨by rw [request?, herrand], fun web => by rw [get, herrand], fault.reason, fun web => ?_⟩
  rw [answer, get, herrand]
  rfl

/-! ## Answers -/

/-- **What is sent for a path is its request**, whatever the answer. -/
theorem sent_get (c : Client) (web : Web) (path : String) :
    (c.get web path).sent = (c.request? path).toList := by
  unfold get request?
  cases c.errand path <;> rfl

/-- **What becomes of a path depends on the answer to one request.** -/
theorem get_congr {path : String} {web web' : Web}
    (h : ∀ request, c.request? path = some request → web'.deliver request = web.deliver request) :
    c.get web' path = c.get web path := by
  unfold get
  unfold request? at h
  split
  · rfl
  · next e herrand =>
    rw [herrand] at h
    rw [Errand.send, Errand.send, h _ rfl]

end Client

end MetaCache.Remote
