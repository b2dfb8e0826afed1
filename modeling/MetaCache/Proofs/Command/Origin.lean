import MetaCache.Command.Run
import MetaCache.Proofs.Cache.Asked
import MetaCache.Proofs.Remote.Origin

/-!
# A run stays within the origin

The requests of a run are those for the paths in its report. All of them go to the origin of the
base address, and the run depends on no other answer of the web: where the answers to these requests
are the same, so is the whole report (`run_within_origin`).
-/

namespace MetaCache

open MetaCache.Remote MetaCache.Store

namespace Remote

/-- Two webs answer some requests in the same way. -/
def Web.AgreesOn (web web' : Web) (requests : List Request) : Prop :=
  ∀ request ∈ requests, web'.deliver request = web.deliver request

/-- The requests for some paths. -/
def Client.requests (c : Client) (paths : List String) : List Request := paths.filterMap c.request?

theorem Client.answer_congr {c : Client} {web web' : Web} {paths : List String}
    (h : web.AgreesOn web' (c.requests paths)) {path : String} (hpath : path ∈ paths) :
    c.answer web' path = c.answer web path := by
  unfold answer
  rw [get_congr fun request hrequest => h request (List.mem_filterMap.2 ⟨path, hpath, hrequest⟩)]

end Remote

namespace Command

/-- The outside is the same but for the answers to other requests. -/
structure Outside.AgreesOn (o o' : Outside) (requests : List Request) : Prop where
  now : o'.now = o.now
  draw : o'.draw = o.draw
  web : o.web.AgreesOn o'.web requests

theorem world_agreesOn {outside outside' : Nat → Outside} {client : Client} {paths : List String}
    (h : ∀ n, (outside n).AgreesOn (outside' n) (client.requests paths)) :
    (Outside.world outside client).AgreesOn (Outside.world outside' client) paths where
  now n := (h n).now
  draw n := (h n).draw
  fetcher n := Transport.fetcher_agreesOn fun _ hp => Client.answer_congr (h n).web hp

theorem confined_resolveNext (cache : Cache) (p : Progress) (guid : String) :
    Cache.Confined (resolveNext cache p guid) := by
  unfold resolveNext
  refine (cache.confined_resolveApp guid).attempt.bind fun result => ?_
  cases result with
  | ok app => exact .pure _
  | error e => exact .pure _

theorem confined_work (cache : Cache) (a : Arguments) : Cache.Confined (work cache a) := by
  have hresolve (start : Progress) : Cache.Confined (a.guids.foldlM (resolveNext cache) start) :=
    .foldlM (confined_resolveNext cache) start a.guids
  unfold work
  simp only
  split
  · exact cache.confined_fillAll.bind fun report => (Cache.Confined.pure _).bind hresolve
  · exact (Cache.Confined.pure _).bind hresolve

theorem asked_finish (c : Config) (disk : Disk) (worked : Except Error Progress × Cache.State) :
    (finish c disk worked).asked = worked.2.asked := by
  rcases worked with ⟨e | p, s⟩ <;> rfl

theorem client_of_setUp {c : Config} {client : Client} (h : Client.ofSettings c.api = .ok client)
    {disk : Disk} {s : Setup} (hs : setUp c disk = .ok s) : s.client = client := by
  unfold setUp at hs
  rw [h] at hs
  cases hbackend : disk.backend c.cache with
  | error e => rw [hbackend] at hs; cases hs
  | ok backend =>
    cases hcache : Cache.ofSettings c.cache with
    | error e => rw [hbackend, hcache] at hs; cases hs
    | ok cache =>
      rw [hbackend, hcache] at hs
      cases hs
      rfl

/-- A run depends on nothing in the outside but the clock, chance, and the answers to its
requests. -/
theorem run_congr {c : Config} {client : Client} (hclient : Client.ofSettings c.api = .ok client)
    (a : Arguments) (disk : Disk) {outside outside' : Nat → Outside}
    (h : ∀ n, (outside n).AgreesOn (outside' n)
      (client.requests (run c a disk outside).asked)) :
    run c a disk outside' = run c a disk outside := by
  unfold run at h ⊢
  cases hsetup : setUp c disk with
  | error failure => rfl
  | ok s =>
    have hs : s.client = client := client_of_setUp hclient hsetup
    rw [hsetup] at h
    simp only [hs] at h ⊢
    cases hopen : s.backend.openStore with
    | mk result backend =>
      rw [hopen] at h
      cases result with
      | error e => rfl
      | ok done =>
        simp only [asked_finish] at h
        exact congrArg (finish c disk)
          ((confined_work s.cache a).congr (world_agreesOn h) (List.Subset.refl _))

/-- **Every request of a run goes to the origin of the base address**, whatever the web answers, and
the run depends on no answer to any other request. For a path there is at most one request. For a
cursor that is an address of its own within another origin nothing is sent, and it is answered by an
error of transport. -/
theorem run_within_origin {c : Config} {client : Client}
    (hclient : Client.ofSettings c.api = .ok client) :
    (∀ (a : Arguments) (disk : Disk) (outside : Nat → Outside),
      (∀ request ∈ client.requests (run c a disk outside).asked,
        request.address.origin = client.base.origin)
      ∧ ∀ outside', (∀ n, (outside n).AgreesOn (outside' n)
          (client.requests (run c a disk outside).asked)) →
        run c a disk outside' = run c a disk outside)
    ∧ ∀ path : String,
      (∀ request, client.request? path = some request →
        request.address.origin = client.base.origin)
      ∧ (∀ web web', (∀ request, client.request? path = some request →
          web'.deliver request = web.deliver request) →
        client.get web' path = client.get web path)
      ∧ (∀ web, (client.get web path).sent.length ≤ 1
        ∧ ∀ request ∈ (client.get web path).sent, client.request? path = some request
          ∧ request.address.origin = client.base.origin)
      ∧ (Client.isAbsolute path →
        (∀ address, Url.read path.toList = .ok (.web address) →
          address.origin ≠ client.base.origin) →
        client.request? path = none
          ∧ (∀ web, (client.get web path).sent = [])
          ∧ ∃ reason, ∀ web, client.answer web path = .error (.remote (.transport reason))) := by
  refine ⟨fun a disk outside => ⟨fun request hrequest => ?_, fun outside' h => ?_⟩,
    fun path => ⟨fun request => ?_, fun web web' => ?_, fun web => ?_, ?_⟩⟩
  · obtain ⟨path, -, hpath⟩ := List.mem_filterMap.1 hrequest
    exact Client.origin_of_request hclient hpath
  · exact run_congr hclient a disk h
  · exact Client.origin_of_request hclient
  · exact Client.get_congr
  · rw [Client.sent_get]
    refine ⟨Option.length_toList_le, fun request hsent => ?_⟩
    have hrequest := Option.mem_toList.1 hsent
    exact ⟨hrequest, Client.origin_of_request hclient hrequest⟩
  · exact Client.request_of_foreign

/-- The address `http://[::1]`. -/
def loopback : Url.Address := ⟨.http, ⟨[], none⟩, .ipv6 [0, 0, 0, 0, 0, 0, 0, 1], none, [[]], none, none⟩

/-- A path with two slashes leads to no other host, and a cursor to another host leads nowhere. -/
theorem run_within_origin_loopback :
    ∃ client, Client.ofSettings ⟨"http://[::1]", none, 0, false⟩ = .ok client
      ∧ (∃ request, client.request? "//[::2]/" = some request
        ∧ request.address.origin = loopback.origin)
      ∧ client.request? "http://[::2]/" = none := by
  have hclient : Client.ofSettings ⟨"http://[::1]", none, 0, false⟩
    = .ok ⟨loopback, "http://[::1]", none⟩ := rfl
  have hpaths := (run_within_origin (c := ⟨⟨"http://[::1]", none, 0, false⟩, .inMemory 60, false⟩)
    hclient).2
  refine ⟨_, hclient, ?_, ?_⟩
  · obtain ⟨request, hrequest⟩ : ∃ request,
      Client.request? ⟨loopback, "http://[::1]", none⟩ "//[::2]/" = some request := ⟨_, rfl⟩
    exact ⟨request, hrequest, (hpaths _).1 request hrequest⟩
  · refine ((hpaths "http://[::2]/").2.2.2 rfl ?_).1
    intro address h horigin
    have hread : Url.read "http://[::2]/".toList
      = .ok (.web { loopback with host := .ipv6 [0, 0, 0, 0, 0, 0, 0, 2] }) := rfl
    rw [hread] at h
    cases h
    exact absurd horigin (by decide)

end Command

end MetaCache
