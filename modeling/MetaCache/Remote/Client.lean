import MetaCache.Remote.Web
import MetaCache.Settings.Api
import MetaCache.Text.Quoted

/-!
# The client of the API

A client asks for paths below its base address. A path that is an address of its own, as a cursor
may be, is asked for as it stands, but only within the origin of the base address, because every
request carries the token. A path leads to at most one request: redirections are answers like any
other.

The base address is kept twice: taken apart, for its origin, and as it was given, to put paths
behind it. What is sent goes to the address that a text is read as. So a cursor is read twice: as it
stands, to compare its origin, and as the text that its address is written as.
-/

namespace MetaCache.Remote

open MetaCache.Text MetaCache.Url

/-- Why there is no client for some settings. -/
inductive ClientError
  | invalidBaseUrl (url reason : String)
  | invalidToken
  deriving DecidableEq, Repr

def ClientError.message : ClientError → String
  | .invalidBaseUrl url reason => "Invalid base URL " ++ quoted url ++ ": " ++ reason
  | .invalidToken => "Invalid token: failed to parse header value"

/-- Why a path has no answer. -/
inductive ClientFault
  | invalidCursor (cursor : String) (why : AddressError)
  | foreignCursor (cursor : String) (origin : Address.Origin)
  /-- The text is no address. -/
  | unreadable (url : String)
  /-- Nothing can be sent to the address. -/
  | unsendable (url : String) (address : Address)
  | unanswered (url : String) (address : Address)
  | truncated (url : String)
  deriving DecidableEq, Repr

def ClientFault.reason : ClientFault → String
  | .invalidCursor cursor why => "invalid cursor URL " ++ cursor ++ ": " ++ why.message
  | .foreignCursor cursor origin =>
    "cursor " ++ cursor ++ " is outside API origin " ++ origin.text
  | .unreadable url => "GET " ++ url ++ ": builder error"
  | .unsendable url address => "GET " ++ url ++ ": builder error for url (" ++ address.text ++ ")"
  | .unanswered url address =>
    "GET " ++ url ++ ": error sending request for url (" ++ address.text ++ ")"
  | .truncated url => "GET " ++ url ++ ": error decoding response body"

structure Client where
  base : Address
  /-- The base address as it was given, without slashes at its end. -/
  baseUrl : String
  token : Option String
  deriving DecidableEq, Repr

namespace Client

/-- Characters of a token: no control characters but the tab. -/
def isTokenChar (c : Char) : Bool := c = '\t' || 0x20 ≤ c.toNat && c ≠ '\x7f'

/-- A text without the slashes at its end. -/
def withoutSlashes (text : String) : String :=
  String.ofList (text.toList.reverse.dropWhile (· = '/')).reverse

/-- The client that settings describe. The address is looked at before the token. -/
def ofSettings (s : ApiSettings) : Except ClientError Client :=
  match Url.read s.baseUrl.toList with
  | .error why => .error (.invalidBaseUrl s.baseUrl why.message)
  | .ok (.foreign _) => .error (.invalidBaseUrl s.baseUrl "scheme must be http or https")
  | .ok (.web base) =>
    if s.token.all fun token => token.toList.all isTokenChar then
      .ok ⟨base, withoutSlashes s.baseUrl, s.token⟩
    else .error .invalidToken

/-! ## Where a path leads -/

/-- Whether a path is an address of its own. -/
def isAbsolute (path : String) : Bool :=
  "http://".toList.isPrefixOf path.toList || "https://".toList.isPrefixOf path.toList

/-- The text of the address that a cursor is. It must not lead away from the origin. -/
def cursorUrl (c : Client) (cursor : String) : Except ClientFault String :=
  match Url.read cursor.toList with
  | .error why => .error (.invalidCursor cursor why)
  | .ok (.foreign _) => .error (.foreignCursor cursor c.base.origin)
  | .ok (.web address) =>
    if address.origin = c.base.origin then .ok address.text
    else .error (.foreignCursor cursor c.base.origin)

/-- The base address with a path behind it. -/
def join (c : Client) (path : String) : String :=
  if path.toList.head? = some '/' then c.baseUrl ++ path else c.baseUrl ++ "/" ++ path

/-- The text of the address of a path. -/
def urlOf (c : Client) (path : String) : Except ClientFault String :=
  if isAbsolute path then c.cursorUrl path else .ok (c.join path)

/-- An address with a text of it. -/
structure Lead where
  url : String
  address : Address
  deriving DecidableEq, Repr

/-- Where a path leads: what the text of its address is read as. The text of a cursor's address is
what counts for the request, not the address that was compared with the base. -/
def lead (c : Client) (path : String) : Except ClientFault Lead := do
  let url ← c.urlOf path
  match Url.read url.toList with
  | .ok (.web address) => .ok ⟨url, address⟩
  | _ => .error (.unreadable url)

/-! ## Requests -/

/-- The user in front of the host, if there is one that can be read. -/
def userOf? (address : Address) : Option Credential := do
  let name ← Host.textOf? (decode address.userinfo.name)
  let password := address.userinfo.password.bind fun password => Host.textOf? (decode password)
  if name.isEmpty && password.isNone then none
  else some (.user (String.ofList name) (password.map String.ofList))

/-- The address with its user taken out, and what to say about who asks. A user in the address takes
the place of the token. -/
def introduce (c : Client) (address : Address) : Address × Option Credential :=
  match userOf? address with
  | some user => (address.withoutUser, some user)
  | none => (address, c.token.map .bearer)

/-- The longest address that can be sent. -/
def lengthLimit : Nat := 65534

/-- Whether something can be sent to an address. Some characters may stand in the name of a host and
yet not be sent. -/
def canSend (address : Address) : Bool :=
  address.chars.length ≤ lengthLimit
    && !address.host.chars.any (· ∈ ['"', '\x60', '\x7b', '\x7d'])

/-- A request that is ready to be sent, and how faults name it. -/
structure Errand where
  url : String
  address : Address
  credential : Option Credential
  deriving DecidableEq, Repr

/-- What is sent. A fragment is kept back. -/
def Errand.request (e : Errand) : Request := ⟨{ e.address with fragment := none }, e.credential⟩

/-- What is to be done for a path. -/
def errand (c : Client) (path : String) : Except ClientFault Errand := do
  let lead ← c.lead path
  let (address, credential) := c.introduce lead.address
  if canSend address then .ok ⟨lead.url, address, credential⟩
  else .error (.unsendable lead.url address)

/-- The request for a path, if there is one. -/
def request? (c : Client) (path : String) : Option Request :=
  match c.errand path with
  | .ok e => some e.request
  | .error _ => none

/-- What came of a path: the answer, or why there is none, and the requests that were sent. -/
structure Dispatch where
  result : Except ClientFault Response
  sent : List Request

/-- Sends the request to a web. Whatever the answer is, nothing more is sent. -/
def Errand.send (e : Errand) (web : Web) : Dispatch where
  result :=
    match web.deliver e.request with
    | .answered response => .ok response
    | .truncated => .error (.truncated e.url)
    | .unanswered => .error (.unanswered e.url e.address)
  sent := [e.request]

/-- Asks a web for a path. -/
def get (c : Client) (web : Web) (path : String) : Dispatch :=
  match c.errand path with
  | .error fault => ⟨.error fault, []⟩
  | .ok e => e.send web

/-- The answer to a path, any fault being one of transport. -/
def answer (c : Client) (web : Web) (path : String) : Except Error Response :=
  (c.get web path).result.mapError fun fault => .remote (.transport fault.reason)

theorem Errand.mem_responses_of_send {e : Errand} {web : Web} {response : Response}
    (h : (e.send web).result = .ok response) : response ∈ web.responses := by
  simp only [Errand.send] at h
  split at h
  · next hd =>
    cases h
    exact web.deliver_mem hd
  all_goals cases h

theorem mem_responses_of_get {c : Client} {web : Web} {path : String} {response : Response}
    (h : (c.get web path).result = .ok response) : response ∈ web.responses := by
  unfold get at h
  split at h
  · cases h
  · exact Errand.mem_responses_of_send h

theorem mem_responses_of_answer {c : Client} {web : Web} {path : String} {response : Response}
    (h : c.answer web path = .ok response) : response ∈ web.responses := by
  unfold answer at h
  cases hg : (c.get web path).result with
  | error fault => rw [hg] at h; cases h
  | ok found =>
    rw [hg] at h
    cases h
    exact mem_responses_of_get hg

/-- The transport by which a web is asked. -/
def transport (c : Client) (web : Web) : Transport where
  answer := c.answer web
  cursors := web.responses.filterMap fun response => cursorOf (.ok response)
  cursorOf_mem := by
    intro path cursor h
    cases ha : c.answer web path with
    | error e => rw [ha] at h; cases h
    | ok response =>
      rw [ha] at h
      exact List.mem_filterMap.2 ⟨response, mem_responses_of_answer ha, h⟩

end Client

end MetaCache.Remote
