import MetaCache.Url.Host

/-!
# Addresses on the web

An address is read in a forgiving way: control characters and blanks around it, tabs and line breaks
inside it, the number of slashes behind the scheme, letters in either case, dots that lead around in
the path. What is read is written back in one way only. Addresses of other schemes are recognised
and looked at for what can be wrong with them, but not taken apart.

The *origin* of an address is its scheme, its host and its port, the usual port of the scheme
counting the same as none.
-/

namespace MetaCache.Url

inductive Scheme
  | http
  | https
  deriving DecidableEq, Repr

namespace Scheme

def chars : Scheme → List Char
  | http => "http".toList
  | https => "https".toList

/-- The port that need not be given. -/
def defaultPort : Scheme → Nat
  | http => 80
  | https => 443

end Scheme

/-- A user's name and password, percent-encoded. -/
structure Userinfo where
  name : List Char
  password : Option (List Char)
  deriving DecidableEq, Repr

/-- An address on the web. All parts but the host are percent-encoded. -/
structure Address where
  scheme : Scheme
  userinfo : Userinfo
  host : Host
  /-- None for the usual port. -/
  port : Option Nat
  /-- The segments behind each of the path's slashes. -/
  path : List (List Char)
  query : Option (List Char)
  fragment : Option (List Char)
  deriving DecidableEq, Repr

/-- What an address turns out to be. -/
inductive Target
  | web (address : Address)
  | foreign (scheme : List Char)
  deriving DecidableEq, Repr

/-! ## Cleaning -/

/-- Control characters and blanks, which do not count at either end. -/
def isMargin (c : Char) : Bool := c.toNat ≤ 0x20

/-- Tabs and line breaks, which count nowhere. -/
def isBreak (c : Char) : Bool := c = '\t' || c = '\n' || c = '\r'

/-- A text without margins. -/
def trimMargins (cs : List Char) : List Char :=
  ((cs.dropWhile isMargin).reverse.dropWhile isMargin).reverse

/-- What counts of a text. -/
def clean (cs : List Char) : List Char := (trimMargins cs).filter (!isBreak ·)

/-! ## Schemes -/

def isSchemeChar (c : Char) : Bool := c.isAlphanum || c = '+' || c = '-' || c = '.'

/-- The scheme in lowercase and what follows its colon. -/
def splitScheme? (cs : List Char) : Option (List Char × List Char) :=
  match cs with
  | [] => none
  | first :: _ =>
    if first.isAlpha then
      match cs.dropWhile isSchemeChar with
      | ':' :: rest => some ((cs.takeWhile isSchemeChar).map Char.toLower, rest)
      | _ => none
    else none

def isSlash (c : Char) : Bool := c = '/' || c = '\\'

/-- Whether a character ends the authority, which is the part with the host. A backslash does so
only where it counts as a slash. -/
def endsAuthority (backslash : Bool) (c : Char) : Bool :=
  c = '/' || c = '?' || c = '#' || backslash && c = '\\'

/-! ## Authorities -/

/-- An authority cut in front of its host: what is before the last at-sign, if there is one. -/
def splitUserinfo (authority : List Char) : Option (List Char) × List Char :=
  let behind := (authority.reverse.takeWhile (· ≠ '@')).reverse
  if behind.length = authority.length then (none, authority)
  else (some (authority.take (authority.length - behind.length - 1)), behind)

/-- A user's name and password; an empty password is none. -/
def readUserinfo (cs : List Char) : Userinfo :=
  let name := encode userinfoSet (cs.takeWhile (· ≠ ':'))
  match cs.dropWhile (· ≠ ':') with
  | _ :: c :: rest => ⟨name, some (encode userinfoSet (c :: rest))⟩
  | _ => ⟨name, none⟩

/-- How far a host goes: up to a colon outside of brackets. -/
def hostLength : Bool → List Char → Nat
  | _, [] => 0
  | inside, c :: rest =>
    if c = ':' && !inside then 0
    else hostLength (if c = '[' then true else if c = ']' then false else inside) rest + 1

/-- The port behind a host, if there is one; it must be a number in 16 bits. -/
def readPort (cs : List Char) : Except AddressError (Option Nat) :=
  match cs with
  | [] => .ok none
  | _ :: digits =>
    if !digits.all Char.isDigit then .error .invalidPort
    else if digits.isEmpty then .ok none
    else
      match numberOfBase? 10 digits with
      | some port => if port < 65536 then .ok (some port) else .error .invalidPort
      | none => .error .invalidPort

/-- What an authority says. -/
structure Authority where
  userinfo : Userinfo
  host : Host
  port : Option Nat
  deriving DecidableEq, Repr

/-- Reads the authority of a web address. -/
def readAuthority (authority : List Char) : Except AddressError Authority := do
  let (user, hostPort) := splitUserinfo authority
  let length := hostLength false hostPort
  if length = 0 then .error .emptyHost
  let host ← Host.read (hostPort.take length)
  let port ← readPort (hostPort.drop length)
  return ⟨(user.map readUserinfo).getD ⟨[], none⟩, host, port⟩

/-- What is wrong with an authority of a scheme that leaves hosts alone. Without a host there may be
no user and no port, and an at-sign alone only at the end of the address. -/
def checkAuthority (isLast : Bool) (authority : List Char) : Except AddressError Unit := do
  let (user, hostPort) := splitUserinfo authority
  let length := hostLength false hostPort
  Host.checkOpaque (hostPort.take length)
  let named := (user.map readUserinfo).any fun u => !u.name.isEmpty || u.password.isSome
  let port := hostPort.drop length
  if length = 0 && (named || !port.isEmpty || user = some [] && !isLast) then .error .emptyHost
  let _ ← readPort (port.takeWhile (· ≠ '\\'))

/-! ## Paths, queries and fragments -/

/-- A dot, plain or encoded, taken from the front. -/
def takeDot? : List Char → Option (List Char)
  | '.' :: rest => some rest
  | '%' :: '2' :: 'e' :: rest => some rest
  | '%' :: '2' :: 'E' :: rest => some rest
  | _ => none

def isSingleDot (segment : List Char) : Bool := takeDot? segment = some []

def isDoubleDot (segment : List Char) : Bool :=
  match takeDot? segment with
  | some rest => isSingleDot rest
  | none => false

/-- Whether a segment is the letter of a drive. -/
def isDrive : List Char → Bool
  | [letter, mark] => letter.isAlpha && (mark = ':' || mark = '|')
  | _ => false

/-- Goes back by a segment, the last one first, but never out of a drive. -/
def ascend : List (List Char) → List (List Char)
  | [] => []
  | segment :: rest => if isDrive segment then segment :: rest else rest

/-- Follows segments, the ones so far last one first. A dot at the end leaves an empty segment. -/
def walk : List (List Char) → List (List Char) → List (List Char)
  | done, [] => done.reverse
  | done, [segment] =>
    if isDoubleDot segment then ([] :: ascend done).reverse
    else if isSingleDot segment then ([] :: done).reverse
    else (segment :: done).reverse
  | done, segment :: rest =>
    if isDoubleDot segment then walk (ascend done) rest
    else if isSingleDot segment then walk done rest
    else walk (segment :: done) rest

/-- Reads a path: segments behind slashes of either kind. -/
def readPath (cs : List Char) : List (List Char) :=
  let plain := cs.map fun c => if c = '\\' then '/' else c
  let relative :=
    match plain with
    | '/' :: rest => rest
    | plain => plain
  walk [] ((splitAt '/' relative).map (encode pathSet))

/-- The parts behind the authority: path, query and fragment. -/
def readTail (cs : List Char) : List (List Char) × Option (List Char) × Option (List Char) :=
  let front := cs.takeWhile (· ≠ '#')
  let fragment :=
    match cs.dropWhile (· ≠ '#') with
    | _ :: rest => some (encode fragmentSet rest)
    | [] => none
  let query :=
    match front.dropWhile (· ≠ '?') with
    | _ :: rest => some (encode querySet rest)
    | [] => none
  (readPath (front.takeWhile (· ≠ '?')), query, fragment)

/-! ## Reading and writing -/

/-- Reads a web address behind its scheme. -/
def readWeb (scheme : Scheme) (rest : List Char) : Except AddressError Address := do
  let rest := rest.dropWhile isSlash
  let authority ← readAuthority (rest.takeWhile (!endsAuthority true ·))
  let (path, query, fragment) := readTail (rest.dropWhile (!endsAuthority true ·))
  return {
    scheme
    userinfo := authority.userinfo
    host := authority.host
    port := authority.port.filter (· ≠ scheme.defaultPort)
    path
    query
    fragment }

/-- What is wrong with an address of a file. A drive letter is no host. -/
def checkFile (rest : List Char) : Except AddressError Unit :=
  match rest with
  | a :: b :: rest =>
    if isSlash a && isSlash b then
      let host := rest.takeWhile (!endsAuthority true ·)
      if host.isEmpty || isDrive host then .ok () else (Host.read host).map fun _ => ()
    else .ok ()
  | _ => .ok ()

/-- What is wrong with an address of another scheme. -/
def checkForeign (scheme rest : List Char) : Except AddressError Unit :=
  if scheme = "file".toList then checkFile rest
  else if scheme ∈ ["ws".toList, "wss".toList, "ftp".toList] then
    (readAuthority ((rest.dropWhile isSlash).takeWhile (!endsAuthority true ·))).map fun _ => ()
  else
    match rest with
    | '/' :: '/' :: rest =>
      checkAuthority (!rest.any (endsAuthority false)) (rest.takeWhile (!endsAuthority false ·))
    | _ => .ok ()

/-- Reads an address. -/
def read (text : List Char) : Except AddressError Target :=
  match splitScheme? (clean text) with
  | none => .error .relative
  | some (scheme, rest) =>
    if scheme = Scheme.http.chars then (readWeb .http rest).map .web
    else if scheme = Scheme.https.chars then (readWeb .https rest).map .web
    else (checkForeign scheme rest).map fun _ => .foreign scheme

namespace Address

/-- The user in front of the host. -/
def userinfoChars (a : Address) : List Char :=
  let password := a.userinfo.password.elim [] (':' :: ·)
  if a.userinfo.name.isEmpty && password.isEmpty then [] else a.userinfo.name ++ password ++ ['@']

def portChars (port : Option Nat) : List Char :=
  port.elim [] fun port => ':' :: (Nat.repr port).toList

/-- The text of an address. -/
def chars (a : Address) : List Char :=
  a.scheme.chars ++ "://".toList ++ a.userinfoChars ++ a.host.chars ++ portChars a.port
    ++ a.path.flatMap ('/' :: ·) ++ a.query.elim [] ('?' :: ·) ++ a.fragment.elim [] ('#' :: ·)

def text (a : Address) : String := String.ofList a.chars

/-- Scheme, host and port. -/
structure Origin where
  scheme : Scheme
  host : Host
  port : Nat
  deriving DecidableEq, Repr

def origin (a : Address) : Origin := ⟨a.scheme, a.host, a.port.getD a.scheme.defaultPort⟩

/-- The text of an origin, without the usual port. -/
def Origin.text (o : Origin) : String :=
  String.ofList (o.scheme.chars ++ "://".toList ++ o.host.chars
    ++ portChars (if o.port = o.scheme.defaultPort then none else some o.port))

/-- The address without its user. -/
def withoutUser (a : Address) : Address := { a with userinfo := ⟨[], none⟩ }

end Address

end MetaCache.Url
