import MetaCache.Text.Utf8
import MetaCache.Url.Internet
import MetaCache.Url.Label
import MetaCache.Url.Percent

/-!
# Hosts

A host is an IPv6 address in brackets, an IPv4 address, or a domain. A domain is decoded and folded,
and its labels are written in ASCII. A domain whose last label is a number is an IPv4 address. Some
characters are forbidden in domains.
-/

namespace MetaCache.Url

open MetaCache.Text

inductive Host
  /-- Labels with dots between them, in lowercase ASCII. -/
  | domain (name : List Char)
  | ipv4 (address : Nat)
  | ipv6 (pieces : List Nat)
  deriving DecidableEq, Repr

namespace Host

/-- The text of a host. -/
def chars : Host → List Char
  | domain name => name
  | ipv4 address => ipv4Chars address
  | ipv6 pieces => '[' :: ipv6Chars pieces ++ [']']

/-- The text that bytes in UTF-8 are. -/
def textOf? (bytes : List UInt8) : Option (List Char) :=
  (String.fromUTF8? ⟨bytes.toArray⟩).map String.toList

/-- The texts of the labels of a domain. -/
def labelTexts? (cs : List Char) : Option (List (List Char)) := do
  let folded ← foldText? (← textOf? (decode cs))
  let texts ← (splitAt '.' folded).mapM Label.text?
  if texts.any (·.any isForbidden) then none
  else if texts.any (·.any Label.isRightward) && !texts.all Label.hasOneDirection then none
  else some texts

/-- A domain in ASCII. -/
def domainToAscii? (cs : List Char) : Option (List Char) :=
  (labelTexts? cs).map fun texts => ['.'].intercalate (texts.map Label.ascii)

/-- What stands between brackets, if a text begins with one and ends with the other. -/
def insideBrackets? (cs : List Char) : Option (List Char) :=
  if cs.getLast? = some ']' then some (cs.drop 1).dropLast else none

/-- Reads a host. -/
def read (cs : List Char) : Except AddressError Host :=
  match cs with
  | '[' :: _ =>
    match insideBrackets? cs with
    | some inside => (readIpv6 inside).map ipv6
    | none => .error .invalidIpv6
  | cs =>
    match domainToAscii? cs with
    | none => .error .invalidDomain
    | some [] => .error .emptyHost
    | some name => if endsInNumber name then (readIpv4 name).map ipv4 else .ok (domain name)

/-- What is wrong with the host of a scheme that leaves hosts alone. -/
def checkOpaque (cs : List Char) : Except AddressError Unit :=
  match cs with
  | '[' :: _ =>
    match insideBrackets? cs with
    | some inside => (readIpv6 inside).map fun _ => ()
    | none => .error .invalidIpv6
  | cs =>
    if cs.any (· ∈ ['\x00', ' ', '#', '/', ':', '<', '>', '?', '@', '[', '\\', ']', '^', '|']) then
      .error .invalidDomainCharacter
    else .ok ()

end Host

end MetaCache.Url
