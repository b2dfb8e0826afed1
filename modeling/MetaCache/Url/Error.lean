/-!
# What is wrong with an address
-/

namespace MetaCache.Url

/-- Ways of not being an address. -/
inductive AddressError
  | relative
  | emptyHost
  | invalidIpv4
  | invalidIpv6
  | invalidPort
  | invalidDomain
  | invalidDomainCharacter
  deriving DecidableEq, Repr

def AddressError.message : AddressError → String
  | .relative => "relative URL without a base"
  | .emptyHost => "empty host"
  | .invalidIpv4 => "invalid IPv4 address"
  | .invalidIpv6 => "invalid IPv6 address"
  | .invalidPort => "invalid port number"
  | .invalidDomain => "invalid international domain name"
  | .invalidDomainCharacter => "invalid domain character"

end MetaCache.Url
