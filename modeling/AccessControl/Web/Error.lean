/-!
# Faults of addresses
-/

namespace AccessControl.Web

inductive AddressError where
  | relative
  | emptyHost
  | port
  | ipv4
  | ipv6
  | domain
  | domainCharacter
deriving DecidableEq, Repr

namespace AddressError

def message : AddressError → String
  | .relative => "relative URL without a base"
  | .emptyHost => "empty host"
  | .port => "invalid port number"
  | .ipv4 => "invalid IPv4 address"
  | .ipv6 => "invalid IPv6 address"
  | .domain => "invalid international domain name"
  | .domainCharacter => "invalid domain character"

end AddressError

end AccessControl.Web
