import AccessControl.Web.Domain
import AccessControl.Web.Error
import AccessControl.Web.Ip
import AccessControl.Web.Percent

/-!
# Hosts
-/

namespace AccessControl.Web

inductive Host where
  | name (s : String)
  | ipv4 (n : Nat)
  | ipv6 (ns : List Nat)
deriving DecidableEq, Repr

namespace Host

def text : Host → String
  | .name s => s
  | .ipv4 n => V4.text n
  | .ipv6 ns => "[" ++ V6.text ns ++ "]"

def isEmpty : Host → Bool
  | .name s => s.isEmpty
  | _ => false

def bracketed (cs : List Char) : Except AddressError Host :=
  match cs.getLast? with
  | some ']' =>
    match V6.parse? cs.dropLast with
    | some ns => .ok (.ipv6 ns)
    | none => .error .ipv6
  | _ => .error .ipv6

def special (names : Idna) (cs : List Char) : Except AddressError Host :=
  match cs with
  | '[' :: r => bracketed r
  | cs =>
    match Domain.toAscii names (percentDecode cs) with
    | none => .error .domain
    | some [] => .error .emptyHost
    | some ascii =>
      if V4.endsInNumber ascii then
        match V4.parse? ascii with
        | some n => .ok (.ipv4 n)
        | none => .error .ipv4
      else .ok (.name (String.ofList ascii))

def isReserved (c : Char) : Bool :=
  ['\x00', '\t', '\n', '\r', ' ', '#', '/', ':', '<', '>', '?', '@', '[', '\\', ']', '^',
    '|'].contains c

def plain (cs : List Char) : Except AddressError Host :=
  match cs with
  | '[' :: r => bracketed r
  | cs =>
    if cs.any isReserved then .error .domainCharacter
    else .ok (.name (String.ofList (percentEncode isControl cs)))

end Host

end AccessControl.Web
