import AccessControl.Text.Ascii

/-!
# Domain names

A name in plain ASCII is folded to lower case. One that leaves ASCII, or has a label that stands for
one that does, is written in ASCII by a library that has the tables for it.
-/

namespace AccessControl.Web

/-- How names beyond plain ASCII are written in ASCII, from the bytes that write them. -/
structure Idna where
  toAscii? : List UInt8 → Option (List Char)

namespace Domain

open Text

def isForbidden (c : Char) : Bool :=
  c.toNat < 0x21 || c.toNat == 0x7F ||
    ['%', '#', '/', ':', '<', '>', '?', '@', '[', '\\', ']', '^', '|'].contains c

def isEncoded (label : List Char) : Bool := (stripStart ['x', 'n', '-', '-'] label).isSome

def plain? (bytes : List UInt8) : Option (List Char) :=
  let name := bytes.map fun b => lowerChar (Char.ofNat b.toNat)
  if bytes.all (· < 0x80) && !(splitOn '.' name).any isEncoded then some name else none

def toAscii (names : Idna) (bytes : List UInt8) : Option (List Char) :=
  ((plain? bytes).or (names.toAscii? bytes)).filter fun name => !name.any isForbidden

end Domain

end AccessControl.Web
