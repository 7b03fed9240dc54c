import AccessControl.Text.Ascii
import AccessControl.Text.Utf8

/-!
# Percent-encoding

A byte may be written as a percent sign and two hexadecimal digits. What has to be written so
depends on the part of an address; whatever lies outside ASCII always has to.
-/

namespace AccessControl.Web

open Text

def byteCode (b : UInt8) : List Char :=
  ['%', upperHexDigit (b.toNat / 16), upperHexDigit (b.toNat % 16)]

def isControl (c : Char) : Bool := c.toNat < 0x20 || 0x7E < c.toNat

namespace Part

def fragment (c : Char) : Bool := isControl c || [' ', '"', '<', '>', '`'].contains c

def query (c : Char) : Bool := isControl c || [' ', '"', '#', '<', '>'].contains c

def specialQuery (c : Char) : Bool := query c || c == '\''

def path (c : Char) : Bool := fragment c || ['#', '?', '\x7b', '\x7d'].contains c

def userinfo (c : Char) : Bool :=
  path c || ['/', ':', ';', '=', '@', '[', '\\', ']', '^', '|'].contains c

def segment (c : Char) : Bool := path c || c == '/' || c == '%'

def specialSegment (c : Char) : Bool := segment c || c == '\\'

end Part

def encodeChar (must : Char → Bool) (c : Char) : List Char :=
  if must c then (String.utf8EncodeChar c).flatMap byteCode else [c]

def percentEncode (must : Char → Bool) (cs : List Char) : List Char := cs.flatMap (encodeChar must)

/-- The bytes of a text whose codes are read; a percent sign that starts no code stands for
itself. -/
def percentDecode : List Char → List UInt8
  | '%' :: a :: b :: r =>
    match digitIn 16 a, digitIn 16 b with
    | some x, some y => UInt8.ofNat (x * 16 + y) :: percentDecode r
    | _, _ => String.utf8EncodeChar '%' ++ percentDecode (a :: b :: r)
  | c :: r => String.utf8EncodeChar c ++ percentDecode r
  | [] => []

end AccessControl.Web
