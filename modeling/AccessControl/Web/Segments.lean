import AccessControl.Web.Address

/-!
# Segments added to an address

A segment given by itself is one segment of the path: what would end it or give it a meaning of its
own is encoded. Line breaks and tabs are dropped first; a segment that then is empty or a single dot
stands for an empty one, and two dots take the place of the segment before.
-/

namespace AccessControl.Web

namespace Path

def withoutLastGap (ss : List String) : List String :=
  if 1 < ss.length ∧ ss.getLast? = some "" then ss.dropLast else ss

def segmentChars (s : String) : List Char :=
  s.toList.filter fun c => c != '\t' && c != '\n' && c != '\r'

def push (ss : List String) (s : String) : List String :=
  if ss = [] ∨ ss = [""] then [s] else ss ++ [s]

/-- A path with one more segment. A segment that is exactly a dot or two is passed over. -/
def addSegment (k : SchemeKind) (ss : List String) (s : String) : List String :=
  if s = "." ∨ s = ".." then ss
  else
    let cs := segmentChars s
    if cs = ['.', '.'] then
      if ss = [] ∨ ss = [""] then [""] else shorten k ss ++ [""]
    else if cs = [] ∨ cs = ['.'] then push ss ""
    else
      push ss (String.ofList
        (Web.percentEncode (if k.isSpecial then Part.specialSegment else Part.segment) cs))

end Path

namespace Address

def kind (a : Address) : SchemeKind := SchemeKind.ofScheme a.scheme

def addSegments (a : Address) (added : List String) : Address :=
  match a.path with
  | .bare _ => a
  | .segments ss =>
    { a with path := .segments (added.foldl (Path.addSegment a.kind) (Path.withoutLastGap ss)) }

end Address

end AccessControl.Web
