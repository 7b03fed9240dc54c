import AccessControl.Permission.Config
import AccessControl.Text.Blank

/-!
# Words of SQL

A text falls into words and single characters, and blanks between them do not count. A server knows
a word without quotes in lower case and cut to the bytes that a name may have.
-/

namespace AccessControl

def Text.clip : Nat → List Char → List Char
  | _, [] => []
  | n, c :: cs => if c.utf8Size ≤ n then c :: clip (n - c.utf8Size) cs else []

namespace Sql

/-- The name that some characters without quotes stand for. -/
def fold (cs : List Char) : String :=
  .ofList (Text.clip PermissionConfig.identifierLimit (cs.map Text.lowerChar))

def relation (name : String) : String := fold name.toList

inductive Token where
  | word (name : String)
  | symbol (c : Char)
deriving DecidableEq, Repr

namespace Token

def ofWord (w : List Char) : List Token :=
  if w.isEmpty then [] else [.word (fold w)]

def ofChar (c : Char) : List Token := if Text.isAsciiBlank c then [] else [.symbol c]

def scan : List Char → List Char → List Token
  | w, [] => ofWord w
  | w, c :: cs =>
    if Text.isWordChar c then scan (w ++ [c]) cs else ofWord w ++ (ofChar c ++ scan [] cs)

def ofText (s : String) : List Token := scan [] s.toList

theorem scan_append {w cs : List Char} (h : ∀ c ∈ cs, Text.isWordChar c = true) (ds : List Char) :
    scan w (cs ++ ds) = scan (w ++ cs) ds := by
  induction cs generalizing w with
  | nil => rw [List.nil_append, List.append_nil]
  | cons c cs ih =>
    obtain ⟨hc, hcs⟩ := List.forall_mem_cons.1 h
    rw [List.cons_append, scan, if_pos hc, ih hcs, List.append_assoc, List.singleton_append]

end Token

end Sql

end AccessControl
