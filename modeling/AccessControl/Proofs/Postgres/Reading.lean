import AccessControl.Proofs.Postgres.Meaning
import AccessControl.Proofs.Postgres.Template

/-!
# The texts of the store as queries

With plain names of tables the text of each statement is read as the query that it is meant to be. A
text is scanned with the names still in place, where it is the same for all tables, and what was
scanned so is what is scanned once the names are spelled out.
-/

namespace AccessControl

theorem Text.isWordChar_of_isAlphanum {c : Char} (h : c.isAlphanum = true ∨ c = '_') :
    isWordChar c = true := by
  rcases h with h | rfl
  · delta Char.isAlphanum Char.isAlpha Char.isUpper Char.isLower Char.isDigit at h
    simp only [isWordChar, isLetter, isUpper, isLower, isDigit, Bool.or_eq_true, Bool.and_eq_true,
      decide_eq_true_eq] at h ⊢
    exact .inl h
  · decide

theorem IsPlainName.isWordChar {s : String} (h : IsPlainName s) :
    ∀ c ∈ s.toList, Text.isWordChar c = true := by
  intro c hc
  exact Text.isWordChar_of_isAlphanum (h.rest c hc)

theorem IsPlainName.toList_ne_nil {s : String} (h : IsPlainName s) : s.toList ≠ [] := by
  obtain ⟨c, hc, -⟩ := h.first
  exact List.ne_nil_of_mem (List.mem_of_mem_head? hc)

namespace Postgres

open Sql

/-- Plain names of two tables that a server tells apart. -/
structure Tables.Apart (t : Tables) : Prop where
  permissions : IsPlainName t.permissions
  grants : IsPlainName t.grants
  differ : relation t.permissions ≠ relation t.grants

/-- A character of a text, or the name of a table that stands in it whole. -/
inductive Glyph where
  | char (c : Char)
  | permissions
  | grants
deriving DecidableEq

namespace Glyph

def char? : Glyph → Option Char
  | char c => some c
  | _ => none

def spell (p g : List Char) : Glyph → List Char
  | char c => [c]
  | permissions => p
  | grants => g

theorem spell_chars {p g : List Char} (cs : List Char) :
    (cs.map char).flatMap (spell p g) = cs := by
  rw [List.flatMap_map]
  exact List.flatMap_singleton' cs

theorem eq_chars {xs : List Glyph} {cs : List Char} (h : xs.mapM char? = some cs) :
    xs = cs.map char := by
  induction xs generalizing cs with
  | nil =>
    cases h
    rfl
  | cons x xs ih =>
    rw [List.mapM_cons] at h
    obtain ⟨c, hc, h⟩ := Option.bind_eq_some_iff.1 h
    obtain ⟨ds, hds, h⟩ := Option.bind_eq_some_iff.1 h
    cases h
    cases x with
    | char d =>
      cases hc
      rw [List.map_cons, ih hds]
    | _ => cases hc

end Glyph

def Piece.glyphs : Piece → List Glyph
  | .permissions => [.permissions]
  | .grants => [.grants]
  | x => (x.text ⟨"", ""⟩).toList.map .char

theorem Piece.spell_glyphs (t : Tables) (x : Piece) :
    x.glyphs.flatMap (Glyph.spell t.permissions.toList t.grants.toList) = (x.text t).toList := by
  cases x with
  | permissions => exact List.append_nil _
  | grants => exact List.append_nil _
  | words w => exact Glyph.spell_chars _
  | equals x => exact Glyph.spell_chars _
  | among x => exact Glyph.spell_chars _
  | row x y => exact Glyph.spell_chars _

theorem Piece.spell_render (t : Tables) (xs : List Piece) :
    (xs.flatMap Piece.glyphs).flatMap (Glyph.spell t.permissions.toList t.grants.toList) =
      (Piece.render t xs).toList := by
  induction xs with
  | nil => rfl
  | cons x xs ih =>
    have htext : Piece.render t (x :: xs) = x.text t ++ Piece.render t xs := rfl
    rw [List.flatMap_cons, List.flatMap_append, ih, Piece.spell_glyphs, htext,
      String.toList_append]

def indexSuffix : String := "_role_id_idx"

/-- A token whose name is spelled out, or that of a table or of the index. -/
inductive Sign where
  | word (name : String)
  | symbol (c : Char)
  | permissions
  | grants
  | index
deriving DecidableEq

namespace Sign

def ofWord? : List Glyph → Option (List Sign)
  | [] => some []
  | [.permissions] => some [.permissions]
  | [.grants] => some [.grants]
  | .grants :: xs => if xs = indexSuffix.toList.map .char then some [.index] else none
  | xs => (xs.mapM Glyph.char?).map fun cs => [.word (fold cs)]

/-- The signs of a text that goes on after the start of a word, where names are parts of words. -/
def scan? : List Glyph → List Glyph → Option (List Sign)
  | w, [] => ofWord? w
  | w, .char c :: xs =>
    if Text.isWordChar c then scan? (w ++ [.char c]) xs
    else
      match ofWord? w, scan? [] xs with
      | some ys, some zs => some (ys ++ if Text.isAsciiBlank c then zs else .symbol c :: zs)
      | _, _ => none
  | w, x :: xs => scan? (w ++ [x]) xs

def token (p g i : String) : Sign → Token
  | word name => .word name
  | symbol c => .symbol c
  | permissions => .word p
  | grants => .word g
  | index => .word i

section

variable {p g : List Char} {w xs : List Glyph} {ys : List Sign}

theorem ofWord_spell (hp : p ≠ []) (hg : g ≠ []) (h : ofWord? w = some ys) :
    Token.ofWord (w.flatMap (Glyph.spell p g)) =
      ys.map (token (fold p) (fold g) (fold (g ++ indexSuffix.toList))) := by
  have hword {cs : List Char} (hcs : cs ≠ []) : Token.ofWord cs = [.word (fold cs)] :=
    if_neg (by simpa using hcs)
  unfold ofWord? at h
  split at h
  · cases h
    rfl
  · cases h
    rw [List.flatMap_singleton]
    exact hword hp
  · cases h
    rw [List.flatMap_singleton]
    exact hword hg
  · split at h
    · rename_i hxs
      cases h
      rw [hxs, List.flatMap_cons, Glyph.spell_chars]
      exact hword (List.append_ne_nil_of_left_ne_nil hg _)
    · cases h
  · rename_i hne _ _ _
    obtain ⟨cs, hcs, rfl⟩ := Option.map_eq_some_iff.1 h
    have hchars := Glyph.eq_chars hcs
    rw [hchars, Glyph.spell_chars]
    refine hword ?_
    rintro rfl
    exact hne hchars

theorem scan_spell (hp : p ≠ []) (hg : g ≠ []) (hpw : ∀ c ∈ p, Text.isWordChar c = true)
    (hgw : ∀ c ∈ g, Text.isWordChar c = true) (h : scan? w xs = some ys) :
    Token.scan (w.flatMap (Glyph.spell p g)) (xs.flatMap (Glyph.spell p g)) =
      ys.map (token (fold p) (fold g) (fold (g ++ indexSuffix.toList))) := by
  induction xs generalizing w ys with
  | nil => exact ofWord_spell hp hg h
  | cons x xs ih =>
    have hnext (v : List Glyph) : (v ++ [x]).flatMap (Glyph.spell p g) =
        v.flatMap (Glyph.spell p g) ++ Glyph.spell p g x := by
      rw [List.flatMap_append, List.flatMap_singleton]
    rw [List.flatMap_cons]
    cases x with
    | permissions => rw [← ih h, hnext, Glyph.spell, Token.scan_append hpw]
    | grants => rw [← ih h, hnext, Glyph.spell, Token.scan_append hgw]
    | char c =>
      rw [scan?] at h
      rw [Glyph.spell, List.singleton_append, Token.scan]
      split at h
      · rename_i hc
        rw [if_pos hc, ← ih h, hnext, Glyph.spell]
      · rename_i hc
        split at h
        · rename_i us vs hus hvs
          cases h
          have hrest := ih hvs
          rw [List.flatMap_nil] at hrest
          rw [if_neg hc, ofWord_spell hp hg hus, hrest, List.map_append, Token.ofChar]
          split <;> rfl
        · cases h

end

end Sign

namespace Command

variable {t : Tables}


def permissionsTable (p : String) : Declaration :=
  ⟨p,
    [⟨"id", .bigserial, none⟩, ⟨"resource", .varchar, none⟩, ⟨"action", .varchar, none⟩,
      ⟨"created_at", .timestamptz, none⟩],
    [["resource", "action"]]⟩

def grantsTable (p g : String) : Declaration :=
  ⟨g,
    [⟨"id", .bigserial, none⟩, ⟨"permission_id", .bigint, some (p, "id")⟩,
      ⟨"role_id", .varchar, none⟩, ⟨"granted_at", .timestamptz, none⟩],
    [["permission_id", "role_id"]]⟩

def compared (c : Column) (place : String) : Filter := .meets (.equals ⟨none, c.name⟩ place)

def belonging (p : String) : Filter :=
  .within ⟨none, "permission_id"⟩ ⟨none, "id"⟩ ⟨p, p⟩
    [.equals ⟨none, "resource"⟩ "1", .equals ⟨none, "action"⟩ "2"]

def joining : List Filter :=
  [.meets (.same ⟨some "p", "id"⟩ ⟨some "rp", "permission_id"⟩),
    .meets (.equals ⟨some "p", "resource"⟩ "1"), .meets (.equals ⟨some "p", "action"⟩ "2")]

def Kind.query (p g i : String) : Kind → Query
  | .createPermissions => .createTable (permissionsTable p)
  | .createGrants => .createTable (grantsTable p g)
  | .createIndex => .createIndex i g ["role_id"]
  | .findPermission =>
    .select ⟨none, "id"⟩ [⟨p, p⟩] [compared .resource "1", compared .action "2"] none
  | .countGrants => .count [⟨g, "rp"⟩, ⟨p, "p"⟩] joining
  | .insertPermission => .insert p ["resource", "action"] ["1", "2"] none
  | .deletePermission => .delete ⟨p, p⟩ [compared .resource "1", compared .action "2"]
  | .insertGrant =>
    .insert g ["permission_id", "role_id"] ["1", "2"] (some ["permission_id", "role_id"])
  | .deleteGrants => .delete ⟨g, g⟩ [belonging p]
  | .deleteGrant => .delete ⟨g, g⟩ [compared .roleId "3", belonging p]
  | .holdsAny =>
    .present [⟨g, "rp"⟩, ⟨p, "p"⟩] (joining ++ [.meets (.among ⟨some "rp", "role_id"⟩ "3")])
  | .listRoles =>
    .select ⟨none, "role_id"⟩ [⟨g, g⟩] [compared .permissionId "1"] (some ⟨none, "role_id"⟩)

def Kind.signs : Kind → List Sign
  | .createPermissions =>
    words ["create", "table", "if", "not", "exists"] ++ .permissions :: .symbol '(' ::
      words ["id", "bigserial", "primary", "key"] ++ .symbol ',' ::
      text "resource" ++ .symbol ',' :: text "action" ++ .symbol ',' ::
      time "created_at" ++ .symbol ',' ::
      words ["unique"] ++ bracketed (pair "resource" "action") ++ [.symbol ')']
  | .createGrants =>
    words ["create", "table", "if", "not", "exists"] ++ .grants :: .symbol '(' ::
      words ["id", "bigserial", "primary", "key"] ++ .symbol ',' ::
      words ["permission_id", "bigint", "not", "null", "references"] ++ .permissions ::
      bracketed (words ["id"]) ++ words ["on", "delete", "restrict"] ++ .symbol ',' ::
      text "role_id" ++ .symbol ',' :: time "granted_at" ++ .symbol ',' ::
      words ["unique"] ++ bracketed (pair "permission_id" "role_id") ++ [.symbol ')']
  | .createIndex =>
    words ["create", "index", "if", "not", "exists"] ++ .index :: words ["on"] ++ .grants ::
      bracketed (words ["role_id"])
  | .findPermission =>
    words ["select", "id", "from"] ++ .permissions :: words ["where"] ++ permission
  | .countGrants =>
    words ["select", "count"] ++ bracketed [.symbol '*'] ++ words ["from"] ++ joined
  | .insertPermission =>
    words ["insert", "into"] ++ .permissions :: bracketed (pair "resource" "action") ++ row
  | .deletePermission =>
    words ["delete", "from"] ++ .permissions :: words ["where"] ++ permission
  | .insertGrant =>
    words ["insert", "into"] ++ .grants :: bracketed (pair "permission_id" "role_id") ++ row ++
      words ["on", "conflict"] ++ bracketed (pair "permission_id" "role_id") ++
      words ["do", "nothing"]
  | .deleteGrants => words ["delete", "from"] ++ .grants :: words ["where"] ++ found
  | .deleteGrant =>
    words ["delete", "from"] ++ .grants :: words ["where", "role_id"] ++ place "3" ++
      words ["and"] ++ found
  | .holdsAny =>
    words ["select", "exists"] ++ bracketed (words ["select", "1", "from"] ++ joined ++
      words ["and"] ++ qualified "rp" "role_id" ++ .symbol '=' ::
      words ["any"] ++ bracketed (.symbol '$' :: words ["3"]))
  | .listRoles =>
    words ["select", "role_id", "from"] ++ .grants :: words ["where", "permission_id"] ++
      place "1" ++ words ["order", "by", "role_id"]
where
  words (names : List String) : List Sign := names.map .word
  bracketed (xs : List Sign) : List Sign := .symbol '(' :: xs ++ [.symbol ')']
  pair (a b : String) : List Sign := words [a] ++ .symbol ',' :: words [b]
  text (c : String) : List Sign :=
    words [c, "varchar"] ++ bracketed (words ["255"]) ++ words ["not", "null"]
  time (c : String) : List Sign :=
    words [c, "timestamptz", "not", "null", "default", "now"] ++ bracketed []
  place (n : String) : List Sign := .symbol '=' :: .symbol '$' :: words [n]
  permission : List Sign :=
    words ["resource"] ++ place "1" ++ words ["and", "action"] ++ place "2"
  qualified (t c : String) : List Sign := words [t] ++ .symbol '.' :: words [c]
  joined : List Sign :=
    .grants :: words ["rp", "join"] ++ .permissions :: words ["p", "on"] ++ qualified "p" "id" ++
      .symbol '=' :: qualified "rp" "permission_id" ++ words ["where"] ++
      qualified "p" "resource" ++ place "1" ++ words ["and"] ++ qualified "p" "action" ++ place "2"
  row : List Sign :=
    words ["values"] ++
      bracketed (.symbol '$' :: words ["1"] ++ .symbol ',' :: .symbol '$' :: words ["2"])
  found : List Sign :=
    words ["permission_id", "in"] ++
      bracketed (words ["select", "id", "from"] ++ .permissions :: words ["where"] ++ permission)

theorem scan?_glyphs (k : Kind) : Sign.scan? [] (k.pieces.flatMap Piece.glyphs) = some k.signs := by
  cases k <;> decide +kernel

theorem query?_signs (p g i : String) (k : Kind) :
    Token.query? (k.signs.map (Sign.token p g i)) = some (k.query p g i) := by
  cases k <;> rfl

def indexName (t : Tables) : String := t.grants ++ indexSuffix

/-- Each text is read as the query that it is meant to be. -/
theorem read?_template (hp : IsPlainName t.permissions) (hg : IsPlainName t.grants) (k : Kind) :
    Query.read? (k.template t) =
      some (k.query (relation t.permissions) (relation t.grants) (relation (indexName t))) := by
  have hscan := Sign.scan_spell hp.toList_ne_nil hg.toList_ne_nil hp.isWordChar hg.isWordChar
    (scan?_glyphs k)
  rw [Piece.spell_render, List.flatMap_nil, ← String.toList_append] at hscan
  rw [← query?_signs]
  exact congrArg Token.query? hscan

end Command

end Postgres

end AccessControl
