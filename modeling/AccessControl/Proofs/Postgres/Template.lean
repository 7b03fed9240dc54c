import AccessControl.Permission.Config
import AccessControl.Postgres.Command

/-!
# Texts of the statements

The text of a statement is made of fixed words, the names of the tables, and numbered places that
each stand for the value of a column. The parameters are these values, in the order of the numbers.
With valid settings the names of the tables are plain, and no place hides in them.
-/

namespace AccessControl

/-- An ASCII letter or underscore, then ASCII letters, digits and underscores: 63 bytes at most. -/
structure IsPlainName (s : String) : Prop where
  first : ∃ c ∈ s.toList.head?, c.isAlpha = true ∨ c = '_'
  rest : ∀ c ∈ s.toList, c.isAlphanum = true ∨ c = '_'
  size : s.utf8ByteSize ≤ 63

section

variable {s : String} {c : Char}

theorem isAlpha_of_isLetter (h : Text.isLetter c = true) : c.isAlpha = true := by
  simp only [Text.isLetter, Text.isUpper, Text.isLower, Bool.or_eq_true, Bool.and_eq_true,
    decide_eq_true_eq] at h
  delta Char.isAlpha Char.isUpper Char.isLower
  simp only [Bool.or_eq_true, Bool.and_eq_true, decide_eq_true_eq]
  exact h

theorem isAlphanum_of_isWordChar (h : Text.isWordChar c = true) :
    c.isAlphanum = true ∨ c = '_' := by
  simp only [Text.isWordChar, Bool.or_eq_true, beq_iff_eq] at h
  rw [Char.isAlphanum, Bool.or_eq_true]
  rcases h with (h | h) | h
  · exact .inl (.inl (isAlpha_of_isLetter h))
  · refine .inl (.inr ?_)
    simp only [Text.isDigit, Bool.and_eq_true, decide_eq_true_eq] at h
    simp only [Char.isDigit, Bool.and_eq_true, decide_eq_true_eq]
    exact h
  · exact .inr h

theorem Text.utf8Length_toList (s : String) : Text.utf8Length s.toList = s.utf8ByteSize := by
  rw [String.utf8ByteSize, ← String.utf8Encode_toList, List.utf8Encode, List.size_toByteArray]
  rfl

theorem isPlainName_of_isIdentifier (h : PermissionConfig.isIdentifier s = true) :
    IsPlainName s := by
  have hsize := Text.utf8Length_toList s
  simp only [PermissionConfig.isIdentifier] at h
  split at h
  · cases h
  · rename_i c cs hs
    simp only [Bool.and_eq_true, Bool.or_eq_true, beq_iff_eq, decide_eq_true_eq,
      List.all_eq_true] at h
    obtain ⟨⟨hc, hlen⟩, hcs⟩ := h
    have hfirst : c.isAlpha = true ∨ c = '_' := hc.imp_left isAlpha_of_isLetter
    refine ⟨⟨c, by rw [hs]; rfl, hfirst⟩, ?_, ?_⟩
    · rw [hs]
      intro d hd
      rcases List.mem_cons.1 hd with rfl | hd
      · exact hfirst.imp_left fun ha => by simp [Char.isAlphanum, ha]
      · exact isAlphanum_of_isWordChar (hcs d hd)
    · rw [← hsize, hs]
      exact hlen

theorem IsPlainName.dollar_not_mem (h : IsPlainName s) : '$' ∉ s.toList := by
  intro hs
  have hplain := h.rest '$' hs
  revert hplain
  decide

theorem PermissionConfig.names_of_valid {c d : PermissionConfig} (h : c.validate = .ok d) :
    IsPlainName d.permissionsTable ∧ IsPlainName d.rolePermissionsTable ∧
      d.permissionsTable ≠ d.rolePermissionsTable := by
  obtain ⟨hf, rfl⟩ := PermissionConfig.validate_eq_ok_iff.1 h
  simp only [PermissionConfig.fault?] at hf
  split at hf
  · cases hf
  split at hf
  · cases hf
  rename_i hp
  split at hf
  · cases hf
  rename_i hg
  split at hf
  · cases hf
  rename_i hne
  simp only [Bool.not_eq_true, Bool.not_eq_false'] at hp hg
  exact ⟨isPlainName_of_isIdentifier (by simpa using hp),
    isPlainName_of_isIdentifier (by simpa using hg), by assumption⟩

end

namespace Postgres

open Sql

namespace Piece

def fixed : Piece → String
  | words w => w
  | _ => ""

def places : Piece → List Place
  | equals x => [x]
  | among x => [x]
  | row x y => [x, y]
  | _ => []

end Piece

namespace Command

def Kind.places (k : Kind) : List Place := k.pieces.flatMap Piece.places

def permission? : Command → Option Permission
  | .findPermission p | .countGrants p | .insertPermission p | .deletePermission p
  | .deleteGrants p | .deleteGrant p _ | .holdsAny p _ => some p
  | _ => none

def value? (q : Command) : Column → Option Param
  | .resource => q.permission?.map fun p => .text p.resource
  | .action => q.permission?.map fun p => .text p.action
  | .permissionId =>
    match q with
    | .insertGrant id _ | .listRoles id => some (.int id)
    | _ => none
  | .roleId =>
    match q with
    | .insertGrant _ role | .deleteGrant _ role => some (.text role)
    | .holdsAny _ roles => some (.texts roles)
    | _ => none

variable {t : Tables} {k : Kind} {q : Command}

def marks (s : String) : Nat := s.toList.count '$'

theorem marks_append (s s' : String) : marks (s ++ s') = marks s + marks s' := by
  rw [marks, String.toList_append, List.count_append]
  rfl

theorem marks_ofList (cs : List Char) : marks (String.ofList cs) = cs.count '$' := by
  rw [marks, String.toList_ofList]

theorem marks_fixed (k : Kind) : ∀ x ∈ k.pieces, marks x.fixed = 0 := by
  cases k
  all_goals
    simp only [Kind.pieces, List.forall_mem_cons, Piece.fixed]
    repeat' apply And.intro
    all_goals first
      | exact marks_ofList _
      | exact List.forall_mem_nil _

theorem number_mem (k : Kind) : ∀ x ∈ k.places, x.number ∈ [1, 2, 3] := by
  cases k <;> decide

theorem marks_mark {x : Place} (hx : x.number ∈ [1, 2, 3]) :
    marks x.mark = 1 ∧ marks x.column.name = 0 := by
  have hnumber : ∀ n ∈ [1, 2, 3], marks ("$" ++ toString n) = 1 := by decide
  have hname (c : Column) : marks c.name = 0 := by cases c <;> decide
  exact ⟨hnumber x.number hx, hname x.column⟩

theorem marks_text (hp : marks t.permissions = 0) (hg : marks t.grants = 0) {x : Piece}
    (hx : x ∈ k.pieces) : marks (x.text t) = x.places.length := by
  have hfixed := marks_fixed k x hx
  have hplace (y : Place) (hy : y ∈ x.places) : marks y.mark = 1 ∧ marks y.column.name = 0 :=
    marks_mark (number_mem k y (List.mem_flatMap.2 ⟨x, hx, hy⟩))
  cases x with
  | words w => exact hfixed
  | permissions => exact hp
  | grants => exact hg
  | equals y =>
    obtain ⟨hm, hc⟩ := hplace y List.mem_cons_self
    simp only [Piece.text, marks_append, hm, hc]
    rfl
  | among y =>
    obtain ⟨hm, hc⟩ := hplace y List.mem_cons_self
    simp only [Piece.text, marks_append, hm, hc]
    rfl
  | row y z =>
    obtain ⟨hm, hc⟩ := hplace y List.mem_cons_self
    obtain ⟨hm', hc'⟩ := hplace z (by simp [Piece.places])
    simp only [Piece.text, marks_append, hm, hc, hm', hc']
    rfl

theorem marks_template (hp : marks t.permissions = 0) (hg : marks t.grants = 0) (k : Kind) :
    marks (k.template t) = k.places.length := by
  have hrender (ps : List Piece) (hps : ∀ x ∈ ps, x ∈ k.pieces) :
      marks (Piece.render t ps) = (ps.flatMap Piece.places).length := by
    induction ps with
    | nil => rfl
    | cons x ps ih =>
      have hx := marks_text hp hg (hps x List.mem_cons_self)
      have hrest := ih fun y hy => hps y (List.mem_cons_of_mem x hy)
      rw [Piece.render, List.foldr_cons, marks_append, hx, List.flatMap_cons, List.length_append]
      exact congrArg _ hrest
  exact hrender k.pieces fun _ => id

theorem params_of_places (q : Command) :
    (q.kind.places.map (·.number)).Perm (List.range' 1 q.params.length) ∧
      ∀ x ∈ q.kind.places, ∃ v, q.value? x.column = some v ∧ q.params[x.number - 1]? = some v := by
  have htwo : [1, 2].Perm (List.range' 1 2) := by decide
  have hthree : [1, 2, 3].Perm (List.range' 1 3) ∧ [3, 1, 2].Perm (List.range' 1 3) := by decide
  cases q <;>
    simp [Kind.places, Kind.pieces, kind, Piece.places, value?, permission?, params, htwo, hthree]

theorem length_places (q : Command) : q.kind.places.length = q.params.length := by
  simpa using (params_of_places q).1.length_eq

/-- A statement is its template with the names of the tables, and binds the values of the columns in
the order in which the places are numbered. -/
structure Binds (t : Tables) (q : Command) : Prop where
  text : (q.statement t).text = Piece.render t q.kind.pieces
  marks : marks (q.statement t).text = (q.statement t).params.length
  numbers : (q.kind.places.map (·.number)).Perm (List.range' 1 (q.statement t).params.length)
  values : ∀ x ∈ q.kind.places,
    ∃ v, q.value? x.column = some v ∧ (q.statement t).params[x.number - 1]? = some v

theorem binds (hp : IsPlainName t.permissions) (hg : IsPlainName t.grants) (q : Command) :
    q.Binds t := by
  have hmarks : Command.marks (q.statement t).text = q.kind.places.length :=
    marks_template (List.count_eq_zero.2 hp.dollar_not_mem) (List.count_eq_zero.2 hg.dollar_not_mem)
      q.kind
  obtain ⟨hnumbers, hvalues⟩ := params_of_places q
  exact ⟨rfl, hmarks.trans (length_places q), hnumbers, hvalues⟩

end Command

end Postgres

end AccessControl
