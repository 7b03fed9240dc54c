import AccessControl.Proofs.Postgres.Dispatch
import AccessControl.Proofs.Postgres.Reading

/-!
# Relations of the schema

A server knows a table or an index by its name in lower case, cut to the bytes an identifier may
have, and it skips a statement that creates a relation under a name that is taken. Valid settings
name two tables that differ as texts; whether the relations differ is another question.
-/

namespace AccessControl

namespace Text

variable {c : Char} {cs : List Char} {n : Nat}

theorem clip_eq_take (h : ∀ c ∈ cs, c.utf8Size = 1) : clip n cs = cs.take n := by
  induction cs generalizing n with
  | nil => exact List.take_nil.symm
  | cons c cs ih =>
    obtain ⟨hc, hcs⟩ := List.forall_mem_cons.1 h
    rw [clip, hc, ih hcs]
    cases n with
    | zero => rfl
    | succ n => rw [if_pos (Nat.le_add_left 1 n), List.take_succ_cons, Nat.add_sub_cancel]

theorem utf8Length_of_utf8Size (h : ∀ c ∈ cs, c.utf8Size = 1) : utf8Length cs = cs.length := by
  induction cs with
  | nil => rfl
  | cons c cs ih =>
    obtain ⟨hc, hcs⟩ := List.forall_mem_cons.1 h
    have hrest := ih hcs
    rw [utf8Length] at hrest ⊢
    rw [utf8_cons, List.length_append, String.length_utf8EncodeChar, hc, hrest, List.length_cons,
      Nat.add_comm]

theorem toNat_lt_of_isWordChar (h : isWordChar c = true) : c.toNat < 128 := by
  simp only [isWordChar, isLetter, isUpper, isLower, isDigit, Bool.or_eq_true, Bool.and_eq_true,
    decide_eq_true_eq, Char.le_def, UInt32.le_iff_toNat_le, beq_iff_eq] at h
  rcases h with (h | h) | rfl
  · rcases h with h | h
    · exact Nat.lt_of_le_of_lt h.2 (by decide)
    · exact Nat.lt_of_le_of_lt h.2 (by decide)
  · exact Nat.lt_of_le_of_lt h.2 (by decide)
  · decide

theorem utf8Size_of_isWordChar (h : isWordChar c = true) :
    c.utf8Size = 1 ∧ (lowerChar c).utf8Size = 1 := by
  have hall : ∀ n < 128, (Char.ofNat n).utf8Size = 1 ∧ (lowerChar (Char.ofNat n)).utf8Size = 1 := by
    decide
  have hc := hall c.toNat (toNat_lt_of_isWordChar h)
  rwa [Char.ofNat_toNat] at hc

end Text

theorem IsPlainName.length_le {s : String} (h : IsPlainName s) : s.toList.length ≤ 63 := by
  have hsize : Text.utf8Length s.toList = s.toList.length := by
    apply Text.utf8Length_of_utf8Size
    intro c hc
    exact (Text.utf8Size_of_isWordChar (h.isWordChar c hc)).1
  rw [← hsize, Text.utf8Length_toList]
  exact h.size

namespace Postgres

open Sql

def created? (q : Statement) : Option String :=
  match Query.read? q.text with
  | some (.createTable d) => some d.table
  | some (.createIndex name _ _) => some name
  | _ => none

/-- Which statements do nothing, when some relations are there and each creates its own, along with
others that a server makes for its keys. -/
def skipped (keys : List String → Statement → List String) :
    List String → List Statement → List Statement
  | _, [] => []
  | there, q :: qs =>
    match created? q with
    | none => skipped keys there qs
    | some r =>
      if r ∈ there then q :: skipped keys there qs
      else skipped keys (r :: keys there q ++ there) qs

variable {t : Tables} {name : String}

theorem toList_relation (h : ∀ c ∈ name.toList, Text.isWordChar c = true) :
    (relation name).toList = (name.toList.map Text.lowerChar).take 63 := by
  rw [relation, fold, String.toList_ofList, Text.clip_eq_take]
  · rfl
  · intro c hc
    obtain ⟨d, hd, rfl⟩ := List.mem_map.1 hc
    exact (Text.utf8Size_of_isWordChar (h d hd)).2

theorem isWordChar_indexName (h : IsPlainName t.grants) :
    ∀ c ∈ (Command.indexName t).toList, Text.isWordChar c = true := by
  have hsuffix : ∀ c ∈ indexSuffix.toList, Text.isWordChar c = true := List.all_eq_true.1 rfl
  intro c hc
  rw [Command.indexName, String.toList_append, List.mem_append] at hc
  exact hc.elim (h.isWordChar c) (hsuffix c)

def relations (t : Tables) : List String :=
  [t.permissions, t.grants, Command.indexName t].map relation

theorem created?_schema (hp : IsPlainName t.permissions) (hg : IsPlainName t.grants) :
    (schema t).map created? = (relations t).map some := by
  have hread (c : Command) : Query.read? (c.statement t).text = _ :=
    Command.read?_template hp hg c.kind
  simp only [schema, relations, List.map_cons, List.map_nil, created?, hread]
  rfl

theorem nodup_of_skipped_eq_nil {keys : List String → Statement → List String}
    {there : List String} {qs : List Statement} (h : skipped keys there qs = []) :
    (qs.filterMap created?).Nodup ∧ ∀ r ∈ qs.filterMap created?, r ∉ there := by
  induction qs generalizing there with
  | nil => exact ⟨List.nodup_nil, List.forall_mem_nil _⟩
  | cons q qs ih =>
    cases hq : created? q with
    | none =>
      rw [List.filterMap_cons_none hq]
      simp only [skipped, hq] at h
      exact ih h
    | some r =>
      rw [List.filterMap_cons_some hq, List.nodup_cons, List.forall_mem_cons]
      simp only [skipped, hq] at h
      split at h
      · cases h
      · rename_i hr
        obtain ⟨hnodup, hnew⟩ := ih h
        have hnew (x : String) (hx : x ∈ qs.filterMap created?) : x ≠ r ∧ x ∉ there := by
          have hx := hnew x hx
          simp only [List.cons_append, List.mem_cons, List.mem_append, not_or] at hx
          exact ⟨hx.1, hx.2.2⟩
        exact ⟨⟨fun hmem => (hnew r hmem).1 rfl, hnodup⟩, hr, fun x hx => (hnew x hx).2⟩

theorem relation_inj {a b : String} (ha : IsPlainName a) (hb : IsPlainName b) :
    relation a = relation b ↔ Text.lower a = Text.lower b := by
  rw [← String.toList_inj, ← String.toList_inj, toList_relation ha.isWordChar,
    toList_relation hb.isWordChar, Text.lower, Text.lower, String.toList_ofList,
    String.toList_ofList, List.take_of_length_le, List.take_of_length_le]
  · rw [List.length_map]
    exact hb.length_le
  · rw [List.length_map]
    exact ha.length_le

theorem relation_eq_index_iff {a : String} (ha : IsPlainName a) (hg : IsPlainName t.grants) :
    relation a = relation (Command.indexName t) ↔
      Text.lower a = .ofList ((Text.lower (Command.indexName t)).toList.take 63) := by
  rw [← String.toList_inj, ← String.toList_inj, toList_relation ha.isWordChar,
    toList_relation (isWordChar_indexName hg), Text.lower, Text.lower, String.toList_ofList,
    String.toList_ofList, String.toList_ofList, List.take_of_length_le]
  rw [List.length_map]
  exact ha.length_le

theorem relation_grants_eq_index_iff (hg : IsPlainName t.grants) :
    relation t.grants = relation (Command.indexName t) ↔ t.grants.length = 63 := by
  have hlen := hg.length_le
  have hindex : (Command.indexName t).toList = t.grants.toList ++ indexSuffix.toList :=
    String.toList_append
  rw [← String.toList_inj, toList_relation hg.isWordChar, toList_relation (isWordChar_indexName hg),
    hindex, List.map_append, ← String.length_toList]
  constructor
  · intro h
    have hsame := congrArg List.length h
    have hsuffix : indexSuffix.toList.length = 12 := rfl
    simp only [List.length_take, List.length_append, List.length_map, hsuffix] at hsame
    omega
  · intro h
    have hfull : (t.grants.toList.map Text.lowerChar).length = 63 := by rw [List.length_map, h]
    rw [List.take_append_of_le_length (Nat.le_of_eq hfull.symm)]

theorem nodup_relations (hp : IsPlainName t.permissions) (hg : IsPlainName t.grants) :
    (relations t).Nodup ↔
      Text.lower t.permissions ≠ Text.lower t.grants ∧ t.grants.length < 63 ∧
        Text.lower t.permissions ≠ .ofList ((Text.lower (Command.indexName t)).toList.take 63) := by
  have hless : ¬ t.grants.length = 63 ↔ t.grants.length < 63 := by
    have hlen := hg.length_le
    rw [String.length_toList] at hlen
    omega
  simp only [relations, List.map_cons, List.map_nil, List.nodup_cons, List.mem_cons,
    List.not_mem_nil, or_false, not_or, not_false_eq_true, List.nodup_nil, and_true]
  rw [relation_inj hp hg, relation_grants_eq_index_iff hg, relation_eq_index_iff hp hg, hless,
    and_assoc]
  exact and_congr_right fun _ => and_comm

theorem nodup_of_skipped_schema (hp : IsPlainName t.permissions) (hg : IsPlainName t.grants)
    {keys : List String → Statement → List String} (h : skipped keys [] (schema t) = []) :
    (relations t).Nodup := by
  have hfilter : (schema t).filterMap created? = relations t := by
    have h := congrArg (List.filterMap id) (created?_schema hp hg)
    rwa [List.filterMap_map, List.filterMap_map, Function.id_comp, Function.id_comp,
      List.filterMap_some] at h
  exact hfilter ▸ (nodup_of_skipped_eq_nil h).1

/-- The relations of a schema with valid settings differ unless the names of the tables are the same
in lower case, the name of the table of grants leaves no room for that of the index, or the other
table has the name of the index; then a statement of the schema does nothing. -/
theorem relations_distinct_iff {c d : PermissionConfig} (h : c.validate = .ok d) :
    let t := Tables.ofConfig d
    (schema t).map created? = (relations t).map some ∧
    (∀ keys, ¬ (relations t).Nodup → skipped keys [] (schema t) ≠ []) ∧
    ((relations t).Nodup ↔
      Text.lower t.permissions ≠ Text.lower t.grants ∧ t.grants.length < 63 ∧
        Text.lower t.permissions ≠
          .ofList ((Text.lower (Command.indexName t)).toList.take 63)) := by
  obtain ⟨hp, hg, -⟩ := PermissionConfig.names_of_valid h
  exact ⟨created?_schema hp hg, fun keys => mt (nodup_of_skipped_schema hp hg),
    nodup_relations hp hg⟩

theorem relations_distinct_iff_alike :
    let alike : PermissionConfig := ⟨"PERMISSIONS_DB", true, "Grants", "grants"⟩
    let long : PermissionConfig := ⟨"PERMISSIONS_DB", true, "permissions",
      "grants_0123456789_0123456789_0123456789_0123456789_0123456789_x"⟩
    let index : PermissionConfig := ⟨"PERMISSIONS_DB", true, "role_permissions_role_id_idx",
      "role_permissions"⟩
    (∀ c ∈ [alike, long, index], c.validate = .ok c ∧ ¬ (relations (.ofConfig c)).Nodup ∧
      ∀ keys, skipped keys [] (schema (.ofConfig c)) ≠ []) ∧
    PermissionConfig.standard.validate = .ok .standard ∧
    (relations (.ofConfig .standard)).Nodup := by
  intro alike long index
  constructor
  · intro c hc
    have hvalid : c.validate = .ok c := by
      revert c
      decide +kernel
    obtain ⟨-, hskipped, hiff⟩ := relations_distinct_iff hvalid
    have hsame : ¬ (relations (.ofConfig c)).Nodup := by
      rw [hiff]
      clear hvalid hskipped hiff
      revert c
      decide +kernel
    exact ⟨hvalid, hsame, fun keys => hskipped keys hsame⟩
  · have hvalid : PermissionConfig.standard.validate = .ok .standard := by decide +kernel
    obtain ⟨-, -, hiff⟩ := relations_distinct_iff hvalid
    exact ⟨hvalid, hiff.2 (by decide +kernel)⟩

end Postgres

end AccessControl
