import AccessControl.Settings.Literal
import Mathlib.Data.List.DropRight

/-!
# Texts with a meaning

The value of a variable is the text itself unless the whole text means something else: a truth
value, a number, what stands in quotes, a list or a table. These are told apart by how the text
begins.
-/

namespace AccessControl

open Text Decimal

namespace Text

variable {p : Char → Bool} {cs pre post : List Char} {c : Char}

theorem dropWhile_eq_self_of_trimChars (h : trimChars p cs = cs) : cs.dropWhile p = cs := by
  have hsuffix := List.dropWhile_suffix p (l := cs)
  have hlen : (trimChars p cs).length ≤ (cs.dropWhile p).length := by
    rw [trimChars, List.length_reverse]
    exact (List.dropWhile_suffix p).length_le.trans List.length_reverse.le
  rw [h] at hlen
  exact hsuffix.eq_of_length_le hlen

theorem trimChars_trimChars (p : Char → Bool) (cs : List Char) :
    trimChars p (trimChars p cs) = trimChars p cs := by
  have hdrop : (trimChars p cs).dropWhile p = trimChars p cs := by
    refine List.dropWhile_eq_self_iff.2 fun hl => ?_
    have hfirst := List.dropWhile_eq_self_iff.1 (List.dropWhile_idempotent (p := p) cs)
    have hstart : trimChars p cs <+: cs.dropWhile p := List.rdropWhile_prefix p _
    rw [hstart.getElem hl]
    exact hfirst (hl.trans_le hstart.length_le)
  have hr : (trimChars p cs).rdropWhile p = trimChars p cs := List.rdropWhile_idempotent p _
  rw [trimChars, hdrop]
  exact hr

theorem eq_trim_of_length_le {s : String} (h : s.toList.length ≤ (trim s).toList.length) :
    trim s = s := by
  have hinfix : trimChars isBlank s.toList <:+: s.toList :=
    (List.rdropWhile_prefix isBlank _).isInfix.trans (List.dropWhile_suffix isBlank).isInfix
  rw [trim, String.toList_ofList] at h
  rw [trim, hinfix.sublist.eq_of_length_le h, String.ofList_toList]

theorem trim_trim (s : String) : trim (trim s) = trim s := by
  rw [trim, trim, String.toList_ofList, trimChars_trimChars]

theorem eq_nil_of_trimChars (h : trimChars p (pre ++ post) = pre ++ post)
    (hpost : ∀ c ∈ post, p c = true) : post = [] := by
  by_contra hne
  have hr : (pre ++ post).rdropWhile p = pre ++ post := by
    rw [trimChars, dropWhile_eq_self_of_trimChars h] at h
    exact h
  have hlast := List.rdropWhile_eq_self_iff.1 hr (List.append_ne_nil_of_right_ne_nil _ hne)
  rw [List.getLast_append_of_ne_nil _ hne] at hlast
  exact hlast (hpost _ (List.getLast_mem hne))

end Text

namespace Settings.Literal

def Numeral (cs : List Char) : Prop :=
  ('.' ∈ cs ∧ (number? cs).isSome = true) ∨ (integer? cs).isSome = true

/-- A text that is not itself as the value of a variable. -/
inductive Special (s : String) : Prop
  | truth (h : s = "true" ∨ s = "false")
  | number (h : Numeral s.toList)
  | quotation {r : List Char} {t : String} (h : s.toList = '"' :: r)
    (hq : quoted (r.length + 1) [] r = some (t, []))
  | character {c : Char} (h : s.toList = ['\'', c, '\''])
  | list {items : List Json} (h : parse s = .arr items)
  | table {ms : Members} (h : parse s = .obj ms)

def isNumeric (c : Char) : Bool := isDigit c || ['+', '-', '.', 'e', 'E'].contains c

variable {cs r : List Char} {c : Char} {n : Nat}

theorem isNumeric_of_digitIn {d : Nat} (h : digitIn 10 c = some d) : isNumeric c = true := by
  -- a letter is worth ten at least
  have hlower (hc : 'a' ≤ c) : 97 ≤ c.toNat := UInt32.le_iff_toNat_le.1 hc
  have hupper (hc : 'A' ≤ c) : 65 ≤ c.toNat := UInt32.le_iff_toNat_le.1 hc
  simp only [digitIn, digitValue, Bool.and_eq_true, decide_eq_true_eq] at h
  by_cases hdigit : isDigit c = true
  · rw [isNumeric, hdigit]
    rfl
  · rw [if_neg hdigit] at h
    by_cases ha : 'a' ≤ c ∧ c ≤ 'f'
    · simp only [if_pos ha] at h
      rw [if_neg (by have := hlower ha.1; omega)] at h
      cases h
    · by_cases hA : 'A' ≤ c ∧ c ≤ 'F'
      · simp only [if_neg ha, if_pos hA] at h
        rw [if_neg (by have := hupper hA.1; omega)] at h
        cases h
      · simp only [if_neg ha, if_neg hA] at h
        cases h

theorem isNumeric_of_natInFrom {acc : Nat} (h : natInFrom 10 acc cs = some n) :
    ∀ c ∈ cs, isNumeric c = true := by
  induction cs generalizing acc with
  | nil => exact List.forall_mem_nil _
  | cons c cs ih =>
    simp only [natInFrom] at h
    split at h
    · rename_i d hd
      exact List.forall_mem_cons.2 ⟨isNumeric_of_digitIn hd, ih h⟩
    · cases h

theorem isNumeric_of_natIn (h : natIn 10 cs = some n) : ∀ c ∈ cs, isNumeric c = true := by
  cases cs with
  | nil => cases h
  | cons c cs => exact isNumeric_of_natInFrom h

theorem isNumeric_of_isDigit (h : isDigit c = true) : isNumeric c = true := by
  rw [isNumeric, h]
  rfl

theorem isNumeric_of_exponent? {e : Int} (h : exponent? cs = some e) :
    ∀ c ∈ cs, isNumeric c = true := by
  cases cs with
  | nil => exact List.forall_mem_nil _
  | cons c cs =>
    simp only [exponent?] at h
    split at h
    · rename_i hc
      have hc' : isNumeric c = true := by
        rcases hc with rfl | rfl <;> decide
      refine List.forall_mem_cons.2 ⟨hc', ?_⟩
      split at h
      all_goals
        obtain ⟨e, he, -⟩ := Option.map_eq_some_iff.1 h
        obtain ⟨n, hn, -⟩ := Option.bind_eq_some_iff.1 he
        have hds := isNumeric_of_natIn hn
      · exact List.forall_mem_cons.2 ⟨by decide, hds⟩
      · exact List.forall_mem_cons.2 ⟨by decide, hds⟩
      · exact hds
    · cases h

theorem isNumeric_of_magnitude? {negative : Bool} {x : Binary64}
    (h : magnitude? negative cs = some x) : ∀ c ∈ cs, isNumeric c = true := by
  have hdigits (l : List Char) : ∀ c ∈ l.takeWhile isDigit, isNumeric c = true := by
    intro c hc
    exact isNumeric_of_isDigit (List.mem_takeWhile_imp hc)
  rw [← List.takeWhile_append_dropWhile (p := isDigit) (l := cs)]
  refine List.forall_mem_append.2 ⟨hdigits cs, ?_⟩
  simp only [magnitude?] at h
  obtain ⟨-, h⟩ := (Option.ite_none_left_eq_some).1 h
  obtain ⟨e, he, -⟩ := Option.map_eq_some_iff.1 h
  have hexp := isNumeric_of_exponent? he
  revert hexp
  split
  · rename_i r hr
    intro hexp
    rw [hr]
    refine List.forall_mem_cons.2 ⟨by decide, ?_⟩
    rw [← List.takeWhile_append_dropWhile (p := isDigit) (l := r)]
    exact List.forall_mem_append.2 ⟨hdigits r, hexp⟩
  · exact id

theorem isNumeric_of_numeral (h : Numeral cs) : ∀ c ∈ cs, isNumeric c = true := by
  rcases h with ⟨-, h⟩ | h
  · obtain ⟨x, hx⟩ := Option.isSome_iff_exists.1 h
    simp only [number?] at hx
    split at hx
    · exact List.forall_mem_cons.2 ⟨by decide, isNumeric_of_magnitude? hx⟩
    · exact List.forall_mem_cons.2 ⟨by decide, isNumeric_of_magnitude? hx⟩
    · exact isNumeric_of_magnitude? hx
  · obtain ⟨x, hx⟩ := Option.isSome_iff_exists.1 h
    simp only [integer?] at hx
    split at hx
    · split at hx
      · rename_i n hn
        exact List.forall_mem_cons.2 ⟨by decide, isNumeric_of_natIn hn⟩
      · cases hx
    · split at hx
      · rename_i n hn
        revert hn
        split
        · intro hn
          exact List.forall_mem_cons.2 ⟨by decide, isNumeric_of_natIn hn⟩
        · exact isNumeric_of_natIn
      · cases hx

theorem escaped_eq_some {e : Char} (h : escaped cs = some (e, r)) : ∃ p, cs = p ++ r ∧ p ≠ [] := by
  have hcode {digits : Nat} {l : List Char} (hl : escapedCode digits l = some (e, r)) :
      l = l.take digits ++ r := by
    simp only [escapedCode] at hl
    grind [List.take_append_drop]
  unfold escaped at h
  split at h
  all_goals first
    | cases h
      exact ⟨[_], rfl, List.cons_ne_nil _ _⟩
    | exact ⟨_ :: List.take 4 _, congrArg _ (hcode h), List.cons_ne_nil _ _⟩
    | exact ⟨_ :: List.take 8 _, congrArg _ (hcode h), List.cons_ne_nil _ _⟩
    | cases h

theorem quoted_eq_some {fuel : Nat} {acc : List Char} {t : String}
    (h : quoted fuel acc cs = some (t, r)) :
    ∃ p, cs = p ++ '"' :: r ∧ t.toList.length ≤ acc.length + p.length := by
  induction fuel generalizing acc cs with
  | zero => cases h
  | succ fuel ih =>
    cases cs with
    | nil => cases h
    | cons c cs =>
      simp only [quoted] at h
      split at h
      · rename_i hc
        rw [beq_iff_eq] at hc
        cases h
        refine ⟨[], by rw [hc]; rfl, ?_⟩
        rw [String.toList_ofList, List.length_reverse]
        exact Nat.le_add_right _ _
      · split at h
        · split at h
          · rename_i e rest he
            obtain ⟨q, rfl, hq⟩ := escaped_eq_some he
            obtain ⟨p, rfl, hp⟩ := ih h
            have hpos := List.length_pos_iff.2 hq
            refine ⟨c :: (q ++ p), by simp, ?_⟩
            simp only [List.length_cons, List.length_append] at hp ⊢
            omega
          · cases h
        · split at h
          · obtain ⟨p, rfl, hp⟩ := ih h
            refine ⟨c :: p, rfl, ?_⟩
            simp only [List.length_cons] at hp ⊢
            omega
          · cases h

variable {s : String}

theorem trimChars_toList (hs : trim s = s) : trimChars isBlank s.toList = s.toList := by
  have h := congrArg String.toList hs
  rwa [trim, String.toList_ofList] at h

theorem dropBlank_of_trim (hs : trim s = s) : dropBlank s.toList = s.toList := by
  refine List.dropWhile_eq_self_iff.2 fun hl hblank => ?_
  have hfirst := List.dropWhile_eq_self_iff.1 (dropWhile_eq_self_of_trimChars (trimChars_toList hs))
  exact hfirst hl (isBlank_of_isAsciiBlank hblank)

theorem eq_nil_of_dropBlank {post : List Char} (pre : List Char) (hs : trim s = s)
    (h : s.toList = pre ++ post) (hpost : dropBlank post = []) : post = [] := by
  have htrim := trimChars_toList hs
  rw [h] at htrim
  refine eq_nil_of_trimChars htrim fun c hc => ?_
  exact isBlank_of_isAsciiBlank (List.dropWhile_eq_nil_iff.1 hpost c hc)

theorem parse_of_value {v : Json} (h : value (2 * s.toList.length + 2) s.toList = some (v, [])) :
    parse s = v := by
  simp only [parse, h]

theorem integer?_eq_some {v : Json} (h : integer? cs = some v) : ∃ n, v = .int n := by
  simp only [integer?] at h
  grind

theorem bare_of_numeral (h : Numeral cs) : (∃ n, bare cs = .int n) ∨ ∃ x, bare cs = .float x := by
  simp only [bare]
  rcases h with ⟨hdot, h⟩ | h
  · obtain ⟨x, hx⟩ := Option.isSome_iff_exists.1 h
    rw [if_pos (List.contains_iff_mem.2 hdot), hx]
    exact .inr ⟨x, rfl⟩
  · obtain ⟨v, hv⟩ := Option.isSome_iff_exists.1 h
    obtain ⟨n, rfl⟩ := integer?_eq_some hv
    rw [hv]
    split
    · cases number? cs with
      | none => exact .inl ⟨n, rfl⟩
      | some x => exact .inr ⟨x, rfl⟩
    · exact .inl ⟨n, rfl⟩

theorem bare_of_not_numeral (h : ¬ Numeral cs) : bare cs = .str (String.ofList cs) := by
  obtain ⟨hfloat, hinteger⟩ := not_or.1 h
  have hint : integer? cs = none := by simpa using hinteger
  have hfloat' : (if cs.contains '.' then (number? cs).map Json.float else none) = none := by
    split
    · rename_i hdot
      have hnone : number? cs = none := by
        simpa [List.contains_iff_mem.1 hdot] using hfloat
      rw [hnone]
      rfl
    · rfl
  simp only [bare, hfloat', hint]
  rfl

theorem isNumeric_of_isMark (h : isMark c = true) : isNumeric c = false := by
  simp only [isMark, List.contains_iff_mem, List.mem_cons, List.not_mem_nil, or_false] at h
  rcases h with rfl | rfl | rfl | rfl | rfl <;> decide

theorem parse_of_numeral (hs : trim s = s) (h : Numeral s.toList) : parse s = bare s.toList := by
  have hnumeric := isNumeric_of_numeral h
  have hnot {c : Char} (hc : isNumeric c = false) (hmem : c ∈ s.toList) : False := by
    rw [hnumeric c hmem] at hc
    cases hc
  have hmark : ∀ c ∈ s.toList, (!isMark c) = true := by
    intro c hc
    cases hm : isMark c with
    | false => rfl
    | true => exact (hnot (isNumeric_of_isMark hm) hc).elim
  apply parse_of_value
  simp only [value, dropBlank_of_trim hs]
  split
  all_goals first
    | rename_i hcs
      exact (hnot (by decide) (hcs ▸ List.mem_cons_self)).elim
    | skip
  rw [List.takeWhile_eq_self_iff.2 hmark, List.dropWhile_eq_nil_iff.2 hmark, trimChars_toList hs]

/-- What a text with a meaning of its own means is no text, or a shorter one. -/
theorem length_lt_of_special {t : String} (hs : trim s = s) (h : Special s)
    (hp : parse s = .str t) :
    t.toList.length < s.toList.length := by
  cases h with
  | truth h =>
    rcases h with rfl | rfl
    · have htrue : parse "true" = .bool true := rfl
      rw [htrue] at hp
      cases hp
    · have hfalse : parse "false" = .bool false := rfl
      rw [hfalse] at hp
      cases hp
  | number h =>
    rw [parse_of_numeral hs h] at hp
    rcases bare_of_numeral h with ⟨n, hn⟩ | ⟨x, hx⟩
    · rw [hn] at hp
      cases hp
    · rw [hx] at hp
      cases hp
  | @quotation r u h hq =>
    have hquoted : parse s = .str u := by
      apply parse_of_value
      simp only [value, dropBlank_of_trim hs]
      rw [h]
      simp only [hq]
      rfl
    rw [hquoted, Json.str.injEq] at hp
    obtain ⟨p, hr, hlen⟩ := quoted_eq_some hq
    rw [← hp, h, hr]
    simp only [List.length_cons, List.length_append, List.length_nil] at hlen ⊢
    omega
  | @character c h =>
    have hcharacter : parse s = .str (String.ofList [c]) := by
      apply parse_of_value
      simp only [value, dropBlank_of_trim hs]
      rw [h]
      rfl
    rw [hcharacter, Json.str.injEq] at hp
    rw [← hp, h, String.toList_ofList]
    exact Nat.one_lt_succ_succ 1
  | list h =>
    rw [h] at hp
    cases hp
  | table h =>
    rw [h] at hp
    cases hp

theorem special_of_value {v : Json} (hs : trim s = s)
    (hv : value (2 * s.toList.length + 2) s.toList = some (v, [])) (hne : v ≠ .str s) :
    Special s := by
  have hp := parse_of_value hv
  simp only [value, dropBlank_of_trim hs] at hv
  split at hv
  · rename_i r hcs
    obtain ⟨-, hr⟩ := Prod.mk.inj (Option.some.inj hv)
    rw [eq_nil_of_dropBlank ['t', 'r', 'u', 'e'] hs hcs hr] at hcs
    exact .truth (.inl (String.toList_inj.1 hcs))
  · rename_i r hcs
    obtain ⟨-, hr⟩ := Prod.mk.inj (Option.some.inj hv)
    rw [eq_nil_of_dropBlank ['f', 'a', 'l', 's', 'e'] hs hcs hr] at hcs
    exact .truth (.inr (String.toList_inj.1 hcs))
  · rw [Option.map_map] at hv
    obtain ⟨m, -, hm⟩ := Option.map_eq_some_iff.1 hv
    obtain ⟨rfl, -⟩ := Prod.mk.inj hm
    exact .table hp
  · rw [Option.map_map] at hv
    obtain ⟨m, -, hm⟩ := Option.map_eq_some_iff.1 hv
    obtain ⟨rfl, -⟩ := Prod.mk.inj hm
    exact .list hp
  · rename_i r hcs
    rw [Option.map_map] at hv
    obtain ⟨⟨t, rest⟩, hq, hm⟩ := Option.map_eq_some_iff.1 hv
    obtain ⟨-, hrest⟩ := Prod.mk.inj hm
    obtain ⟨p, hr, -⟩ := quoted_eq_some hq
    have hnil : rest = [] := by
      apply eq_nil_of_dropBlank ('"' :: (p ++ ['"'])) hs _ hrest
      rw [hcs, hr]
      simp
    exact .quotation hcs (hnil ▸ hq)
  · rename_i c r hcs
    obtain ⟨-, hr⟩ := Prod.mk.inj (Option.some.inj hv)
    rw [eq_nil_of_dropBlank ['\'', c, '\''] hs hcs hr] at hcs
    exact .character hcs
  · cases hv
  · obtain ⟨rfl, hrest⟩ := Prod.mk.inj (Option.some.inj hv)
    rw [List.takeWhile_eq_self_iff.2 (List.dropWhile_eq_nil_iff.1 hrest), trimChars_toList hs]
      at hne
    by_cases hn : Numeral s.toList
    · exact .number hn
    · rw [bare_of_not_numeral hn, String.ofList_toList] at hne
      exact (hne rfl).elim

theorem bare_ne_null : bare cs ≠ .null := by
  by_cases h : Numeral cs
  · rcases bare_of_numeral h with ⟨n, hn⟩ | ⟨x, hx⟩
    · rw [hn]
      nofun
    · rw [hx]
      nofun
  · rw [bare_of_not_numeral h]
    nofun

theorem value_ne_null {fuel : Nat} : value fuel cs ≠ some (.null, r) := by
  intro h
  cases fuel with
  | zero => simp [value] at h
  | succ fuel =>
    simp only [value] at h
    split at h
    · cases h
    · cases h
    · simp at h
    · simp at h
    · simp at h
    · cases h
    · cases h
    · exact bare_ne_null (Prod.mk.inj (Option.some.inj h)).1

theorem parse_ne_null (s : String) : parse s ≠ .null := by
  unfold parse
  dsimp only
  split
  · rename_i v hv
    rintro rfl
    exact value_ne_null hv
  · nofun

/-- Without blanks at its ends, a text is itself as a value unless it means something else. -/
theorem parse_eq_self_iff (hs : trim s = s) : parse s = .str s ↔ ¬ Special s := by
  refine ⟨fun h hspecial => ?_, fun h => ?_⟩
  · exact Nat.lt_irrefl _ (length_lt_of_special hs hspecial h)
  · by_contra hne
    apply h
    unfold parse at hne
    dsimp only at hne
    split at hne
    · rename_i v hv
      exact special_of_value hs hv hne
    · exact (hne rfl).elim

theorem parse_trim_eq_iff (s : String) :
    parse (trim s) = .str s ↔ trim s = s ∧ ¬ Special s := by
  constructor
  · intro h
    have hle : s.toList.length ≤ (trim s).toList.length := by
      by_cases hspecial : Special (trim s)
      · exact (length_lt_of_special (trim_trim s) hspecial h).le
      · rw [(parse_eq_self_iff (trim_trim s)).2 hspecial, Json.str.injEq] at h
        rw [h]
    have htrim := eq_trim_of_length_le hle
    rw [htrim, parse_eq_self_iff htrim] at h
    exact ⟨htrim, h⟩
  · rintro ⟨htrim, h⟩
    rw [htrim, parse_eq_self_iff htrim]
    exact h

end Settings.Literal

end AccessControl
