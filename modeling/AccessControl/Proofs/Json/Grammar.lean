import AccessControl.Proofs.Json.Numeral
import AccessControl.Proofs.Json.StringText

/-!
# The grammar of JSON

A tree without a stop in it is spelled by exactly the texts that are read as it. Numbers beyond the
range and strings with half of a surrogate pair are spelled too, as holes.
-/

namespace AccessControl.Json.Reading

open Text

def IsBlank (c : Char) : Prop := c = ' ' ∨ c = '\n' ∨ c = '\t' ∨ c = '\r'

instance (c : Char) : Decidable (IsBlank c) := inferInstanceAs (Decidable (_ ∨ _))

def Blanks (cs : List Char) : Prop := ∀ c ∈ cs, IsBlank c

def ofText : Option String → Reading
  | some s => .str s
  | none => .hole .malformed none

mutual
/-- The texts of a value. -/
inductive Spelled : Reading → List Char → Prop
  | null : Spelled .null ['n', 'u', 'l', 'l']
  | yes : Spelled (.bool true) ['t', 'r', 'u', 'e']
  | no : Spelled (.bool false) ['f', 'a', 'l', 's', 'e']
  | number {x : Numeral} {cs : List Char} (h : x.Unsigned cs) :
    Spelled x.value (signText x.negative ++ cs)
  | string {s : Option String} {cs : List Char} (h : StringText s cs) : Spelled (ofText s) cs
  | noItems {b : List Char} (hb : Blanks b) : Spelled (.arr [] none) ('[' :: (b ++ [']']))
  | items {vs : List Reading} {b cs : List Char} (hb : Blanks b) (h : Items vs cs) :
    Spelled (.arr vs none) ('[' :: (b ++ (cs ++ [']'])))
  | noMembers {b : List Char} (hb : Blanks b) :
    Spelled (.obj [] none) ('\x7b' :: (b ++ ['\x7d']))
  | members {ms : List (Option String × Reading)} {b cs : List Char} (hb : Blanks b)
      (h : Members ms cs) : Spelled (.obj ms none) ('\x7b' :: (b ++ (cs ++ ['\x7d'])))

inductive Items : List Reading → List Char → Prop
  | last {v : Reading} {cs b : List Char} (h : Spelled v cs) (hb : Blanks b) : Items [v] (cs ++ b)
  | cons {v : Reading} {vs : List Reading} {cs us b b' : List Char} (h : Spelled v cs)
      (hb : Blanks b) (hb' : Blanks b') (hs : Items vs us) :
    Items (v :: vs) (cs ++ (b ++ ',' :: (b' ++ us)))

inductive Member : Option String × Reading → List Char → Prop
  | pair {k : Option String} {v : Reading} {ks cs b b' : List Char} (hk : StringText k ks)
      (hb : Blanks b) (hb' : Blanks b') (h : Spelled v cs) :
    Member (k, v) (ks ++ (b ++ ':' :: (b' ++ cs)))

inductive Members : List (Option String × Reading) → List Char → Prop
  | last {m : Option String × Reading} {cs b : List Char} (h : Member m cs) (hb : Blanks b) :
    Members [m] (cs ++ b)
  | cons {m : Option String × Reading} {ms : List (Option String × Reading)}
      {cs us b b' : List Char} (h : Member m cs) (hb : Blanks b) (hb' : Blanks b')
      (hs : Members ms us) : Members (m :: ms) (cs ++ (b ++ ',' :: (b' ++ us)))
end

def Follows (r : List Char) : Prop :=
  ∀ c, r.head? = some c → IsBlank c ∨ c = ',' ∨ c = ']' ∨ c = '\x7d'

variable {v : Reading} {vs : List Reading} {m : Option String × Reading}
  {ms : List (Option String × Reading)} {cs us b r : List Char} {c : Char} {fuel : Nat}

theorem dropBlank_append (hb : Blanks b) (cs : List Char) : dropBlank (b ++ cs) = dropBlank cs := by
  induction b with
  | nil => rfl
  | cons c b ih =>
    have hc : IsBlank c := hb c List.mem_cons_self
    rw [List.cons_append, dropBlank]
    exact (if_pos hc).trans (ih fun d hd => hb d (List.mem_cons_of_mem _ hd))

theorem dropBlank_of_not_isBlank (hc : ¬ IsBlank c) (cs : List Char) :
    dropBlank (c :: cs) = c :: cs := by
  rw [dropBlank]
  exact if_neg hc

theorem exists_blanks (cs : List Char) : ∃ b, Blanks b ∧ cs = b ++ dropBlank cs := by
  induction cs with
  | nil => exact ⟨[], nofun, rfl⟩
  | cons c cs ih =>
    rw [dropBlank]
    split
    · rename_i hc
      obtain ⟨b, hb, heq⟩ := ih
      refine ⟨c :: b, ?_, congrArg (c :: ·) heq⟩
      intro d hd
      rcases List.mem_cons.1 hd with rfl | hd
      · exact hc
      · exact hb d hd
    · exact ⟨[], nofun, rfl⟩

theorem exists_blanks_of_dropBlank (h : dropBlank cs = r) : ∃ b, Blanks b ∧ cs = b ++ r :=
  h ▸ exists_blanks cs

theorem follows_blanks (hb : Blanks b) (hr : Follows r) : Follows (b ++ r) := by
  cases b with
  | nil => exact hr
  | cons c b =>
    intro d hd
    cases hd
    exact .inl (hb c List.mem_cons_self)

theorem follows_cons (hc : c = ',' ∨ c = ']' ∨ c = '\x7d') (r : List Char) : Follows (c :: r) := by
  intro d hd
  cases hd
  exact .inr hc

theorem Follows.endsNumber (hr : Follows r) : EndsNumber r := by
  intro c hc
  rcases hr c hc with (rfl | rfl | rfl | rfl) | rfl | rfl | rfl <;> decide

theorem word_sound {w : Reading} {ps : List Char} (h : word v ps cs = ⟨w, some r⟩) :
    w = v ∧ cs = ps ++ r := by
  induction ps generalizing cs with
  | nil =>
    cases h
    exact ⟨rfl, rfl⟩
  | cons p ps ih =>
    cases cs with
    | nil => cases h
    | cons c cs =>
      rw [word] at h
      split at h
      · rename_i hc
        obtain ⟨hw, hcs⟩ := ih h
        exact ⟨hw, by rw [hc, hcs]; rfl⟩
      · cases h

theorem word_complete (v : Reading) (ps r : List Char) : word v ps (ps ++ r) = ⟨v, some r⟩ := by
  induction ps with
  | nil => rfl
  | cons p ps ih => rw [List.cons_append, word, if_pos rfl, ih]

theorem blanks_nil : Blanks [] := nofun

theorem blanks_append {b' : List Char} (hb : Blanks b) (hb' : Blanks b') : Blanks (b ++ b') := by
  intro c hc
  rcases List.mem_append.1 hc with hc | hc
  · exact hb c hc
  · exact hb' c hc

theorem spelled_of_number {negative : Bool} (h : number negative cs = ⟨v, some r⟩) :
    ∃ us, Spelled v us ∧ signText negative ++ cs = us ++ r := by
  obtain ⟨x, us, rfl, hunsigned, rfl, rfl⟩ := number_sound h
  exact ⟨_, .number hunsigned, (List.append_assoc _ _ _).symm⟩

/-- What a reader of a value, of items or of members takes from a text spells what it returns. -/
structure Sound (fuel : Nat) : Prop where
  value {v : Reading} {cs r : List Char} (h : value fuel cs = ⟨v, some r⟩) :
    ∃ b us, Blanks b ∧ Spelled v us ∧ cs = b ++ (us ++ r)
  items {done : List Reading} {v : Reading} {cs r : List Char}
      (h : items fuel done cs = ⟨v, some r⟩) :
    ∃ b vs us, Blanks b ∧ Items vs us ∧ cs = b ++ (us ++ ']' :: r) ∧
      v = .arr (done.reverse ++ vs) none
  members {done : List (Option String × Reading)} {v : Reading} {cs r : List Char}
      (h : members fuel done cs = ⟨v, some r⟩) :
    ∃ ms us, Members ms us ∧ cs = us ++ '\x7d' :: r ∧ v = .obj (done.reverse ++ ms) none

theorem value_sound_succ (ih : Sound fuel) (h : value (fuel + 1) cs = ⟨v, some r⟩) :
    ∃ b us, Blanks b ∧ Spelled v us ∧ cs = b ++ (us ++ r) := by
  unfold value at h
  obtain ⟨b, hb, hcs⟩ := exists_blanks cs
  rw [hcs]
  generalize dropBlank cs = cs' at h hcs
  suffices ∃ us, Spelled v us ∧ cs' = us ++ r by
    obtain ⟨us, hv, rfl⟩ := this
    exact ⟨b, us, hb, hv, rfl⟩
  clear hcs
  split at h
  · cases h
  · obtain ⟨rfl, rfl⟩ := word_sound h
    exact ⟨_, .null, rfl⟩
  · obtain ⟨rfl, rfl⟩ := word_sound h
    exact ⟨_, .yes, rfl⟩
  · obtain ⟨rfl, rfl⟩ := word_sound h
    exact ⟨_, .no, rfl⟩
  · exact spelled_of_number h
  · split at h
    · rename_i hq
      cases h
      obtain ⟨text, htext, heq⟩ := quoted_eq_closed_iff.1 hq
      exact ⟨text, .string htext, heq⟩
    · rename_i hq
      cases h
      obtain ⟨text, htext, heq⟩ := quoted_eq_closed_iff.1 hq
      exact ⟨text, .string htext, heq⟩
    · cases h
  · split at h
    · cases h
    · rename_i hr
      cases h
      obtain ⟨b, hb, rfl⟩ := exists_blanks_of_dropBlank hr
      exact ⟨_, .noItems hb, by simp⟩
    · obtain ⟨b, vs, us, hb, hvs, heq, rfl⟩ := ih.items h
      obtain ⟨b', hb', rfl⟩ := exists_blanks_of_dropBlank heq
      exact ⟨_, .items (blanks_append hb' hb) hvs, by simp⟩
  · split at h
    · cases h
    · rename_i hr
      cases h
      obtain ⟨b, hb, rfl⟩ := exists_blanks_of_dropBlank hr
      exact ⟨_, .noMembers hb, by simp⟩
    · obtain ⟨ms, us, hms, heq, rfl⟩ := ih.members h
      obtain ⟨b', hb', rfl⟩ := exists_blanks_of_dropBlank heq
      exact ⟨_, .members hb' hms, by simp⟩
  · split at h
    · exact spelled_of_number h
    · cases h

theorem items_sound_succ {done : List Reading} (ih : Sound fuel)
    (h : items (fuel + 1) done cs = ⟨v, some r⟩) :
    ∃ b vs us, Blanks b ∧ Items vs us ∧ cs = b ++ (us ++ ']' :: r) ∧
      v = .arr (done.reverse ++ vs) none := by
  unfold items at h
  split at h
  · cases h
  · rename_i w r' hvalue
    obtain ⟨b, us, hb, hw, rfl⟩ := ih.value hvalue
    split at h
    · rename_i hr
      cases h
      obtain ⟨b', hb', rfl⟩ := exists_blanks_of_dropBlank hr
      exact ⟨b, [w], us ++ b', hb, .last hw hb', by simp, by simp⟩
    · rename_i hr
      obtain ⟨b', hb', rfl⟩ := exists_blanks_of_dropBlank hr
      split at h
      · cases h
      · obtain ⟨b₁, vs, us', hb₁, hvs, heq, rfl⟩ := ih.items h
        obtain ⟨b₂, hb₂, rfl⟩ := exists_blanks_of_dropBlank heq
        exact ⟨b, w :: vs, _, hb, .cons hw hb' (blanks_append hb₂ hb₁) hvs, by simp, by simp⟩
    · cases h

theorem members_sound_succ {done : List (Option String × Reading)} (ih : Sound fuel)
    (h : members (fuel + 1) done cs = ⟨v, some r⟩) :
    ∃ ms us, Members ms us ∧ cs = us ++ '\x7d' :: r ∧ v = .obj (done.reverse ++ ms) none := by
  unfold members at h
  split at h
  · split at h
    · cases h
    · rename_i k r' hk
      obtain ⟨ks, hks, heq⟩ := quoted_eq_closed_iff.1 hk
      rw [heq]
      split at h
      · rename_i hr
        obtain ⟨b, hb, rfl⟩ := exists_blanks_of_dropBlank hr
        split at h
        · cases h
        · rename_i w r'' hvalue
          obtain ⟨b', us, hb', hw, rfl⟩ := ih.value hvalue
          have hm := Member.pair hks hb hb' hw
          split at h
          · rename_i hr'
            cases h
            obtain ⟨b'', hb'', rfl⟩ := exists_blanks_of_dropBlank hr'
            exact ⟨_, _, .last hm hb'', by simp, by simp⟩
          · rename_i hr'
            obtain ⟨b'', hb'', rfl⟩ := exists_blanks_of_dropBlank hr'
            obtain ⟨ms, us', hms, heq', rfl⟩ := ih.members h
            obtain ⟨b₃, hb₃, rfl⟩ := exists_blanks_of_dropBlank heq'
            exact ⟨_, _, .cons hm hb'' hb₃ hms, by simp, by simp⟩
          · cases h
      · cases h
  · cases h

theorem sound (fuel : Nat) : Sound fuel := by
  induction fuel with
  | zero => exact ⟨nofun, nofun, nofun⟩
  | succ fuel ih => exact ⟨value_sound_succ ih, items_sound_succ ih, members_sound_succ ih⟩

theorem Numeral.Unsigned.start {x : Numeral} (h : x.Unsigned cs) :
    ∃ c us, cs = c :: us ∧ isDigit c = true := by
  cases h with
  | parts hw hzero hf he =>
    obtain ⟨c, us, hc⟩ := List.exists_cons_of_ne_nil hw.1
    exact ⟨c, _, by rw [hc]; rfl, hw.2 c (hc ▸ List.mem_cons_self)⟩

theorem Spelled.start (h : Spelled v cs) : ∃ c us, cs = c :: us ∧ ¬ IsBlank c ∧ c ≠ ']' := by
  cases h with
  | @number x us h =>
    cases hx : x.negative with
    | true => exact ⟨'-', us, rfl, by decide, by decide⟩
    | false =>
      obtain ⟨c, us, rfl, hc⟩ := h.start
      refine ⟨c, us, rfl, ?_, ?_⟩
      · rintro (rfl | rfl | rfl | rfl) <;> cases hc
      · rintro rfl
        cases hc
  | string h =>
    obtain ⟨t, us, -, -, rfl⟩ := h
    exact ⟨_, _, rfl, by decide, by decide⟩
  | _ => exact ⟨_, _, rfl, by decide, by decide⟩

theorem Items.start (h : Items vs cs) : ∃ c us, cs = c :: us ∧ ¬ IsBlank c ∧ c ≠ ']' := by
  cases h with
  | last h hb =>
    obtain ⟨c, us, rfl, hc⟩ := h.start
    exact ⟨c, _, rfl, hc⟩
  | cons h hb hb' hs =>
    obtain ⟨c, us, rfl, hc⟩ := h.start
    exact ⟨c, _, rfl, hc⟩

theorem Member.start (h : Member m cs) : ∃ us, cs = '"' :: us := by
  cases h with
  | pair hk hb hb' h =>
    obtain ⟨t, us, -, -, rfl⟩ := hk
    exact ⟨_, rfl⟩

theorem Members.start (h : Members ms cs) : ∃ us, cs = '"' :: us := by
  cases h with
  | last h hb =>
    obtain ⟨us, rfl⟩ := h.start
    exact ⟨_, rfl⟩
  | cons h hb hb' hs =>
    obtain ⟨us, rfl⟩ := h.start
    exact ⟨_, rfl⟩

/-- Texts that spell are read to their end by each reader, given enough fuel. -/
structure Complete (fuel : Nat) : Prop where
  value {v : Reading} {us b r : List Char} (h : Spelled v us) (hfuel : 2 * us.length ≤ fuel)
    (hb : Blanks b) (hr : Follows r) : value fuel (b ++ (us ++ r)) = ⟨v, some r⟩
  items {vs : List Reading} {us : List Char} (h : Items vs us) (hfuel : 2 * us.length < fuel)
    (done : List Reading) (r : List Char) :
    items fuel done (us ++ ']' :: r) = ⟨.arr (done.reverse ++ vs) none, some r⟩
  members {ms : List (Option String × Reading)} {us : List Char} (h : Members ms us)
    (hfuel : 2 * us.length < fuel) (done : List (Option String × Reading)) (r : List Char) :
    members fuel done (us ++ '\x7d' :: r) = ⟨.obj (done.reverse ++ ms) none, some r⟩

theorem value_of_digit (hcs : dropBlank cs = c :: us) (hc : isDigit c = true) :
    value (fuel + 1) cs = number false (c :: us) := by
  rw [value, hcs]
  split <;> rename_i heq <;> cases heq <;> first | cases hc | rw [if_pos hc]

theorem value_complete_succ (ih : Complete fuel) (h : Spelled v us)
    (hfuel : 2 * us.length ≤ fuel + 1) (hb : Blanks b) (hr : Follows r) :
    value (fuel + 1) (b ++ (us ++ r)) = ⟨v, some r⟩ := by
  have hdrop : dropBlank (b ++ (us ++ r)) = us ++ r := by
    obtain ⟨c, us, rfl, hc, -⟩ := h.start
    rw [dropBlank_append hb, List.cons_append, dropBlank_of_not_isBlank hc]
  cases h with
  | null =>
    rw [value, hdrop]
    exact word_complete _ ['u', 'l', 'l'] r
  | yes =>
    rw [value, hdrop]
    exact word_complete _ ['r', 'u', 'e'] r
  | no =>
    rw [value, hdrop]
    exact word_complete _ ['a', 'l', 's', 'e'] r
  | @number x us h =>
    have hnumber := number_complete h hr.endsNumber
    cases hx : x.negative with
    | true =>
      rw [hx] at hnumber hdrop
      rw [value, hdrop]
      exact hnumber
    | false =>
      rw [hx] at hnumber hdrop
      obtain ⟨c, us, rfl, hc⟩ := h.start
      rw [value_of_digit hdrop hc]
      exact hnumber
  | @string s us h =>
    obtain ⟨t, cs, ht, hs, rfl⟩ := id h
    rw [value, hdrop]
    have hquoted : quoted (cs ++ ['"'] ++ r) = .closed s r := quoted_eq_closed_iff.2 ⟨_, h, rfl⟩
    cases s <;> simp only [List.cons_append, hquoted, ofText]
  | @noItems b' hb' =>
    have hclose : dropBlank (b' ++ [']'] ++ r) = ']' :: r := by
      rw [List.append_assoc, dropBlank_append hb']
      rfl
    rw [value, hdrop]
    simp only [List.cons_append, hclose]
  | @items vs b' us hb' h =>
    have hread := ih.items h (by simp at hfuel; omega) [] r
    obtain ⟨c, us, rfl, hblank, hclose⟩ := h.start
    rw [value, hdrop]
    simp only [List.cons_append, List.append_assoc, List.nil_append, dropBlank_append hb',
      dropBlank_of_not_isBlank hblank] at hread ⊢
    split
    · rename_i heq
      cases heq
    · rename_i heq
      cases heq
      exact absurd rfl hclose
    · exact hread
  | @noMembers b' hb' =>
    have hclose : dropBlank (b' ++ ['\x7d'] ++ r) = '\x7d' :: r := by
      rw [List.append_assoc, dropBlank_append hb']
      rfl
    rw [value, hdrop]
    simp only [List.cons_append, hclose]
  | @members ms b' us hb' h =>
    have hread := ih.members h (by simp at hfuel; omega) [] r
    obtain ⟨us, rfl⟩ := h.start
    have hblank : ¬ IsBlank '"' := by decide
    rw [value, hdrop]
    simp only [List.cons_append, List.append_assoc, List.nil_append, dropBlank_append hb',
      dropBlank_of_not_isBlank hblank] at hread ⊢
    exact hread

theorem items_complete_succ (ih : Complete fuel) (h : Items vs us)
    (hfuel : 2 * us.length < fuel + 1) (done : List Reading) (r : List Char) :
    items (fuel + 1) done (us ++ ']' :: r) = ⟨.arr (done.reverse ++ vs) none, some r⟩ := by
  cases h with
  | @last v us b h hb =>
    have hvalue := ih.value h (by simp at hfuel; omega) blanks_nil
      (follows_blanks hb (follows_cons (c := ']') (by simp) r))
    have hclose : dropBlank (b ++ ']' :: r) = ']' :: r := dropBlank_append hb _
    rw [List.nil_append] at hvalue
    rw [List.append_assoc, items, hvalue]
    simp only [hclose, List.reverse_cons]
  | @cons v vs us us' b b' h hb hb' hs =>
    have hvalue := ih.value h (by simp at hfuel; omega) blanks_nil
      (follows_blanks hb (follows_cons (c := ',') (by simp) (b' ++ (us' ++ ']' :: r))))
    have hread := ih.items hs (by simp at hfuel; omega) (v :: done) r
    have hcomma (cs : List Char) : dropBlank (b ++ ',' :: cs) = ',' :: cs := dropBlank_append hb _
    obtain ⟨c, us', rfl, hblank, hclose⟩ := hs.start
    simp only [List.nil_append, List.cons_append, List.append_assoc, List.reverse_cons]
      at hvalue hread ⊢
    rw [items, hvalue]
    simp only [hcomma, dropBlank_append hb', dropBlank_of_not_isBlank hblank]
    split
    · rename_i heq
      cases heq
      exact absurd rfl hclose
    · exact hread

theorem members_of_member {k : Option String} (ih : Complete fuel) (h : Member (k, v) us)
    (hfuel : 2 * us.length ≤ fuel) (hr : Follows r) (done : List (Option String × Reading)) :
    (∀ r', dropBlank r = '\x7d' :: r' →
      members (fuel + 1) done (us ++ r) = ⟨.obj ((k, v) :: done).reverse none, some r'⟩) ∧
    ∀ r', dropBlank r = ',' :: r' →
      members (fuel + 1) done (us ++ r) = members fuel ((k, v) :: done) (dropBlank r') := by
  cases h with
  | @pair _ _ ks cs b b' hk hb hb' hv =>
    have hvalue := ih.value hv (by simp at hfuel; omega) hb' hr
    have hcolon (cs : List Char) : dropBlank (b ++ ':' :: cs) = ':' :: cs := dropBlank_append hb _
    obtain ⟨t, ts, -, -, rfl⟩ := id hk
    have hquoted : quoted (ts ++ '"' :: (b ++ ':' :: (b' ++ (cs ++ r)))) =
        .closed k (b ++ ':' :: (b' ++ (cs ++ r))) := quoted_eq_closed_iff.2 ⟨_, hk, by simp⟩
    simp only [List.nil_append, List.cons_append, List.append_assoc]
    rw [members, hquoted]
    simp only [hcolon, hvalue]
    constructor
    · intro r' hr'
      simp only [hr']
    · intro r' hr'
      simp only [hr']

theorem members_complete_succ (ih : Complete fuel) (h : Members ms us)
    (hfuel : 2 * us.length < fuel + 1) (done : List (Option String × Reading)) (r : List Char) :
    members (fuel + 1) done (us ++ '\x7d' :: r) = ⟨.obj (done.reverse ++ ms) none, some r⟩ := by
  cases h with
  | @last m us b h hb =>
    have hclose : dropBlank (b ++ '\x7d' :: r) = '\x7d' :: r := dropBlank_append hb _
    obtain ⟨hlast, -⟩ := members_of_member ih h (by simp at hfuel; omega)
      (follows_blanks hb (follows_cons (c := '\x7d') (by simp) r)) done
    rw [List.append_assoc, hlast r hclose, List.reverse_cons]
  | @cons m ms us us' b b' h hb hb' hs =>
    have hread := ih.members hs (by simp at hfuel; omega) (m :: done) r
    have hcomma : dropBlank (b ++ ',' :: (b' ++ (us' ++ '\x7d' :: r))) =
        ',' :: (b' ++ (us' ++ '\x7d' :: r)) := dropBlank_append hb _
    obtain ⟨-, hnext⟩ := members_of_member ih h (by simp at hfuel; omega)
      (follows_blanks hb (follows_cons (c := ',') (by simp) _)) done
    have hmember := hnext _ hcomma
    have hblank : ¬ IsBlank '"' := by decide
    obtain ⟨us', rfl⟩ := hs.start
    simp only [List.cons_append, List.append_assoc, List.reverse_cons, dropBlank_append hb',
      dropBlank_of_not_isBlank hblank, List.nil_append] at hread hmember ⊢
    rw [hmember]
    exact hread

theorem complete (fuel : Nat) : Complete fuel := by
  induction fuel with
  | zero =>
    refine ⟨fun h hfuel => ?_, fun h hfuel => ?_, fun h hfuel => ?_⟩
    · obtain ⟨c, us, rfl, -⟩ := h.start
      exact absurd hfuel (by simp)
    · exact absurd hfuel (by simp)
    · exact absurd hfuel (by simp)
  | succ fuel ih => exact ⟨value_complete_succ ih, items_complete_succ ih, members_complete_succ ih⟩

end AccessControl.Json.Reading
