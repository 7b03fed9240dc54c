import AccessControl.Json.Reading

/-!
# Numbers in JSON text

A number is read from the longest text that writes one.
-/

namespace AccessControl.Json.Reading

open Text

def Digits (ds : List Char) : Prop := ds ≠ [] ∧ ∀ c ∈ ds, isDigit c = true

def signText (negative : Bool) : List Char := if negative then ['-'] else []

def fractionText : Option (List Char) → List Char
  | none => []
  | some ds => '.' :: ds

inductive ExponentText : Option (Bool × List Char) → List Char → Prop
  | absent : ExponentText none []
  | plain {e : Char} {ds : List Char} (he : e = 'e' ∨ e = 'E') (hds : Digits ds) :
    ExponentText (some (false, ds)) (e :: ds)
  | plus {e : Char} {ds : List Char} (he : e = 'e' ∨ e = 'E') (hds : Digits ds) :
    ExponentText (some (false, ds)) (e :: '+' :: ds)
  | minus {e : Char} {ds : List Char} (he : e = 'e' ∨ e = 'E') (hds : Digits ds) :
    ExponentText (some (true, ds)) (e :: '-' :: ds)

/-- The texts of a numeral behind its sign. A whole part has no zero in front of other digits. -/
inductive Numeral.Unsigned (x : Numeral) : List Char → Prop
  | parts {us : List Char} (hw : Digits x.whole) (hzero : ∀ ds, x.whole = '0' :: ds → ds = [])
      (hf : ∀ ds, x.fraction = some ds → Digits ds) (he : ExponentText x.exponent us) :
    Unsigned x (x.whole ++ (fractionText x.fraction ++ us))

def EndsNumber (r : List Char) : Prop :=
  ∀ c, r.head? = some c → isDigit c = false ∧ c ≠ '.' ∧ c ≠ 'e' ∧ c ≠ 'E'

variable {x : Numeral} {v : Reading} {cs ds r : List Char}

theorem eq_append_of_digitRun (h : digitRun cs = some (ds, r)) : cs = ds ++ r ∧ Digits ds := by
  have hcs := List.takeWhile_append_dropWhile (p := isDigit) (l := cs)
  have hall : ∀ c ∈ cs.takeWhile isDigit, isDigit c = true :=
    List.all_eq_true.1 List.all_takeWhile
  unfold digitRun at h
  split at h
  · cases h
  · rename_i hne
    cases h
    exact ⟨hcs.symm, hne, hall⟩

theorem digitRun_append (hds : Digits ds) (hr : ∀ c, r.head? = some c → isDigit c = false) :
    digitRun (ds ++ r) = some (ds, r) := by
  have hstop : r.takeWhile isDigit = [] ∧ r.dropWhile isDigit = r := by
    cases r with
    | nil => exact ⟨rfl, rfl⟩
    | cons c r => simp [hr c rfl]
  rw [digitRun, List.takeWhile_append_of_pos hds.2, List.dropWhile_append_of_pos hds.2, hstop.1,
    hstop.2, List.append_nil]
  obtain ⟨d, ds, rfl⟩ := List.exists_cons_of_ne_nil hds.1
  rfl

theorem numberExponent_sound (hx : x.exponent = none) (h : numberExponent x cs = ⟨v, some r⟩) :
    ∃ ex us, cs = us ++ r ∧ ExponentText ex us ∧ v = Numeral.value { x with exponent := ex } := by
  have hnone : x = { x with exponent := none } := by rw [← hx]
  unfold numberExponent at h
  split at h
  · rename_i e s
    split at h
    · rename_i he
      dsimp only at h
      split at h
      · rename_i ds' r' hrun
        cases h
        obtain ⟨hs, hds⟩ := eq_append_of_digitRun hrun
        split at hs
        · exact ⟨_, _, congrArg (e :: '-' :: ·) hs, .minus he hds, rfl⟩
        · exact ⟨_, _, congrArg (e :: '+' :: ·) hs, .plus he hds, rfl⟩
        · exact ⟨_, _, congrArg (e :: ·) hs, .plain he hds, rfl⟩
      · cases h
    · cases h
      exact ⟨none, [], rfl, .absent, by rw [← hnone]⟩
  · cases h
    exact ⟨none, [], rfl, .absent, by rw [← hnone]⟩

theorem numberFraction_sound (hf : x.fraction = none) (hx : x.exponent = none)
    (h : numberFraction x cs = ⟨v, some r⟩) :
    ∃ fraction ex us, cs = fractionText fraction ++ us ++ r ∧
      (∀ ds, fraction = some ds → Digits ds) ∧ ExponentText ex us ∧
      v = Numeral.value { x with fraction := fraction, exponent := ex } := by
  unfold numberFraction at h
  split at h
  · split at h
    · rename_i s _ ds' r' hrun
      obtain ⟨rfl, hds⟩ := eq_append_of_digitRun hrun
      obtain ⟨ex, us, rfl, hex, rfl⟩ :=
        numberExponent_sound (x := { x with fraction := some ds' }) hx h
      refine ⟨some ds', ex, us, by simp [fractionText], ?_, hex, rfl⟩
      rintro _ ⟨⟩
      exact hds
    · cases h
  · obtain ⟨ex, us, rfl, hex, rfl⟩ := numberExponent_sound hx h
    refine ⟨none, ex, us, rfl, nofun, hex, ?_⟩
    rw [← hf]

theorem number_sound {negative : Bool} (h : number negative cs = ⟨v, some r⟩) :
    ∃ (x : Numeral) (us : List Char),
      x.negative = negative ∧ x.Unsigned us ∧ cs = us ++ r ∧ v = x.value := by
  unfold number at h
  split at h
  · cases h
  · rename_i ds' r' hrun
    obtain ⟨rfl, hds⟩ := eq_append_of_digitRun hrun
    split at h
    · cases h
    · rename_i hzero
      obtain ⟨fraction, ex, us, rfl, hfraction, hex, rfl⟩ := numberFraction_sound rfl rfl h
      refine ⟨_, _, rfl, .parts (x := ⟨negative, ds', fraction, ex⟩) hds ?_ hfraction hex, ?_, rfl⟩
      · intro us hus
        cases us with
        | nil => rfl
        | cons u us => exact absurd hus (hzero u us)
      · simp

theorem EndsNumber.not_digit (hr : EndsNumber r) : ∀ c, r.head? = some c → isDigit c = false :=
  fun c hc => (hr c hc).1

theorem numberExponent_complete (hx : ExponentText x.exponent cs) (hr : EndsNumber r) :
    numberExponent { x with exponent := none } (cs ++ r) = ⟨x.value, some r⟩ := by
  obtain ⟨negative, whole, fraction, ex⟩ := x
  have hrun {ds : List Char} (hds : Digits ds) := digitRun_append hds hr.not_digit
  cases hx with
  | absent =>
    cases r with
    | nil => rfl
    | cons c r =>
      obtain ⟨-, -, he, hE⟩ := hr c rfl
      simp [numberExponent, he, hE]
  | plus he hds => simp [numberExponent, he, hrun hds]
  | minus he hds => simp [numberExponent, he, hrun hds]
  | @plain e ds he hds =>
    obtain ⟨d, ds, rfl⟩ := List.exists_cons_of_ne_nil hds.1
    have hsign : d ≠ '-' ∧ d ≠ '+' := by
      have hd := hds.2 d List.mem_cons_self
      constructor <;> rintro rfl <;> cases hd
    have hrun := hrun hds
    rw [List.cons_append] at hrun
    simp [numberExponent, he, hrun, hsign]

theorem ExponentText.not_digit {ex : Option (Bool × List Char)} (hx : ExponentText ex cs)
    (hr : EndsNumber r) : ∀ c, (cs ++ r).head? = some c → isDigit c = false ∧ c ≠ '.' := by
  have hmark {e c : Char} (he : e = 'e' ∨ e = 'E') (hc : some e = some c) :
      isDigit c = false ∧ c ≠ '.' := by
    cases hc
    rcases he with rfl | rfl <;> decide
  intro c hc
  cases hx with
  | absent => exact ⟨(hr c hc).1, (hr c hc).2.1⟩
  | plain he hds => exact hmark he hc
  | plus he hds => exact hmark he hc
  | minus he hds => exact hmark he hc

theorem numberFraction_complete {us : List Char} (hf : ∀ ds, x.fraction = some ds → Digits ds)
    (hx : ExponentText x.exponent us) (hr : EndsNumber r) :
    numberFraction { x with fraction := none, exponent := none }
      (fractionText x.fraction ++ us ++ r) = ⟨x.value, some r⟩ := by
  have hexponent := numberExponent_complete hx hr
  have hnext := hx.not_digit hr
  cases hfraction : x.fraction with
  | none =>
    rw [hfraction] at hexponent
    rw [fractionText, List.nil_append, ← hexponent]
    cases hcs : us ++ r with
    | nil => rfl
    | cons c cs =>
      have hc : c ≠ '.' := (hnext c (by rw [hcs]; rfl)).2
      simp [numberFraction, hc]
  | some ds =>
    rw [hfraction] at hexponent
    simp only [fractionText, List.cons_append, List.append_assoc, numberFraction,
      digitRun_append (hf ds hfraction) fun c hc => (hnext c hc).1]
    exact hexponent

theorem number_complete (hx : x.Unsigned cs) (hr : EndsNumber r) :
    number x.negative (cs ++ r) = ⟨x.value, some r⟩ := by
  cases hx with
  | @parts us hw hzero hf he =>
    have hrun : digitRun (x.whole ++ (fractionText x.fraction ++ us ++ r)) =
        some (x.whole, fractionText x.fraction ++ us ++ r) := by
      refine digitRun_append hw fun c hc => ?_
      cases hfraction : x.fraction with
      | none =>
        rw [hfraction] at hc
        exact (he.not_digit hr c hc).1
      | some ds =>
        rw [hfraction] at hc
        cases hc
        rfl
    rw [List.append_assoc, number, hrun]
    split
    · rename_i heq
      cases heq
    · rename_i heq
      cases heq
      split
      · rename_i hwhole
        cases hzero _ hwhole
      · exact numberFraction_complete hf he hr

theorem numberExponent_stops (h : numberExponent x cs = ⟨v, none⟩) :
    ∃ onRead onSkip, v = .hole onRead (some onSkip) := by
  unfold numberExponent at h
  split at h
  · split at h
    · dsimp only at h
      split at h
      · cases h
      · cases h
        exact ⟨_, _, rfl⟩
    · cases h
  · cases h

theorem number_stops {negative : Bool} (h : number negative cs = ⟨v, none⟩) :
    ∃ onRead onSkip, v = .hole onRead (some onSkip) := by
  unfold number at h
  split at h
  · cases h
    exact ⟨_, _, rfl⟩
  · split at h
    · cases h
      exact ⟨_, _, rfl⟩
    · unfold numberFraction at h
      split at h
      · split at h
        · exact numberExponent_stops h
        · cases h
          exact ⟨_, _, rfl⟩
      · exact numberExponent_stops h

end AccessControl.Json.Reading
