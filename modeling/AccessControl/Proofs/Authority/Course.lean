import AccessControl.Authority.Operation
import AccessControl.Proofs.Transcript

/-!
# The courses of an operation

An operation on an authority can go only so many ways: it needs no store, or the store cannot be
made ready, or the store is asked. Each way is a constructor that says what was asked, what came of
it and which authority is left.
-/

namespace AccessControl

open Dialogue (Exchange Transcript)

section

variable {ε ε' α : Type} (f : ε → ε')

@[simp]
theorem mapError_ok (a : α) : (Except.ok a : Except ε α).mapError f = .ok a := rfl

@[simp]
theorem mapError_error (e : ε) : (Except.error e : Except ε α).mapError f = .error (f e) := rfl

end

def openings (t : List (Exchange Need.Answer)) : List (Except StoreError Unit) :=
  t.filterMap fun
    | ⟨.store _, r⟩ => some r
    | _ => none

def storeCalls (t : List (Exchange Need.Answer)) : List (Exchange StoreCall.Result) :=
  t.filterMap fun
    | ⟨.call k, r⟩ => some ⟨k, r⟩
    | _ => none

section

variable {t t₁ t₂ : List (Exchange Need.Answer)}

@[simp]
theorem openings_nil : openings [] = [] := rfl

@[simp]
theorem openings_store (c : PermissionConfig) (r : Except StoreError Unit) :
    openings (⟨.store c, r⟩ :: t) = r :: openings t := rfl

@[simp]
theorem openings_call (k : StoreCall) (r : k.Result) :
    openings (⟨.call k, r⟩ :: t) = openings t := rfl

@[simp]
theorem openings_groups (i : ProviderId) (user : String) (r : Except IdentityError (List Group)) :
    openings (⟨.groups i user, r⟩ :: t) = openings t := rfl

@[simp]
theorem openings_append : openings (t₁ ++ t₂) = openings t₁ ++ openings t₂ := List.filterMap_append

@[simp]
theorem storeCalls_nil : storeCalls [] = [] := rfl

@[simp]
theorem storeCalls_store (c : PermissionConfig) (r : Except StoreError Unit) :
    storeCalls (⟨.store c, r⟩ :: t) = storeCalls t := rfl

@[simp]
theorem storeCalls_call (k : StoreCall) (r : k.Result) :
    storeCalls (⟨.call k, r⟩ :: t) = ⟨k, r⟩ :: storeCalls t := rfl

@[simp]
theorem storeCalls_groups (i : ProviderId) (user : String) (r : Except IdentityError (List Group)) :
    storeCalls (⟨.groups i user, r⟩ :: t) = storeCalls t := rfl

@[simp]
theorem storeCalls_append : storeCalls (t₁ ++ t₂) = storeCalls t₁ ++ storeCalls t₂ :=
  List.filterMap_append

end

namespace Operation

def permission? : Operation → Option Permission
  | .add p => some p
  | .delete p => some p
  | .grant p _ => some p
  | .revokeAll p => some p
  | .revoke p _ => some p
  | .grantedRoles p => some p
  | .check _ p => some p
  | .bind _ => none
  | .unbind => none

/-- Whether an operation is about permissions and grants alone, and not about a user. -/
def manages : Operation → Bool
  | .check _ _ => false
  | .bind _ => false
  | .unbind => false
  | _ => true

end Operation

namespace Authority

variable {α : Type} {a a' : Authority} {t t₀ : List (Exchange Need.Answer)} {roles : List Role}

inductive Readying (a : Authority) :
    List (Exchange Need.Answer) → Except AuthorityError Authority → Prop
  | held (ho : a.opened = true) : Readying a [] (.ok a)
  | sourceless (ho : a.opened = false) (hs : a.hasSource = false) :
    Readying a [] (.error (.configuration "no data source is bound"))
  | unconfigured (ho : a.opened = false) (hs : a.hasSource = true) (hc : a.config = none) :
    Readying a [] (.error (.configuration "no permission configuration is set"))
  | refused {c : PermissionConfig} {e : StoreError} (ho : a.opened = false)
      (hs : a.hasSource = true) (hc : a.config = some c) :
    Readying a [⟨.store c, .error e⟩] (.error (.store e))
  | opening {c : PermissionConfig} (ho : a.opened = false) (hs : a.hasSource = true)
      (hc : a.config = some c) :
    Readying a [⟨.store c, .ok ()⟩] (.ok { a with opened := true })

/-- What an operation asks before it asks for the store, and the roles that it asks the store about
if it is a check. -/
inductive Needing (a : Authority) : Operation → List (Exchange Need.Answer) → List Role → Prop
  | managing {o : Operation} (ho : o.manages = true) : Needing a o [] []
  | checking {user : String} {p : Permission} {i : ProviderId} {gs : List Group}
      (hp : a.provider = some i) (hgs : gs ≠ []) :
    Needing a (.check user p) [⟨.groups i user, .ok gs⟩] (Role.ofGroups gs)

inductive Errand (roles : List Role) :
    (o : Operation) → List (Exchange Need.Answer) → o.Result → Prop
  | add {p : Permission} {x : (StoreCall.insert p).Result} :
    Errand roles (.add p) [⟨.call (.insert p), x⟩] (x.mapError .store)
  | stopped {p : Permission} {e : StoreError} :
    Errand roles (.delete p) [⟨.call (.revokeAll p), .error e⟩] (.error (.store e))
  | delete {p : Permission} {x : (StoreCall.delete p).Result} :
    Errand roles (.delete p) [⟨.call (.revokeAll p), .ok ()⟩, ⟨.call (.delete p), x⟩]
      (x.mapError .store)
  | grant {p : Permission} {r : Role} {x : (StoreCall.grant p r).Result} :
    Errand roles (.grant p r) [⟨.call (.grant p r), x⟩] (x.mapError .store)
  | revokeAll {p : Permission} {x : (StoreCall.revokeAll p).Result} :
    Errand roles (.revokeAll p) [⟨.call (.revokeAll p), x⟩] (x.mapError .store)
  | revoke {p : Permission} {r : Role} {x : (StoreCall.revoke p r).Result} :
    Errand roles (.revoke p r) [⟨.call (.revoke p r), x⟩] (x.mapError .store)
  | grantedRoles {p : Permission} {x : (StoreCall.grantedRoles p).Result} :
    Errand roles (.grantedRoles p) [⟨.call (.grantedRoles p), x⟩] (x.mapError .store)
  | check {user : String} {p : Permission} {x : (StoreCall.hasAny roles p).Result} :
    Errand roles (.check user p) [⟨.call (.hasAny roles p), x⟩] (x.mapError .store)

inductive Course (a : Authority) :
    (o : Operation) → List (Exchange Need.Answer) → o.Result → Authority → Prop
  | bind (i : ProviderId) : Course a (.bind i) [] (.ok ()) { a with provider := some i }
  | unbind : Course a .unbind [] (.ok ()) { a with provider := none }
  | unbound {user : String} {p : Permission} (hp : a.provider = none) :
    Course a (.check user p) [] (.error (.configuration "no identity provider is bound")) a
  | unresolved {user : String} {p : Permission} {i : ProviderId} {e : IdentityError}
      (hp : a.provider = some i) :
    Course a (.check user p) [⟨.groups i user, .error e⟩] (.error (.roleResolution user e)) a
  | roleless {user : String} {p : Permission} {i : ProviderId} (hp : a.provider = some i) :
    Course a (.check user p) [⟨.groups i user, .ok []⟩] (.ok false) a
  | unready {o : Operation} {t₀ t : List (Exchange Need.Answer)} {roles : List Role}
      {e : AuthorityError} (hn : Needing a o t₀ roles) (hr : Readying a t (.error e)) :
    Course a o (t₀ ++ t) (.error e) a
  | served {o : Operation} {t₀ t t' : List (Exchange Need.Answer)} {roles : List Role}
      {r : o.Result} {a' : Authority} (hn : Needing a o t₀ roles) (hr : Readying a t (.ok a'))
      (he : Errand roles o t' r) : Course a o (t₀ ++ t ++ t') r a'

theorem readying_of_transcript {x : Except AuthorityError Authority}
    (h : a.ready.Transcript t x) : Readying a t x := by
  unfold ready at h
  split at h
  · rename_i ho
    cases h
    exact .held ho
  · rename_i ho
    rw [Bool.not_eq_true] at ho
    split at h
    · rename_i hs
      cases h
      exact .sourceless ho (by simpa using hs)
    · rename_i hs
      have hs : a.hasSource = true := by simpa using hs
      split at h
      · rename_i hc
        cases h
        exact .unconfigured ho hs hc
      · rename_i c hc
        cases h with
        | @ask _ _ r _ _ h =>
          cases r with
          | error e =>
            cases h with
            | note h =>
              cases h
              exact .refused ho hs hc
          | ok u =>
            cases h with
            | note h =>
              cases h
              exact .opening ho hs hc

theorem transcript_call {k : StoreCall} {r : Except AuthorityError k.Answer}
    (h : (call k).Transcript t r) : ∃ x, t = [⟨.call k, x⟩] ∧ r = x.mapError .store := by
  unfold call at h
  cases h with
  | ask h =>
    cases h
    exact ⟨_, rfl, rfl⟩

theorem errand_deletion {p : Permission} {r : Except AuthorityError Unit}
    (h : (deletion p).Transcript t r) : Errand roles (.delete p) t r := by
  unfold deletion at h
  cases h with
  | @ask _ _ x _ _ h =>
    cases x with
    | error e =>
      cases h with
      | note h =>
        cases h
        exact .stopped
    | ok u =>
      cases h with
      | @ask _ _ y _ _ h =>
        cases y with
        | error e =>
          cases h
          exact .delete (x := .error e)
        | ok v =>
          cases h with
          | note h =>
            cases h
            exact .delete (x := .ok ())

theorem errand_decision {user : String} {p : Permission} {r : Except AuthorityError Bool}
    (h : (decision user p roles).Transcript t r) : Errand roles (.check user p) t r := by
  unfold decision at h
  cases h with
  | @ask _ _ x _ _ h =>
    cases x with
    | error e =>
      cases h
      exact .check (x := .error e)
    | ok b =>
      cases h with
      | note h =>
        cases h
        exact .check (x := .ok b)

theorem course_withStore {o : Operation} {d : Conversation (Except AuthorityError o.Answer)}
    {r : o.Result} (hn : Needing a o t₀ roles)
    (hd : ∀ {t r}, d.Transcript t r → Errand roles o t r)
    (h : (a.withStore d).Transcript t (r, a')) : Course a o (t₀ ++ t) r a' := by
  obtain ⟨t₁, x, t₂, rfl, hr, h⟩ := h.of_bind
  have hr := readying_of_transcript hr
  cases x with
  | error e =>
    cases h
    rw [List.append_nil]
    exact .unready hn hr
  | ok a₁ =>
    obtain ⟨x, hx, hx'⟩ := h.of_map
    cases hx
    rw [← List.append_assoc]
    exact .served hn hr (hd hx')

theorem course_checking {user : String} {p : Permission} {r : Except AuthorityError Bool}
    (h : (a.checking user p).Transcript t (r, a')) : Course a (.check user p) t r a' := by
  unfold checking at h
  split at h
  · rename_i hp
    cases h
    exact .unbound hp
  · rename_i i hp
    cases h with
    | @ask _ _ x _ _ h =>
      cases x with
      | error e =>
        cases h with
        | note h =>
          cases h
          exact .unresolved hp
      | ok gs =>
        cases h with
        | note h =>
          cases gs with
          | nil =>
            cases h with
            | note h =>
              cases h
              exact .roleless hp
          | cons g gs =>
            exact course_withStore (.checking hp (List.cons_ne_nil g gs)) errand_decision h

theorem course_of_transcript {o : Operation} {r : o.Result}
    (h : (a.perform o).Transcript t (r, a')) : Course a o t r a' := by
  cases o with
  | add p =>
    cases h with
    | note h =>
      refine course_withStore (.managing rfl) (fun h => ?_) h
      obtain ⟨x, rfl, rfl⟩ := transcript_call h
      exact .add
  | delete p =>
    cases h with
    | note h => exact course_withStore (.managing rfl) errand_deletion h
  | grant p r =>
    cases h with
    | note h =>
      refine course_withStore (.managing rfl) (fun h => ?_) h
      obtain ⟨x, rfl, rfl⟩ := transcript_call h
      exact .grant
  | revokeAll p =>
    cases h with
    | note h =>
      refine course_withStore (.managing rfl) (fun h => ?_) h
      obtain ⟨x, rfl, rfl⟩ := transcript_call h
      exact .revokeAll
  | revoke p r =>
    cases h with
    | note h =>
      refine course_withStore (.managing rfl) (fun h => ?_) h
      obtain ⟨x, rfl, rfl⟩ := transcript_call h
      exact .revoke
  | grantedRoles p =>
    refine course_withStore (.managing rfl) (fun h => ?_) h
    obtain ⟨x, rfl, rfl⟩ := transcript_call h
    exact .grantedRoles
  | check user p => exact course_checking h
  | bind i =>
    cases h with
    | note h =>
      cases h
      exact .bind i
  | unbind =>
    cases h with
    | note h =>
      cases h
      exact .unbind

variable {o : Operation} {r : o.Result} {x : Except AuthorityError Authority}

theorem Readying.storeCalls_eq (h : Readying a t x) : storeCalls t = [] := by
  cases h <;> rfl

theorem Needing.openings_eq (h : Needing a o t roles) : openings t = [] := by
  cases h <;> rfl

theorem Needing.storeCalls_eq (h : Needing a o t roles) : storeCalls t = [] := by
  cases h <;> rfl

theorem Errand.openings_eq (h : Errand roles o t r) : openings t = [] := by
  cases h <;> rfl

theorem Errand.permission (h : Errand roles o t r) :
    ∀ y ∈ storeCalls t, o.permission? = some y.1.permission := by
  cases h <;> simp [Operation.permission?, StoreCall.permission]

theorem Course.permission (h : Course a o t r a') :
    ∀ y ∈ storeCalls t, o.permission? = some y.1.permission := by
  cases h with
  | unready hn hr => simp [hn.storeCalls_eq, hr.storeCalls_eq]
  | served hn hr he => simpa [hn.storeCalls_eq, hr.storeCalls_eq] using he.permission
  | _ => simp

/-- Whether an authority may ask for something: it opens the store of its own configuration and
looks users up at its own provider. -/
def Seeks (a : Authority) : Need → Prop
  | .store c => a.config = some c
  | .call _ => True
  | .groups i _ => a.provider = some i

end Authority

end AccessControl
