import AccessControl.Permission.Call
import AccessControl.Permission.RoleSet

/-!
# The store in memory

Each existing permission has the set of the ids of the roles that hold it. A permission that does
not exist has none.
-/

namespace AccessControl

structure Store where
  entries : List (Permission × RoleSet)
deriving DecidableEq, Repr, Inhabited

namespace Store

def empty : Store := ⟨[]⟩

def lookup (p : Permission) : List (Permission × RoleSet) → Option RoleSet
  | [] => none
  | (q, s) :: rest => if q = p then some s else lookup p rest

def roles? (st : Store) (p : Permission) : Option RoleSet := lookup p st.entries

def size (st : Store) : Nat := st.entries.length

def isEmpty (st : Store) : Bool := st.entries.isEmpty

def replaceIn (p : Permission) (s : RoleSet) (es : List (Permission × RoleSet)) :
    List (Permission × RoleSet) :=
  es.map fun e => if e.1 = p then (e.1, s) else e

def setRoles (st : Store) (p : Permission) (s : RoleSet) : Store := ⟨replaceIn p s st.entries⟩

def add (st : Store) (p : Permission) : Store := ⟨(p, []) :: st.entries⟩

def remove (st : Store) (p : Permission) : Store := ⟨st.entries.filter fun e => e.1 ≠ p⟩

theorem roles?_empty (p : Permission) : empty.roles? p = none := rfl

theorem roles?_add (st : Store) (p q : Permission) :
    (st.add p).roles? q = if p = q then some [] else st.roles? q := rfl

theorem roles?_setRoles (st : Store) (p q : Permission) (s : RoleSet) :
    (st.setRoles p s).roles? q = if p = q then (st.roles? q).map fun _ => s else st.roles? q := by
  obtain ⟨es⟩ := st
  simp only [setRoles, roles?, replaceIn]
  induction es with
  | nil => simp [lookup]
  | cons e es ih =>
    obtain ⟨k, t⟩ := e
    by_cases hk : k = p
    · subst hk
      by_cases hq : k = q
      · simp [lookup, hq]
      · simpa [lookup, hq] using ih
    · by_cases hq : k = q
      · subst hq
        simp [lookup, hk, Ne.symm hk]
      · simp only [List.map_cons, hk, if_false, lookup, hq]
        exact ih

theorem roles?_remove (st : Store) (p q : Permission) :
    (st.remove p).roles? q = if p = q then none else st.roles? q := by
  obtain ⟨es⟩ := st
  simp only [remove, roles?]
  induction es with
  | nil => simp [lookup]
  | cons e es ih =>
    obtain ⟨k, t⟩ := e
    by_cases hk : k = p
    · subst hk
      by_cases hq : k = q
      · simpa [lookup, hq] using ih
      · simpa [lookup, hq] using ih
    · by_cases hq : k = q
      · subst hq
        simp [lookup, hk, Ne.symm hk]
      · simpa [lookup, hk, hq] using ih

def apply : (c : StoreCall) → Store → c.Result × Store
  | .insert p, st =>
    match st.roles? p with
    | some _ => (.error (.alreadyExists p), st)
    | none => (.ok (), st.add p)
  | .delete p, st =>
    match st.roles? p with
    | none => (.error (.notFound p), st)
    | some [] => (.ok (), st.remove p)
    | some s => (.error (.stillGranted p s.length), st)
  | .grant p r, st =>
    match st.roles? p with
    | none => (.error (.notFound p), st)
    | some s => (.ok (), st.setRoles p (RoleSet.insert r.id s))
  | .revokeAll p, st => (.ok (), st.setRoles p [])
  | .revoke p r, st =>
    match st.roles? p with
    | none => (.ok (), st)
    | some s => (.ok (), st.setRoles p (RoleSet.erase r.id s))
  | .hasAny roles p, st =>
    match st.roles? p with
    | none => (.ok false, st)
    | some s => (.ok (roles.any fun r => s.contains r.id), st)
  | .grantedRoles p, st =>
    match st.roles? p with
    | none => (.error (.notFound p), st)
    | some s => (.ok s, st)

def applyAll : List StoreCall → Store → Store
  | [], st => st
  | c :: cs, st => applyAll cs (apply c st).2

end Store

end AccessControl
