import AccessControl.Proofs.DataSource.Assembly
import AccessControl.Proofs.Sequence
import AccessControl.Proofs.Text.ByteOrder

/-!
# How a registry is kept

A registry is followed from its assembly on. What it holds is read off its history: a name stands
for the pool of the last registration of it that was accepted, unless it has been removed since.
-/

namespace AccessControl.Registry

open Sql

inductive Access
  | register (p : Pool)
  | remove (name : String)
  | get (name : String)

abbrev Access.Answer : Access → Type
  | .register _ => Except DatabaseError Unit
  | .remove _ => Option Pool
  | .get _ => Except DatabaseError Pool

/-- A registration that is rejected gives no registry to go on with but the one there was. -/
def serve (r : Registry) : (a : Access) → a.Answer × Registry
  | .register p =>
    match r.register p with
    | .error e => (.error e, r)
    | .ok r' => (.ok (), r')
  | .remove name => (r.pool? name, r.remove name)
  | .get name => (r.get name, r)

structure Event where
  access : Access
  answer : access.Answer

namespace Event

def registered? : Event → Option (String × Pool)
  | ⟨.register p, .ok ()⟩ => some (p.name, p)
  | _ => none

def removed? : Event → Option String
  | ⟨.remove name, _⟩ => some name
  | _ => none

end Event

def serveAll : List Access → Registry → List Event × Registry
  | [], r => ([], r)
  | a :: as, r =>
    let x := r.serve a
    let y := serveAll as x.2
    (⟨a, x.1⟩ :: y.1, y.2)

def registrations (as : List Trial) : List Event :=
  as.map fun a => ⟨.register a.pool, .ok ()⟩

/-- The last accepted registration of a name was of a pool, and it was not removed after it. -/
def Stands (name : String) (p : Pool) (h : List Event) : Prop :=
  Since (fun e => e.registered? = some (name, p))
    (fun e => e.removed? = some name ∨ ∃ q, e.registered? = some (name, q)) h

/-- A registry answers as its history tells. -/
structure Upheld (h : List Event) (r : Registry) : Prop where
  get_ok (name : String) (p : Pool) : r.get name = .ok p ↔ Stands name p h
  get_error (name : String) (e : DatabaseError) :
    r.get name = .error e ↔ e = .notFound name ∧ ∀ p, ¬ Stands name p h
  remove_some (name : String) (p : Pool) : (r.serve (.remove name)).1 = some p ↔ Stands name p h
  register_error (p : Pool) (e : DatabaseError) :
    (r.serve (.register p)).1 = .error e ↔ e = .duplicate p.name ∧ ∃ q, Stands p.name q h
  rejected (p : Pool) {e : DatabaseError} (he : (r.serve (.register p)).1 = .error e) :
    ∃ q, Stands p.name q h ∧ (r.serve (.register p)).2.get p.name = .ok q
  mem_names (name : String) : name ∈ r.names ↔ ∃ p, Stands name p h
  names_ascending : r.names.Pairwise fun s t => Text.utf8 s.toList < Text.utf8 t.toList

/-- A registry from its assembly on, whatever it is asked afterwards. -/
structure Governed {σ : Type} (names : Web.Idna)
    (peer : DataSourceConfig → σ → Option Failure × σ) (cs : List DataSourceConfig) (s : σ) :
    Prop where
  assembled : Assembled names peer cs s
  upheld {r : Registry} (h : ((ofConfigs names cs).run peer s).1 = .ok r) (accesses : List Access) :
    Upheld (registrations (trials names peer cs s).1 ++ (serveAll accesses r).1)
      (serveAll accesses r).2

/-- The pools of a registry are those that stand in its history, each under one name. -/
structure Records (h : List Event) (r : Registry) : Prop where
  pool_iff (name : String) (p : Pool) : r.pool? name = some p ↔ Stands name p h
  distinct : (r.pools.map (·.1)).Nodup

variable {h : List Event} {r r' : Registry} {name : String} {p : Pool} {e : Event}

theorem stands_append_singleton : Stands name p (h ++ [e]) ↔
    e.registered? = some (name, p) ∨
      (Stands name p h ∧ e.removed? ≠ some name ∧ ∀ q, e.registered? ≠ some (name, q)) := by
  rw [Stands, since_append_singleton, not_or, not_exists]
  rfl

theorem pool?_remove (r : Registry) (name other : String) :
    (r.remove name).pool? other = if name = other then none else r.pool? other := by
  obtain ⟨pools⟩ := r
  simp only [pool?, remove]
  induction pools with
  | nil => simp [lookup]
  | cons entry pools ih =>
    obtain ⟨n, p⟩ := entry
    by_cases hn : n = name
    · rw [List.filter_cons_of_neg (by simpa using hn), ih]
      by_cases ho : name = other
      · simp [ho]
      · simp [lookup, ho, hn]
    · rw [List.filter_cons_of_pos (by simpa using hn)]
      by_cases ho : n = other
      · have hne : name ≠ other := fun h => hn (ho.trans h.symm)
        simp [lookup, ho, hne]
      · simpa [lookup, ho] using ih

namespace Records

theorem nil : Records [] empty :=
  ⟨fun _ _ => ⟨nofun, fun h => absurd h not_since_nil⟩, .nil⟩

theorem idle (hr : Records h r) (hregistered : e.registered? = none)
    (hremoved : e.removed? = none) :
    Records (h ++ [e]) r where
  pool_iff n q := by
    rw [hr.pool_iff, stands_append_singleton, hregistered, hremoved]
    simp
  distinct := hr.distinct

theorem registered (hr : Records h r) (hregister : r.register p = .ok r')
    (hregistered : e.registered? = some (p.name, p)) (hremoved : e.removed? = none) :
    Records (h ++ [e]) r' where
  pool_iff n q := by
    rw [pool?_register hregister, stands_append_singleton, hregistered, hremoved, ← hr.pool_iff]
    by_cases hn : p.name = n <;> simp [hn]
  distinct := by
    unfold register at hregister
    split at hregister <;> cases hregister
    rename_i hfree
    exact List.nodup_cons.2 ⟨pool?_eq_none_iff.1 hfree, hr.distinct⟩

theorem removed (hr : Records h r) (hregistered : e.registered? = none)
    (hremoved : e.removed? = some name) : Records (h ++ [e]) (r.remove name) where
  pool_iff n q := by
    rw [pool?_remove, stands_append_singleton, hregistered, hremoved, ← hr.pool_iff]
    by_cases hn : name = n <;> simp [hn]
  distinct := hr.distinct.sublist (List.filter_sublist.map _)

theorem serve (hr : Records h r) (a : Access) :
    Records (h ++ [⟨a, (r.serve a).1⟩]) (r.serve a).2 := by
  cases a with
  | register p =>
    simp only [Registry.serve]
    split
    · exact hr.idle rfl rfl
    · rename_i hregister
      exact hr.registered hregister rfl rfl
  | remove name => exact hr.removed rfl rfl
  | get name => exact hr.idle rfl rfl

theorem serveAll (hr : Records h r) (accesses : List Access) :
    Records (h ++ (serveAll accesses r).1) (serveAll accesses r).2 := by
  induction accesses generalizing h r with
  | nil => simpa [Registry.serveAll] using hr
  | cons a accesses ih => simpa [Registry.serveAll] using ih (hr.serve a)

theorem withTrials (hr : Records h r) {as : List Trial} (has : Acceptable as)
    (hfree : ∀ a ∈ as, r.pool? a.name = none) :
    Records (h ++ registrations as) (r.withTrials as) := by
  induction as generalizing h r with
  | nil => simpa [registrations, Registry.withTrials] using hr
  | cons a as ih =>
    obtain ⟨hregister, has, hfree⟩ := register_first has hfree
    have hrest := ih (hr.registered (e := ⟨.register a.pool, .ok ()⟩) hregister rfl rfl) has hfree
    rw [withTrials_cons, registrations, List.map_cons, List.append_cons]
    exact hrest

theorem pool?_eq_none_iff (hr : Records h r) : r.pool? name = none ↔ ∀ p, ¬ Stands name p h := by
  rw [Option.eq_none_iff_forall_not_mem]
  exact forall_congr' fun p => not_congr (hr.pool_iff name p)

theorem upheld (hr : Records h r) : Upheld h r where
  get_ok name p := by
    rw [← hr.pool_iff, get]
    cases r.pool? name <;> simp
  get_error name e := by
    rw [← hr.pool?_eq_none_iff, get]
    cases r.pool? name <;> simp [eq_comm]
  remove_some := hr.pool_iff
  register_error p e := by
    simp only [← hr.pool_iff, Registry.serve, register]
    cases r.pool? p.name <;> simp [eq_comm]
  rejected p e he := by
    simp only [← hr.pool_iff, Registry.serve, register, get] at he ⊢
    cases hq : r.pool? p.name with
    | none => simp [hq] at he
    | some q => exact ⟨q, rfl, by simp [hq]⟩
  mem_names name := by
    rw [names, List.mem_mergeSort, ← not_iff_not, ← Registry.pool?_eq_none_iff, not_exists]
    exact hr.pool?_eq_none_iff
  names_ascending := Text.pairwise_lt_mergeSort hr.distinct

end Records

theorem governed {σ : Type} (names : Web.Idna)
    (peer : DataSourceConfig → σ → Option Failure × σ) (cs : List DataSourceConfig) (s : σ) :
    Governed names peer cs s where
  assembled := AccessControl.assembled names peer cs s
  upheld {r} h accesses := by
    have has := (AccessControl.assembled names peer cs s).ok_iff.1 ⟨r, h⟩
    rw [(ofConfigs_of_acceptable has).1] at h
    obtain rfl := Except.ok.inj h
    exact ((Records.nil.withTrials has fun _ _ => rfl).serveAll accesses).upheld

theorem governed_renamed :
    let names : Web.Idna := ⟨fun _ => none⟩
    let first := DataSourceConfig.new "A" "postgres://one.local/grants" false
    let other := DataSourceConfig.new "A" "postgres://two.local/grants" true
    let peer := fun (_ : DataSourceConfig) (n : Nat) => ((none : Option Failure), n + 1)
    ((ofConfigs names [first, other]).run peer 0).1 = .error (.duplicate "A") ∧
      ∃ r, ((ofConfigs names [first]).run peer 0).1 = .ok r ∧
        (serveAll [.register (.idle other)] r).2.get "A" = .ok (.started first) ∧
        (serveAll [.register (.idle other), .remove "A", .register (.idle other)] r).2.get "A" =
          .ok (.idle other) := by
  intro names first other peer
  have hfirst : ConnectString.fault? names first.url = none := by decide +kernel
  have hother : ConnectString.fault? names other.url = none := by decide +kernel
  have htrials : (trials names peer [first, other] 0).1 = [⟨first, none⟩, ⟨other, none⟩] := by
    simp only [trials, Trial.of, hfirst, hother]
    rfl
  have hrun : ((ofConfigs names [first]).run peer 0).1 = .ok ⟨[("A", .started first)]⟩ := by
    simp only [ofConfigs, addAll, Dialogue.run_bind, run_connect, Trial.of, hfirst]
    rfl
  have hupheld := (governed names peer [first] 0).upheld hrun
  have htrial : registrations (trials names peer [first] 0).1 =
      [⟨.register (.started first), .ok ()⟩] := by
    simp only [trials, Trial.of, hfirst]
    rfl
  rw [htrial] at hupheld
  refine ⟨((governed names peer [first, other] 0).assembled.error_iff _).2
    ⟨[⟨first, none⟩], ⟨other, none⟩, [], htrials, ⟨?_, List.pairwise_singleton _ _⟩,
      .duplicate rfl List.mem_cons_self⟩, _, hrun, ?_, ?_⟩
  · intro a ha
    rw [List.mem_singleton.1 ha]
  · refine ((hupheld [.register (.idle other)]).get_ok "A" _).2
      ⟨[], _, [⟨.register (.idle other), .error (.duplicate "A")⟩], rfl, rfl, ?_⟩
    intro e he
    rw [List.mem_singleton.1 he]
    rintro (h | ⟨q, h⟩) <;> cases h
  · let accesses : List Access := [.register (.idle other), .remove "A", .register (.idle other)]
    exact ((hupheld accesses).get_ok "A" _).2
      ⟨[_, _, _], ⟨.register (.idle other), .ok ()⟩, [], rfl, rfl, by simp⟩

end AccessControl.Registry
