import AccessControl.Proofs.Identity.Lookup
import AccessControl.Proofs.Json.PairText
import AccessControl.Proofs.Text.Utf8

/-!
# What the replies of an identity service stand for

A final reply is classified by its status, and a success by its body as well: the groups that its
JSON document writes are found, in the order of the document, and a body that writes no list of
groups is an invalid response.
-/

namespace AccessControl

open Json Text

namespace Group

/-- The values that are a group: an object with one id and one display name, under either of its
names, or an array of the two. -/
inductive Written : Json → Group → Prop
  | object {ms : List (String × Json)} {id name : String}
      (hid : (ms.filter fun m => m.1 = "id").map (·.2) = [.str id])
      (hname : (ms.filter fun m => m.1 = "display_name" ∨ m.1 = "displayName").map (·.2) =
        [.str name]) :
    Written (.obj ms) ⟨id, name⟩
  | array (id name : String) : Written (.arr [.str id, .str name]) ⟨id, name⟩

/-- The documents that write a list of groups: alone, or as the one member `groups` of an object. -/
inductive ListWritten : Json → List Group → Prop
  | alone {vs : List Json} {gs : List Group} (h : List.Forall₂ Written vs gs) :
    ListWritten (.arr vs) gs
  | wrapped {ms : List (String × Json)} {vs : List Json} {gs : List Group}
      (hms : (ms.filter fun m => m.1 = "groups").map (·.2) = [.arr vs])
      (h : List.Forall₂ Written vs gs) : ListWritten (.obj ms) gs

/-- A body that is one JSON document, which writes a list of groups. -/
def BodyWrites (body : List UInt8) (gs : List Group) : Prop :=
  ∃ cs j, body = utf8 cs ∧ DocumentText j cs ∧ ListWritten j gs

variable {j : Json} {g : Group} {gs : List Group}

theorem fieldIndex_fields (k : String) :
    (fieldIndex k fields = some 0 ↔ k = "id") ∧
      (fieldIndex k fields = some 1 ↔ k = "display_name" ∨ k = "displayName") := by
  have hdisjoint : ∀ k ∈ ["id"], k ∉ ["display_name", "displayName"] := by decide
  have hindex := fieldIndex_pairFields hdisjoint k
  simp only [List.contains_iff_mem, List.mem_cons, List.not_mem_nil, or_false] at hindex
  exact hindex

theorem given_fields (ms : List (String × Json)) :
    given fields 0 ms = (ms.filter fun m => m.1 = "id").map (·.2) ∧
      given fields 1 ms =
        (ms.filter fun m => m.1 = "display_name" ∨ m.1 = "displayName").map (·.2) := by
  simp only [given, fun k => (fieldIndex_fields k).1, fun k => (fieldIndex_fields k).2, and_self]

theorem textRecord_iff {ss : List String} :
    TextRecord fields j ss ↔ ∃ g, Written j g ∧ ss = [g.id, g.displayName] := by
  constructor
  · intro h
    cases h with
    | @object ms ss hlen h =>
      obtain ⟨id, name, rfl⟩ := List.length_eq_two.1 hlen
      obtain ⟨hid, hname⟩ := given_fields ms
      exact ⟨⟨id, name⟩, .object (hid ▸ h 0 id rfl) (hname ▸ h 1 name rfl), rfl⟩
    | array hlen =>
      obtain ⟨id, name, rfl⟩ := List.length_eq_two.1 hlen
      exact ⟨⟨id, name⟩, .array id name, rfl⟩
  · rintro ⟨g, h, rfl⟩
    cases h with
    | @object ms id name hid hname =>
      obtain ⟨hid', hname'⟩ := given_fields ms
      refine .object rfl fun i s hs => ?_
      match i, hs with
      | 0, rfl => exact hid'.trans hid
      | 1, rfl => exact hname'.trans hname
    | array id name =>
      have hlen : [id, name].length = fields.length := rfl
      exact .array hlen

theorem decodeAs_eq_ok_iff : decodeAs fields ofScalars j = .ok g ↔ Written j g := by
  have hfields : RequiredTexts fields := requiredTexts_pairFields _ _
  have hread {xs : List Scalar} : readRecord (some .mismatch) fields j.reading = .ok xs ↔
      ∃ g, Written j g ∧ xs = [.text g.id, .text g.displayName] := by
    simp only [readRecord_reading_iff hfields, textRecord_iff]
    constructor
    · rintro ⟨_, ⟨g, hg, rfl⟩, rfl⟩
      exact ⟨g, hg, rfl⟩
    · rintro ⟨g, hg, rfl⟩
      exact ⟨_, ⟨g, hg, rfl⟩, rfl⟩
  simp only [decodeAs, readAs]
  constructor
  · intro h
    split at h
    · cases h
    · rename_i xs hxs
      obtain ⟨g', hg', rfl⟩ := hread.1 hxs
      cases h
      exact hg'
  · intro h
    rw [hread.2 ⟨g, h, rfl⟩]
    rfl

theorem listOfJson?_eq_some_iff {vs : List Json} :
    listOfJson? vs = some gs ↔ List.Forall₂ Written vs gs := by
  induction vs generalizing gs with
  | nil => rw [listOfJson?, Option.some.injEq, List.forall₂_nil_left_iff, eq_comm]
  | cons v vs ih =>
    rw [listOfJson?, List.forall₂_cons_left_iff]
    constructor
    · intro h
      split at h
      · cases h
      · rename_i g hg
        obtain ⟨gs, hgs, rfl⟩ := Option.map_eq_some_iff.1 h
        exact ⟨g, gs, decodeAs_eq_ok_iff.1 hg, ih.1 hgs, rfl⟩
    · rintro ⟨g, gs, hg, hgs, rfl⟩
      simp only [decodeAs_eq_ok_iff.2 hg, ih.2 hgs, Option.map_some]

theorem listOfReply?_eq_some_iff : listOfReply? j = some gs ↔ ListWritten j gs := by
  constructor
  · intro h
    unfold listOfReply? at h
    split at h
    · exact .alone (listOfJson?_eq_some_iff.1 h)
    · split at h
      · rename_i hms
        exact .wrapped hms (listOfJson?_eq_some_iff.1 h)
      · cases h
    · cases h
  · intro h
    cases h with
    | alone h => exact listOfJson?_eq_some_iff.2 h
    | wrapped hms h =>
      simp only [listOfReply?, membersNamed, hms]
      exact listOfJson?_eq_some_iff.2 h

theorem listOfBody?_eq_some_iff {body : List UInt8} :
    listOfBody? body = some gs ↔ BodyWrites body gs := by
  constructor
  · intro h
    unfold listOfBody? at h
    split at h
    · cases h
    · rename_i cs hcs
      split at h
      · cases h
      · rename_i j hj
        rw [parse_eq_ok_iff, String.toList_ofList] at hj
        exact ⟨cs, j, ofUtf8?_eq_some_iff.1 hcs, hj, listOfReply?_eq_some_iff.1 h⟩
  · rintro ⟨cs, j, hcs, hj, h⟩
    have hparse : Json.parse (String.ofList cs) = .ok j := by
      rwa [parse_eq_ok_iff, String.toList_ofList]
    simp only [listOfBody?, ofUtf8?_eq_some_iff.2 hcs, hparse]
    exact listOfReply?_eq_some_iff.2 h

theorem BodyWrites.unique {body : List UInt8} {gs' : List Group} (h : BodyWrites body gs)
    (h' : BodyWrites body gs') : gs = gs' :=
  Option.some.inj ((listOfBody?_eq_some_iff.2 h).symm.trans (listOfBody?_eq_some_iff.2 h'))

end Group

namespace Endpoint

open Http

variable {σ : Type} {e : Endpoint} {user : String} {peer : Request → σ → Option Reply × σ} {s : σ}

def TransportFails (e : Endpoint) (user : String) (peer : Request → σ → Option Reply × σ)
    (s : σ) : Prop :=
  ∃ a te, e.groupsAddress? user = some a ∧
    ((get e.names a e.token).run peer s).1 = .error te

def IsSuccess (r : Reply) : Prop := 200 ≤ r.status ∧ r.status < 300

/-- What a lookup comes to, as its final reply tells. -/
structure Classified (e : Endpoint) (user : String) (peer : Request → σ → Option Reply × σ) (s : σ)
    (r : Except IdentityError (List Group)) : Prop where
  transportFails : e.TransportFails user peer s ↔ e.finalReply? user peer s = none
  userNotFound (u : String) : r = .error (.userNotFound u) ↔
    u = user ∧ ∃ reply, e.finalReply? user peer s = some reply ∧ reply.status = 404
  unavailable : (∃ text, r = .error (.unavailable text)) ↔
    e.TransportFails user peer s ∨
      ∃ reply, e.finalReply? user peer s = some reply ∧ reply.status ≠ 404 ∧ ¬ IsSuccess reply
  ok (gs : List Group) : r = .ok gs ↔
    ∃ reply, e.finalReply? user peer s = some reply ∧ IsSuccess reply ∧
      Group.BodyWrites reply.body gs
  invalidResponse : (∃ text, r = .error (.invalidResponse text)) ↔
    ∃ reply, e.finalReply? user peer s = some reply ∧ IsSuccess reply ∧
      ∀ gs, ¬ Group.BodyWrites reply.body gs

theorem isSuccess_eq_true_iff {r : Reply} : isSuccess r.status = true ↔ IsSuccess r := by
  simp [isSuccess, IsSuccess]

theorem transportFails_iff (hu : isRefused user = false) :
    e.TransportFails user peer s ↔ e.finalReply? user peer s = none := by
  obtain ⟨a, ha⟩ : ∃ a, e.groupsAddress? user = some a := by
    rw [← Option.ne_none_iff_exists', ne_eq, groupsAddress?_eq_none_iff, hu]
    exact Bool.false_ne_true
  rw [finalReply?_eq ha, Option.eq_none_iff_forall_ne_some]
  simp only [ne_eq, ← get_eq_ok_iff]
  constructor
  · rintro ⟨b, te, hb, hte⟩ r hr
    cases ha.symm.trans hb
    cases hte.symm.trans hr
  · intro h
    cases hg : ((get e.names a e.token).run peer s).1 with
    | error te => exact ⟨a, te, ha, hg⟩
    | ok r => exact absurd hg (h r)

theorem classify_cases (user : String) (r : Reply) :
    (r.status = 404 ∧ ¬ IsSuccess r ∧ classify user r = .error (.userNotFound user)) ∨
    (r.status ≠ 404 ∧ ¬ IsSuccess r ∧ ∃ text, classify user r = .error (.unavailable text)) ∨
    (r.status ≠ 404 ∧ IsSuccess r ∧ ∃ gs, Group.BodyWrites r.body gs ∧ classify user r = .ok gs) ∨
    (r.status ≠ 404 ∧ IsSuccess r ∧ (∀ gs, ¬ Group.BodyWrites r.body gs) ∧
      ∃ text, classify user r = .error (.invalidResponse text)) := by
  have hsuccess := isSuccess_eq_true_iff (r := r)
  unfold classify
  split
  · rename_i h404
    exact .inl ⟨h404, by simp [IsSuccess, h404], rfl⟩
  · rename_i h404
    split
    · rename_i hs
      refine .inr (.inr ?_)
      split
      · rename_i gs hgs
        exact .inl ⟨h404, hsuccess.1 hs, gs, Group.listOfBody?_eq_some_iff.1 hgs, rfl⟩
      · rename_i hnone
        refine .inr ⟨h404, hsuccess.1 hs, fun gs hgs => ?_, _, rfl⟩
        rw [← Group.listOfBody?_eq_some_iff, hnone] at hgs
        cases hgs
    · rename_i hs
      exact .inr (.inl ⟨h404, mt hsuccess.2 hs, _, rfl⟩)

/-- Whoever replies, a lookup of a name that is not refused comes to what its final reply stands
for. -/
theorem lookup_classified (hu : isRefused user = false) (peer : Request → σ → Option Reply × σ)
    (s : σ) :
    e.Classified user peer s ((e.lookupGroups user).run peer s).1 := by
  have htransport : e.TransportFails user peer s ↔ e.finalReply? user peer s = none :=
    transportFails_iff hu
  rcases lookup_ends e user peer s with ⟨hr, -, -⟩ | ⟨a, te, ha, hg, hf, hr⟩ | ⟨r, hf, hr⟩
  · exact absurd hr (by simp [hu])
  · rw [hr]
    refine ⟨htransport, fun u => ?_, ?_, fun gs => ?_, ?_⟩ <;> simp [hf, htransport]
  · rw [hr]
    rcases classify_cases user r with ⟨h404, hno, hc⟩ | ⟨h404, hno, text, hc⟩ |
      ⟨h404, hyes, gs, hgs, hc⟩ | ⟨h404, hyes, hno, text, hc⟩
    · refine ⟨htransport, fun u => ?_, ?_, fun gs => ?_, ?_⟩ <;>
        simp [hf, htransport, hc, h404, hno, eq_comm]
    · refine ⟨htransport, fun u => ?_, ?_, fun gs => ?_, ?_⟩ <;>
        simp [hf, htransport, hc, h404, hno]
    · have hwritten (gs' : List Group) : Group.BodyWrites r.body gs' ↔ gs = gs' :=
        ⟨hgs.unique, fun h => h ▸ hgs⟩
      refine ⟨htransport, fun u => ?_, ?_, fun gs => ?_, ?_⟩ <;>
        simp [hf, htransport, hc, h404, hyes, hwritten]
    · refine ⟨htransport, fun u => ?_, ?_, fun gs => ?_, ?_⟩ <;>
        simp [hf, htransport, hc, h404, hyes, hno]

theorem lookup_classified_bodies :
    let e : Endpoint :=
      ⟨⟨"https", "", "", some (.name "idp.local"), none, .segments ["api"], none, none⟩, none,
        ⟨fun _ => none⟩⟩
    let wrapped := utf8 ("\x7b\"total\": 2, \"groups\": [\x7b\"id\": \"1\", " ++
      "\"displayName\": \"Ops\\u0021\"\x7d, [\"2\", \"Dev\"]]\x7d").toList
    let doubled := utf8 "\x7b\"groups\": [], \"groups\": []\x7d".toList
    let peer (body : List UInt8) (_ : Request) (n : Nat) : Option Reply × Nat :=
      (some (if n = 0 then ⟨307, [("Location", "/v2/groups")], []⟩ else ⟨200, [], body⟩), n + 1)
    isRefused "alice" = false ∧
      ((e.lookupGroups "alice").run (peer wrapped) 0).1 = .ok [⟨"1", "Ops!"⟩, ⟨"2", "Dev"⟩] ∧
      Group.BodyWrites wrapped [⟨"1", "Ops!"⟩, ⟨"2", "Dev"⟩] ∧
      ((e.lookupGroups "alice").run (peer doubled) 0).1 =
        .error (.invalidResponse "error decoding response body") ∧
      ∀ gs, ¬ Group.BodyWrites doubled gs := by
  intro e wrapped doubled peer
  have hu : isRefused "alice" = false := by decide
  have hclassified (body : List UInt8) : e.Classified "alice" (peer body) 0
      ((e.lookupGroups "alice").run (peer body) 0).1 :=
    lookup_classified hu (peer body) 0
  have hreply : e.finalReply? "alice" (peer wrapped) 0 = some ⟨200, [], wrapped⟩ ∧
      e.finalReply? "alice" (peer doubled) 0 = some ⟨200, [], doubled⟩ := by decide +kernel
  have hgroups : ((e.lookupGroups "alice").run (peer wrapped) 0).1 =
      .ok [⟨"1", "Ops!"⟩, ⟨"2", "Dev"⟩] := by decide +kernel
  have hinvalid : ((e.lookupGroups "alice").run (peer doubled) 0).1 =
      .error (.invalidResponse "error decoding response body") := by decide +kernel
  refine ⟨hu, hgroups, ?_, hinvalid, ?_⟩
  · obtain ⟨reply, hr, -, hbody⟩ := ((hclassified wrapped).ok _).1 hgroups
    cases hreply.1.symm.trans hr
    exact hbody
  · obtain ⟨reply, hr, -, hbody⟩ := (hclassified doubled).invalidResponse.1 ⟨_, hinvalid⟩
    cases hreply.2.symm.trans hr
    exact hbody

end Endpoint

end AccessControl
