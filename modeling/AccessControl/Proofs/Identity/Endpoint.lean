import AccessControl.Identity.Service
import AccessControl.Proofs.Web.Percent

/-!
# The address of a user's groups

Every name that is not refused leads to one address below the base. Where it holds no tab and no
line break, its own segment of the path reads back as the name.
-/

namespace AccessControl

open Web Text

namespace Web

namespace Address

theorem exists_host_of_parse {names : Idna} {s : String} {a : Address} (h : parse names s = .ok a)
    (hk : a.kind = .web) : ∃ host ss, a.host = some host ∧ a.path = .segments ss := by
  simp only [parse] at h
  split at h
  · rename_i scheme body _
    simp only [ofBody] at h
    split at h
    · simp only [underAuthority] at h
      split at h <;> cases h
      exact ⟨_, _, rfl, rfl⟩
    · rename_i hfile
      split at h <;> cases h
      exact absurd (hfile.symm.trans hk) (by decide)
    · rename_i hother
      split at h
      · simp only [underAuthority] at h
        split at h <;> cases h
        exact ⟨_, _, rfl, rfl⟩
      · cases h
        exact absurd (hother.symm.trans hk) (by decide)
      · cases h
        exact absurd (hother.symm.trans hk) (by decide)
  · cases h

end Address

end Web

namespace Endpoint

variable {names : Idna} {c : IdentityConfig} {e : Endpoint} {user : String}

def below (ss : List String) : List String :=
  let ss := Path.withoutLastGap ss
  if ss = [] ∨ ss = [""] then [] else ss

def standing (user : String) : List Char :=
  if Path.segmentChars user = ['.'] then [] else Path.segmentChars user

def segment (user : String) : String :=
  String.ofList (percentEncode Part.specialSegment (standing user))

def added (below : List String) (user : String) : List String :=
  if Path.segmentChars user = ['.', '.'] then
    if below = [] then ["groups"] else ["", "groups"]
  else ["users", segment user, "groups"]

theorem addSegment_users (k : SchemeKind) (ss : List String) :
    Path.addSegment k ss "users" = Path.push ss "users" := by
  cases k <;> rfl

theorem addSegment_groups (k : SchemeKind) (ss : List String) :
    Path.addSegment k ss "groups" = Path.push ss "groups" := by
  cases k <;> rfl

theorem append_singleton_ne {ss : List String} {s : String} (h : ss ≠ [] ∨ s ≠ "") :
    ¬ (ss ++ [s] = [] ∨ ss ++ [s] = [""]) := by
  rintro (hs | hs)
  · simp at hs
  · cases ss <;> simp_all

theorem push_append_singleton {ss : List String} {s t : String} (h : ss ≠ [] ∨ s ≠ "") :
    Path.push (ss ++ [s]) t = ss ++ [s, t] := by
  rw [Path.push, if_neg (append_singleton_ne h)]
  simp

theorem addSegment_user {ss : List String} (hr : isRefused user = false) :
    Path.addSegment .web (ss ++ ["users"]) user =
      if Path.segmentChars user = ['.', '.'] then ss ++ [""]
      else ss ++ ["users", segment user] := by
  have hdots : ¬ (user = "." ∨ user = "..") := by
    rintro (rfl | rfl) <;> exact absurd hr (by decide)
  simp only [Path.addSegment, if_neg hdots, segment, standing]
  split
  · rw [if_neg (append_singleton_ne (.inr (by decide)))]
    simp [Path.shorten]
  · rw [push_append_singleton (.inr (by decide)), push_append_singleton (.inr (by decide))]
    split
    · rename_i h
      rcases h with h | h <;> simp [h, percentEncode]
    · rename_i h
      rw [if_neg (not_or.1 h).2]
      rfl

theorem segments_groups {ss : List String} (hr : isRefused user = false) :
    ["users", user, "groups"].foldl (Path.addSegment .web) (Path.withoutLastGap ss) =
      below ss ++ added (below ss) user := by
  have husers : Path.push (Path.withoutLastGap ss) "users" = below ss ++ ["users"] := by
    simp only [Path.push, below]
    split <;> simp
  simp only [List.foldl_cons, List.foldl_nil, addSegment_users, addSegment_groups, husers,
    addSegment_user hr, added]
  split
  · split
    · rename_i hb
      rw [hb]
      rfl
    · rename_i hb
      exact push_append_singleton (.inl hb)
  · have hsplit : below ss ++ ["users", segment user] =
        (below ss ++ ["users"]) ++ [segment user] := by simp
    rw [hsplit, push_append_singleton (.inl (by simp))]
    simp

theorem groupsAddress?_eq {ss : List String} (hk : e.base.kind = .web)
    (hp : e.base.path = .segments ss) (user : String) :
    e.groupsAddress? user =
      if isRefused user then none
      else some { e.base with path := .segments (below ss ++ added (below ss) user) } := by
  simp only [groupsAddress?, Address.addSegments, hp, hk]
  split
  · rfl
  · rename_i hr
    rw [segments_groups (by simpa using hr)]

/-- Names that hold no tab and no line break. -/
def IsPlain (user : String) : Prop := ∀ c ∈ user.toList, c ≠ '\t' ∧ c ≠ '\n' ∧ c ≠ '\r'

/-- A name that is unknown without asking, or else leads to an address that ends in `users`, a
segment that reads back as the name, and `groups`. -/
def Addresses (e : Endpoint) (user : String) : Prop :=
  e.lookupGroups user = .done (.error (.userNotFound user)) ∨
    ∃ a front s, e.groupsAddress? user = some a ∧
      a.path = .segments (front ++ ["users", s, "groups"]) ∧ s ≠ "" ∧
      (∀ c ∈ s.toList, c ≠ '/' ∧ c ≠ '?' ∧ c ≠ '#') ∧
      percentDecode s.toList = Text.utf8 user.toList

theorem lookupGroups_eq_done_iff :
    e.lookupGroups user = .done (.error (.userNotFound user)) ↔ e.groupsAddress? user = none := by
  simp only [lookupGroups]
  cases e.groupsAddress? user <;> simp

theorem segmentChars_eq_iff : Path.segmentChars user = user.toList ↔ IsPlain user := by
  simp [Path.segmentChars, List.filter_eq_self, IsPlain, and_assoc]

theorem standing_eq_iff (hr : isRefused user = false) :
    standing user = user.toList ↔ IsPlain user := by
  have hne : user.toList ≠ [] ∧ user.toList ≠ ['.'] := by
    refine ⟨fun h => ?_, fun h => ?_⟩
    · obtain rfl : user = "" := String.toList_inj.1 h
      exact absurd hr (by decide)
    · obtain rfl : user = "." := String.toList_inj.1 h
      exact absurd hr (by decide)
  simp only [standing, ← segmentChars_eq_iff]
  split
  · rename_i h
    exact iff_of_false hne.1.symm (h ▸ hne.2.symm)
  · rfl

theorem percentDecode_segment (user : String) :
    percentDecode (segment user).toList = Text.utf8 (standing user) := by
  rw [segment, String.toList_ofList, percentDecode_percentEncode (by decide)]

theorem segment_eq_iff {u v : String} : segment u = segment v ↔ standing u = standing v := by
  have hm : Part.specialSegment '%' = true := by decide
  refine ⟨fun h => percentEncode_injective hm ?_, fun h => by rw [segment, segment, h]⟩
  simpa [segment] using congrArg String.toList h

theorem not_mem_segment (user : String) :
    ∀ c ∈ (segment user).toList, c ≠ '/' ∧ c ≠ '?' ∧ c ≠ '#' := by
  have hdigit : ∀ n : Fin 16, upperHexDigit n.val ≠ '/' ∧ upperHexDigit n.val ≠ '?' ∧
    upperHexDigit n.val ≠ '#' := by decide
  intro c hc
  rw [segment, String.toList_ofList] at hc
  rcases mem_percentEncode hc with h | rfl | ⟨n, hn, rfl⟩
  · refine ⟨?_, ?_, ?_⟩ <;> rintro rfl <;> exact absurd h (by decide)
  · decide
  · exact hdigit ⟨n, hn⟩

theorem segment_of_append_added {front ss : List String} {s : String} (hs : s ≠ "")
    (h : ss ++ added ss user = front ++ ["users", s, "groups"]) : s = segment user := by
  simp only [added] at h
  split at h
  · split at h
    · rename_i hss
      have hlen := congrArg List.length h
      simp [hss] at hlen
    · have h' : ss ++ [""] ++ ["groups"] = front ++ ["users"] ++ [s] ++ ["groups"] := by
        simpa using h
      have hlast := (List.append_inj' (List.append_cancel_right h') rfl).2
      exact absurd (List.singleton_inj.1 hlast).symm hs
  · have hlast := (List.append_inj' h rfl).2
    simp only [List.cons.injEq, true_and, and_true] at hlast
    exact hlast.symm

theorem segment_ne_empty (hs : standing user ≠ []) : segment user ≠ "" := by
  intro h
  have hd := percentDecode_segment user
  rw [h] at hd
  exact hs (utf8_injective (hd.symm.trans rfl))

theorem addresses_iff {ss : List String} (hk : e.base.kind = .web)
    (hp : e.base.path = .segments ss) (user : String) :
    e.Addresses user ↔ isRefused user = true ∨ IsPlain user := by
  rw [Addresses, lookupGroups_eq_done_iff, groupsAddress?_eq hk hp]
  cases hr : isRefused user with
  | true => simp
  | false =>
    rw [← standing_eq_iff hr]
    simp only [Bool.false_eq_true, if_false, reduceCtorEq, false_or, Option.some.injEq]
    constructor
    · rintro ⟨a, front, s, rfl, hpath, hne, -, hd⟩
      obtain rfl := segment_of_append_added hne (Path.segments.inj hpath)
      rw [percentDecode_segment] at hd
      exact utf8_injective hd
    · intro hs
      have hdots : Path.segmentChars user ≠ ['.', '.'] := by
        rw [segmentChars_eq_iff.2 ((standing_eq_iff hr).1 hs)]
        intro h
        obtain rfl : user = ".." := String.toList_inj.1 h
        exact absurd hr (by decide)
      have hne : standing user ≠ [] := by
        rw [hs]
        intro h
        obtain rfl : user = "" := String.toList_inj.1 h
        exact absurd hr (by decide)
      refine ⟨_, below ss, segment user, rfl, ?_, segment_ne_empty hne, not_mem_segment user, ?_⟩
      · simp only [added, if_neg hdots]
      · rw [percentDecode_segment, hs]

theorem text_withPath {a : Address} {host : Host} (hh : a.host = some host) (p : Path) :
    ({ a with path := p } : Address).text =
      a.scheme ++ ":" ++ ("//" ++ a.credentialsText ++ host.text ++ a.portText) ++ p.text ++
        Address.optionalText "?" a.query ++ Address.optionalText "#" a.fragment := by
  simp only [Address.text, Address.originText, hh]
  rfl

def addedText (ss : List String) (user : String) : String :=
  if Path.segmentChars user = ['.', '.'] then if ss = [] then "/groups" else "//groups"
  else "/users/" ++ segment user ++ "/groups"

theorem text_added (ss : List String) (user : String) :
    (Path.segments (ss ++ added ss user)).text =
      (Path.segments ss).text ++ addedText ss user := by
  simp only [Path.text, List.map_append, String.join_append, String.append_right_inj, added,
    addedText]
  split
  · split <;> rfl
  · rw [← String.toList_inj]
    simp

theorem addedText_eq_iff {ss : List String} {u v : String} :
    addedText ss u = addedText ss v ↔ standing u = standing v := by
  have hdots {w : String} (hw : Path.segmentChars w = ['.', '.']) : standing w = ['.', '.'] := by
    simp [standing, hw]
  have hnot {w : String} (hw : Path.segmentChars w ≠ ['.', '.']) : standing w ≠ ['.', '.'] := by
    simp only [standing]
    split <;> simp_all
  have husers {w x : String} (hw : Path.segmentChars w = ['.', '.'])
      (hx : Path.segmentChars x ≠ ['.', '.']) : addedText ss w ≠ addedText ss x := by
    intro h
    simp only [addedText, if_pos hw, if_neg hx, ← String.toList_inj] at h
    split at h <;> simp at h
  -- two dots take `users` away, which no other name does
  by_cases hu : Path.segmentChars u = ['.', '.'] <;> by_cases hv : Path.segmentChars v = ['.', '.']
  · simp only [addedText, if_pos hu, if_pos hv, hdots hu, hdots hv]
  · exact iff_of_false (husers hu hv) fun h => hnot hv (h ▸ hdots hu)
  · exact iff_of_false (husers hv hu).symm fun h => hnot hu (h ▸ hdots hv)
  · simp only [addedText, if_neg hu, if_neg hv, String.append_left_inj, String.append_right_inj,
      segment_eq_iff]

theorem text_eq_iff {ss : List String} {host : Host} {u v : String} {a b : Address}
    (hk : e.base.kind = .web) (hp : e.base.path = .segments ss) (hh : e.base.host = some host)
    (ha : e.groupsAddress? u = some a) (hb : e.groupsAddress? v = some b) :
    a.text = b.text ↔ standing u = standing v := by
  rw [groupsAddress?_eq hk hp, Option.ite_none_left_eq_some] at ha hb
  obtain ⟨-, ha⟩ := ha
  obtain ⟨-, hb⟩ := hb
  cases ha
  cases hb
  rw [text_withPath hh, text_withPath hh, text_added, text_added]
  simp only [String.append_left_inj, String.append_right_inj, addedText_eq_iff]

/-- Below every base of the web, the names that lead where they should are exactly the plain ones,
apart from those that are refused. Two names that are not refused share an address exactly if the
same characters of them stand, which two plain names never do. -/
theorem addresses_iff_isPlain (h : ofConfig names c = .ok e)
    (hs : e.base.scheme = "http" ∨ e.base.scheme = "https") :
    (∀ user, e.Addresses user ↔ isRefused user = true ∨ IsPlain user) ∧
      ∀ u v a b, e.groupsAddress? u = some a → e.groupsAddress? v = some b →
        (a.text = b.text ↔ standing u = standing v) ∧
          (IsPlain u → IsPlain v → a.text = b.text → u = v) := by
  have hk : e.base.kind = .web := by
    rw [Address.kind]
    rcases hs with hs | hs <;> rw [hs] <;> rfl
  obtain ⟨a, ha, hbase⟩ : ∃ a, Address.parse names c.baseUrl = .ok a ∧ e.base = a := by
    simp only [ofConfig] at h
    split at h
    · cases h
    · rename_i a ha
      split at h <;> cases h
      exact ⟨a, ha, rfl⟩
  obtain ⟨host, ss, hh, hp⟩ := Address.exists_host_of_parse ha (hbase ▸ hk)
  rw [← hbase] at hh hp
  refine ⟨addresses_iff hk hp, fun u v a b ha hb => ?_⟩
  have htext := text_eq_iff hk hp hh ha hb
  refine ⟨htext, fun hu hv hab => ?_⟩
  rw [groupsAddress?_eq hk hp, Option.ite_none_left_eq_some, Bool.not_eq_true] at ha hb
  have hstand := htext.1 hab
  rw [(standing_eq_iff ha.1).2 hu, (standing_eq_iff hb.1).2 hv] at hstand
  exact String.toList_inj.1 hstand

theorem addresses_iff_isPlain_tabs :
    ∃ e, ofConfig ⟨fun _ => none⟩ ⟨"http://idp.local/api", 10, none⟩ = .ok e ∧
      e.Addresses "ops/alice" ∧ ¬ e.Addresses "\t.\t" := by
  let e : Endpoint :=
    ⟨⟨"http", "", "", some (.name "idp.local"), none, .segments ["api"], none, none⟩, none,
      ⟨fun _ => none⟩⟩
  have he : ofConfig ⟨fun _ => none⟩ ⟨"http://idp.local/api", 10, none⟩ = .ok e := rfl
  have haddresses := (addresses_iff_isPlain he (.inl rfl)).1
  refine ⟨e, he, (haddresses _).2 (.inr (by simp [IsPlain])), mt (haddresses _).1 ?_⟩
  simp [IsPlain, isRefused]

end Endpoint

end AccessControl
