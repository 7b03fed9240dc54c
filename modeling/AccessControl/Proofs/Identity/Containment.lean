import AccessControl.Proofs.Identity.Endpoint

/-!
# Addresses stay below their base

Whatever characters the name of a user is made of, the address of its groups differs from the base
address in the path alone, and the path goes on from where the base path ends. Two dots that come
to light when tabs and line breaks are dropped take away the segment `users` and no other one.
-/

namespace AccessControl

open Web

namespace Web

/-- Addresses that differ in nothing but the path. -/
structure Address.SameService (a b : Address) : Prop where
  scheme : a.scheme = b.scheme
  username : a.username = b.username
  password : a.password = b.password
  host : a.host = b.host
  port : a.port = b.port
  query : a.query = b.query
  fragment : a.fragment = b.fragment

theorem Address.SameService.originText {a b : Address} (h : a.SameService b)
    (hh : a.host.isSome = true) : a.originText = b.originText := by
  obtain ⟨host, hhost⟩ := Option.isSome_iff_exists.1 hh
  simp only [Address.originText, credentialsText, portText, hhost, ← h.scheme, ← h.username,
    ← h.password, ← h.port, ← h.host]

namespace Path

def stem (p : Path) : List Char :=
  if p.text.toList.getLast? = some '/' then p.text.toList.dropLast else p.text.toList

theorem stem_prefix (p : Path) : p.stem <+: p.text.toList := by
  rw [stem]
  split
  · exact List.dropLast_prefix _
  · exact List.prefix_rfl

theorem text_append_singleton (ss : List String) (s : String) :
    (segments (ss ++ [s])).text = (segments ss).text ++ ("/" ++ s) := by
  simp [text, String.join_append]

theorem stem_append_gap (ss : List String) :
    (segments (ss ++ [""])).stem = (segments ss).text.toList := by
  have htext : (segments (ss ++ [""])).text.toList = (segments ss).text.toList ++ ['/'] := by
    rw [text_append_singleton, String.toList_append]
    rfl
  rw [stem, htext, List.getLast?_concat, if_pos rfl, List.dropLast_concat]

end Path

end Web

namespace Endpoint

variable {names : Idna} {c : IdentityConfig} {e : Endpoint} {user : String}

theorem addedText_head (ss : List String) (user : String) :
    ∃ cs, (addedText ss user).toList = '/' :: cs := by
  simp only [addedText]
  split
  · split <;> exact ⟨_, rfl⟩
  · refine ⟨"users/".toList ++ (segment user).toList ++ "/groups".toList, ?_⟩
    rw [String.toList_append, String.toList_append]
    rfl

theorem stem_prefix_added (ss : List String) (user : String) :
    (Path.segments ss).stem <+:
      (Path.segments (below ss ++ added (below ss) user)).text.toList := by
  rw [text_added, String.toList_append]
  by_cases hgap : 1 < ss.length ∧ ss.getLast? = some ""
  · obtain ⟨ss', rfl⟩ : ∃ ss', ss = ss' ++ [""] := List.getLast?_eq_some_iff.1 hgap.2
    have hbelow : below (ss' ++ [""]) = if ss' = [] ∨ ss' = [""] then [] else ss' := by
      simp only [below, Path.withoutLastGap, if_pos hgap, List.dropLast_concat]
    rw [Path.stem_append_gap, hbelow]
    split
    · rename_i hroot
      obtain ⟨cs, hcs⟩ := addedText_head [] user
      rw [hcs]
      rcases hroot with rfl | rfl
      · exact List.nil_prefix
      · exact ⟨cs, rfl⟩
    · exact List.prefix_append _ _
  · have hbelow : below ss = if ss = [] ∨ ss = [""] then [] else ss := by
      simp only [below, Path.withoutLastGap, if_neg hgap]
    rw [hbelow]
    split
    · rename_i hroot
      rcases hroot with rfl | rfl <;> exact List.nil_prefix
    · exact (Path.stem_prefix _).trans (List.prefix_append _ _)

theorem parse_of_ofConfig (h : ofConfig names c = .ok e) :
    Address.parse names c.baseUrl = .ok e.base := by
  simp only [ofConfig] at h
  split at h
  · cases h
  · rename_i a ha
    split at h <;> cases h
    exact ha

/-- Below every base of the web, every name that is not refused leads to an address of the same
service, whose path begins with the base path less one slash at its end. -/
theorem groupsAddress?_below_base (h : ofConfig names c = .ok e)
    (hs : e.base.scheme = "http" ∨ e.base.scheme = "https") :
    Address.parse names c.baseUrl = .ok e.base ∧ ∀ user, isRefused user = true ∨
      ∃ a, e.groupsAddress? user = some a ∧ a.SameService e.base ∧
        a.originText = e.base.originText ∧ e.base.path.stem <+: a.path.text.toList := by
  have hk : e.base.kind = .web := by
    rw [Address.kind]
    rcases hs with hs | hs <;> rw [hs] <;> rfl
  have hparse := parse_of_ofConfig h
  obtain ⟨host, ss, hh, hp⟩ := Address.exists_host_of_parse hparse hk
  refine ⟨hparse, fun user => ?_⟩
  have haddress := groupsAddress?_eq hk hp user
  cases hr : isRefused user with
  | true => exact .inl rfl
  | false =>
    rw [hr, if_neg Bool.false_ne_true] at haddress
    have hsame : Address.SameService
        { e.base with path := .segments (below ss ++ added (below ss) user) } e.base :=
      ⟨rfl, rfl, rfl, rfl, rfl, rfl, rfl⟩
    have horigin := hsame.originText (by rw [hh]; rfl)
    exact .inr ⟨_, haddress, hsame, horigin, hp ▸ stem_prefix_added ss user⟩

theorem groupsAddress?_below_base_dots :
    ∃ e a, ofConfig ⟨fun _ => none⟩
        ⟨"http://ops:pw@idp.local:8080/api//?tenant=a#top", 10, none⟩ = .ok e ∧
      e.groupsAddress? "\t..\t" = some a ∧ a.SameService e.base ∧
      a.text = "http://ops:pw@idp.local:8080/api///groups?tenant=a#top" ∧
      "/api/".toList <+: a.path.text.toList := by
  let e : Endpoint := ⟨⟨"http", "ops", "pw", some (.name "idp.local"), some 8080,
    .segments ["api", "", ""], some "tenant=a", some "top"⟩, none, ⟨fun _ => none⟩⟩
  have he : ofConfig ⟨fun _ => none⟩
      ⟨"http://ops:pw@idp.local:8080/api//?tenant=a#top", 10, none⟩ = .ok e := rfl
  have hstems : e.base.path.stem = "/api/".toList := by decide +kernel
  obtain ⟨-, hall⟩ := groupsAddress?_below_base he (.inl rfl)
  rcases hall "\t..\t" with hr | ⟨a, ha, hsame, -, hstem⟩
  · exact absurd hr (by decide)
  · refine ⟨e, a, he, ha, hsame, ?_, hstems ▸ hstem⟩
    cases ha
    rfl

end Endpoint

end AccessControl
