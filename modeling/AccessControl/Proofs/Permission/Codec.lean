import AccessControl.Permission.Basic
import AccessControl.Proofs.Json.PairText

/-!
# Permissions, roles and groups in JSON

All three are pairs of texts: they are parsed from exactly the documents that write such a pair, and
read back from what is printed for them. What is passed over in a document only has to be spelled.
-/

namespace AccessControl

open Json

theorem Permission.pairCodec :
    PairCodec Permission.parse Permission.toJson Permission.mk ["resource"] ["action"] :=
  pairCodec_of (by decide) (fun _ _ => rfl) fun p =>
    ⟨p.resource, p.action, rfl, "resource", by decide, "action", by decide, rfl⟩

theorem Role.pairCodec : PairCodec Role.parse Role.toJson Role.mk ["id"] ["display_name"] :=
  pairCodec_of (by decide) (fun _ _ => rfl) fun r =>
    ⟨r.id, r.displayName, rfl, "id", by decide, "display_name", by decide, rfl⟩

theorem Group.pairCodec :
    PairCodec Group.parse Group.toJson Group.mk ["id"] ["display_name", "displayName"] :=
  pairCodec_of (by decide) (fun _ _ => rfl) fun g =>
    ⟨g.id, g.displayName, rfl, "id", by decide, "display_name", by decide, rfl⟩

/-- Each of the three is a codec of pairs under names of its own, and a role keeps both texts of the
group it is made of. -/
theorem permission_role_group_coded :
    PairCodec Permission.parse Permission.toJson Permission.mk ["resource"] ["action"] ∧
      PairCodec Role.parse Role.toJson Role.mk ["id"] ["display_name"] ∧
      PairCodec Group.parse Group.toJson Group.mk ["id"] ["display_name", "displayName"] ∧
      ∀ x y, Role.ofGroup (Group.mk x y) = Role.mk x y :=
  ⟨Permission.pairCodec, Role.pairCodec, Group.pairCodec, fun _ _ => rfl⟩

/-- A number beyond the range is no value and stands in no document, but it can be passed over. -/
theorem permission_parsed_beside_number_beyond_range :
    let s := "\x7b\"resource\": \"r\", \"action\": \"a\", \"x\": 1e999\x7d"
    Permission.parse s = .ok ⟨"r", "a"⟩ ∧ ¬ ∃ j, DocumentText j s.toList := by
  intro s
  have hparse : Permission.parse s = .ok ⟨"r", "a"⟩ := by decide +kernel
  have hno : (Json.parse s).isOk = false := by decide +kernel
  refine ⟨hparse, ?_⟩
  rintro ⟨j, hj⟩
  rw [← parse_eq_ok_iff] at hj
  rw [hj] at hno
  cases hno

end AccessControl
