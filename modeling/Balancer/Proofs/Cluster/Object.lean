import Balancer.Cluster.Object
import Balancer.Proofs.Checked
import Balancer.Proofs.Value

/-!
# Objects of a cluster

* `Value.IsPart`, `Value.fields` : a part that is an object or is not there, and the fields of it;
* `metaOf` : a field of the metadata of an object, whatever the object is. `get_metadata`
  says when it can be read;
* `exists_of_names`, `objectKey_of_names` : an object with a namespace and a name, and the key
  under which it is stored.
-/

namespace Balancer

set_option autoImplicit false

/-- An object, or nothing. -/
def Value.IsPart (v : Value) : Prop := v = .null ∨ ∃ fs, v = .object fs

/-- The fields of an object; anything else has none. -/
def Value.fields (v : Value) : Fields := v.fields?.getD []

/-- A field of the metadata of an object, null if there is none. -/
def Cluster.metaOf (obj : Value) (k : String) : Value :=
  Fields.get (Fields.get obj.fields "metadata").fields k

section

variable {service ns name obj v w : Value} {k : String} {fs : Fields}

theorem Value.IsPart.orElse_eq (h : v.IsPart) : v.orElse (.object []) = .object v.fields := by
  obtain rfl | ⟨fs, rfl⟩ := h
  · rfl
  · cases fs <;> rfl

theorem Value.eq_object_of_get (h : v.get k = .ok w) : v = .object v.fields ∧ w = Fields.get v.fields k := by
  cases v with
  | object fs =>
    cases h
    exact ⟨rfl, rfl⟩
  | _ => cases h

/-- What stands in place of a part that does not hold, and what is read of it. -/
theorem Value.get_orElse (h : (v.orElse (.object [])).get k = .ok w) : w = Fields.get v.fields k := by
  by_cases hv : v.holds = true
  · rw [Value.orElse, if_pos hv] at h
    exact (Value.eq_object_of_get h).2
  · rw [Value.orElse, if_neg hv] at h
    cases h
    cases v with
    | object fs =>
      cases fs with
      | nil => rfl
      | cons f fs => exact absurd rfl hv
    | _ => rfl

namespace Cluster

theorem metadata_eq (h : (Fields.get fs "metadata").IsPart) :
    metadata (.object fs) = .ok (.object (Fields.get fs "metadata").fields) := by
  rw [← h.orElse_eq]
  rfl

theorem annotations_eq (h : (Fields.get fs "metadata").IsPart) :
    annotations (.object fs) = .ok (Fields.get (Fields.get fs "metadata").fields "annotations") := by
  unfold annotations
  rw [metadata_eq h]
  rfl

/-- What is read of the metadata of an object. -/
theorem metaOf_of_get (h : metadata obj = .ok v) (hk : v.get k = .ok w) : w = metaOf obj k := by
  obtain ⟨part, hpart, h⟩ := bind_eq_ok_iff.1 h
  cases h
  rw [Value.get_orElse hk, (Value.eq_object_of_get hpart).2]
  rfl

/-- The metadata of an object that has a field in it. -/
theorem metadata_of_metaOf (h : metaOf obj k ≠ .null) :
    ∃ fs ms, obj = .object fs ∧ metadata obj = .ok (.object ms) ∧
    Fields.get fs "metadata" = .object ms := by
  cases obj with
  | object fs =>
    cases hms : Fields.get fs "metadata" with
    | object ms =>
      refine ⟨fs, ms, rfl, ?_, hms⟩
      rw [metadata_eq (.inr ⟨ms, hms⟩), hms]
      rfl
    | _ =>
      refine absurd ?_ h
      unfold metaOf
      rw [show (Value.object fs).fields = fs from rfl, hms]
      rfl
  | _ => exact absurd rfl h

theorem exists_of_names (h : names service = .ok (ns, name)) :
    ∃ fs ms, service = .object fs ∧ Fields.get fs "metadata" = .object ms ∧
      Fields.item ms "namespace" = .ok ns ∧
      Fields.item ms "name" = .ok name := by
  have hobject : ∀ {v w : Value} {k : String}, v.item k = .ok w → ∃ fs, v = .object fs := by
    intro v w k hv
    cases v with
    | object fs => exact ⟨fs, rfl⟩
    | _ => cases hv
  obtain ⟨ns', hfield, h⟩ := bind_eq_ok_iff.1 h
  obtain ⟨name', hfield', h⟩ := bind_eq_ok_iff.1 h
  cases h
  obtain ⟨m, hm, hns⟩ := bind_eq_ok_iff.1 hfield
  obtain ⟨m', hm', hname⟩ := bind_eq_ok_iff.1 hfield'
  rw [hm] at hm'
  cases hm'
  obtain ⟨fs, rfl⟩ := hobject hm
  obtain ⟨ms, rfl⟩ := hobject hns
  exact ⟨fs, ms, rfl, Fields.get_of_item hm, hns, hname⟩

/-- The key of an object with a namespace. -/
theorem objectKey_of_names (h : names service = .ok (ns, name)) (hns : ns.holds = true) :
    objectKey service = .ok (.text (ns.shown ++ "/" ++ name.shown)) := by
  obtain ⟨fs, ms, rfl, hmetadata, hitem, hname⟩ := exists_of_names h
  have hpart : metadata (.object fs) = .ok (.object ms) := by
    have horElse : Value.orElse (.object ms) (.object []) = .object ms := by
      cases ms <;> rfl
    unfold metadata part
    rw [Value.get_object, hmetadata]
    exact congrArg Except.ok horElse
  unfold objectKey
  rw [hpart]
  refine bind_eq_ok_iff.2 ⟨_, rfl, bind_eq_ok_iff.2 ⟨_, rfl, bind_eq_ok_iff.2 ⟨name, hname, ?_⟩⟩⟩
  rw [Fields.get_of_item hitem, hns]
  rfl

/-- An object whose namespace and name are texts has a text as its key. -/
theorem exists_objectKey_of_texts {k n : String} (h : names service = .ok (.text k, .text n)) :
    ∃ key, objectKey service = .ok (.text key) := by
  by_cases hk : (Value.text k).holds = true
  · exact ⟨_, objectKey_of_names h hk⟩
  · obtain ⟨fs, ms, rfl, hmetadata, hitem, hname⟩ := exists_of_names h
    have hpart : metadata (.object fs) = .ok (.object ms) := by
      rw [metadata_eq (.inr ⟨ms, hmetadata⟩), hmetadata]
      rfl
    refine ⟨n, bind_eq_ok_iff.2 ⟨_, hpart, bind_eq_ok_iff.2 ⟨_, rfl, bind_eq_ok_iff.2 ⟨_, hname, ?_⟩⟩⟩⟩
    rw [Fields.get_of_item hitem, if_neg hk]
    rfl

end Cluster

end

end Balancer
