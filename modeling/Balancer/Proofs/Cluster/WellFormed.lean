import Balancer.Proofs.Admission
import Balancer.Proofs.Annotations.Order
import Balancer.Proofs.Cloud.WellFormed

/-!
# Well-formed objects

* `Named`, `Namespaced` : objects with names without a slash. A key has one namespace and one name in it
  (`Named.name_eq`, `Namespaced.ns_eq`);
* `IsService`, `IsEndpoints`, `IsNode`, `IsPod`, `IsConfigMap` : objects of the shape that a
  cluster gives them. What decides about them can be computed (`IsService.isOfClass`,
  `IsNode.isEligible`, `IsNode.providerId`).
-/

namespace Balancer

set_option autoImplicit false

open Cluster Value Routing

namespace Cluster

/-- A text without a slash. -/
def IsName (v : Value) : Prop := ∃ s : String, v = .text s ∧ '/' ∉ s.toList

/-- An object with a name, and a namespace if it has one. -/
structure Named (obj : Value) : Prop where
  name : IsName (metaOf obj "name")
  ns : metaOf obj "namespace" = .null ∨ IsName (metaOf obj "namespace")

/-- An object of a kind that has namespaces. -/
structure Namespaced (obj : Value) : Prop extends Named obj where
  holds : (metaOf obj "namespace").holds = true

/-- A Service. `ordered` says that its annotations are in the order of their names. -/
structure IsService (ordered : Prop) (obj : Value) : Prop where
  named : Namespaced obj
  annotations : (metaOf obj "annotations").IsTexts
  inOrder : ordered → (metaOf obj "annotations").InOrder
  deletionTimestamp : (metaOf obj "deletionTimestamp").IsScalar
  spec : Fields.get obj.fields "spec" = .null ∨ (Fields.get obj.fields "spec").IsRecord
  ports : (Fields.get (Fields.get obj.fields "spec").fields "ports").IsListOf (HasScalars portFields)
  status : ∃ host, publishedHost obj = .ok host

/-- A subset of Endpoints. -/
def IsSubset (v : Value) : Prop :=
  ∃ fs, v = .object fs ∧ Entries.Distinct fs ∧
    (Fields.get fs "ports").IsListOf (HasScalars endpointPortFields) ∧
    (Fields.get fs "addresses").IsListOf (HasScalars addressFields)

structure IsEndpoints (obj : Value) : Prop where
  named : Namespaced obj
  subsets : (Fields.get obj.fields "subsets").IsListOf IsSubset

/-- Null or a text. -/
def IsOptionalText (v : Value) : Prop := v = .null ∨ ∃ s, v = .text s

structure IsNode (obj : Value) : Prop where
  named : Named obj
  labels : (metaOf obj "labels").IsPart
  spec : (Fields.get obj.fields "spec").IsPart
  providerId : IsOptionalText (Fields.get (Fields.get obj.fields "spec").fields "providerID")

structure IsPod (obj : Value) : Prop where
  named : Namespaced obj
  status : (Fields.get obj.fields "status").IsPart

structure IsConfigMap (obj : Value) : Prop where
  named : Namespaced obj
  data : (Fields.get obj.fields "data").IsTexts

/-- An object of a kind. -/
def IsObject (ordered : Prop) : ObjectKind → Value → Prop
  | .service => IsService ordered
  | .endpoints => IsEndpoints
  | .node => IsNode
  | .pod => IsPod

/-! ## Keys -/

section

variable {obj obj' k ns name : Value} {ordered : Prop}

theorem IsName.ne_null (h : IsName name) : name ≠ .null := by
  obtain ⟨s, rfl, -⟩ := h
  exact nofun

/-- The metadata of an object with a name. -/
theorem Named.exists_metadata (h : Named obj) :
    ∃ fs ms, obj = .object fs ∧ Fields.get fs "metadata" = .object ms ∧ metadata obj = .ok (.object ms) ∧
      ∀ k, metaOf obj k = Fields.get ms k := by
  obtain ⟨fs, ms, rfl, hmetadata, hms⟩ := metadata_of_metaOf h.name.ne_null
  exact ⟨fs, ms, rfl, hms, hmetadata, fun k => congrArg (fun v => Fields.get (Value.fields v) k) hms⟩

theorem Named.get_metadata (h : Named obj) (k : String) :
    ∃ m, metadata obj = .ok m ∧ m.get k = .ok (metaOf obj k) := by
  obtain ⟨fs, ms, -, -, hmetadata, hmeta⟩ := h.exists_metadata
  exact ⟨_, hmetadata, by rw [hmeta k]; rfl⟩

theorem metaField_of_ne_null {k : String} (h : metaOf obj k ≠ .null) :
    metaField obj k = .ok (metaOf obj k) := by
  obtain ⟨fs, ms, rfl, -, hms⟩ := metadata_of_metaOf h
  have hmeta : metaOf (.object fs) k = Fields.get ms k :=
    congrArg (fun v => Fields.get (Value.fields v) k) hms
  rw [hmeta] at h ⊢
  refine bind_eq_ok_iff.2 ⟨.object ms, ?_, Fields.item_of_get h⟩
  rw [item_object, Fields.item_of_get (by rw [hms]; exact nofun), hms]

/-- The key of an object ends with its name, in front of which stands a slash or nothing. -/
theorem Named.objectKey (h : Named obj) :
    ∃ (start : List Char) (key n : String), objectKey obj = .ok (.text key) ∧
    metaOf obj "name" = .text n ∧ '/' ∉ n.toList ∧ '/' :: key.toList = start ++ '/' :: n.toList := by
  obtain ⟨n, hn, hslash⟩ := h.name
  obtain ⟨fs, ms, rfl, hms, hmetadata, hmeta⟩ := h.exists_metadata
  have hitem : Fields.item ms "name" = .ok (.text n) := by
    rw [Fields.item_of_get, ← hmeta, hn]
    rw [← hmeta, hn]
    exact nofun
  have hkey : Cluster.objectKey (.object fs) = .ok (if (Fields.get ms "namespace").holds then
      .text ((Fields.get ms "namespace").shown ++ "/" ++ n) else .text n) := by
    refine bind_eq_ok_iff.2 ⟨_, hmetadata, bind_eq_ok_iff.2 ⟨_, rfl, bind_eq_ok_iff.2 ⟨_, hitem, ?_⟩⟩⟩
    rfl
  by_cases hholds : (Fields.get ms "namespace").holds = true
  · rw [if_pos hholds] at hkey
    exact ⟨'/' :: (Fields.get ms "namespace").shown.toList, _, n, hkey, hn, hslash, by simp⟩
  · rw [if_neg hholds] at hkey
    exact ⟨[], n, n, hkey, hn, hslash, rfl⟩

/-- Objects of one key have one name. -/
theorem Named.name_eq (h : Named obj) (h' : Named obj') (hk : Cluster.objectKey obj = .ok k)
    (hk' : Cluster.objectKey obj' = .ok k) :
    metaOf obj "name" = metaOf obj' "name" := by
  obtain ⟨start, key, n, hkey, hn, hslash, heq⟩ := h.objectKey
  obtain ⟨start', key', n', hkey', hn', hslash', heq'⟩ := h'.objectKey
  rw [hk] at hkey
  rw [hk'] at hkey'
  cases hkey
  cases hkey'
  rw [hn, hn', ← String.toList_inj.1
    (Resources.eq_of_append_slash start start' hslash hslash' (heq.symm.trans heq'))]

theorem Namespaced.exists_names (h : Namespaced obj) :
    ∃ ns n : String, metaOf obj "namespace" = .text ns ∧ metaOf obj "name" = .text n ∧
      names obj = .ok (.text ns, .text n) ∧
      Cluster.objectKey obj = .ok (.text (ns ++ "/" ++ n)) := by
  obtain ⟨n, hn, -⟩ := h.name
  have hns : metaOf obj "namespace" ≠ .null := by
    intro hnull
    have hholds := h.holds
    rw [hnull] at hholds
    cases hholds
  obtain ⟨ns, hns', -⟩ := h.ns.resolve_left hns
  have hnames : names obj = .ok (.text ns, .text n) := by
    refine bind_eq_ok_iff.2 ⟨_, metaField_of_ne_null hns,
      bind_eq_ok_iff.2 ⟨_, metaField_of_ne_null h.name.ne_null, ?_⟩⟩
    rw [hns', hn]
    rfl
  refine ⟨ns, n, hns', hn, hnames, objectKey_of_names hnames ?_⟩
  rw [← hns']
  exact h.holds

/-- Objects of one key are of one namespace. -/
theorem Namespaced.ns_eq (h : Namespaced obj) (h' : Namespaced obj') (hk : Cluster.objectKey obj = .ok k)
    (hk' : Cluster.objectKey obj' = .ok k) :
    metaOf obj "namespace" = metaOf obj' "namespace" := by
  have hname := h.name_eq h'.toNamed hk hk'
  obtain ⟨ns, n, hns, hn, -, hkey⟩ := h.exists_names
  obtain ⟨ns', n', hns', hn', -, hkey'⟩ := h'.exists_names
  rw [hn, hn', Value.text.injEq] at hname
  subst hname
  rw [hk] at hkey
  rw [hk'] at hkey'
  cases hkey
  have heq : ns ++ "/" ++ n = ns' ++ "/" ++ n := by simpa using hkey'
  rw [hns, hns']
  have hlist := congrArg String.toList heq
  simp only [String.toList_append] at hlist
  rw [String.toList_inj.1 (List.append_cancel_right (List.append_cancel_right hlist))]

theorem Namespaced.names_eq (h : Namespaced obj) (h' : Namespaced obj') (hk : Cluster.objectKey obj = .ok k)
    (hk' : Cluster.objectKey obj' = .ok k) :
    metaField obj "namespace" = metaField obj' "namespace" ∧
      metaField obj "name" = metaField obj' "name" := by
  obtain ⟨ns, n, hns, hn, -⟩ := h.exists_names
  obtain ⟨ns', n', hns', hn', -⟩ := h'.exists_names
  have hfield : ∀ {v : Value} {k s : String}, metaOf v k = .text s →
      metaField v k = .ok (metaOf v k) := fun h =>
    metaField_of_ne_null (by rw [h]; exact nofun)
  rw [hfield hns, hfield hns', hfield hn, hfield hn', h.ns_eq h' hk hk', h.name_eq h'.toNamed hk hk']
  exact ⟨rfl, rfl⟩

/-! ## What decides about them -/

theorem IsTexts.isPart {v : Value} (h : v.IsTexts) : v.IsPart := h.imp_right fun ⟨fs, hfs, _⟩ => ⟨fs, hfs⟩

theorem IsTexts.text_of_mem {v : Value} {e : String × Value} (h : v.IsTexts) (he : e ∈ v.fields) :
    ∃ t, e.2 = .text t := by
  obtain rfl | ⟨fs, rfl, -, htexts⟩ := h
  · cases he
  · exact htexts e he

theorem IsService.shaped (h : IsService ordered obj) : Shaped obj := by
  obtain ⟨fs, ms, rfl, hms, -, hmeta⟩ := h.named.exists_metadata
  refine ⟨.inr ⟨fs, rfl⟩, .inr ⟨ms, hms⟩, IsTexts.isPart h.annotations⟩

theorem IsService.isOfClass (h : IsService ordered obj) (serviceClass : Value) :
    ∃ b, isOfClass serviceClass obj = .ok b := by
  obtain ⟨fs, ms, rfl, -⟩ := h.named.exists_metadata
  exact h.shaped.isOfClass serviceClass

theorem IsNode.isEligible (h : IsNode obj) : ∃ b, isEligible obj = .ok b := by
  obtain ⟨m, hm, hlabels⟩ := h.named.get_metadata "labels"
  have hhas : ∀ label : String, ∃ b, ((metaOf obj "labels").orElse (.object [])).has
      (.text label) = .ok b := by
    intro label
    rw [h.labels.orElse_eq]
    exact ⟨_, rfl⟩
  obtain ⟨master, hmaster⟩ := hhas masterLabel
  obtain ⟨exclude, hexclude⟩ := hhas excludeLabel
  unfold Cluster.isEligible
  rw [hm]
  show ∃ b, (m.get "labels" >>= _) = .ok b
  rw [hlabels]
  show ∃ b, ((metaOf obj "labels").orElse (.object [])).has (.text masterLabel) >>= _ = .ok b
  rw [hmaster]
  cases master with
  | true => exact ⟨false, rfl⟩
  | false =>
    show ∃ b, ((metaOf obj "labels").orElse (.object [])).has (.text excludeLabel) >>= _ = .ok b
    rw [hexclude]
    exact ⟨_, rfl⟩

theorem IsNode.providerId_eq (h : IsNode obj) :
    Cluster.providerId obj = .ok (Fields.get (Fields.get obj.fields "spec").fields "providerID") := by
  obtain ⟨fs, ms, rfl, -⟩ := h.named.exists_metadata
  refine bind_eq_ok_iff.2 ⟨.object (Fields.get fs "spec").fields, ?_, rfl⟩
  exact bind_eq_ok_iff.2 ⟨_, get_object _ _, congrArg Except.ok h.spec.orElse_eq⟩

end

end Cluster

end Balancer
