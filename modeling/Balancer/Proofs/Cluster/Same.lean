import Balancer.Cluster.Trigger
import Balancer.Proofs.Cluster.WellFormed

/-!
# Objects that cannot be told apart

* `SameService v w` : two states of a Service that a reconcile cannot tell apart; so are those before and
  after an update that changes nothing (`sameService_of_unchanged`);
* `sameEndpoints_of_same`, `sameNode_of_unchanged` say the same of Endpoints and of nodes.
-/

namespace Balancer

set_option autoImplicit false

open Cluster Value Routing Trigger

/-- Two states of a Service that are the same where they are read, but for the order of their annotations. -/
structure SameService (ordered : Prop) (v w : Value) : Prop where
  left : IsService ordered v
  right : IsService ordered w
  routes : SameRoutes v w
  annotations : Reordered (metaOf v "annotations") (metaOf w "annotations")
  deletionTimestamp : metaOf v "deletionTimestamp" = metaOf w "deletionTimestamp"

section

variable {ordered : Prop} {u v w k : Value} {P : Value → Prop} {R : Value → Value → Prop} {ks : List String}

theorem Value.IsListOf.rows (h : v.IsListOf P) (hR : ∀ x, P x → R x x) : Rows R v v := by
  obtain rfl | ⟨vs, rfl, hvs⟩ := h
  · exact .null
  · exact .list (List.forall₂_same.2 fun x hx => hR x (hvs x hx))

theorem Value.HasScalars.same (h : v.HasScalars ks) : SameFields ks v v := .refl (h.imp fun _ h => h.1)

/-! ## Services -/

theorem Cluster.IsService.isPart_spec (h : IsService ordered v) : (Fields.get v.fields "spec").IsPart :=
  h.spec.imp_right fun ⟨fs, hfs, _⟩ => ⟨fs, hfs⟩

theorem ports_eq (h : IsService ordered v) :
    ports v = (Fields.get (Fields.get v.fields "spec").fields "ports").elementsIfAny := by
  obtain ⟨fs, -, rfl, -⟩ := h.named.exists_metadata
  have hspec : part (.object fs) "spec" = .ok (.object (Fields.get fs "spec").fields) :=
    bind_eq_ok_iff.2 ⟨_, get_object _ _, congrArg Except.ok h.isPart_spec.orElse_eq⟩
  unfold ports
  rw [hspec]
  rfl

theorem rows_ports (hv : IsService ordered v) (hw : IsService ordered w)
    (h : (Fields.get v.fields "spec").same (Fields.get w.fields "spec") = true) :
    Rows SamePort (Fields.get (Fields.get v.fields "spec").fields "ports")
      (Fields.get (Fields.get w.fields "spec").fields "ports") := by
  have halike := (Bool.and_eq_true_iff.1 h).2
  refine rows_of_alike hv.ports hw.ports ?_ fun x y hx hy h => sameFields_of_alike hx hy h
  rcases hv.spec with hnull | ⟨fs, hfs, hdistinct⟩
  · rcases hw.spec with hnull' | ⟨gs, hgs, -⟩
    · rw [hnull, hnull']
      rfl
    · rw [hnull, hgs] at halike
      cases halike
  · rcases hw.spec with hnull' | ⟨gs, hgs, -⟩
    · rw [hfs, hnull'] at halike
      cases halike
    · rw [hfs, hgs] at halike ⊢
      exact get_alike_of_alike hdistinct halike "ports"

theorem sameRoutes (hv : IsService ordered v) (hw : IsService ordered w) (hkv : objectKey v = .ok k)
    (hkw : objectKey w = .ok k) (hports : Paired (List.Forall₂ SamePort) (ports v) (ports w)) :
    SameRoutes v w :=
  ⟨(hv.named.names_eq hw.named hkv hkw).1, (hv.named.names_eq hw.named hkv hkw).2, hkv.trans hkw.symm, hports⟩

theorem SameService.refl (h : IsService ordered v) : SameService ordered v v where
  left := h
  right := h
  routes := by
    refine ⟨rfl, rfl, rfl, ?_⟩
    rw [ports_eq h]
    exact (h.ports.rows fun x hx => hx.same).elementsIfAny
  annotations := .refl h.annotations
  deletionTimestamp := rfl

theorem Value.Reordered.trans (h : Reordered u v) (h' : Reordered v w) : Reordered u w := by
  cases h with
  | null => exact h'
  | object hd htexts hperm =>
    cases h' with
    | object _ _ hperm' => exact .object hd htexts (hperm.trans hperm')

theorem SameService.trans (h : SameService ordered u v) (h' : SameService ordered v w) :
    SameService ordered u w where
  left := h.left
  right := h'.right
  routes := ⟨h.routes.ns.trans h'.routes.ns, h.routes.name.trans h'.routes.name,
    h.routes.objectKey.trans h'.routes.objectKey,
    h.routes.ports.trans (R := List.Forall₂ SamePort) (fun _ _ _ => forall₂_trans (R := SamePort)
      fun _ _ _ => SameFields.trans) h'.routes.ports⟩
  annotations := h.annotations.trans h'.annotations
  deletionTimestamp := h.deletionTimestamp.trans h'.deletionTimestamp

theorem SameService.isOfClass_eq (h : SameService ordered v w) (serviceClass : Value) :
    isOfClass serviceClass v = isOfClass serviceClass w := by
  have hannotations : ∀ {v : Value}, IsService ordered v →
      Cluster.annotations v = .ok (metaOf v "annotations") := by
    intro v hv
    obtain ⟨m, hm, hget⟩ := hv.named.get_metadata "annotations"
    exact bind_eq_ok_iff.2 ⟨m, hm, hget⟩
  unfold isOfClass
  rw [hannotations h.left, hannotations h.right]
  show ((metaOf v "annotations").orElse (.object [])).get classKey >>= _ =
    ((metaOf w "annotations").orElse (.object [])).get classKey >>= _
  rw [h.annotations.get_orElse_eq]

theorem serviceChanged_eq (hv : IsService ordered v) (hw : IsService ordered w) : serviceChanged v w = .ok
    !((Fields.get v.fields "spec").same (Fields.get w.fields "spec") &&
      (metaOf v "annotations").same (metaOf w "annotations") &&
      (metaOf v "deletionTimestamp").same (metaOf w "deletionTimestamp")) := by
  obtain ⟨fs, ms, rfl, -, hmetadata, hmeta⟩ := hv.named.exists_metadata
  obtain ⟨gs, ns, rfl, -, hmetadata', hmeta'⟩ := hw.named.exists_metadata
  unfold serviceChanged
  rw [hmetadata, hmetadata', hmeta, hmeta, hmeta', hmeta']
  show (if (!(Fields.get fs "spec").same (Fields.get gs "spec")) = true then _ else
    if (!(Fields.get ms "annotations").same (Fields.get ns "annotations")) = true then _ else _) = _
  simp only [Value.fields, fields?, Option.getD_some]
  cases (Fields.get fs "spec").same (Fields.get gs "spec") with
  | false => rfl
  | true =>
    cases (Fields.get ms "annotations").same (Fields.get ns "annotations") with
    | false => rfl
    | true => rfl

/-- An update of a Service that changes nothing. -/
theorem sameService_of_unchanged (hv : IsService ordered v) (hw : IsService ordered w)
    (hkv : objectKey v = .ok k) (hkw : objectKey w = .ok k) (h : serviceChanged v w = .ok false) :
    SameService ordered v w := by
  rw [serviceChanged_eq hv hw, Except.ok.injEq, Bool.not_eq_false', Bool.and_eq_true, Bool.and_eq_true] at h
  obtain ⟨⟨hspec, hannotations⟩, hdeletion⟩ := h
  refine ⟨hv, hw, sameRoutes hv hw hkv hkw ?_, reordered_of_same hv.annotations hw.annotations hannotations,
    eq_of_same hv.deletionTimestamp hw.deletionTimestamp hdeletion⟩
  rw [ports_eq hv, ports_eq hw]
  exact (rows_ports hv hw hspec).elementsIfAny

/-! ## Endpoints -/

theorem Cluster.IsEndpoints.exists_fields (h : IsEndpoints v) : ∃ fs, v = .object fs := by
  obtain ⟨fs, -, rfl, -⟩ := h.named.exists_metadata
  exact ⟨fs, rfl⟩

theorem Routing.SameEndpoints.refl (h : IsEndpoints v) : SameEndpoints v v := by
  obtain ⟨fs, rfl⟩ := h.exists_fields
  refine ⟨fs, fs, rfl, rfl, h.subsets.rows ?_⟩
  rintro _ ⟨gs, rfl, -, hports, haddresses⟩
  exact ⟨gs, gs, rfl, rfl, hports.rows fun x hx => hx.same, haddresses.rows fun x hx => hx.same⟩

theorem Routing.SameSubset.trans (h : SameSubset u v) (h' : SameSubset v w) : SameSubset u w := by
  obtain ⟨fs, gs, rfl, rfl, hports, haddresses⟩ := h
  obtain ⟨gs', hs, hgs, rfl, hports', haddresses'⟩ := h'
  cases hgs
  exact ⟨fs, hs, rfl, rfl, hports.trans (fun _ _ _ hab hbc => hab.trans hbc) hports',
    haddresses.trans (fun _ _ _ hab hbc => hab.trans hbc) haddresses'⟩

theorem Routing.SameEndpoints.trans (h : SameEndpoints u v) (h' : SameEndpoints v w) : SameEndpoints u w := by
  obtain ⟨fs, gs, rfl, rfl, hsubsets⟩ := h
  obtain ⟨gs', hs, hgs, rfl, hsubsets'⟩ := h'
  cases hgs
  exact ⟨fs, hs, rfl, rfl, hsubsets.trans (fun _ _ _ hab hbc => hab.trans hbc) hsubsets'⟩

theorem sameSubset_of_alike (hv : IsSubset v) (hw : IsSubset w) (h : v.alike w = true) : SameSubset v w := by
  obtain ⟨fs, rfl, hdistinct, hports, haddresses⟩ := hv
  obtain ⟨gs, rfl, -, hports', haddresses'⟩ := hw
  exact ⟨fs, gs, rfl, rfl,
    rows_of_alike hports hports' (get_alike_of_alike hdistinct h "ports") fun _ _ hx hy =>
      sameFields_of_alike hx hy,
    rows_of_alike haddresses haddresses' (get_alike_of_alike hdistinct h "addresses") fun _ _ hx hy =>
      sameFields_of_alike hx hy⟩

/-- An update of Endpoints that leaves the subsets. -/
theorem sameEndpoints_of_same (hv : IsEndpoints v) (hw : IsEndpoints w)
    (h : (Fields.get v.fields "subsets").same (Fields.get w.fields "subsets") = true) :
    SameEndpoints v w := by
  obtain ⟨fs, rfl⟩ := hv.exists_fields
  obtain ⟨gs, rfl⟩ := hw.exists_fields
  exact ⟨fs, gs, rfl, rfl, rows_of_alike hv.subsets hw.subsets (Bool.and_eq_true_iff.1 h).2
    fun _ _ => sameSubset_of_alike⟩

/-! ## Nodes -/

/-- Two states of a node that receive the same targets. -/
def SameNode (v w : Value) : Prop := isEligible v = isEligible w ∧ instanceId v = instanceId w

theorem Cluster.IsOptionalText.isScalar (h : IsOptionalText v) : v.IsScalar := by
  obtain rfl | ⟨s, rfl⟩ := h <;> trivial

/-- An update of a node that changes nothing. -/
theorem sameNode_of_unchanged (hv : IsNode v) (hw : IsNode w) (hkv : objectKey v = .ok k)
    (hkw : objectKey w = .ok k) (h : nodeChanged v w = .ok false) : SameNode v w := by
  obtain ⟨b, hb⟩ := hv.isEligible
  obtain ⟨b', hb'⟩ := hw.isEligible
  unfold nodeChanged at h
  rw [hb, hb', hv.providerId_eq, hw.providerId_eq] at h
  obtain ⟨hne, halike⟩ := Bool.or_eq_false_iff.1 (Except.ok.inj h)
  have hbb : b = b' := by simpa using hne
  have hid := eq_of_alike hv.providerId.isScalar hw.providerId.isScalar (by simpa using halike)
  have hname : metaField v "name" = metaField w "name" := by
    rw [metaField_of_ne_null hv.named.name.ne_null, metaField_of_ne_null hw.named.name.ne_null,
      hv.named.name_eq hw.named hkv hkw]
  refine ⟨hb.trans ((congrArg Except.ok hbb).trans hb'.symm), ?_⟩
  unfold instanceId
  rw [hv.providerId_eq, hw.providerId_eq, hid, hname]

theorem forall₂_put {κ β : Type} [BEq κ] {R : β → β → Prop} {k : κ} {x y : β} {es : List (κ × β)}
    (hR : ∀ e ∈ es, R e.2 e.2) (hk : Entries.find? k es = some x) (hxy : R x y) :
    List.Forall₂ R (es.map (·.2)) ((Entries.put k y es).map (·.2)) := by
  induction es with
  | nil => cases hk
  | cons e es ih =>
    obtain ⟨he, hes⟩ := List.forall_mem_cons.1 hR
    unfold Entries.find? at hk
    unfold Entries.put
    split at hk
    · rename_i hek
      cases hk
      rw [if_pos hek]
      exact .cons hxy (List.forall₂_same.2 fun x hx => by
        obtain ⟨e', he', rfl⟩ := List.mem_map.1 hx
        exact hes e' he')
    · rename_i hek
      rw [if_neg hek]
      exact .cons he (ih hes hk)

/-- A node in another state that receives the same targets leaves the instances as they are. -/
theorem instanceIds_insert {s t : Store} {k : Key} (hold : s.nodes.get? k = some v)
    (hnew : t.nodes = s.nodes.insert k w) (h : SameNode v w) :
    s.instanceIds = t.instanceIds := by
  have hall : List.Forall₂ SameNode s.nodes.values t.nodes.values := by
    rw [hnew]
    exact forall₂_put (fun _ _ => ⟨rfl, rfl⟩) hold h
  unfold Store.instanceIds Store.eligibleNodes
  exact (paired_filterM hall fun _ _ h => h.1).bind_eq fun _ _ hab => mapM_eq hab fun _ _ h => h.2

end

end Balancer
