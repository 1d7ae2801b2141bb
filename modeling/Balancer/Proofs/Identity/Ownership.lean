import Balancer.Converge.TargetGroup
import Balancer.Proofs.Routing

/-!
# Who owns a target group

The target groups of a Service are told from those of others by three tags (`Identity.ownership`). The tags of
the annotations go over all others, these three included.

* `matches_ownership_iff` : what a selection asks of tags;
* `service_of_backend` : the backend of a Service that is no action has the name of the Service, so the tags
  of a backend agree with those of its Service;
* `matches_targetGroupTags_iff` : whose target group it is, from the tags of the annotations;
* `owned_alone_iff` : it belongs to its Service and to no other just if the annotations
  leave the three tags alone.
-/

namespace Balancer

set_option autoImplicit false

/-! ## The three tags -/

namespace Identity

variable {cluster ns name : String} {tags : Table String Value}

theorem clusterKey_ne {k : String} (h : k.toList.take 22 ≠ "kubernetes.io/cluster/".toList) :
    clusterKey cluster ≠ k := by
  rintro rfl
  apply h
  unfold clusterKey
  rw [String.toList_append]
  exact List.take_left' rfl

@[simp] theorem clusterKey_ne_namespaceKey : clusterKey cluster ≠ namespaceKey := clusterKey_ne (by decide)

@[simp] theorem clusterKey_ne_serviceNameKey : clusterKey cluster ≠ serviceNameKey :=
  clusterKey_ne (by decide)

@[simp] theorem clusterKey_ne_servicePortKey : clusterKey cluster ≠ servicePortKey :=
  clusterKey_ne (by decide)

@[simp] theorem clusterKey_ne_resourceKey : clusterKey cluster ≠ resourceKey := clusterKey_ne (by decide)

@[simp] theorem clusterKey_ne_clusterNameKey : clusterKey cluster ≠ clusterNameKey :=
  clusterKey_ne (by decide)

@[simp] theorem clusterKey_ne_stackKey : clusterKey cluster ≠ stackKey := clusterKey_ne (by decide)

theorem get?_ownership_iff {k : String} {v : Value} :
    (ownership cluster (.text ns) (.text name)).get? k = some v ↔
      k = clusterKey cluster ∧ v = .text "owned" ∨ k = namespaceKey ∧ v = .text ns ∨
        k = serviceNameKey ∧ v = .text name := by
  have hkeys : namespaceKey ≠ serviceNameKey := by decide
  unfold ownership
  rw [Table.get?_ofList]
  simp only [List.reverse_cons, List.reverse_nil, List.nil_append, List.cons_append,
    Entries.find?, beq_iff_eq]
  by_cases hname : serviceNameKey = k
  · subst hname
    simp [hkeys.symm, clusterKey_ne_serviceNameKey.symm, eq_comm]
  · by_cases hns : namespaceKey = k
    · subst hns
      simp [hkeys, clusterKey_ne_namespaceKey.symm, eq_comm]
    · simp [hname, hns, Ne.symm hname, Ne.symm hns, eq_comm]

theorem matches_ownership_iff :
    Matches (ownership cluster (.text ns) (.text name)) tags ↔
      tags.get? (clusterKey cluster) = some (.text "owned") ∧ tags.get? namespaceKey = some (.text ns) ∧
        tags.get? serviceNameKey = some (.text name) := by
  constructor
  · intro h
    exact ⟨h _ _ (get?_ownership_iff.2 (.inl ⟨rfl, rfl⟩)),
      h _ _ (get?_ownership_iff.2 (.inr (.inl ⟨rfl, rfl⟩))),
      h _ _ (get?_ownership_iff.2 (.inr (.inr ⟨rfl, rfl⟩)))⟩
  · rintro ⟨hcluster, hns, hname⟩ k v hk
    rcases get?_ownership_iff.1 hk with ⟨rfl, rfl⟩ | ⟨rfl, rfl⟩ | ⟨rfl, rfl⟩
    · exact hcluster
    · exact hns
    · exact hname

/-- The tags of a Service hold its selection, whatever the usual tags are. -/
theorem matches_serviceTags (usual : Table String Value) :
    Matches (ownership cluster (.text ns) (.text name))
      (serviceTags usual cluster (.text ns) (.text name)) := by
  intro k v hk
  have hother : clusterNameKey ≠ k ∧ stackKey ≠ k := by
    rcases get?_ownership_iff.1 hk with ⟨rfl, -⟩ | ⟨rfl, -⟩ | ⟨rfl, -⟩
    · exact ⟨clusterKey_ne_clusterNameKey.symm, clusterKey_ne_stackKey.symm⟩
    · exact ⟨by decide, by decide⟩
    · exact ⟨by decide, by decide⟩
  unfold serviceTags
  rw [Table.get?_insert, Table.get?_insert, Table.get?_update, hk]
  simp [hother]

/-- The tags of a backend agree with the selection of the Service that it is named after. -/
theorem matches_backendTags (port : Value) (h : Matches (ownership cluster (.text ns) (.text name)) tags) :
    Matches (ownership cluster (.text ns) (.text name))
      (tags.update (backendTags (.text ns) (.text name) port)) := by
  intro k v hk
  have htags := h k v hk
  rw [Table.get?_update, htags, backendTags, Table.get?_ofList]
  simp only [List.reverse_cons, List.reverse_nil, List.nil_append, List.cons_append,
    Entries.find?, beq_iff_eq]
  rcases get?_ownership_iff.1 hk with ⟨rfl, rfl⟩ | ⟨rfl, rfl⟩ | ⟨rfl, rfl⟩
  · simp [clusterKey_ne_resourceKey.symm, clusterKey_ne_servicePortKey.symm,
      clusterKey_ne_serviceNameKey.symm]
  · rfl
  · rfl

end Identity

/-! ## The target groups of a Service -/

namespace Routing

variable {service ns name : Value} {settings : ServiceSettings} {specs : List ListenerSpec}
  {spec : ListenerSpec}

/-- A backend that is no action has the name of its Service. -/
theorem service_of_backend (hspecs : listenerSpecs service settings = .ok specs) (hspec : spec ∈ specs)
    (hused : Actions.isUsed spec.backend.port = false) :
    Cluster.metaField service "name" = .ok spec.backend.service :=
  ((backend_of_listenerSpecs hspecs hspec).2 hused).1

end Routing

namespace Converge

open Cluster Identity Routing

variable {i : Inputs} {cluster ns name : String} {service : Value} {settings : ServiceSettings} {b : Backend}
  {tags : Table String Value} {specs : List ListenerSpec} {spec : ListenerSpec}

/-- The tags of annotations leave the three tags of an owner alone, or repeat them. -/
structure LeavesOwner (annotated : Table String String) (cluster ns name : String) : Prop where
  ofCluster : (annotated.get? (clusterKey cluster)).getD "owned" = "owned"
  ofNamespace : (annotated.get? namespaceKey).getD ns = ns
  ofName : (annotated.get? serviceNameKey).getD name = name

/-- Tags hold the selection of one Service and of no other. -/
def OwnedAlone (i : Inputs) (ns name : String) (tags : Table String Value) : Prop :=
  ∀ ns' name' selection, i.identity.selector (.text ns') (.text name') = .ok selection →
    (Matches selection tags ↔ (ns', name') = (ns, name))

theorem targetGroupTags_text (hcluster : i.identity.clusterName = .text cluster) (ns name : Value)
    (settings : ServiceSettings) (b : Backend) :
    targetGroupTags i ns name settings b = .ok
      (((serviceTags i.identity.tags cluster ns name).update (backendTags ns b.service b.port)).update
        (settings.tags.map .text)) := by
  unfold targetGroupTags tagGroup
  rw [hcluster]
  rfl

theorem selector_text (hcluster : i.identity.clusterName = .text cluster) (ns name : Value) :
    i.identity.selector ns name = .ok (ownership cluster ns name) := by
  unfold selector
  rw [hcluster]
  rfl

/-- A target group belongs to the Service that the annotations name, if they say
nothing else of the cluster. -/
theorem matches_targetGroupTags_iff (hcluster : i.identity.clusterName = .text cluster)
    (hb : b.service = .text name) (ht : targetGroupTags i (.text ns) (.text name) settings b = .ok tags)
    (ns' name' : String) :
    Matches (ownership cluster (.text ns') (.text name')) tags ↔
      (settings.tags.get? (clusterKey cluster)).getD "owned" = "owned" ∧
        (settings.tags.get? namespaceKey).getD ns = ns' ∧
        (settings.tags.get? serviceNameKey).getD name = name' := by
  rw [targetGroupTags_text hcluster, hb] at ht
  cases ht
  have hown : Matches (ownership cluster (.text ns) (.text name))
      ((serviceTags i.identity.tags cluster (.text ns) (.text name)).update
        (backendTags (.text ns) (.text name) b.port)) :=
    matches_backendTags b.port (matches_serviceTags i.identity.tags)
  have hget : ∀ k v, (ownership cluster (.text ns) (.text name)).get? k = some (.text v) → ∀ v',
      (((serviceTags i.identity.tags cluster (.text ns) (.text name)).update
        (backendTags (.text ns) (.text name) b.port)).update
        (settings.tags.map .text)).get? k = some (.text v') ↔ (settings.tags.get? k).getD v = v' := by
    intro k v hk v'
    rw [Table.get?_update, hown k _ hk, Table.get?_map]
    cases settings.tags.get? k <;> simp
  rw [matches_ownership_iff, hget _ _ (get?_ownership_iff.2 (.inl ⟨rfl, rfl⟩)),
    hget _ _ (get?_ownership_iff.2 (.inr (.inl ⟨rfl, rfl⟩))),
    hget _ _ (get?_ownership_iff.2 (.inr (.inr ⟨rfl, rfl⟩)))]

theorem service_of_names (hnames : names service = .ok (.text ns, .text name))
    (hspecs : listenerSpecs service settings = .ok specs) (hspec : spec ∈ specs)
    (hused : Actions.isUsed spec.backend.port = false) : spec.backend.service = .text name := by
  obtain ⟨ns', -, hname⟩ := bind_eq_ok_iff.1 hnames
  obtain ⟨name', hname, heq⟩ := bind_eq_ok_iff.1 hname
  cases heq
  exact Except.ok.inj ((service_of_backend hspecs hspec hused).symm.trans hname)

/-- The target group of a backend belongs to its Service and to no other, whatever the usual tags are, just if
the tags of the annotations leave its owner alone. -/
theorem owned_alone_iff (hcluster : i.identity.clusterName = .text cluster)
    (hnames : names service = .ok (.text ns, .text name))
    (hspecs : listenerSpecs service settings = .ok specs) (hspec : spec ∈ specs)
    (hused : Actions.isUsed spec.backend.port = false) :
    ∃ tags, targetGroupTags i (.text ns) (.text name) settings spec.backend = .ok tags ∧
      (OwnedAlone i ns name tags ↔ LeavesOwner settings.tags cluster ns name) := by
  have hb := service_of_names hnames hspecs hspec hused
  obtain ⟨tags, ht⟩ : ∃ tags, targetGroupTags i (.text ns) (.text name) settings spec.backend = .ok tags :=
    ⟨_, targetGroupTags_text hcluster _ _ settings spec.backend⟩
  have hmatches := matches_targetGroupTags_iff hcluster hb ht
  refine ⟨tags, ht, fun hown => ?_, fun hleaves ns' name' selection hselection => ?_⟩
  · obtain ⟨hc, hns, hname⟩ := (hmatches ns name).1 ((hown ns name _ (selector_text hcluster _ _)).2 rfl)
    exact ⟨hc, hns, hname⟩
  · rw [selector_text hcluster] at hselection
    cases hselection
    rw [hmatches, hleaves.ofNamespace, hleaves.ofName, Prod.mk.injEq, @eq_comm _ ns, @eq_comm _ name]
    exact and_iff_right hleaves.ofCluster

/-- A Service with one port. -/
def webService (annotations : Fields) : Value :=
  .object [("metadata", .object [("namespace", .text "default"), ("name", .text "web"),
    ("annotations", .object annotations)]),
    ("spec", .object [("ports", .list [.object [("port", .int 80)]])])]

def mainConfig : Config := { clusterName := .text "main", vpcId := .text "vpc-1", nameStem := .text "nlb" }

/-- The cluster `main` with some usual tags. -/
def mainInputs (usual : Table String Value) : Inputs where
  config := mainConfig
  identity := ⟨.text "nlb", .text "main", usual⟩
  store := {}

/-- Usual tags that name another namespace do not give a target group away. -/
theorem usual_tags_owned_alone : ∃ tags,
    targetGroupTags (mainInputs (.ofList [(namespaceKey, .text "other")])) (.text "default") (.text "web") {}
      ⟨.text "web", .text "80", .text "TCP"⟩ = .ok tags ∧
    OwnedAlone (mainInputs (.ofList [(namespaceKey, .text "other")])) "default" "web" tags := by
  have hcluster : (mainInputs (.ofList [(namespaceKey, .text "other")])).identity.clusterName =
      .text "main" := rfl
  have hnames : names (webService []) = .ok (.text "default", .text "web") := rfl
  have hspecs : listenerSpecs (webService []) {} =
      .ok [⟨80, .text "TCP", ⟨.text "web", .text "80", .text "TCP"⟩⟩] := rfl
  obtain ⟨tags, htags, hiff⟩ := owned_alone_iff hcluster hnames hspecs List.mem_cons_self (by decide)
  exact ⟨tags, htags, hiff.2 ⟨rfl, rfl, rfl⟩⟩

set_option maxRecDepth 10000 in
theorem parse_givingTags :
    ServiceSettings.parse mainConfig
      (.object [("nlb.service.kubernetes.io/tags", .text "kubernetes.io/namespace=other")]) =
      .ok { tags := .ofList [(namespaceKey, "other")] } := by
  rfl

/-- The annotation `tags: kubernetes.io/namespace=other` gives the target group of
`default/web` to `other/web`. -/
theorem annotated_given_away :
    ¬ ∀ (given : Config) (i : Inputs) (service annotated : Value) (ns name : String)
      (settings : ServiceSettings) (specs : List ListenerSpec) (spec : ListenerSpec)
      (tags : Table String Value),
      given.validate = .ok i.config → Identity.ofConfig i.config = .ok i.identity →
      annotations service = .ok annotated →
      ServiceSettings.parse i.config annotated = .ok settings → names service = .ok (.text ns, .text name) →
      listenerSpecs service settings = .ok specs → spec ∈ specs → Actions.isUsed spec.backend.port = false →
      targetGroupTags i (.text ns) (.text name) settings spec.backend = .ok tags →
      OwnedAlone i ns name tags := by
  intro hall
  have hspecs : listenerSpecs
      (webService [("nlb.service.kubernetes.io/tags", .text "kubernetes.io/namespace=other")])
      { tags := .ofList [(namespaceKey, "other")] } =
        .ok [⟨80, .text "TCP", ⟨.text "web", .text "80", .text "TCP"⟩⟩] := rfl
  have hcluster : (mainInputs ∅).identity.clusterName = .text "main" := rfl
  have htags := targetGroupTags_text hcluster (.text "default") (.text "web")
    { tags := .ofList [(namespaceKey, "other")] }
    ⟨.text "web", .text "80", .text "TCP"⟩
  have hown := hall mainConfig (mainInputs ∅) _ _ "default" "web" _ _ _ _ rfl rfl rfl
    parse_givingTags rfl hspecs
    List.mem_cons_self (by decide) htags
  have hmatches := (hown "default" "web" _ (selector_text hcluster _ _)).2 rfl
  obtain ⟨-, hns, -⟩ := (matches_targetGroupTags_iff hcluster rfl htags "default" "web").1 hmatches
  exact absurd hns (by decide)

end Converge

end Balancer
