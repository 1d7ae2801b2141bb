import Balancer.Annotations.Service
import Balancer.Proofs.Checked
import Balancer.Proofs.Value

/-!
# What annotations ask for

* `raw_object` : an annotation is a field; `texts_of_raw` : of annotations that are texts, texts are read;
* `mem_of_choice?` : an annotation chooses one of the words that it may choose of;
* `Reads` : where each of the settings comes from (`reads_of_parse`);
* `ipAddressType_of_parse` : a load balancer always has an IP address type to be of;
* `tags_of_parse` : the tags of the settings are those of the annotation;
* `Definite` : what is compared of the settings equals itself; so it does where the annotations are
  texts (`definite_of_parse`).
-/

namespace Balancer

set_option autoImplicit false

/-- A text, or a usual one in place of nothing. -/
theorem Value.exists_text_of_orElse {v : Value} (usual : String) (h : v = .null ∨ ∃ s, v = .text s) :
    ∃ s, v.orElse (.text usual) = .text s ∧ (usual ≠ "" → s ≠ "") := by
  rcases h with rfl | ⟨s, rfl⟩
  · exact ⟨usual, rfl, id⟩
  · by_cases hs : s = ""
    · exact ⟨usual, if_neg (by simp [Value.holds, hs]), id⟩
    · exact ⟨s, if_pos (by simp [Value.holds, hs]), fun _ => hs⟩

namespace Annotations

theorem raw_object (domain name : String) (fs : Fields) :
    raw domain name (.object fs) = .ok (Fields.get fs (key domain name)) := by
  cases fs with
  | nil => rfl
  | cons f fs => exact Value.get_object _ _

/-- What is read of annotations that are texts is a text, or null. -/
theorem texts_of_raw {fs : Fields} (h : ∀ f ∈ fs, ∃ s, f.2 = .text s) {domain name : String} {v : Value}
    (hv : raw domain name (.object fs) = .ok v) : v = .null ∨ ∃ s, v = .text s := by
  rw [raw_object] at hv
  cases hv
  unfold Fields.get
  cases hf : Entries.find? (key domain name) fs with
  | none => exact .inl rfl
  | some w =>
    obtain ⟨k, -, hmem⟩ := Entries.mem_of_find? hf
    exact .inr (h _ hmem)

end Annotations

namespace ServiceSettings

theorem mem_of_choice? {name word : String} {value : Value} {allowed : List String}
    (h : choice? name value allowed = .ok (some word)) : word ∈ allowed := by
  unfold choice? at h
  split at h
  · cases h
  · split at h
    · rename_i hs
      cases h
      exact hs
    · cases h
  · cases h

theorem getD_mem_of_choice? {name usual : String} {word? : Option String} {value : Value}
    {allowed : List String} (h : choice? name value allowed = .ok word?) (husual : usual ∈ allowed) :
    word?.getD usual ∈ allowed := by
  cases word? with
  | none => exact husual
  | some word => exact mem_of_choice? h

theorem exists_text_of_choice? {name : String} {word? : Option String} {value usual : Value}
    {allowed : List String} (h : choice? name value allowed = .ok word?)
    (husual : ∃ w ∈ allowed, usual = .text w) :
    ∃ w ∈ allowed, (word?.map .text).getD usual = .text w := by
  cases word? with
  | none => exact husual
  | some word => exact ⟨word, mem_of_choice? h, rfl⟩

/-- What annotations ask for, each setting from its annotation. -/
structure Reads (c : Config) (annotations : Value) (settings : ServiceSettings) : Prop where
  scheme : ∃ v word?, Annotations.raw c.domain.shown "scheme" annotations = .ok v ∧
    choice? "scheme" v [internalScheme, internetFacingScheme] = .ok word? ∧
    settings.loadBalancer.scheme = word?.getD internalScheme
  ipAddressType : ∃ v word?, Annotations.raw c.domain.shown "ip-address-type" annotations = .ok v ∧
    choice? "ip-address-type" v ["ipv4", "dualstack"] = .ok word? ∧
    settings.loadBalancer.ipAddressType = word?.getD "ipv4"
  subnets : Annotations.slice c.domain.shown "subnets" annotations = .ok settings.loadBalancer.subnets
  lbAttributes : Annotations.pairs c.domain.shown "load-balancer-attributes" annotations =
    .ok settings.loadBalancer.attributes
  targetType : ∃ v word?, Annotations.raw c.domain.shown "target-type" annotations = .ok v ∧
    choice? "target-type" (Config.currentTargetType v) Config.targetTypes = .ok word? ∧
    settings.targetGroup.targetType = (word?.map .text).getD c.targetType
  backendProtocol : ∃ v word?, Annotations.raw c.domain.shown "backend-protocol" annotations = .ok v ∧
    choice? "backend-protocol" v Config.backendProtocols = .ok word? ∧
    settings.targetGroup.backendProtocol = (word?.map .text).getD c.backendProtocol
  healthyThreshold : ∃ n?, Annotations.integer? c.domain.shown "healthy-threshold-count"
    annotations = .ok n? ∧
    settings.targetGroup.healthyThreshold = n?.getD 3
  unhealthyThreshold : ∃ n?, Annotations.integer? c.domain.shown "unhealthy-threshold-count"
    annotations = .ok n? ∧
    settings.targetGroup.unhealthyThreshold = n?.getD 3
  successCodes : ∃ v, Annotations.raw c.domain.shown "success-codes" annotations = .ok v ∧
    settings.targetGroup.successCodes = v.orElse (.text "200-399")
  tgAttributes : Annotations.pairs c.domain.shown "target-group-attributes" annotations =
    .ok settings.targetGroup.attributes
  interval : ∃ n?, Annotations.integer? c.domain.shown "healthcheck-interval-seconds" annotations = .ok n? ∧
    settings.healthCheck.interval = n?.getD 30
  protocol : ∃ v word?, Annotations.raw c.domain.shown "healthcheck-protocol" annotations = .ok v ∧
    choice? "healthcheck-protocol" v ["TCP", "HTTP", "HTTPS"] = .ok word? ∧
    settings.healthCheck.protocol = word?.getD "TCP"
  port : ∃ v, Annotations.raw c.domain.shown "healthcheck-port" annotations = .ok v ∧
    settings.healthCheck.port = v.orElse (.text "traffic-port")
  path : ∃ v, Annotations.raw c.domain.shown "healthcheck-path" annotations = .ok v ∧
    settings.healthCheck.path = v.orElse (.text "/")
  tags : Annotations.pairs c.domain.shown "tags" annotations = .ok settings.tags
  actions : ∃ fs, Annotations.group c.domain.shown "actions" annotations = .ok fs ∧
    Actions.parse fs = .ok settings.actions

section

variable {c : Config} {annotations : Value} {settings : ServiceSettings}

theorem reads_of_parse (h : parse c annotations = .ok settings) : Reads c annotations settings := by
  obtain ⟨_, hrawScheme, h⟩ := bind_eq_ok_iff.1 h
  obtain ⟨_, hscheme, h⟩ := bind_eq_ok_iff.1 h
  obtain ⟨_, hrawIpType, h⟩ := bind_eq_ok_iff.1 h
  obtain ⟨_, hipType, h⟩ := bind_eq_ok_iff.1 h
  obtain ⟨_, hsubnets, h⟩ := bind_eq_ok_iff.1 h
  obtain ⟨_, hlbAttributes, h⟩ := bind_eq_ok_iff.1 h
  obtain ⟨_, hrawType, h⟩ := bind_eq_ok_iff.1 h
  obtain ⟨_, hhealthy, h⟩ := bind_eq_ok_iff.1 h
  obtain ⟨_, hunhealthy, h⟩ := bind_eq_ok_iff.1 h
  obtain ⟨_, htype, h⟩ := bind_eq_ok_iff.1 h
  obtain ⟨_, hrawBackend, h⟩ := bind_eq_ok_iff.1 h
  obtain ⟨_, hbackend, h⟩ := bind_eq_ok_iff.1 h
  obtain ⟨_, hcodes, h⟩ := bind_eq_ok_iff.1 h
  obtain ⟨_, htgAttributes, h⟩ := bind_eq_ok_iff.1 h
  obtain ⟨_, hinterval, h⟩ := bind_eq_ok_iff.1 h
  obtain ⟨_, hrawProtocol, h⟩ := bind_eq_ok_iff.1 h
  obtain ⟨_, hprotocol, h⟩ := bind_eq_ok_iff.1 h
  obtain ⟨_, hport, h⟩ := bind_eq_ok_iff.1 h
  obtain ⟨_, hpath, h⟩ := bind_eq_ok_iff.1 h
  obtain ⟨_, htags, h⟩ := bind_eq_ok_iff.1 h
  obtain ⟨_, hgroup, h⟩ := bind_eq_ok_iff.1 h
  obtain ⟨_, hactions, h⟩ := bind_eq_ok_iff.1 h
  cases h
  exact {
    scheme := ⟨_, _, hrawScheme, hscheme, rfl⟩
    ipAddressType := ⟨_, _, hrawIpType, hipType, rfl⟩
    subnets := hsubnets
    lbAttributes := hlbAttributes
    targetType := ⟨_, _, hrawType, htype, rfl⟩
    backendProtocol := ⟨_, _, hrawBackend, hbackend, rfl⟩
    healthyThreshold := ⟨_, hhealthy, rfl⟩
    unhealthyThreshold := ⟨_, hunhealthy, rfl⟩
    successCodes := ⟨_, hcodes, rfl⟩
    tgAttributes := htgAttributes
    interval := ⟨_, hinterval, rfl⟩
    protocol := ⟨_, _, hrawProtocol, hprotocol, rfl⟩
    port := ⟨_, hport, rfl⟩
    path := ⟨_, hpath, rfl⟩
    tags := htags
    actions := ⟨_, hgroup, hactions⟩ }

theorem ipAddressType_of_parse (h : parse c annotations = .ok settings) :
    settings.loadBalancer.ipAddressType ∈ ["ipv4", "dualstack"] := by
  obtain ⟨v, word?, -, hword, heq⟩ := (reads_of_parse h).ipAddressType
  rw [heq]
  exact getD_mem_of_choice? hword (by simp)

/-- The tags are those of one annotation. -/
theorem tags_of_parse (h : parse c annotations = .ok settings) :
    Annotations.pairs c.domain.shown "tags" annotations = .ok settings.tags := (reads_of_parse h).tags

/-- What is compared of the settings equals itself, as texts do. -/
structure Definite (settings : ServiceSettings) : Prop where
  backendProtocol : settings.targetGroup.backendProtocol.same settings.targetGroup.backendProtocol = true
  successCodes : settings.targetGroup.successCodes.same settings.targetGroup.successCodes = true
  path : settings.healthCheck.path.same settings.healthCheck.path = true

theorem definite_of_parse (hprotocol : c.backendProtocol.same c.backendProtocol = true)
    (htexts : ∀ name v, Annotations.raw c.domain.shown name annotations = .ok v →
      v = .null ∨ ∃ s, v = .text s)
    (h : parse c annotations = .ok settings) : settings.Definite := by
  have horElse : ∀ name v s, Annotations.raw c.domain.shown name annotations = .ok v →
      (v.orElse (.text s)).same (v.orElse (.text s)) = true := by
    intro name v s hv
    obtain ⟨t, ht, -⟩ := Value.exists_text_of_orElse s (htexts name v hv)
    rw [ht]
    exact Value.same_self_text t
  have hreads := reads_of_parse h
  obtain ⟨_, word?, -, -, hbackend⟩ := hreads.backendProtocol
  obtain ⟨_, hcodes, hcodesEq⟩ := hreads.successCodes
  obtain ⟨_, hpath, hpathEq⟩ := hreads.path
  refine ⟨?_, ?_, ?_⟩
  · rw [hbackend]
    cases word? with
    | none => exact hprotocol
    | some word => exact Value.same_self_text word
  · rw [hcodesEq]
    exact horElse _ _ _ hcodes
  · rw [hpathEq]
    exact horElse _ _ _ hpath

end

end ServiceSettings

end Balancer
