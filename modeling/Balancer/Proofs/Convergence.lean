import Balancer.Proofs.Annotations
import Balancer.Proofs.Converge.Retagging

/-!
# Convergence

`convergeService_converges` : when a reconcile of a Service succeeds, behind any gate and from any well-formed
resources, the cloud has what the Service asks for:

* `LbConverged` : one load balancer of the name of the Service, as it is planned;
* `ListenersConverged` : one listener for each port number of the Service, and no other one;
* `GroupConverged` : a target group for each backend; `GroupsConverged` : and no other one
  that the Service selects.
-/

namespace Balancer

set_option autoImplicit false

namespace Converge

open Cluster Routing Resources

/-! ## What a Service asks for -/

/-- The load balancer of a Service is the only one of its name and as it is planned. Of tags that are not
desired it has those that are reserved and that it had before. -/
structure LbConverged (i : Inputs) (service : Value) (d : Deployment) (s u : Resources) : Prop where
  planned : (buildLb i service d.settings).Yields s d.plan.config s
  named : ∃ ns name, names service = .ok (ns, name) ∧ i.identity.nameLb ns name = .ok d.plan.name
  there : u.loadBalancers.get? (.text d.arn) = some d.lb
  name : Fields.get d.lb "LoadBalancerName" = .text d.plan.name
  only : ∀ k fs, u.loadBalancers.get? k = some fs →
    Fields.get fs "LoadBalancerName" = .text d.plan.name → k = .text d.arn
  scheme : Fields.get d.lb "Scheme" = .text d.plan.scheme
  ipAddressType : Fields.get d.lb "IpAddressType" = .text d.plan.ipAddressType
  subnets : ∃ attached, attachedSubnets (.object d.lb) = .ok attached ∧
    ∀ v, v ∈ attached ↔ ∃ n ∈ d.plan.subnets, n ≠ "" ∧ v = .text n
  tags : ∃ old, TagsBefore d.plan s old ∧ Retagged old (u.tagsOf (.text d.arn)) d.plan.tags.entries
  attributes : ∀ name value, d.settings.loadBalancer.attributes.get? name = some value →
    (u.lbAttributesOf (.text d.arn)).get? (.text name) = some (.text value)

/-- The listener of a spec is there, with its protocol and, as they are compared, the actions
that are built for it. -/
def ListenerConverged (d : Deployment) (spec : ListenerSpec) (u : Resources) : Prop :=
  ∃ actions arn l current desired, buildActions d.settings spec.backend d.groups = .ok actions ∧
    u.listeners.get? (.text arn) = some l ∧ On d.arn (portKey spec) l ∧
    (Fields.get l "Protocol").Agrees spec.protocol ∧
    normalize (Fields.get l "DefaultActions") = .ok current ∧
    normalize (.list (actions.map .object)) = .ok desired ∧ sameActions current desired = true

/-- The load balancer has one listener for each port number of the Service, and no other one. -/
structure ListenersConverged (service : Value) (d : Deployment) (u : Resources) : Prop where
  asked : listenerSpecs service d.settings = .ok d.specs
  ports : (d.specs.map (·.port)).Nodup ∧
    ∀ numbers, portNumbers service = .ok numbers → ∀ n, n ∈ d.specs.map (·.port) ↔ n ∈ numbers
  each : ∀ spec ∈ d.specs, ListenerConverged d spec u
  only : ∀ k l, u.listeners.get? k = some l → Fields.get l "LoadBalancerArn" = .text d.arn →
    ∃ spec ∈ d.specs, On d.arn (portKey spec) l
  single : ∀ k k' l l' p, u.listeners.get? k = some l → u.listeners.get? k' = some l' → On d.arn p l →
    On d.arn p l' → k = k'

/-- A described target group has a setting of a health check. -/
def HasSetting (tg : Fields) (f : String × Value) : Prop :=
  if f.1 = "Matcher" then
    ∀ code, f.2.item "HttpCode" = .ok code →
      ∃ current, (do (← part (.object tg) "Matcher").get "HttpCode") = .ok current ∧ current.Agrees code
  else (Fields.get tg f.1).Agrees f.2

/-- The target group of a backend is the only one of its name and as it is planned, and listeners of the
backend forward to it. -/
def GroupConverged (i : Inputs) (service : Value) (d : Deployment) (b : Backend) (u : Resources) : Prop :=
  ∃ key plan arn tg ts wanted, b.key = .ok key ∧ planGroup i service d.settings b = .ok plan ∧
    resolveTargets i.store service b d.settings.targetGroup.targetType = .ok ts ∧
    targetKeys (ts.map Target.toValue) = .ok wanted ∧
    d.groups.byBackend.get? key = some ⟨.text arn, d.settings.targetGroup.targetType, ts⟩ ∧
    u.targetGroups.get? (.text arn) = some tg ∧ Fields.get tg "TargetGroupName" = .text plan.name ∧
    (∀ k, GroupNamed plan.name k u → k = .text arn) ∧ (∀ f ∈ plan.check, HasSetting tg f) ∧
    Settled (u.tagsOf (.text arn)) plan.tags.entries ∧
    (∀ name value, d.settings.targetGroup.attributes.get? name = some value →
      (u.tgAttributesOf (.text arn)).get? (.text name) = some (.text value)) ∧
    TargetsMet (u.targetsOf (.text arn)) wanted

/-- Every backend has its target group, and every target group that the Service selects
is that of a backend. -/
structure GroupsConverged (i : Inputs) (service : Value) (d : Deployment) (u : Resources) : Prop where
  each : ∀ spec ∈ d.specs, Actions.isUsed spec.backend.port = false →
    GroupConverged i service d spec.backend u
  only : ∀ ns name selector k tg, names service = .ok (ns, name) →
    i.identity.selector ns name = .ok selector →
    u.targetGroups.get? k = some tg → hasTags selector.entries (u.tagsOf k) = true →
    ∃ spec ∈ d.specs, Actions.isUsed spec.backend.port = false ∧
      ∃ n, groupName i service d.settings spec.backend = .ok n ∧ GroupNamed n k u

/-- Everything of a Service is as the Service asks for. -/
structure Converged (i : Inputs) (service : Value) (d : Deployment) (s u : Resources) : Prop where
  settings : settingsOf i service = .ok d.settings
  wellFormed : u.WellFormed
  lb : LbConverged i service d s u
  listeners : ListenersConverged service d u
  groups : GroupsConverged i service d u

section

variable {i : Inputs} {service : Value} {settings : ServiceSettings} {d : Deployment}
  {b : Backend} {g : TargetGroup} {tg check : Fields} {p : LbPlan} {arn : String} {fs : Fields}
  {groups : TargetGroups} {s u : Resources}

theorem ipAddressType_of_settings (h : settingsOf i service = .ok settings) :
    settings.loadBalancer.ipAddressType ∈ ["ipv4", "dualstack"] := by
  obtain ⟨key, -, h⟩ := bind_eq_ok_iff.1 h
  obtain ⟨obj, -, h⟩ := bind_eq_ok_iff.1 h
  obtain ⟨annotations, -, h⟩ := bind_eq_ok_iff.1 h
  exact ServiceSettings.ipAddressType_of_parse h

theorem settingDiffers_of_differs {f : String × Value}
    (h : differs (.object tg) check = .ok false) (hf : f ∈ check) :
    settingDiffers (.object tg) f.1 f.2 = .ok false := by
  induction check with
  | nil => cases hf
  | cons e check ih =>
    unfold differs at h
    obtain ⟨b, hb, h⟩ := bind_eq_ok_iff.1 h
    cases b with
    | true => cases h
    | false =>
      rcases List.mem_cons.1 hf with rfl | hf
      · exact hb
      · exact ih h hf

theorem hasSetting_of_healthMet (hc : IsCheck check) (h : HealthMet tg check) :
    ∀ f ∈ check, HasSetting tg f := by
  intro f hf
  unfold HasSetting
  rcases h with h | h
  · have hsetting := settingDiffers_of_differs h hf
    unfold settingDiffers at hsetting
    split at hsetting
    · rename_i hm
      rw [if_pos hm]
      intro code hcode
      obtain ⟨matcher, hmatcher, hsetting⟩ := bind_eq_ok_iff.1 hsetting
      obtain ⟨current, hcurrent, hsetting⟩ := bind_eq_ok_iff.1 hsetting
      rw [hcode] at hsetting
      refine ⟨current, bind_eq_ok_iff.2 ⟨matcher, hmatcher, hcurrent⟩, .inr ?_⟩
      simpa [bind, Except.bind, pure, Except.pure] using hsetting
    · rename_i hm
      rw [if_neg hm]
      right
      simpa [bind, Except.bind, pure, Except.pure] using hsetting
  · have hwritten := h f hf
    split
    · rename_i hm
      intro code hcode
      obtain ⟨code', hmatcher⟩ := hc.matcher f hf hm
      refine ⟨code, ?_, .inl rfl⟩
      rw [hm, hmatcher] at hwritten
      have hget : Fields.get tg "Matcher" = .object [("HttpCode", code')] := by rw [Fields.get, hwritten]; rfl
      rw [hmatcher] at hcode
      cases hcode
      have hpart : part (.object tg) "Matcher" = .ok (.object [("HttpCode", code')]) := by
        simp [part, hget, Value.orElse, Value.holds, bind, Except.bind, pure, Except.pure]
      exact bind_eq_ok_iff.2 ⟨_, hpart, rfl⟩
    · left
      rw [Fields.get, hwritten]
      rfl

theorem lbConverged {old : Labels} (h : LbMet i service d.settings d.plan d.arn d.lb u) (hu : u.WellFormed)
    (htext : TextSubnets u) (hset : settingsOf i service = .ok d.settings)
    (hground : s.subnets = u.subnets ∧ s.subnetTags = u.subnetTags) (hold : TagsBefore d.plan s old)
    (htags : Retagged old (u.tagsOf (.text d.arn)) d.plan.tags.entries) : LbConverged i service d s u := by
  obtain ⟨ns, name, tags, p, hn, hname, -, -, -, hip, hconfig, -⟩ := exists_plan htext h.planned.yields
  obtain rfl := LbPlan.eq_of_config hconfig
  have hne : d.plan.ipAddressType ≠ "" := by
    have hmem := ipAddressType_of_settings hset
    rw [← hip] at hmem
    intro hempty
    rw [hempty] at hmem
    simp at hmem
  have hready := h.ready
  exact {
    planned := ((surveys_buildLb i service d.settings).ends h.planned.yields hground.1 hground.2).2.yields
    named := ⟨ns, name, hn, hname⟩
    there := hready.there
    name := hready.name
    only := fun k fs hk hname => hu.lbName hk hready.there hname hready.name
    scheme := hready.scheme
    ipAddressType := (ipType_of_reshaped hready.shape).resolve_left hne
    subnets := subnets_of_reshaped hready.shape
    tags := ⟨old, hold, htags⟩
    attributes := fun name value => get?_of_meets h.attributes }

theorem listenersConverged (hu : u.WellFormed) (hasks : Asks service d.settings d.groups d.specs d.actions)
    (h : ListenersMet d.arn d.specs d.actions u) (hactions : TextActions d.settings)
    (harns : TextArns d.groups) :
    ListenersConverged service d u where
  asked := hasks.1
  ports := ⟨listenerSpecs_distinct hasks.1, fun numbers hn n => mem_ports_listenerSpecs hasks.1 hn⟩
  each := by
    intro spec hspec
    obtain ⟨actions, hmem, hbuild⟩ := hasks.exists_built hspec
    obtain ⟨ns, hns⟩ := hasks.normal _ hmem
    obtain ⟨arn, l, current, hl, hon, hprotocol, hcurrent, hsame⟩ :=
      (h.met _ hmem).agrees hns (hasks.sameActions_self hactions harns hmem hns)
    exact ⟨actions, arn, l, current, ns, hbuild, hl, hon, hprotocol, hcurrent, hns, hsame⟩
  only := by
    intro k l hl hlb
    by_contra hno
    exact h.only k l ⟨hl, hlb, fun spec hspec hon => hno ⟨spec, hspec, hon⟩⟩
  single k k' l l' p hk hk' hon hon' := hon.arn_unique hu hk hk' hon'

theorem groupConverged {key : BackendKey} (hu : u.WellFormed) (hkey : b.key = .ok key)
    (hg : d.groups.byBackend.get? key = some g) (h : BackendReady i service d.settings b g u) :
    GroupConverged i service d b u := by
  obtain ⟨plan, arn, ts, wanted, hplan, hts, hw, rfl, hready⟩ := h
  obtain ⟨tg, hk, hname, hmet⟩ := hready.there
  refine ⟨key, plan, arn, tg, ts, wanted, hkey, hplan, hts, hw, hg, hk, hname, ?_,
    hasSetting_of_healthMet (isCheck_of_planGroup hplan) hmet, hready.furnished.tags,
    fun name value => get?_of_meets hready.furnished.attributes, hready.furnished.targets⟩
  rintro k ⟨tg', hk', hname'⟩
  exact hu.tgName hk' hk hname' hname

theorem groupsConverged (hu : u.WellFormed) (hd : DistinctBackends i service d.settings)
    (hspecs : listenerSpecs service d.settings = .ok d.specs)
    (h : GroupsReady i service d.settings d.groups u) (hclean : NothingLeft d.groups u) :
    GroupsConverged i service d u := by
  obtain ⟨ns, name, specs, selector, hn, hspecs', hready, hsel, hgroups⟩ := h
  rw [hspecs] at hspecs'
  cases hspecs'
  constructor
  · intro spec hspec hused
    obtain ⟨key, g, hkey, hg, hb⟩ := hready.ready (hd _ hspecs) (fun _ hc => nomatch hc) spec.backend
      (List.mem_map_of_mem hspec) hused
    exact groupConverged hu hkey hg hb
  · intro ns' name' selector' k tg hn' hsel' hk htags
    rw [hn] at hn'
    cases hn'
    rw [hsel] at hsel'
    cases hsel'
    obtain ⟨wanted, inUse, hwanted, ha, hnil⟩ := hclean
    rw [hgroups] at hwanted
    cases hwanted
    obtain ⟨arn, rfl, -⟩ := hu.tgOwn hk
    have howned := hu.mem_owned hk htags
    have hin : inUse.contains (.text arn) = true := by
      have hno := List.filter_eq_nil_iff.1 hnil (.text arn) howned
      simpa using hno
    obtain ⟨k, hkin, hkk⟩ := List.contains_iff_exists_mem_beq.1 hin
    obtain ⟨g, hg, hkey⟩ := mem_of_mapM ha k hkin
    obtain ⟨key, hg⟩ := Table.mem_values_iff.1 hg
    obtain ⟨b, hb, hused, plan, arn', ts, wanted, hplan, -, -, rfl, hgroup⟩ :=
      (hready.origin hg).resolve_left fun h => nomatch h
    cases hkey
    cases Key.eq_text_of_beq hkk
    obtain ⟨spec, hspec, rfl⟩ := List.mem_map.1 hb
    exact ⟨spec, hspec, hused, plan.name, (planGroup_eq_ok hplan).1, hgroup.named⟩

/-! ## A reconcile that succeeds -/

/-- When a reconcile of a Service succeeds, everything of the Service is as the Service asks for. -/
theorem convergeService_converges {σ : Type} (gate : Gate σ) {c c' : σ} {m m' : Memory} {lb : LoadBalancer}
    (hs : m.resources.WellFormed) (htext : TextSubnets m.resources) (hd : DistinctNames i service)
    (hactions : ∀ settings, settingsOf i service = .ok settings → TextActions settings)
    (h : (convergeService i service).run (Memory.cloud gate) (c, m) = (.ok lb, (c', m'))) :
    ∃ d : Deployment, Converged i service d m.resources m'.resources ∧ lb = d.result := by
  obtain ⟨rs, -, hends⟩ := (strict_convergeService i service).ends_run gate h
  obtain ⟨d, old, hmet, hu, hlb, hold, htags⟩ := yields_convergeService hs htext hd hends.yields
  obtain ⟨hsubnets, hsubnetTags⟩ := Program.always_ground _ _ _ hends.yields.visits
  have htext' : TextSubnets m'.resources := fun v hv => htext v (hsubnets ▸ hv)
  refine ⟨d, ⟨hmet.settings, hu, ?_, ?_, ?_⟩, hlb⟩
  · exact lbConverged hmet.lb hu htext' hmet.settings ⟨hsubnets.symm, hsubnetTags.symm⟩ hold htags
  · exact listenersConverged hu hmet.asks hmet.listeners (hactions _ hmet.settings)
      (textArns_of_ready hmet.groups)
  · exact groupsConverged hu (hd _ hmet.settings) hmet.asks.1 hmet.groups hmet.clean

theorem sample_converges : ∃ lb m, ∃ d : Deployment,
    (convergeService sampleInputs sampleService).run (Memory.cloud Gate.free)
      ((), ⟨{}, []⟩) = (.ok lb, ((), m)) ∧
      Converged sampleInputs sampleService d {} m.resources ∧ lb = d.result := by
  obtain ⟨lb, m, h⟩ := sample_succeeds
  obtain ⟨d, hd⟩ := convergeService_converges Gate.free wellFormed_empty
    (fun _ hv => (List.not_mem_nil hv).elim) sample_distinctNames
    sample_textActions h
  exact ⟨lb, m, d, h, hd⟩

end

end Converge

end Balancer
