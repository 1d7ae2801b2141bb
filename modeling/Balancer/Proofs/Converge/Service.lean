import Balancer.Converge.Service
import Balancer.Proofs.Converge.LoadBalancer
import Balancer.Proofs.Converge.ServiceListeners
import Balancer.Proofs.Converge.TargetGroups

/-!
# Converging a Service

* `Kept arn groups t u` : the load balancer and the target groups of a Service are the same; so they are
  while listeners are converged and left over target groups are deleted
  (`visits_convergeListeners_kept`, `visits_collect_kept`);
* `ServiceMet` : the load balancer, the target groups and the listeners of a Service are as they should be,
  and nothing is left over. `convergeService` brings that about (`yields_convergeService`), rests where it
  holds (`rests_convergeService`) and can be done again from any state that it visits
  (`resumes_convergeService`).
-/

namespace Balancer

set_option autoImplicit false

namespace Converge

open Cluster Routing Resources

/-! ## What later steps leave alone -/

/-- A load balancer, the subnets and some target groups are the same. -/
structure Kept (arn : String) (groups : TargetGroups) (t u : Resources) : Prop where
  subnets : u.subnets = t.subnets
  subnetTags : u.subnetTags = t.subnetTags
  lb : SameLb (.text arn) t u
  groups : ∀ k tt ts, (⟨.text k, tt, ts⟩ : TargetGroup) ∈ groups.byBackend.values → SameGroup (.text k) t u

section

variable {i : Inputs} {service live : Value} {settings : ServiceSettings} {groups : TargetGroups} {p : LbPlan}
  {arn : String} {fs wanted : Fields} {specs : List ListenerSpec}
  {actions : List (List Fields)} {inUse : List Key} {s t u : Resources}

theorem Kept.refl (arn : String) (groups : TargetGroups) (t : Resources) : Kept arn groups t t :=
  ⟨rfl, rfl, ⟨rfl, rfl, rfl⟩, fun _ _ _ _ => SameGroup.refl _ t⟩

theorem Kept.lbMet (h : Kept arn groups t u) (hmet : LbMet i service settings p arn fs t) :
    LbMet i service settings p arn fs u := hmet.congr h.subnets h.subnetTags h.lb

theorem Kept.groupsReady (h : Kept arn groups t u) (hready : GroupsReady i service settings groups t) :
    GroupsReady i service settings groups u := hready.congr h.groups

/-- Converging target groups leaves a load balancer alone. -/
theorem sameLb_convergeTargetGroups (hs : s.WellFormed) (hk : s.loadBalancers.get? (.text arn) = some fs)
    (hu : (convergeTargetGroups i service settings).Visits s u) : u.WellFormed ∧ SameLb (.text arn) s u := by
  obtain ⟨huwf, hsame⟩ := always_convergeTargetGroups hs u hu
  refine ⟨huwf, ?_, ?_, hsame.tags_eq huwf hk⟩
  · rw [hsame.loadBalancers]
  · rw [hsame.lbAttributes]

theorem visits_convergeListeners_kept (ht : t.WellFormed)
    (hu : (convergeListeners (.text arn) service settings groups).Visits t u) :
    u.WellFormed ∧ Kept arn groups t u := by
  obtain ⟨huwf, hon⟩ := always_convergeListeners ht u hu
  obtain ⟨n, ls, rfl⟩ := hon.same
  exact ⟨huwf, rfl, rfl, ⟨rfl, rfl, rfl⟩, fun _ _ _ _ => ⟨rfl, rfl, rfl, rfl⟩⟩

theorem sameGroup_dropTgs {gone : List Key} {k : Key} (h : gone.any (k == ·) = false) :
    SameGroup k t (t.dropTgs gone) := by
  constructor
  · rw [dropTgs_targetGroups, Table.get?_eraseAll, h]
    rfl
  · rfl
  · rw [dropTgs_targets, Table.get?_eraseAll, h]
    rfl
  · rw [dropTgs_tags, Table.get?_eraseAll, h]
    rfl

/-- Target groups that are in use are not left over. -/
theorem not_any_of_leftover {gone : List Key} (hgone : gone ⊆ leftover t wanted inUse)
    {k : Key} (hk : k ∈ inUse) :
    gone.any (k == ·) = false := by
  rw [List.any_eq_false]
  intro k' hk' hkk
  have hunused := (List.mem_filter.1 (hgone hk')).2
  rw [Bool.not_eq_true', List.contains_eq_any_beq, List.any_eq_false] at hunused
  exact hunused k hk (BEq.symm hkk)

/-- A load balancer is not among selected target groups. -/
theorem not_any_of_lb {gone : List Key} (ht : t.WellFormed) (hgone : gone ⊆ t.owned wanted) {k : Key}
    (hk : t.loadBalancers.get? k = some fs) : gone.any (k == ·) = false := by
  rw [List.any_eq_false]
  intro k' hk' hkk
  obtain ⟨tg, hget, -⟩ := get?_of_mem_owned (hgone hk')
  rw [Table.get?_congr _ hkk] at hk
  exact ht.disjoint hk hget

theorem visits_collect_kept (ht : t.WellFormed) (hk : t.loadBalancers.get? (.text arn) = some fs)
    (hsel : groups.selector = .object wanted) (hu : (collect groups).Visits t u) :
    u.WellFormed ∧ Kept arn groups t u ∧ u.listeners = t.listeners ∧
      ∀ k tg, u.targetGroups.get? k = some tg → t.targetGroups.get? k = some tg := by
  rcases visits_collect ht.ownArns hsel hu with rfl | ⟨inUse, gone, ha, hgone, rfl⟩
  · exact ⟨ht, Kept.refl arn groups u, rfl, fun _ _ h => h⟩
  have hlb := not_any_of_lb ht (fun k hk => List.mem_of_mem_filter (hgone hk)) hk
  refine ⟨ht.dropTgs gone, ⟨rfl, rfl, ⟨rfl, rfl, ?_⟩, fun k tt ts hmem => ?_⟩, rfl,
    fun k tg => Table.get?_of_get?_eraseAll⟩
  · rw [dropTgs_tags, Table.get?_eraseAll, hlb]
    rfl
  · have hin : Key.text k ∈ inUse := by
      obtain ⟨k', hk', hkey⟩ := exists_of_mapM ha _ hmem
      cases hkey
      exact hk'
    exact sameGroup_dropTgs (not_any_of_leftover hgone hin)

theorem SameLb.trans {k : Key} (h : SameLb k s t) (h' : SameLb k t u) : SameLb k s u :=
  ⟨h'.loadBalancers.trans h.loadBalancers, h'.lbAttributes.trans h.lbAttributes, h'.tags.trans h.tags⟩

theorem Kept.trans (h : Kept arn groups s t) (h' : Kept arn groups t u) : Kept arn groups s u :=
  ⟨h'.subnets.trans h.subnets, h'.subnetTags.trans h.subnetTags, SameLb.trans h.lb h'.lb,
    fun k tt ts hmem => (h.groups k tt ts hmem).trans (h'.groups k tt ts hmem)⟩

theorem GroupsReady.selector (h : GroupsReady i service settings groups t) :
    ∃ wanted, groups.selector = .object wanted := by
  obtain ⟨_, _, _, selector, -, -, -, -, hsel⟩ := h
  exact ⟨selector.entries, hsel⟩

end

/-! ## The steps after the load balancer -/

/-- The last step: target groups that are left over are deleted. -/
def finish (arn live : Value) (groups : TargetGroups) : Program LoadBalancer := do
  collect groups
  return ⟨arn, ← live.getOr "DNSName" (.text "")⟩

/-- The steps after the target groups. -/
def serve (service : Value) (settings : ServiceSettings) (arn live : Value) (groups : TargetGroups) :
    Program LoadBalancer := do
  let _ ← convergeListeners arn service settings groups
  finish arn live groups

/-- The steps after the load balancer. -/
def equip (i : Inputs) (service : Value) (settings : ServiceSettings) (live : Value) :
    Program LoadBalancer := do
  let arn ← live.item "LoadBalancerArn"
  let groups ← convergeTargetGroups i service settings
  serve service settings arn live groups

theorem convergeService_eq (i : Inputs) (service : Value) : convergeService i service = (do
    let key ← serviceKey service
    let settings ← i.store.settings i.config key
    let live ← convergeLb i service settings
    equip i service settings live) := rfl

section

variable {i : Inputs} {service live : Value} {settings : ServiceSettings}
  {groups : TargetGroups} {lb : LoadBalancer} {arn : String} {fs wanted : Fields} {s t u : Resources}

theorem visits_finish (h : (finish (.text arn) live groups).Visits t u) : (collect groups).Visits t u := by
  rcases Program.visits_bind.1 h with hu | ⟨_, t', ht', hu⟩
  · exact hu
  rcases Program.visits_lift_bind.1 hu with rfl | ⟨_, -, hu⟩
  · exact ht'.visits
  · rw [Program.visits_pure.1 hu]
    exact ht'.visits

theorem visits_serve_kept (ht : t.WellFormed) (hk : t.loadBalancers.get? (.text arn) = some fs)
    (hsel : groups.selector = .object wanted)
    (h : (serve service settings (.text arn) live groups).Visits t u) :
    u.WellFormed ∧ Kept arn groups t u := by
  rcases Program.visits_bind.1 h with hu | ⟨_, t', ht', hu⟩
  · exact visits_convergeListeners_kept ht hu
  · obtain ⟨hwf, hkept⟩ := visits_convergeListeners_kept ht ht'.visits
    obtain ⟨huwf, hkept', -⟩ :=
      visits_collect_kept hwf (hkept.lb.loadBalancers.trans hk) hsel (visits_finish hu)
    exact ⟨huwf, hkept.trans hkept'⟩

theorem visits_equip_sameLb (ht : t.WellFormed) (hk : t.loadBalancers.get? (.text arn) = some fs)
    (hlive : live.item "LoadBalancerArn" = .ok (.text arn))
    (hd : DistinctBackends i service settings) (h : (equip i service settings live).Visits t u) :
    u.WellFormed ∧ SameLb (.text arn) t u := by
  rcases Program.visits_lift_bind.1 h with rfl | ⟨_, ha, h⟩
  · exact ⟨ht, rfl, rfl, rfl⟩
  rw [hlive] at ha
  cases ha
  rcases Program.visits_bind.1 h with hu | ⟨groups, t', ht', hu⟩
  · exact sameLb_convergeTargetGroups ht hk hu
  · obtain ⟨hwf, hsame⟩ := sameLb_convergeTargetGroups ht hk ht'.visits
    obtain ⟨_, hsel⟩ := (yields_convergeTargetGroups hd ht ht').selector
    obtain ⟨huwf, hkept⟩ := visits_serve_kept hwf (hsame.loadBalancers.trans hk) hsel hu
    exact ⟨huwf, SameLb.trans hsame hkept.lb⟩

end

/-! ## Everything of a Service -/

/-- What the annotations of a Service ask for, as the store has it. -/
def settingsOf (i : Inputs) (service : Value) : Except Error ServiceSettings := do
  i.store.settings i.config (← serviceKey service)

/-- The backends of a Service have target groups of distinct names, as the store has the Service. -/
def DistinctNames (i : Inputs) (service : Value) : Prop :=
  ∀ settings, settingsOf i service = .ok settings → DistinctBackends i service settings

/-- The names of the target groups of the backends of a Service. -/
def groupNames (i : Inputs) (service : Value) : Except Error (List String) := do
  let settings ← settingsOf i service
  let specs ← listenerSpecs service settings
  (specs.map (·.backend)).mapM (groupName i service settings)

theorem distinctGroups_of_nodup {i : Inputs} {service : Value}
    {settings : ServiceSettings} {bs : List Backend} {ns : List String}
    (h : bs.mapM (groupName i service settings) = .ok ns) (hd : ns.Nodup) :
    DistinctGroups i service settings bs := by
  have hnames := mapM_eq_ok_iff.1 h
  clear h
  induction hnames with
  | nil => exact List.Pairwise.nil
  | cons hb hbs ih =>
    obtain ⟨hn, hd⟩ := List.nodup_cons.1 hd
    refine List.Pairwise.cons (fun b' hb' _ _ n hname hname' => ?_) (ih hd)
    rw [hb] at hname
    cases hname
    obtain ⟨n', hn', hname''⟩ := exists_of_mapM (mapM_eq_ok_iff.2 hbs) b' hb'
    rw [hname'] at hname''
    cases hname''
    exact hn hn'

theorem distinctNames_of_nodup {i : Inputs} {service : Value} {ns : List String}
    (h : groupNames i service = .ok ns) (hd : ns.Nodup) : DistinctNames i service := by
  intro settings hsettings specs hspecs
  obtain ⟨settings', hs', h⟩ := bind_eq_ok_iff.1 h
  rw [hsettings] at hs'
  cases hs'
  obtain ⟨specs', hs', h⟩ := bind_eq_ok_iff.1 h
  rw [hspecs] at hs'
  cases hs'
  exact distinctGroups_of_nodup h hd

/-- The settings of a Service, the load balancer and the target groups that realize them, and
the listeners to be had. -/
structure Deployment where
  settings : ServiceSettings
  plan : LbPlan
  arn : String
  lb : Fields
  groups : TargetGroups
  specs : List ListenerSpec
  actions : List (List Fields)

/-- The load balancer that a deployment is told by. -/
def Deployment.result (d : Deployment) : LoadBalancer := ⟨.text d.arn, Fields.getOr d.lb "DNSName" (.text "")⟩

/-- Nothing that is selected is left over beside the target groups. -/
def NothingLeft (groups : TargetGroups) (u : Resources) : Prop :=
  ∃ wanted inUse, groups.selector = .object wanted ∧ groups.arns = .ok inUse ∧ leftover u wanted inUse = []

/-- Everything of a Service is as it should be. -/
structure ServiceMet (i : Inputs) (service : Value) (d : Deployment) (u : Resources) : Prop where
  settings : settingsOf i service = .ok d.settings
  lb : LbMet i service d.settings d.plan d.arn d.lb u
  groups : GroupsReady i service d.settings d.groups u
  asks : Asks service d.settings d.groups d.specs d.actions
  listeners : ListenersMet d.arn d.specs d.actions u
  clean : NothingLeft d.groups u

/-- The settings of a Service as they are compared equal themselves, as do its tags. -/
structure Deployment.Definite (i : Inputs) (service : Value) (d : Deployment) : Prop where
  tags : Converge.Definite d.plan.tags.entries
  groups : DefinitePlans i service d.settings
  listeners : ∀ e ∈ d.specs.zip d.actions, DefiniteListener e.1 e.2

section

variable {i : Inputs} {service live : Value} {settings : ServiceSettings}
  {groups : TargetGroups} {lb : LoadBalancer} {p : LbPlan} {d : Deployment} {arn : String}
  {fs wanted : Fields} {s t u : Resources}

theorem textArns_of_ready (h : GroupsReady i service settings groups u) : TextArns groups := by
  obtain ⟨ns, name, specs, selector, -, -, hready, -, -⟩ := h
  intro key g hg
  rcases hready.origin hg with hg | ⟨b, -, -, plan, arn, ts, wanted, -, -, -, rfl, -⟩
  · cases hg
  · exact ⟨arn, rfl⟩

theorem host_of_lbView (h : lbView live = lbView (.object fs)) :
    live.getOr "DNSName" (.text "") = .ok (Fields.getOr fs "DNSName" (.text "")) := (Prod.mk.inj h).2

/-- What the last steps bring about. -/
theorem yields_serve (ht : t.WellFormed) (hk : t.loadBalancers.get? (.text arn) = some fs)
    (hready : GroupsReady i service settings groups t) (hview : lbView live = lbView (.object fs))
    (h : (serve service settings (.text arn) live groups).Yields t lb u) :
    ∃ specs actions, lb = ⟨.text arn, Fields.getOr fs "DNSName" (.text "")⟩ ∧
      Asks service settings groups specs actions ∧ ListenersMet arn specs actions u ∧
      NothingLeft groups u := by
  obtain ⟨wanted, hsel⟩ := hready.selector
  obtain ⟨ls, t₁, ht₁, h⟩ := Program.yields_bind.1 h
  obtain ⟨specs, actions, hasks, hlisteners⟩ := yields_convergeListeners ht ht₁
  obtain ⟨hwf, hkept⟩ := visits_convergeListeners_kept ht ht₁.visits
  obtain ⟨_, t₂, ht₂, h⟩ := Program.yields_bind.1 h
  obtain ⟨host, hhost, h⟩ := Program.yields_lift_bind.1 h
  obtain ⟨rfl, rfl⟩ := Program.yields_pure.1 h
  rw [host_of_lbView hview] at hhost
  cases hhost
  obtain ⟨-, -, hls, hle⟩ := visits_collect_kept hwf (hkept.lb.loadBalancers.trans hk) hsel ht₂.visits
  obtain ⟨inUse, ha⟩ := isOk_arns ht₂
  obtain ⟨-, rfl⟩ := (yields_collect hwf.ownArns hsel ha).1 ht₂
  exact ⟨specs, actions, rfl, hasks, hlisteners.congr hls hle, wanted, inUse, hsel, ha,
    leftover_dropTgs_leftover _ _ _⟩

/-- What a run of `convergeService` brings about. -/
theorem yields_convergeService (hs : s.WellFormed) (htext : TextSubnets s)
    (hd : DistinctNames i service) (h : (convergeService i service).Yields s lb t) :
    ∃ (d : Deployment) (old : Labels), ServiceMet i service d t ∧ t.WellFormed ∧ lb = d.result ∧
      TagsBefore d.plan s old ∧
      Retagged old (t.tagsOf (.text d.arn)) d.plan.tags.entries := by
  rw [convergeService_eq] at h
  obtain ⟨key, hkey, h⟩ := Program.yields_lift_bind.1 h
  obtain ⟨settings, hsettings, h⟩ := Program.yields_lift_bind.1 h
  have hof : settingsOf i service = .ok settings := bind_eq_ok_iff.2 ⟨key, hkey, hsettings⟩
  have hd := hd settings hof
  obtain ⟨live, t₁, hlive, h⟩ := Program.yields_bind.1 h
  obtain ⟨p, arn, fs, old, hmet, hview, hold, hretag⟩ := yields_convergeLb hs htext hlive
  have ht₁ := always_convergeLb hs htext _ hlive.visits
  have harn := item_of_lbView ht₁ hmet.ready hview
  obtain ⟨-, hsame⟩ := visits_equip_sameLb ht₁ hmet.ready.there harn hd h.visits
  obtain ⟨_, ha, h⟩ := Program.yields_lift_bind.1 h
  rw [harn] at ha
  cases ha
  obtain ⟨groups, t₂, hgroups, h⟩ := Program.yields_bind.1 h
  obtain ⟨ht₂, hsame₂⟩ := sameLb_convergeTargetGroups ht₁ hmet.ready.there hgroups.visits
  have hready := yields_convergeTargetGroups hd ht₁ hgroups
  have hk₂ := hsame₂.loadBalancers.trans hmet.ready.there
  obtain ⟨_, hsel⟩ := hready.selector
  obtain ⟨ht, hkept⟩ := visits_serve_kept ht₂ hk₂ hsel h.visits
  obtain ⟨specs, actions, rfl, hasks, hlisteners, hclean⟩ := yields_serve ht₂ hk₂ hready hview h
  obtain ⟨hsubnets₂, htags₂⟩ := Program.always_ground _ t₁ t₂ hgroups.visits
  refine ⟨⟨settings, p, arn, fs, groups, specs, actions⟩, old,
    ⟨hof, hkept.lbMet (hmet.congr hsubnets₂ htags₂ hsame₂),
    hkept.groupsReady hready, hasks, hlisteners, hclean⟩, ht, rfl, hold, ?_⟩
  rwa [Resources.tagsOf, hsame.tags]

/-- Where everything of a Service is as it should be, nothing more is done. -/
theorem rests_convergeService (hu : u.WellFormed) (h : ServiceMet i service d u) :
    (convergeService i service).Rests (d.Definite i service ∧ "" ∉ d.plan.subnets) id u d.result := by
  obtain ⟨key, hkey, hsettings⟩ := bind_eq_ok_iff.1 h.settings
  obtain ⟨wanted, inUse, hsel, ha, hnil⟩ := h.clean
  rw [convergeService_eq]
  refine Program.Rests.lift_bind hkey (Program.Rests.lift_bind hsettings ?_)
  refine Program.Rests.bind ((rests_convergeLb hu h.lb).mono fun hq => ⟨hq.1.tags, hq.2⟩) fun live hview => ?_
  refine Program.Rests.lift_bind (item_of_lbView hu h.lb.ready hview) ?_
  refine Program.Rests.bind ((rests_convergeTargetGroups hu h.groups).mono fun hq => hq.1.groups) ?_
  rintro _ rfl
  refine Program.Rests.bind
    ((rests_convergeListeners hu h.asks h.listeners).mono fun hq => hq.1.listeners) fun _ _ => ?_
  refine Program.Rests.bind (v := id)
    (Program.Rests.of_ends (rests_collect hu.ownArns hsel ha hnil)) fun _ _ => ?_
  refine Program.Rests.lift_bind (host_of_lbView hview) ?_
  exact Program.Rests.of_ends (Program.ends_pure.2 ⟨rfl, rfl, rfl⟩)

theorem resumes_finish (ht : t.WellFormed) (hsel : groups.selector = .object wanted) :
    (finish (.text arn) live groups).Resumes id t := by
  refine Program.Resumes.bind (resumes_collect ht.ownArns hsel) (fun _ _ _ => rfl)
    (fun _ _ _ => Program.Resumes.lift_bind fun _ _ => Program.resumes_pure _ _) fun _ t' u ht' hu => ?_
  have hut : u = t' := (Program.visits_lift_bind.1 hu).elim id fun ⟨_, _, hu⟩ => Program.visits_pure.1 hu
  obtain ⟨inUse, ha⟩ := isOk_arns ht'
  obtain ⟨-, rfl⟩ := (yields_collect ht.ownArns hsel ha).1 ht'
  rw [hut]
  exact ⟨(), (rests_collect (ht.dropTgs _).ownArns hsel ha (leftover_dropTgs_leftover _ _ _)).yields, rfl⟩

theorem resumes_serve (ht : t.WellFormed) (hk : t.loadBalancers.get? (.text arn) = some fs)
    (hsel : groups.selector = .object wanted) :
    (serve service settings (.text arn) live groups).Resumes id t := by
  refine Program.Resumes.bind (resumes_convergeListeners ht) (fun _ _ _ => rfl) ?_ ?_
  · exact fun _ t₁ ht₁ => resumes_finish (visits_convergeListeners_kept ht ht₁.visits).1 hsel
  · intro _ t₁ u ht₁ hu
    obtain ⟨hwf, hkept⟩ := visits_convergeListeners_kept ht ht₁.visits
    obtain ⟨specs, actions, hasks, hmet⟩ := yields_convergeListeners ht ht₁
    obtain ⟨huwf, -, hls, hle⟩ :=
      visits_collect_kept hwf (hkept.lb.loadBalancers.trans hk) hsel (visits_finish hu)
    obtain ⟨ls, hls, -⟩ := (rests_convergeListeners huwf hasks (hmet.congr hls hle)).yields
    exact ⟨ls, hls, rfl⟩

theorem resumes_equip (ht : t.WellFormed) (hk : t.loadBalancers.get? (.text arn) = some fs)
    (hlive : live.item "LoadBalancerArn" = .ok (.text arn)) (hd : DistinctBackends i service settings) :
    (equip i service settings live).Resumes id t := by
  refine Program.Resumes.lift_bind fun _ ha => ?_
  rw [hlive] at ha
  cases ha
  refine Program.Resumes.bind (resumes_convergeTargetGroups hd ht)
    (fun g g' h => by rw [show g' = g from h]) ?_ ?_
  · intro groups t₁ ht₁
    obtain ⟨hwf, hsame⟩ := sameLb_convergeTargetGroups ht hk ht₁.visits
    obtain ⟨_, hsel⟩ := (yields_convergeTargetGroups hd ht ht₁).selector
    exact resumes_serve hwf (hsame.loadBalancers.trans hk) hsel
  · intro groups t₁ u ht₁ hu
    obtain ⟨hwf, hsame⟩ := sameLb_convergeTargetGroups ht hk ht₁.visits
    have hready := yields_convergeTargetGroups hd ht ht₁
    obtain ⟨_, hsel⟩ := hready.selector
    obtain ⟨huwf, hkept⟩ := visits_serve_kept hwf (hsame.loadBalancers.trans hk) hsel hu
    exact (rests_convergeTargetGroups huwf (hkept.groupsReady hready)).yields

/-- Cut off anywhere, `convergeService` can be done again, with the same result. -/
theorem resumes_convergeService (hs : s.WellFormed) (htext : TextSubnets s)
    (hd : DistinctNames i service) : (convergeService i service).Resumes id s := by
  rw [convergeService_eq]
  refine Program.Resumes.lift_bind fun key hkey => Program.Resumes.lift_bind fun settings hsettings => ?_
  have hd := hd settings (bind_eq_ok_iff.2 ⟨key, hkey, hsettings⟩)
  refine Program.Resumes.bind (resumes_convergeLb hs htext) ?_ ?_ ?_
  · intro live live' hview
    obtain ⟨harn, hhost⟩ := Prod.mk.inj hview
    simp only [equip, serve, finish, harn, hhost]
  · intro live t ht
    obtain ⟨p, arn, fs, old, hmet, hview, -⟩ := yields_convergeLb hs htext ht
    have hwf := always_convergeLb hs htext _ ht.visits
    exact resumes_equip hwf hmet.ready.there (item_of_lbView hwf hmet.ready hview) hd
  · intro live t u ht hu
    obtain ⟨p, arn, fs, old, hmet, hview, -⟩ := yields_convergeLb hs htext ht
    have hwf := always_convergeLb hs htext _ ht.visits
    obtain ⟨huwf, hsame⟩ :=
      visits_equip_sameLb hwf hmet.ready.there (item_of_lbView hwf hmet.ready hview) hd hu
    obtain ⟨hsubnets, htags⟩ := Program.always_ground _ t u hu
    rw [hview]
    exact (rests_convergeLb huwf (hmet.congr hsubnets htags hsame)).yields

end

/-! ## A sample -/

/-- A Service with two ports. -/
def sampleService : Value :=
  .object [("metadata", .object [("namespace", .text "default"), ("name", .text "web"),
      ("annotations", .object [("example.com/subnets", .text "subnet-a")])]),
    ("spec", .object [("ports", .list [
      .object [("name", .text "http"), ("port", .int 80), ("nodePort", .int 31000)],
      .object [("name", .text "https"), ("port", .int 443), ("nodePort", .int 31001)]])])]

/-- The sample Service and a node that receives its traffic. -/
def sampleInputs : Inputs where
  config := { domain := .text "example.com", targetType := .text "instance" }
  identity := ⟨.text "prefix", .text "cluster", ∅⟩
  store := {
    services := .ofList [(.text "default/web", sampleService)]
    nodes := .ofList [(.text "node", .object [("metadata", .object [("name", .text "node")]),
      ("spec", .object [("providerID", .text "aws:///zone/i-1")])])] }

theorem sample_distinctNames : DistinctNames sampleInputs sampleService := by
  have hnodup : (groupNames sampleInputs sampleService).toOption.any (·.Nodup) = true := by
    set_option maxRecDepth 10000 in decide +kernel
  cases h : groupNames sampleInputs sampleService with
  | error e => simp [h, Except.toOption] at hnodup
  | ok ns => exact distinctNames_of_nodup h (by simpa [h, Except.toOption] using hnodup)

theorem sample_textActions (settings : ServiceSettings)
    (h : settingsOf sampleInputs sampleService = .ok settings) :
    TextActions settings := by
  have hnone : (settingsOf sampleInputs sampleService).toOption.all (·.actions.entries.isEmpty) = true := by
    set_option maxRecDepth 10000 in decide +kernel
  rw [h] at hnone
  intro name action haction
  have hmem := (Table.mem_entries_iff settings.actions name action).2 haction
  have hnil : settings.actions.entries = [] := by simpa [Except.toOption] using hnone
  rw [hnil] at hmem
  cases hmem

/-- From an empty cloud, a reconcile of the sample Service succeeds. -/
theorem sample_succeeds : ∃ lb m,
    (convergeService sampleInputs sampleService).run (Memory.cloud Gate.free) ((), ⟨{}, []⟩) =
      (.ok lb, ((), m)) := by
  have hok : ((convergeService sampleInputs sampleService).run (Memory.cloud Gate.free)
      ((), ⟨{}, []⟩)).1.isOk = true := by
    set_option maxRecDepth 100000 in decide +kernel
  match h : (convergeService sampleInputs sampleService).run (Memory.cloud Gate.free) ((), ⟨{}, []⟩) with
  | (.ok lb, ((), m)) => exact ⟨lb, m, rfl⟩
  | (.error e, _) => simp [h, Except.isOk, Except.toBool] at hok

end Converge

end Balancer
