import Balancer.Converge.LoadBalancer
import Balancer.Proofs.Cloud.Requests
import Mathlib.Data.Set.List

/-!
# Desired configurations

* `Surveys p` : the program asks for subnets only. It leaves all as it is, and what it gives depends on the
  subnets alone (`Surveys.run`); `surveys_buildLb`;
* `resolveSubnets_all` : resolved subnets are requested identifiers or those of described subnets;
* `LbPlan` : what is desired of a load balancer, in texts; `exists_plan` : if the identifiers of the subnets
  are texts, a desired configuration is that of a plan.
-/

namespace Balancer

set_option autoImplicit false

namespace Program

variable {α β : Type}

/-! ## Programs that ask for subnets -/

/-- The program asks for subnets only. -/
def Surveys : Program α → Prop
  | done _ => True
  | ask (.clusterSubnets _) next | ask (.subnetsNamed _) next => ∀ x, (next x).Surveys
  | ask _ _ => False
  | tell _ next => next.Surveys

theorem surveys_pure (a : α) : (pure a : Program α).Surveys := trivial

theorem surveys_throw (e : Error) : (throw e : Program α).Surveys := trivial

theorem surveys_lift (x : Except Error α) : (liftM x : Program α).Surveys := trivial

theorem Surveys.bind {p : Program α} {f : α → Program β} (hp : p.Surveys) (hf : ∀ a, (f a).Surveys) :
    (p >>= f).Surveys := by
  show (p.bind f).Surveys
  induction p with
  | done x =>
    cases x with
    | ok a => exact hf a
    | error e => trivial
  | ask r next ih =>
    cases r with
    | clusterSubnets key => exact fun x => ih x (hp x)
    | subnetsNamed names => exact fun x => ih x (hp x)
    | _ => exact hp.elim
  | tell n next ih => exact ih hp

theorem surveys_ite {c : Prop} [Decidable c] {p q : Program α} (hp : p.Surveys) (hq : q.Surveys) :
    (if c then p else q).Surveys := by
  split
  · exact hp
  · exact hq

/-- All is left as it is, and what is given depends on the subnets. -/
theorem Surveys.run {p : Program α} (hp : p.Surveys) (s u : Resources) (hs : u.subnets = s.subnets)
    (ht : u.subnetTags = s.subnetTags) :
    ∃ x, p.run Memory.bare ⟨s, []⟩ = (x, ⟨s, []⟩) ∧ p.run Memory.bare ⟨u, []⟩ = (x, ⟨u, []⟩) := by
  induction p with
  | done x => exact ⟨x, rfl, rfl⟩
  | ask r next ih =>
    cases r with
    | clusterSubnets key =>
      obtain ⟨x, h, h'⟩ := ih (s.clusterSubnets key) (hp _)
      refine ⟨x, h, ?_⟩
      rw [show s.clusterSubnets key = u.clusterSubnets key by simp only [Resources.clusterSubnets, ht]] at h'
      exact h'
    | subnetsNamed names =>
      obtain ⟨x, h, h'⟩ := ih (s.subnets.filterM (Resources.isNamed names)) (hp _)
      refine ⟨x, h, ?_⟩
      rw [← hs] at h'
      exact h'
    | _ => exact hp.elim
  | tell n next ih => exact ih hp

theorem Surveys.visits {p : Program α} (hp : p.Surveys) {s u : Resources} (h : p.Visits s u) : u = s := by
  induction p with
  | done x => exact h
  | ask r next ih =>
    cases r with
    | clusterSubnets key => exact h.elim id (ih _ (hp _))
    | subnetsNamed names => exact h.elim id (ih _ (hp _))
    | _ => exact hp.elim
  | tell n next ih => exact ih hp h

/-- A survey that succeeds does so with any resources of the same subnets. -/
theorem Surveys.ends {p : Program α} (hp : p.Surveys) {s t u : Resources} {a : α} (h : p.Yields s a t)
    (hs : u.subnets = s.subnets) (ht : u.subnetTags = s.subnetTags) : t = s ∧ p.Ends u a [] u := by
  obtain ⟨rs, h⟩ := h
  obtain ⟨x, hx, hx'⟩ := hp.run s u hs ht
  rw [Ends, hx] at h
  cases h
  exact ⟨rfl, hx'⟩

end Program

namespace Converge

open Cluster

/-! ## Subnets -/

theorem surveys_subnetsNamed (vs : List Value) : (subnetsNamed vs).Surveys := by
  unfold subnetsNamed
  exact Program.surveys_ite (Program.surveys_pure _) fun x => Program.surveys_lift x

theorem clusterSubnets_eq (clusterName scheme : Value) :
    clusterSubnets clusterName scheme =
      (match roleKey? scheme with
      | none => throw (.configuration (.scheme scheme.shown))
      | some role => do
        let key := Identity.clusterKey (← clusterName.asRest)
        let tagged ← Program.answer (.clusterSubnets (.text key))
        let ids ← (((tagged.entries.filter fun e => e.2.contains (.text role)).map fun e => e.1.toValue).mapM
          (fun arn => .text <$> subnetOfArn arn) : Except Error (List Value))
        let out ← firstOfZones [] (← subnetsNamed ids)
        if out.length < minClusterSubnets then throw (.configuration (.fewSubnets key role out))
        Value.sorted out) := by
  unfold clusterSubnets
  cases roleKey? scheme with
  | none => rfl
  | some role => simp only [Program.mapM_liftM]

theorem resolveSubnets_eq (clusterName scheme requested : Value) :
    resolveSubnets clusterName scheme requested =
      if !requested.holds then clusterSubnets clusterName scheme
      else do
        let all ← requested.elements
        let ids ← (all.filterM isSubnetId : Except Error (List Value))
        let names ← (all.filterM (fun s => do return !(← isSubnetId s)) : Except Error (List Value))
        let described ← subnetsNamed names
        let found ← (described.mapM (·.item "SubnetId") : Except Error (List Value))
        let subnets ← Value.sorted (ids ++ found)
        if subnets.length ≠ (← requested.length) then
          throw (.configuration (.subnetsUnresolved (← Value.textsAt 0 all) (← Value.textsAt 0 subnets)))
        return subnets := by
  unfold resolveSubnets
  simp only [Program.mapM_liftM, Program.filterM_liftM]

theorem surveys_clusterSubnets (clusterName scheme : Value) :
    (clusterSubnets clusterName scheme).Surveys := by
  rw [clusterSubnets_eq]
  split
  · exact Program.surveys_throw _
  refine (Program.surveys_lift _).bind fun rest => ?_
  refine Program.Surveys.bind (fun x => Program.surveys_lift x) fun tagged => ?_
  refine (Program.surveys_lift _).bind fun ids => (surveys_subnetsNamed ids).bind fun found => ?_
  refine (Program.surveys_lift _).bind fun out => ?_
  exact Program.surveys_ite (Program.surveys_throw _) (Program.surveys_lift _)

theorem surveys_resolveSubnets (clusterName scheme requested : Value) :
    (resolveSubnets clusterName scheme requested).Surveys := by
  rw [resolveSubnets_eq]
  refine Program.surveys_ite (surveys_clusterSubnets _ _) ?_
  refine (Program.surveys_lift _).bind fun all => (Program.surveys_lift _).bind fun ids => ?_
  refine (Program.surveys_lift _).bind fun names => (surveys_subnetsNamed names).bind fun described => ?_
  refine (Program.surveys_lift _).bind fun found => (Program.surveys_lift _).bind fun subnets => ?_
  refine (Program.surveys_lift _).bind fun n => Program.surveys_ite ?_ (Program.surveys_pure _)
  exact (Program.surveys_lift _).bind fun _ => (Program.surveys_lift _).bind fun _ => Program.surveys_throw _

theorem surveys_buildLb (i : Inputs) (service : Value) (settings : ServiceSettings) :
    (buildLb i service settings).Surveys := by
  unfold buildLb
  refine (Program.surveys_lift _).bind fun n => (Program.surveys_lift _).bind fun tags => ?_
  refine (Program.surveys_lift _).bind fun lbName => ?_
  exact (surveys_resolveSubnets _ _ _).bind fun subnets => Program.surveys_pure _

section

variable {P : Value → Prop} {s t : Resources}

theorem mem_of_subnetsNamed {vs found : List Value} (h : (subnetsNamed vs).Yields s found t) :
    ∀ v ∈ found, v ∈ s.subnets := by
  unfold subnetsNamed at h
  split at h
  · obtain ⟨rfl, -⟩ := Program.yields_pure.1 h
    simp
  · have h := Program.yields_answer.1 h
    rw [Resources.perform_subnetsNamed] at h
    exact fun v hv => (mem_of_filterM (Prod.mk.inj h).1 v hv).1

theorem firstOfZones_all {seen : List Key} {vs out : List Value} (h : firstOfZones seen vs = .ok out)
    (hvs : ∀ v ∈ vs, ∀ id, v.item "SubnetId" = .ok id → P id) : ∀ v ∈ out, P v := by
  induction vs generalizing seen out with
  | nil =>
    cases h
    simp
  | cons v vs ih =>
    obtain ⟨hv, hvs⟩ := List.forall_mem_cons.1 hvs
    unfold firstOfZones at h
    obtain ⟨z, -, h⟩ := bind_eq_ok_iff.1 h
    obtain ⟨zone, -, h⟩ := bind_eq_ok_iff.1 h
    split at h
    · exact ih h hvs
    · obtain ⟨id, hid, h⟩ := bind_eq_ok_iff.1 h
      obtain ⟨rest, hrest, h⟩ := bind_eq_ok_iff.1 h
      cases h
      exact List.forall_mem_cons.2 ⟨hv id hid, ih hrest hvs⟩

/-- Resolved subnets are requested identifiers, or those of described subnets. -/
theorem resolveSubnets_all {clusterName scheme : Value} {names : List String} {out : List Value}
    (hid : ∀ n, isSubnetId (.text n) = .ok true → P (.text n))
    (hs : ∀ v ∈ s.subnets, ∀ id, v.item "SubnetId" = .ok id → P id)
    (h : (resolveSubnets clusterName scheme (textList names)).Yields s out t) : ∀ v ∈ out, P v := by
  rw [resolveSubnets_eq] at h
  split at h
  · rw [clusterSubnets_eq] at h
    split at h
    · exact (Program.yields_throw.1 h).elim
    obtain ⟨rest, -, h⟩ := Program.yields_lift_bind.1 h
    obtain ⟨tagged, t₁, h₁, h⟩ := Program.yields_bind.1 h
    obtain ⟨ids, -, h⟩ := Program.yields_lift_bind.1 h
    obtain ⟨found, t₂, h₂, h⟩ := Program.yields_bind.1 h
    obtain ⟨firsts, hfirsts, h⟩ := Program.yields_lift_bind.1 h
    split at h
    · exact (Program.yields_throw.1 h).elim
    have hsorted := (Program.yields_lift.1 h).1
    have hground : t₁ = s := by
      have h₁ := Program.yields_answer.1 h₁
      rw [Resources.perform_clusterSubnets] at h₁
      exact (Prod.mk.inj h₁).2.symm
    have hfound := fun v hv => hs v (hground ▸ mem_of_subnetsNamed h₂ v hv)
    exact fun v hv => firstOfZones_all hfirsts hfound v ((sortBy_perm hsorted).mem_iff.1 hv)
  · obtain ⟨all, hall, h⟩ := Program.yields_lift_bind.1 h
    cases hall
    obtain ⟨ids, hids, h⟩ := Program.yields_lift_bind.1 h
    obtain ⟨named, -, h⟩ := Program.yields_lift_bind.1 h
    obtain ⟨described, t₁, h₁, h⟩ := Program.yields_bind.1 h
    obtain ⟨found, hfound, h⟩ := Program.yields_lift_bind.1 h
    obtain ⟨subnets, hsorted, h⟩ := Program.yields_lift_bind.1 h
    obtain ⟨n, -, h⟩ := Program.yields_lift_bind.1 h
    split at h
    · obtain ⟨_, -, h⟩ := Program.yields_lift_bind.1 h
      obtain ⟨_, -, h⟩ := Program.yields_lift_bind.1 h
      exact (Program.yields_throw.1 h).elim
    obtain ⟨rfl, -⟩ := Program.yields_pure.1 h
    intro v hv
    rcases List.mem_append.1 ((sortBy_perm hsorted).mem_iff.1 hv) with hv | hv
    · obtain ⟨hmem, hsub⟩ := mem_of_filterM hids v hv
      obtain ⟨n, -, rfl⟩ := List.mem_map.1 hmem
      exact hid n hsub
    · obtain ⟨w, hw, hitem⟩ := mem_of_mapM hfound v hv
      exact hs w (mem_of_subnetsNamed h₁ w hw) v hitem

end

/-! ## Plans -/

/-- What is desired of a load balancer. -/
structure LbPlan where
  name : String
  tags : Table String Value
  scheme : String
  ipAddressType : String
  subnets : List String

/-- The configuration of a plan. -/
def LbPlan.config (p : LbPlan) : LoadBalancerConfig where
  name := .text p.name
  tags := p.tags.toObject
  scheme := .text p.scheme
  ipAddressType := .text p.ipAddressType
  subnets := textList p.subnets

theorem LbPlan.eq_of_config {p q : LbPlan} (h : p.config = q.config) : p = q := by
  obtain ⟨name, ⟨tags, htags⟩, scheme, ipAddressType, subnets⟩ := p
  obtain ⟨name', ⟨tags', htags'⟩, scheme', ipAddressType', subnets'⟩ := q
  simp only [config, Table.toObject, textList, LoadBalancerConfig.mk.injEq,
    Value.text.injEq, Value.object.injEq, Value.list.injEq] at h
  obtain ⟨rfl, rfl, -, rfl, rfl, hsubnets⟩ := h
  have hinj : Function.Injective Value.text := fun _ _ h => Value.text.inj h
  rw [hinj.list_map hsubnets]

/-- The identifiers of subnets are texts. -/
def TextSubnets (s : Resources) : Prop :=
  ∀ v ∈ s.subnets, ∀ id, v.item "SubnetId" = .ok id → ∃ n, id = .text n

/-- The identifiers of subnets are not empty. -/
def FilledSubnets (s : Resources) : Prop := ∀ v ∈ s.subnets, v.item "SubnetId" ≠ .ok (.text "")

section

variable {i : Inputs} {service : Value} {settings : ServiceSettings}
  {config : LoadBalancerConfig} {s t : Resources}

theorem exists_plan (hs : TextSubnets s) (h : (buildLb i service settings).Yields s config t) :
    ∃ (ns name : Value) (tags : Table String Value) (plan : LbPlan), names service = .ok (ns, name) ∧
      i.identity.nameLb ns name = .ok plan.name ∧ i.identity.tagLb ns name = .ok tags ∧
      plan.tags = tags.update (settings.tags.map .text) ∧
      plan.scheme = settings.loadBalancer.scheme ∧ plan.ipAddressType = settings.loadBalancer.ipAddressType ∧
      config = plan.config ∧ (FilledSubnets s → "" ∉ plan.subnets) := by
  obtain ⟨⟨ns, name⟩, hn, h⟩ := Program.yields_lift_bind.1 h
  obtain ⟨tags, htags, h⟩ := Program.yields_lift_bind.1 h
  obtain ⟨lbName, hlb, h⟩ := Program.yields_lift_bind.1 h
  obtain ⟨out, t₁, hout, h⟩ := Program.yields_bind.1 h
  obtain ⟨rfl, -⟩ := Program.yields_pure.1 h
  have htexts : ∀ v ∈ out, v ∈ Set.range Value.text := by
    refine resolveSubnets_all (fun n _ => ⟨n, rfl⟩) (fun v hv id hid => ?_) hout
    obtain ⟨n, rfl⟩ := hs v hv id hid
    exact ⟨n, rfl⟩
  obtain ⟨subnets, rfl⟩ := (Set.ext_iff.1 (Set.range_list_map Value.text) out).2 htexts
  refine ⟨ns, name, tags, ⟨lbName, _, settings.loadBalancer.scheme,
    settings.loadBalancer.ipAddressType, subnets⟩, hn, hlb,
    htags, rfl, rfl, rfl, rfl, fun hfilled hempty => ?_⟩
  have hne : ∀ v ∈ subnets.map Value.text, v ≠ .text "" := by
    refine resolveSubnets_all (fun n hsub => ?_) (fun v hv id hid => ?_) hout
    · rintro ⟨⟩
      cases hsub.symm.trans (show isSubnetId (.text "") = .ok false from rfl)
    · rintro rfl
      exact hfilled v hv hid
  exact hne (.text "") (List.mem_map_of_mem hempty) rfl

end

end Converge

end Balancer
