import Balancer.Proofs.Cloud.Estate
import Balancer.Proofs.Converge.Belongs
import Balancer.Proofs.Converge.Sorts

/-!
# The invariant of an orderly cloud

* `Regime` : which Service and backend the names of target groups are for, and which ARNs declared actions
  forward to; `Regime.Governs` : a Service keeps to it;
* `Regime.Lawful` : every target group has the protocol and the tags of whom its name is for, and every
  listener forwards to an ARN of the declared actions, or belongs to the load balancer of the Service whose
  target group it forwards to;
* `safe_convergeLb`, `safe_convergeTargetGroups` : the first two steps of a reconcile keep this and ask
  nothing that is refused.
-/

namespace Balancer

set_option autoImplicit false

namespace Converge

open Cluster Identity Routing Resources Program

/-! ## Regimes -/

/-- Whom a name of target groups is for. -/
structure Claimant where
  ns : String
  name : String
  backend : Backend

/-- What all Services of a cluster keep to. -/
structure Regime where
  stem : String
  cluster : String
  claimant : String → Claimant
  /-- The ARNs that declared actions forward to. -/
  foreign : String → Prop

namespace Regime

/-- The name of the load balancer to which the target groups of a name belong. -/
def lb (r : Regime) (n : String) : String := lbName r.stem (r.claimant n).ns (r.claimant n).name

/-- The tags of the owner of the target groups of a name. -/
def owner (r : Regime) (n : String) : Fields := ownerTags r.cluster (r.claimant n).ns (r.claimant n).name

/-- The target groups of a Service have names that are for its backends, the tags of their owner are left
alone, and declared actions forward to known ARNs. -/
structure Governs (r : Regime) (i : Inputs) (service : Value) : Prop where
  claim : ∀ settings specs, settingsOf i service = .ok settings → listenerSpecs service settings = .ok specs →
    ∀ spec ∈ specs, Actions.isUsed spec.backend.port = false →
      ∀ n, groupName i service settings spec.backend = .ok n →
      names service = .ok (.text (r.claimant n).ns, .text (r.claimant n).name) ∧
        spec.backend = (r.claimant n).backend
  tags : ∀ settings ns name, settingsOf i service = .ok settings →
    names service = .ok (.text ns, .text name) →
    LeavesOwner settings.tags r.cluster ns name
  actions : ∀ settings name action, settingsOf i service = .ok settings →
    settings.actions.get? name = some action →
    ∃ b, Fields.get action "TargetGroupArn" = .text b ∧ r.foreign b

/-- No target group stands under an ARN that declared actions forward to. -/
def Clear (r : Regime) (s : Resources) : Prop := ∀ b, r.foreign b → s.targetGroups.get? (.text b) = none

/-- A request that is not refused unless a declared action forwards to a target group that is there. -/
def Allows (r : Regime) (q : Request) (s : Resources) : Prop := r.Clear s → s.Accepts q

/-- A target group has the name, and the protocol and the tags that go with it. -/
structure Claimed (r : Regime) (n : String) (k : Key) (tg : Fields) (s : Resources) : Prop where
  name : Fields.get tg "TargetGroupName" = .text n
  protocol : Fields.get tg "Protocol" = (r.claimant n).backend.protocol
  tags : Meets (s.tagsOf k) (r.owner n)

/-- A listener forwards to an ARN of the declared actions, or belongs to the load balancer of whom
its target group is for. -/
def Leads (r : Regime) (l : Fields) (s : Resources) : Prop :=
  ∃ action a b, Fields.get l "DefaultActions" = .list [.object action] ∧
    Fields.get l "LoadBalancerArn" = .text a ∧
    Fields.get action "TargetGroupArn" = .text b ∧
      (r.foreign b ∨ IsNew 0 s.nextId (.text b) ∧ ∀ n, GroupNamed n (.text b) s →
        LbNamed (r.lb n) (.text a) s)

structure Lawful (r : Regime) (s : Resources) : Prop where
  wellFormed : s.WellFormed
  given : ∀ k tg, s.targetGroups.get? k = some tg → IsNew 0 s.nextId k
  group : ∀ k tg, s.targetGroups.get? k = some tg → ∃ n, r.Claimed n k tg s
  listener : ∀ k l, s.listeners.get? k = some l → r.Leads l s

end Regime

/-! ## What keeps a cloud lawful -/

section

variable {r : Regime} {n a b : String} {k : Key} {l fs : Fields} {gone : List Key}
  {q : Request} {s t u : Resources}

/-- A listener leads as before if its load balancer is still there and an ARN that was
given out has no new name. -/
theorem Regime.Leads.mono (h : r.Leads l s) (hid : s.nextId ≤ u.nextId)
    (hnames : ∀ k n, IsNew 0 s.nextId k → GroupNamed n k u → GroupNamed n k s)
    (hlb : ∀ a m, Fields.get l "LoadBalancerArn" = .text a → LbNamed m (.text a) s → LbNamed m (.text a) u) :
    r.Leads l u := by
  obtain ⟨action, a, b, hactions, ha, hb, htarget⟩ := h
  refine ⟨action, a, b, hactions, ha, hb, htarget.imp_right fun ⟨hnew, hlead⟩ =>
    ⟨hnew.mono (Nat.le_refl _) hid, ?_⟩⟩
  exact fun n hn => hlb a _ ha (hlead n (hnames _ n hnew hn))

/-- Less target groups and listeners, with their tags and load balancers as before. -/
theorem Regime.Lawful.fewer (h : r.Lawful s) (hu : u.WellFormed) (hid : s.nextId ≤ u.nextId)
    (hgroup : ∀ k tg, u.targetGroups.get? k = some tg →
      s.targetGroups.get? k = some tg ∧ u.tags.get? k = s.tags.get? k)
    (hlistener : ∀ k l, u.listeners.get? k = some l → s.listeners.get? k = some l ∧
      ∀ a m, Fields.get l "LoadBalancerArn" = .text a → LbNamed m (.text a) s → LbNamed m (.text a) u) :
    r.Lawful u where
  wellFormed := hu
  given k tg hk := (h.given k tg (hgroup k tg hk).1).mono (Nat.le_refl _) hid
  group k tg hk := by
    obtain ⟨hthere, htags⟩ := hgroup k tg hk
    obtain ⟨n, hn⟩ := h.group k tg hthere
    refine ⟨n, hn.name, hn.protocol, ?_⟩
    rw [Resources.tagsOf, htags]
    exact hn.tags
  listener k l hl := by
    obtain ⟨hthere, hlb⟩ := hlistener k l hl
    refine (h.listener k l hthere).mono hid (fun k n _ hn => ?_) hlb
    obtain ⟨tg, hk, hn⟩ := hn
    exact ⟨tg, (hgroup k tg hk).1, hn⟩

theorem Regime.Lawful.dropListeners (h : r.Lawful s) (gone : List Key) : r.Lawful (s.dropListeners gone) := by
  refine h.fewer (h.wellFormed.dropListeners _) (Nat.le_refl _) (fun k tg hk => ⟨hk, rfl⟩) fun k l hl =>
    ⟨?_, fun _ _ _ h => h⟩
  rw [dropListeners_listeners, Table.get?_eraseAll] at hl
  split at hl
  · cases hl
  · exact hl

theorem Regime.Lawful.dropTgs (h : r.Lawful s) (gone : List Key) : r.Lawful (s.dropTgs gone) := by
  refine h.fewer (h.wellFormed.dropTgs _) (Nat.le_refl _) (fun k tg hk => ?_) fun k l hl =>
    ⟨hl, fun _ _ _ h => h⟩
  rw [dropTgs_targetGroups, Table.get?_eraseAll] at hk
  split at hk
  · cases hk
  · rename_i hnot
    refine ⟨hk, ?_⟩
    rw [dropTgs_tags, Table.get?_eraseAll, if_neg hnot]

/-- A load balancer is no target group. -/
theorem ne_of_lbNamed (hs : s.WellFormed) (hn : LbNamed n (.text a) s) {tg : Fields}
    (hk : s.targetGroups.get? k = some tg) :
    (Key.text a == k) = false := by
  obtain ⟨fs, hfs, -⟩ := hn
  refine Bool.eq_false_iff.2 fun h => ?_
  rw [← Table.get?_congr _ h, targetGroup_eq_none hs hfs] at hk
  cases hk

theorem Regime.Lawful.dropLb (h : r.Lawful s) (hn : LbNamed n (.text a) s) : r.Lawful (s.dropLb a) := by
  refine h.fewer (h.wellFormed.dropLb _) (Nat.le_refl _) (fun k tg hk => ⟨hk, ?_⟩) fun k l hl => ?_
  · exact (sameLb_dropLb (ne_of_lbNamed h.wellFormed hn hk)).tags
  · obtain ⟨hthere, hother⟩ := get?_listeners_dropLb.1 hl
    refine ⟨hthere, fun a' m ha' hm => hm.congr (sameLb_dropLb (Bool.eq_false_iff.2 fun heq => hother ?_))⟩
    rw [ha', eq_of_beq ((Key.text_beq_text a a').symm.trans heq)]

/-- A new load balancer has a name of its own. -/
theorem Regime.Lawful.addLb (h : r.Lawful s) (ha : Numbered s.nextId a)
    (hown : Fields.get fs "LoadBalancerArn" = .text a) (hname : Fields.get fs "LoadBalancerName" = .text n)
    (hnone : ∀ k, ¬ LbNamed n k s) (tags : Labels) :
    r.Lawful (s.addLb (.text a) fs tags) := by
  have hwf : (s.addLb (.text a) fs tags).WellFormed := h.wellFormed.addLb ha hown fun k fs' m hk hm hm' => by
    rw [hname] at hm'
    cases hm'
    exact hnone k ⟨fs', hk, hm⟩
  refine h.fewer hwf (Nat.le_succ _) (fun k tg hk => ⟨hk, ?_⟩) fun k l hl => ⟨hl, fun a' m _ hm => ?_⟩
  · rw [addLb_tags, Table.get?_insert, if_neg]
    intro heq
    rw [addLb_targetGroups, ← Table.get?_congr _ heq, h.wellFormed.tgFresh (Nat.le_refl _) ha] at hk
    cases hk
  · obtain ⟨fs', hk, hm⟩ := hm
    refine ⟨fs', ?_, hm⟩
    rw [addLb_loadBalancers, Table.get?_insert, if_neg, hk]
    intro heq
    rw [← Table.get?_congr _ heq, h.wellFormed.lbFresh (Nat.le_refl _) ha] at hk
    cases hk

/-- Requests about a load balancer that is there. -/
theorem Regime.Lawful.atLb (h : r.Lawful s) (hn : LbNamed n (.text a) s) (hq : AtLb (.text a) q) :
    r.Lawful (s.perform q).2 ∧ LbNamed n (.text a) (s.perform q).2 := by
  obtain ⟨fs, hfs, hname⟩ := hn
  have hne : ∀ {k tg}, s.targetGroups.get? k = some tg → (Key.text a == k) = false :=
    fun hk => ne_of_lbNamed h.wellFormed ⟨fs, hfs, hname⟩ hk
  rcases hq.cases hfs with hsame | ⟨f, v, hf, hput⟩ | ⟨l, hput⟩ | ⟨l, hput⟩
  · rw [hsame]
    exact ⟨h, fs, hfs, hname⟩
  · have hagree : AgreeIn ["LoadBalancerArn", "LoadBalancerName"] (Entries.put f v fs) fs :=
      AgreeIn.put hf v fs
    have hnamed := fun {k m} (hm : LbNamed m k s) =>
      lbNamed_putLb hm hfs (hagree "LoadBalancerName" (by simp))
    rw [hput]
    refine ⟨h.fewer (h.wellFormed.putLb hfs hagree) (Nat.le_refl _) (fun k tg hk => ⟨hk, rfl⟩)
      fun k l hl => ?_, ?_⟩
    · exact ⟨hl, fun a' m _ hm => hnamed hm⟩
    · exact hnamed ⟨fs, hfs, hname⟩
  · rw [hput]
    refine ⟨h.fewer (h.wellFormed.putTags _ _) (Nat.le_refl _) (fun k tg hk => ⟨hk, ?_⟩) fun k l hl =>
      ⟨hl, fun _ _ _ h => h⟩, fs, hfs, hname⟩
    rw [putTags_tags, Table.get?_insert, if_neg (Bool.eq_false_iff.1 (hne hk))]
  · rw [hput]
    refine ⟨h.fewer (h.wellFormed.putLbAttributes _ _) (Nat.le_refl _) (fun k tg hk => ⟨hk, rfl⟩)
      fun k l hl => ?_, fs, hfs, hname⟩
    exact ⟨hl, fun _ _ _ h => h⟩

end

/-! ## The load balancer -/

section

variable {r : Regime} {n a : String} {live : Value} {lb : LoadBalancerConfig} {i : Inputs} {service : Value}
  {settings : ServiceSettings} {s t u : Resources}

theorem Regime.allows_of_isSafe {q : Request} (hq : IsSafe q) (s : Resources) : r.Allows q s :=
  fun _ => accepts_of_isSafe hq s

/-- The load balancer that is described is the one of the name. -/
def Found (n : String) (live : Value) (u : Resources) : Prop :=
  ∃ a, live.item "LoadBalancerArn" = .ok (.text a) ∧ LbNamed n (.text a) u

theorem safe_atLb {α : Type} {p : Program α} (hp : p.Asks (AtLb (.text a))) (h : r.Lawful s)
    (hn : LbNamed n (.text a) s) :
    p.Safe r.Allows r.Lawful (fun _ u => LbNamed n (.text a) u) s := by
  have hsafe := hp.safe (J := r.Allows) (I := fun u => r.Lawful u ∧ LbNamed n (.text a) u)
    (fun q u hq hu => ⟨Regime.allows_of_isSafe hq.isSafe u, hu.1.atLb hu.2 hq⟩) ⟨h, hn⟩
  exact hsafe.mono (fun _ hu => hu.1) fun _ _ hu _ => hu.2

theorem safe_createLb (hlb : LbFor n lb) (h : r.Lawful s) (hnone : ∀ k, ¬ LbNamed n k s) :
    (createLb lb).Safe r.Allows r.Lawful (Found n) s := by
  refine safe_lift_bind h fun params hparams => ?_
  obtain ⟨hname, subnets, tags, hsubnets, htags⟩ := hlb.params hparams
  have hperform := perform_createLb s params hname hsubnets htags
  have hlawful : r.Lawful (s.addLb (.text (lbArn n s.nextId))
      (newLb params (.text n) subnets s.nextId) tags) :=
    h.addLb (numbered_lbArn n s.nextId) rfl rfl hnone tags
  have hcreate : (answer (.createLoadBalancer params)).Safe r.Allows r.Lawful (Found n) s := by
    refine safe_answer (Regime.allows_of_isSafe (q := .createLoadBalancer params) trivial s) h
      (by rwa [hperform])
      fun live hlive => ?_
    rw [hperform] at hlive ⊢
    cases hlive
    exact ⟨lbArn n s.nextId, rfl, _, Table.get?_insert_self _ _ _, rfl⟩
  refine Safe.bind (hcreate.warning _ _) fun live t ht hfound => safe_lift_bind ht fun arn _ => ?_
  exact Safe.bind (Q := fun _ => Found n live) (safe_info ht hfound) fun _ u hu hfound => safe_pure hu hfound

theorem safe_recreateLb (hlb : LbFor n lb) (h : r.Lawful s) (hlive : Found n live s) :
    (recreateLb live lb).Safe r.Allows r.Lawful (Found n) s := by
  obtain ⟨a, harn, hn⟩ := hlive
  have hperform := perform_deleteLb s a
  have hdelete : (answer (.deleteLoadBalancer (.text a))).Safe r.Allows r.Lawful
      (fun _ u => u = s.dropLb a) s := by
    refine safe_answer (Regime.allows_of_isSafe (q := .deleteLoadBalancer (.text a)) trivial s) h
      (by rw [hperform]; exact h.dropLb hn) fun _ _ => ?_
    rw [hperform]
  refine safe_lift_bind h fun arn harn' => ?_
  rw [harn] at harn'
  cases harn'
  refine Safe.bind hdelete fun _ t ht hdropped => ?_
  refine Safe.bind (Q := fun _ u => u = s.dropLb a) (safe_info ht hdropped) fun _ u hu hdropped => ?_
  obtain ⟨fs, hfs, hname⟩ := hn
  refine safe_createLb hlb hu fun k ⟨fs', hk, hname'⟩ => ?_
  exact not_named_dropLb h.wellFormed.uniqueLbNames hfs hname k fs' (hdropped ▸ hk) hname'

/-- A load balancer is described by its name if there is one. -/
theorem safe_loadBalancerNamed (n : String) (h : r.Lawful s) :
    (answer (.loadBalancerNamed (.text n))).Safe r.Allows r.Lawful
      (fun live u => live = .null ∧ (∀ k, ¬ LbNamed n k u) ∨
        (∃ fs, live = .object fs) ∧ Found n live u) s := by
  refine safe_answer (Regime.allows_of_isSafe (q := .loadBalancerNamed (.text n)) trivial s) h h
    fun live hlive => ?_
  rw [perform_loadBalancerNamed] at hlive ⊢
  cases hlive
  rcases named_cases "LoadBalancerName" (.text n) s.loadBalancers with hnull | ⟨k, fs, hk, hname, hfound⟩
  · exact .inl ⟨hnull, fun k ⟨fs, hk, hname⟩ => named_eq_null_iff.1 hnull k fs hk hname⟩
  · obtain ⟨a, rfl, harn⟩ := h.wellFormed.lbOwn hk
    rw [hfound]
    exact .inr ⟨⟨fs, rfl⟩, a, Fields.item_of_get_text harn, fs, hk, (Value.same_text_iff _ _).1 hname⟩

theorem safe_ensureLb (hlb : LbFor n lb) (h : r.Lawful s) :
    (ensureLb lb).Safe r.Allows r.Lawful (Found n) s := by
  unfold ensureLb
  rw [hlb.name]
  refine Safe.bind (safe_loadBalancerNamed n h) fun live t ht hlive => ?_
  rcases hlive with ⟨rfl, hnone⟩ | ⟨⟨fs, rfl⟩, hlive⟩
  · exact safe_createLb hlb ht hnone
  refine safe_lift_bind ht fun scheme _ => safe_ite (fun _ => safe_recreateLb hlb ht hlive) fun _ => ?_
  obtain ⟨a, harn, hn⟩ := hlive
  exact Safe.bind (safe_atLb (asks_modifyLb harn) ht hn) fun _ u hu hn => safe_pure hu ⟨a, harn, hn⟩

/-- The configuration of a load balancer leaves all as it is, and has the name for the Service. -/
theorem safe_buildLb (hstem : i.identity.stem = .text r.stem) (h : r.Lawful s) :
    (buildLb i service settings).Safe r.Allows r.Lawful
      (fun lb _ => ∃ ns name, names service = .ok (.text ns, .text name) ∧
        LbFor (lbName r.stem ns name) lb) s := by
  refine safe_lift_bind h fun ⟨ns, name⟩ hnames => safe_lift_bind h fun tags _ =>
    safe_lift_bind h fun n hn => ?_
  have hsurvey := surveys_resolveSubnets i.config.clusterName (.text settings.loadBalancer.scheme)
    (textList settings.loadBalancer.subnets)
  have hsubnets : (resolveSubnets i.config.clusterName (.text settings.loadBalancer.scheme)
      (textList settings.loadBalancer.subnets)).Safe r.Allows r.Lawful (fun _ _ => True) s := by
    refine ⟨(hsurvey.asks (P := IsSafe) (fun _ => trivial) fun _ => trivial).each fun q u hq =>
      Regime.allows_of_isSafe hq u, fun u hu => hsurvey.visits hu ▸ h, fun _ _ _ => trivial⟩
  refine Safe.bind hsubnets fun subnets t ht _ => safe_pure ht ?_
  obtain ⟨stem', hstem', hn⟩ := bind_eq_ok_iff.1 hn
  rw [hstem] at hstem'
  cases hstem'
  obtain ⟨ns', hns, hn⟩ := bind_eq_ok_iff.1 hn
  obtain ⟨name', hname, hn⟩ := bind_eq_ok_iff.1 hn
  cases hn
  obtain rfl := Value.eq_text_of_asText hns
  obtain rfl := Value.eq_text_of_asText hname
  exact ⟨ns', name', hnames, rfl, ⟨_, rfl⟩, ⟨_, rfl⟩⟩

theorem safe_convergeLb (hstem : i.identity.stem = .text r.stem) (h : r.Lawful s) :
    (convergeLb i service settings).Safe r.Allows r.Lawful
      (fun live u => ∃ ns name, names service = .ok (.text ns, .text name) ∧
        Found (lbName r.stem ns name) live u) s := by
  refine Safe.bind (safe_buildLb hstem h) fun lb t ht ⟨ns, name, hnames, hlb⟩ =>
    safe_lift_bind ht fun _ _ => ?_
  refine Safe.bind (safe_ensureLb hlb ht) fun live u hu ⟨a, harn, hn⟩ => safe_lift_bind hu fun arn harn' => ?_
  rw [harn] at harn'
  cases harn'
  exact Safe.bind (safe_atLb asks_convergeLbAttributes hu hn) fun _ v hv hn =>
    safe_pure hv ⟨ns, name, hnames, a, harn, hn⟩

end

/-! ## The target groups -/

section

variable {r : Regime} {i : Inputs} {service : Value} {settings : ServiceSettings}
  {groups : TargetGroups} {s t u : Resources}

/-- Names with the protocols of whom they are for. -/
def Regime.Titles (r : Regime) (name protocol : Value) : Prop :=
  ∃ n, name = .text n ∧ protocol = (r.claimant n).backend.protocol

theorem Regime.Lawful.titled (h : r.Lawful s) : Titled r.Titles s := by
  intro k tg hk
  obtain ⟨n, hn⟩ := h.group k tg hk
  exact ⟨n, hn.name, hn.protocol⟩

/-- Backends whose target groups have one name have one port. -/
theorem Regime.Governs.distinctBackends (h : r.Governs i service)
    (hsettings : settingsOf i service = .ok settings) :
    DistinctBackends i service settings := by
  intro specs hspecs
  refine List.pairwise_map.2 ((List.pairwise_map.1 (listenerSpecs_distinct hspecs)).imp_of_mem ?_)
  intro spec spec' hmem hmem' hports hused hused' n hn hn'
  have hb := (h.claim settings specs hsettings hspecs spec hmem hused n hn).2
  have hb' := (h.claim settings specs hsettings hspecs spec' hmem' hused' n hn').2
  have hport := ((backend_of_listenerSpecs hspecs hmem).2 hused).2
  have hport' := ((backend_of_listenerSpecs hspecs hmem').2 hused').2
  rw [hb, ← hb', hport'] at hport
  exact hports (Text.decimal_injective (Value.text.inj hport)).symm

/-- What is left of the target groups of a Service, wherever their converging is cut off, is lawful. -/
theorem Regime.Lawful.onlyGroups {ns name : String} (h : r.Lawful s) (hu : u.WellFormed)
    (honly : OnlyGroups (ServiceGroups i service settings) s u) (hgrown : Grown s u)
    (hkeeps : KeepsTags (ownerTags r.cluster ns name) s u) (htitled : Titled r.Titles u)
    (hclaim : ∀ n, ServiceGroups i service settings n → r.owner n = ownerTags r.cluster ns name) :
    r.Lawful u where
  wellFormed := hu
  given k tg hk := by
    rcases hgrown.targetGroups k tg hk with ⟨tg', hk'⟩ | hnew
    · exact (h.given k tg' hk').mono (Nat.le_refl _) hgrown.nextId
    · exact hnew.mono (Nat.zero_le _) (Nat.le_refl _)
  group k tg hk := by
    obtain ⟨n, hn, hprotocol⟩ := htitled k tg hk
    refine ⟨n, hn, hprotocol, ?_⟩
    rcases honly.groups k with hsame | ⟨n', hn', ⟨tg', hk', hname⟩, hbefore⟩
    · obtain ⟨n', hn'⟩ := h.group k tg (hsame.targetGroups ▸ hk)
      obtain rfl : n' = n := Value.text.inj (hn'.name.symm.trans hn)
      rw [tagsOf, hsame.tags]
      exact hn'.tags
    · rw [hk] at hk'
      cases hk'
      obtain rfl : n' = n := Value.text.inj (hname.symm.trans hn)
      rw [hclaim n' hn']
      refine hkeeps k tg hk fun tg' hthere => ?_
      obtain ⟨n, hold⟩ := h.group k tg' hthere
      obtain rfl : n = n' := Value.text.inj (hold.name.symm.trans (hbefore tg' hthere))
      exact hclaim n hn' ▸ hold.tags
  listener k l hl := by
    refine (h.listener k l (honly.listeners ▸ hl)).mono hgrown.nextId
      (fun k n hgiven hn => ?_) fun a m _ hm => ?_
    · obtain ⟨tg, hk, hn⟩ := hn
      rcases honly.groups k with hsame | ⟨n', -, ⟨tg', hk', hname⟩, hbefore⟩
      · exact ⟨tg, hsame.targetGroups ▸ hk, hn⟩
      · rw [hk] at hk'
        cases hk'
        obtain rfl : n' = n := Value.text.inj (hname.symm.trans hn)
        rcases hgrown.targetGroups k tg hk with ⟨tg', hthere⟩ | hnew
        · exact ⟨tg', hthere, hbefore tg' hthere⟩
        · exact (hgiven.disjoint hnew (Nat.le_refl _)).elim
    · obtain ⟨fs, hfs, hname⟩ := hm
      exact ⟨fs, honly.loadBalancers ▸ hfs, hname⟩

theorem safe_convergeTargetGroups (hgoverns : r.Governs i service)
    (hcluster : i.identity.clusterName = .text r.cluster) (hsettings : settingsOf i service = .ok settings)
    {ns name : String} (hnames : names service = .ok (.text ns, .text name)) (h : r.Lawful s) :
    (convergeTargetGroups i service settings).Safe r.Allows r.Lawful
      (fun groups u => GroupsReady i service settings groups u ∧ u.loadBalancers = s.loadBalancers) s := by
  have hasks : (convergeTargetGroups i service settings).Asks (GroupWork r.Titles) := by
    refine groupWork_convergeTargetGroups fun specs hspecs spec hspec hused n hn => ⟨n, rfl, ?_⟩
    rw [← (hgoverns.claim settings specs hsettings hspecs spec hspec hused n hn).2]
  have hclaim : ∀ n, ServiceGroups i service settings n → r.owner n = ownerTags r.cluster ns name := by
    rintro n ⟨specs, hspecs, b, hb, hused, hn⟩
    obtain ⟨spec, hspec, rfl⟩ := List.mem_map.1 hb
    have hnames' := (hgoverns.claim settings specs hsettings hspecs spec hspec hused n hn).1
    rw [hnames] at hnames'
    cases hnames'
    rfl
  have htags := asksTags_of_leavesOwner hnames hcluster (hgoverns.tags settings ns name hsettings hnames)
  have honly : (convergeTargetGroups i service settings).Always
      (fun u => u.WellFormed ∧ OnlyGroups (ServiceGroups i service settings) s u) s :=
        always_convergeTargetGroups h.wellFormed
  have htitled := hasks.safe (J := r.Allows) (I := Titled r.Titles)
    (fun q u hq hu => ⟨Regime.allows_of_isSafe hq.makes.isSafe u, titled_perform hu hq.makes⟩) h.titled
  refine ⟨htitled.each, fun u hu => ?_, fun groups u hu => ?_⟩
  · exact h.onlyGroups (honly u hu).1 (honly u hu).2 (always_grown _ s u hu)
      (keepsTags_convergeTargetGroups h.wellFormed htags u hu) (htitled.always u hu) hclaim
  · exact ⟨yields_convergeTargetGroups (hgoverns.distinctBackends hsettings) h.wellFormed hu,
      (honly.yields hu).2.loadBalancers⟩

end

end Converge

end Balancer
