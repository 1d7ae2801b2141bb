import Balancer.Proofs.Cloud.Lockstep
import Balancer.Proofs.Converge.Sorts
import Balancer.Proofs.Converge.Sync

/-!
# A sync in lockstep

On two clouds that agree in the estate of a Service, each step of a sync does the same
and keeps to the estate:

* `owns_of_atLb`, `owns_of_atGroup` : requests at an ARN of the estate keep to it;
* `twin_convergeLb` : what is found or created by name is in the estate, and so is what stands on it
  (`twin_convergeTargetGroups`, `twin_convergeListeners`, `twin_collect`);
* `twin_sync` : so does a sync, be it a reconcile or a delete.
-/

namespace Balancer

set_option autoImplicit false

namespace Converge

open Cluster Resources Routing Program

/-! ## Steps at a known ARN -/

section

variable {α : Type} {e : Estate} {s t u v : Resources} {a : String}

/-- A program that keeps to the estate does the same on both clouds. -/
theorem twin_of_asks {p : Program α} (hp : p.Asks (e.Owns s t)) (hs : e.Covers s) (ht : e.Covers t)
    (h : Lockstep e s t u v) : p.Twin (Lockstep e s t) (fun _ _ _ => True) u v :=
  hp.twin (fun _ _ _ hr h => h.inStep hs ht hr) h

theorem owns_of_atTags (ha : e.lb a ∨ e.group a) {r : Request} (h : AtTags (.text a) r) : e.Owns s t r := by
  cases r with
  | tags arn => exact ⟨a, h, ha⟩
  | addTags arn new =>
    obtain ⟨harn, fs, rfl⟩ := h
    exact ⟨a, fs, harn, ha, rfl⟩
  | removeTags arn keys => exact ⟨a, h, ha⟩
  | _ => exact h.elim

theorem owns_of_atLb (ha : e.lb a) {r : Request} (h : AtLb (.text a) r) : e.Owns s t r := by
  cases r with
  | lbAttributes arn => exact ⟨a, h, ha⟩
  | setIpAddressType arn type => exact ⟨a, h, ha⟩
  | setSubnets arn subnets => exact ⟨a, h, ha⟩
  | modifyLbAttributes arn new =>
    obtain ⟨harn, fs, rfl⟩ := h
    exact ⟨a, fs, harn, ha, rfl⟩
  | _ => exact owns_of_atTags (.inl ha) h

theorem owns_of_atGroup (ha : e.group a) {r : Request} (h : AtGroup (.text a) r) : e.Owns s t r := by
  cases r with
  | tgAttributes arn => exact ⟨a, h, ha⟩
  | targets arn => exact ⟨a, h, ha⟩
  | registerTargets arn new => exact ⟨a, h, ha⟩
  | deregisterTargets arn gone => exact ⟨a, h, ha⟩
  | modifyTgAttributes arn new =>
    obtain ⟨harn, fs, rfl⟩ := h
    exact ⟨a, fs, harn, ha, rfl⟩
  | _ => exact owns_of_atTags (.inr ha) h

/-- A step at an ARN of the estate does the same on both clouds. -/
theorem twin_atLb {p : Program α} (hp : p.Asks (AtLb (.text a))) (ha : e.lb a)
    (hs : e.Covers s) (ht : e.Covers t) (h : Lockstep e s t u v) :
    p.Twin (Lockstep e s t) (fun _ _ _ => True) u v :=
  twin_of_asks (hp.mono fun _ => owns_of_atLb ha) hs ht h

theorem twin_atGroup {p : Program α} (hp : p.Asks (AtGroup (.text a))) (ha : e.group a)
    (hs : e.Covers s) (ht : e.Covers t) (h : Lockstep e s t u v) :
    p.Twin (Lockstep e s t) (fun _ _ _ => True) u v :=
  twin_of_asks (hp.mono fun _ => owns_of_atGroup ha) hs ht h

end

/-! ## The load balancer -/

/-- The ARN of a load balancer that is not deleted. -/
def holding (e : Estate) (a : String) : Estate := { e with held := (· = a) }

/-- The load balancer that is described is the one of the name. -/
def IsLb (e : Estate) (live : Value) (u _ : Resources) : Prop :=
  ∃ a, live.item "LoadBalancerArn" = .ok (.text a) ∧ e.lb a ∧ LbNamed e.marks.lb (.text a) u

section

variable {e : Estate} {s t u v : Resources} {a : String} {live : Value} {lb : LoadBalancerConfig} {i : Inputs}
  {service : Value} {settings : ServiceSettings}

theorem covers_holding (hs : e.Covers s) (a : String) : (holding e a).Covers s :=
  ⟨hs.lb, hs.group, hs.future, hs.apart, hs.unused⟩

/-- The load balancer of the name may be held. -/
theorem lockstep_holding (h : Lockstep e s t u v) (hs : e.Covers s) (ht : e.Covers t)
    (hn : LbNamed e.marks.lb (.text a) u) : Lockstep (holding e a) s t u v where
  own := h.own
  nextId := h.nextId
  left :=
    { h.left with
      rest := h.left.rest
      held := by
        rintro _ rfl
        exact hn }
  right :=
    { h.right with
      rest := h.right.rest
      held := by
        rintro _ rfl
        exact (h.lbNamed_iff hs ht).2 hn }

theorem lockstep_of_holding (h : Lockstep (holding e a) s t u v) (hheld : ∀ b, ¬ e.held b) :
    Lockstep e s t u v where
  own := h.own
  nextId := h.nextId
  left := { h.left with rest := h.left.rest, held := fun b hb => (hheld b hb).elim }
  right := { h.right with rest := h.right.rest, held := fun b hb => (hheld b hb).elim }

theorem twin_createLb (hlb : LbFor e.marks.lb lb) (hs : e.Covers s) (ht : e.Covers t) (h : Lockstep e s t u v)
    (hnone : ∀ k, ¬ LbNamed e.marks.lb k u) : (createLb lb).Twin (Lockstep e s t) (IsLb e) u v := by
  unfold createLb
  refine twin_lift_bind h fun params hparams => ?_
  obtain ⟨hname, subnets, tags, hsubnets, htags⟩ := hlb.params hparams
  obtain ⟨hstep, b, fs, hanswer, hb, harn, hnamed⟩ := h.inStep_createLb hs ht hname hsubnets htags hnone
  refine Twin.bind (Q := IsLb e) (Twin.warning (twin_answer h hstep fun live hlive => ?_) _ _)
    fun live u' v' h' hlive => ?_
  · rw [hanswer] at hlive
    cases hlive
    exact ⟨b, Fields.item_of_get_text harn, hb, hnamed⟩
  · refine twin_lift_bind h' fun arn _ => Twin.bind (Q := fun _ => IsLb e live) (twin_info h' hlive)
      fun _ u'' v'' h'' hlive => ?_
    exact twin_pure h'' hlive

/-- The load balancer of the name was the only one. -/
theorem not_lbNamed_dropLb (h : u.Tidy) {n : String} (hn : LbNamed n (.text a) u) (k : Key) :
    ¬ LbNamed n k (u.dropLb a) := by
  rintro ⟨fs, hk, hname⟩
  obtain ⟨hne, hk⟩ := Table.get?_erase_eq_some_iff.1 hk
  exact Bool.eq_false_iff.1 hne (h.lbName hn ⟨fs, hk, hname⟩ ▸ BEq.rfl)

theorem twin_recreateLb (hlb : LbFor e.marks.lb lb) (hheld : ∀ b, ¬ e.held b)
    (hs : e.Covers s) (ht : e.Covers t) (h : Lockstep e s t u v) (hlive : IsLb e live u v) :
    (recreateLb live lb).Twin (Lockstep e s t) (IsLb e) u v := by
  obtain ⟨a, harn, ha, hnamed⟩ := hlive
  refine twin_lift_bind h fun arn harn' => ?_
  rw [harn] at harn'
  cases harn'
  have hdelete : (answer (.deleteLoadBalancer (.text a))).Twin (Lockstep e s t)
      (fun _ u' _ => u' = u.dropLb a) u v := by
    refine twin_answer h
      (h.inStep hs ht (r := .deleteLoadBalancer (.text a)) ⟨a, rfl, ha, hheld a⟩) fun _ _ => ?_
    rw [perform_deleteLb]
  refine Twin.bind hdelete fun _ u' v' h' hu' => ?_
  refine Twin.bind (Q := fun _ u'' _ => u'' = u.dropLb a) (twin_info h' hu') fun _ u'' v'' h'' hu'' => ?_
  exact twin_createLb hlb hs ht h'' (hu'' ▸ not_lbNamed_dropLb h.left.tidy hnamed)

theorem twin_ensureLb (hlb : LbFor e.marks.lb lb) (hheld : ∀ b, ¬ e.held b)
    (hs : e.Covers s) (ht : e.Covers t) (h : Lockstep e s t u v) :
    (ensureLb lb).Twin (Lockstep e s t) (IsLb e) u v := by
  unfold ensureLb
  rw [hlb.name]
  have hfind : (answer (.loadBalancerNamed (.text e.marks.lb))).Twin (Lockstep e s t)
      (fun live u' v' => live = .null ∧ (∀ k, ¬ LbNamed e.marks.lb k u') ∨
        (∃ fs, live = .object fs) ∧ IsLb e live u' v')
      u v := by
    refine twin_answer h (h.inStep_loadBalancerNamed hs ht) fun live hlive => ?_
    rw [perform_loadBalancerNamed] at hlive ⊢
    cases hlive
    rcases (h.named_lb hs ht).2 with hnone | ⟨a, fs, hfound, ha, harn, hnamed⟩
    · exact .inl hnone
    · rw [hfound]
      exact .inr ⟨⟨fs, rfl⟩, a, Fields.item_of_get_text harn, ha, hnamed⟩
  refine Twin.bind hfind fun live u' v' h' hlive => ?_
  rcases hlive with ⟨rfl, hnone⟩ | ⟨⟨fs, rfl⟩, hlive⟩
  · exact twin_createLb hlb hs ht h' hnone
  refine twin_lift_bind h' fun scheme _ =>
    twin_ite (fun _ => twin_recreateLb hlb hheld hs ht h' hlive) fun _ => ?_
  obtain ⟨a, harn, ha, hnamed⟩ := hlive
  -- the load balancer is not deleted, so that the one of the name is still there
  have hhold := lockstep_holding h' hs ht hnamed
  have hasks : (modifyLb (.object fs) lb).Asks (AtLb (.text a)) := asks_modifyLb harn
  have hmodify := twin_atLb hasks (show (holding e a).lb a from ha) (covers_holding hs a)
    (covers_holding ht a) hhold
  refine Twin.bind (Q := fun _ => IsLb e (.object fs))
    (hmodify.mono (fun _ _ h => lockstep_of_holding h hheld) ?_) ?_
  · exact fun _ u'' _ h'' _ => ⟨a, harn, ha, h''.left.held a rfl⟩
  · exact fun _ _ _ h'' hlive => twin_pure h'' hlive

theorem twin_buildLb (hname : NamesLb i service e.marks.lb) (hs : e.Covers s) (ht : e.Covers t)
    (h : Lockstep e s t u v) :
    (buildLb i service settings).Twin (Lockstep e s t) (fun lb _ _ => LbFor e.marks.lb lb) u v := by
  refine twin_lift_bind h fun ⟨ns, name⟩ hnames => twin_lift_bind h fun tags _ =>
    twin_lift_bind h fun lbName hlb => ?_
  refine Twin.bind
    (twin_of_asks ((surveys_resolveSubnets _ _ _).asks (fun _ => trivial) fun _ => trivial) hs ht h)
    fun subnets u' v' h' _ => ?_
  refine twin_pure h' ⟨?_, ⟨_, rfl⟩, ⟨_, rfl⟩⟩
  rw [hname ns name lbName hnames hlb]

theorem twin_convergeLb (hname : NamesLb i service e.marks.lb) (hheld : ∀ b, ¬ e.held b)
    (hs : e.Covers s) (ht : e.Covers t) (h : Lockstep e s t u v) :
    (convergeLb i service settings).Twin (Lockstep e s t) (IsLb e) u v := by
  refine Twin.bind (twin_buildLb hname hs ht h) fun lb u₁ v₁ h₁ hlb => twin_lift_bind h₁ fun _ _ => ?_
  refine Twin.bind (twin_ensureLb hlb hheld hs ht h₁) fun live u₂ v₂ h₂ hlive =>
    twin_lift_bind h₂ fun arn harn => ?_
  obtain ⟨a, hitem, ha, hnamed⟩ := hlive
  rw [hitem] at harn
  cases harn
  have hhold := lockstep_holding h₂ hs ht hnamed
  have hasks : (convergeLbAttributes (.text a) settings.loadBalancer.attributes.toTextObject).Asks
      (AtLb (.text a)) :=
    asks_convergeLbAttributes
  have hattributes := twin_atLb hasks (show (holding e a).lb a from ha) (covers_holding hs a)
    (covers_holding ht a) hhold
  refine Twin.bind (Q := fun _ => IsLb e live)
    (hattributes.mono (fun _ _ h => lockstep_of_holding h hheld) ?_) ?_
  · exact fun _ u₃ _ h₃ _ => ⟨a, hitem, ha, h₃.left.held a rfl⟩
  · exact fun _ _ _ h₃ hlive => twin_pure h₃ hlive

end

/-! ## Target groups -/

/-- The target group that is described belongs to the estate. -/
def IsGroup (e : Estate) (group : Value) (_ _ : Resources) : Prop :=
  ∃ a, group.item "TargetGroupArn" = .ok (.text a) ∧ e.group a

/-- The target groups of some backends belong to the estate. -/
def GroupsIn (e : Estate) (there : Table BackendKey TargetGroup) : Prop :=
  ∀ k g, there.get? k = some g → ∃ a, g.arn = .text a ∧ e.group a

section

variable {e : Estate} {s t u v : Resources} {a n : String} {i : Inputs} {service : Value}
  {settings : ServiceSettings} {b : Backend} {check : Fields}

theorem twin_createTargetGroup (hn : e.marks.group n) (hs : e.Covers s) (ht : e.Covers t)
    (h : Lockstep e s t u v) (hnone : ∀ k, ¬ GroupNamed n k u) (targetType protocol : Value)
    (tags : Table String Value) :
    (createTargetGroup i n targetType protocol check tags.toObject).Twin
      (Lockstep e s t) (IsGroup e) u v := by
  obtain ⟨vs, hvs, hread⟩ := readTags_tagList tags
  refine twin_lift_bind h fun vs' hvs' => ?_
  rw [hvs] at hvs'
  cases hvs'
  have hname : Fields.item (targetGroupParams i n targetType protocol check vs) "Name" = .ok (.text n) := rfl
  obtain ⟨hstep, b, fs, hanswer, hb, harn⟩ := h.inStep_createTg hs ht hn hname hread hnone
  refine Twin.bind (Q := IsGroup e) (twin_answer h hstep fun group hgroup => ?_)
    fun group u' v' h' hgroup => ?_
  · rw [hanswer] at hgroup
    cases hgroup
    exact ⟨b, Fields.item_of_get_text harn, hb⟩
  · refine twin_lift_bind h' fun arn _ => Twin.bind (Q := fun _ => IsGroup e group) (twin_info h' hgroup) ?_
    exact fun _ u'' v'' h'' hgroup => twin_pure h'' hgroup

/-- A target group that was modified has its ARN. -/
theorem isGroup_of_modified (h : Lockstep e s t u v) {params : Fields} {group : Value}
    (harn : Fields.item params "TargetGroupArn" = .ok (.text a)) (ha : e.group a)
    (hok : (u.perform (.modifyTargetGroup params)).1 = .ok group) (u' v' : Resources) :
    IsGroup e group u' v' := by
  cases hk : u.targetGroups.get? (.text a) with
  | none =>
    have hrefused : u.perform (.modifyTargetGroup params) = (.error (.noField (.text a)), u) := by
      rw [perform_eq]
      show u.change (u.modifyTg params) = _
      unfold Resources.modifyTg
      rw [harn]
      simp only [bind, Except.bind, at_text, hk]
      rfl
    rw [hrefused] at hok
    cases hok
  | some tg =>
    rw [perform_modifyTg u a params harn hk] at hok
    cases hok
    obtain ⟨arn, harn', hown⟩ := h.left.tidy.tgOwn hk
    cases harn'
    have hkeep : Fields.get (modifiedTg tg params) "TargetGroupArn" = .text a :=
      (get_modifiedTg (by decide) tg params).trans hown
    exact ⟨a, Fields.item_of_get_text hkeep, ha⟩

theorem twin_modifyTargetGroup {group : Value} (hs : e.Covers s) (ht : e.Covers t) (h : Lockstep e s t u v)
    (hgroup : IsGroup e group u v) :
    (modifyTargetGroup n group check).Twin (Lockstep e s t) (IsGroup e) u v := by
  refine twin_lift_bind h fun differs _ => twin_ite (fun _ => twin_lift_bind h fun arn harn => ?_) fun _ =>
    twin_pure h hgroup
  obtain ⟨a, hitem, ha⟩ := hgroup
  rw [hitem] at harn
  cases harn
  have hparams : Fields.item (("TargetGroupArn", .text a) :: check) "TargetGroupArn" = .ok (.text a) := rfl
  refine Twin.bind (Q := IsGroup e)
    (twin_answer h (h.inStep hs ht (r := .modifyTargetGroup _) ⟨a, hparams, ha⟩) fun group hok => ?_) ?_
  · exact isGroup_of_modified h hparams ha hok _ _
  · exact fun group u' v' h' hgroup => Twin.bind (Q := fun _ => IsGroup e group)
      (twin_info h' hgroup) fun _ _ _ h'' hgroup =>
      twin_pure h'' hgroup

theorem twin_ensureTargetGroup (hn : e.marks.group n) (hs : e.Covers s) (ht : e.Covers t)
    (h : Lockstep e s t u v) (targetType protocol : Value) (tags : Table String Value) :
    (ensureTargetGroup i n targetType protocol check tags.toObject).Twin
      (Lockstep e s t) (IsGroup e) u v := by
  unfold ensureTargetGroup
  have hfind : (answer (.targetGroupNamed (.text n))).Twin (Lockstep e s t)
      (fun group u' v' => group = .null ∧ (∀ k, ¬ GroupNamed n k u') ∨
        (∃ fs, group = .object fs) ∧ IsGroup e group u' v')
      u v := by
    refine twin_answer h (h.inStep_targetGroupNamed hs ht hn) fun group hgroup => ?_
    rw [perform_targetGroupNamed] at hgroup ⊢
    cases hgroup
    rcases (h.named_tg hs ht hn).2 with hnone | ⟨a, fs, hfound, ha, harn⟩
    · exact .inl hnone
    · rw [hfound]
      exact .inr ⟨⟨fs, rfl⟩, a, Fields.item_of_get_text harn, ha⟩
  refine Twin.bind hfind fun group u' v' h' hgroup => ?_
  rcases hgroup with ⟨rfl, hnone⟩ | ⟨⟨fs, rfl⟩, hgroup⟩
  · exact twin_createTargetGroup hn hs ht h' hnone targetType protocol tags
  · exact twin_modifyTargetGroup hs ht h' hgroup

theorem twin_convergeTargetGroup
    (hn : ∀ n, groupName i service settings b = .ok n → e.marks.group n) (hs : e.Covers s) (ht : e.Covers t)
    (h : Lockstep e s t u v) :
    (convergeTargetGroup i service settings b).Twin (Lockstep e s t)
      (fun g _ _ => ∃ a, g.arn = .text a ∧ e.group a) u v := by
  rw [convergeTargetGroup_eq]
  refine twin_lift_bind h fun plan hplan => ?_
  have hn := hn plan.name (planGroup_eq_ok hplan).1
  refine Twin.bind (twin_ensureTargetGroup hn hs ht h _ _ plan.tags) fun group u' v' h' hgroup => ?_
  obtain ⟨a, hitem, ha⟩ := hgroup
  refine twin_lift_bind h' fun arn harn => ?_
  rw [hitem] at harn
  cases harn
  refine Twin.bind (twin_atGroup (asks_convergeTags.mono fun _ => AtTags.atGroup) ha hs ht h')
    fun _ _ _ h' _ => ?_
  refine Twin.bind (twin_atGroup asks_convergeTgAttributes ha hs ht h') fun _ _ _ h' _ =>
    twin_lift_bind h' fun ts _ => ?_
  exact Twin.bind (twin_atGroup asks_convergeTargets ha hs ht h') fun _ _ _ h' _ => twin_pure h' ⟨a, rfl, ha⟩

theorem GroupsIn.insert {there : Table BackendKey TargetGroup} {g : TargetGroup} (h : GroupsIn e there)
    (hg : g.arn = .text a) (ha : e.group a) (key : BackendKey) : GroupsIn e (there.insert key g) := by
  intro k g' hk
  rcases Table.get?_insert_eq_some_iff.1 hk with ⟨-, rfl⟩ | ⟨-, hk⟩
  · exact ⟨a, hg, ha⟩
  · exact h k g' hk

theorem twin_convergeBackends {bs : List Backend} {there : Table BackendKey TargetGroup}
    (hn : ∀ n, GroupsOf i service settings bs n → e.marks.group n)
    (hthere : GroupsIn e there) (hs : e.Covers s) (ht : e.Covers t) (h : Lockstep e s t u v) :
    (convergeBackends i service settings there bs).Twin (Lockstep e s t)
      (fun groups _ _ => GroupsIn e groups) u v := by
  -- by the list of backends: the target groups that are there before each of them belong to the estate
  induction bs generalizing there u v with
  | nil => exact twin_pure h hthere
  | cons b bs ih =>
    have hrest : ∀ n, GroupsOf i service settings bs n → e.marks.group n := fun n ⟨b', hb', hn'⟩ =>
      hn n ⟨b', List.mem_cons_of_mem b hb', hn'⟩
    refine twin_ite (fun _ => ih hrest hthere h) fun hused => twin_lift_bind h fun key _ => ?_
    refine twin_ite (fun _ => ih hrest hthere h) fun _ => ?_
    have hone : ∀ n, groupName i service settings b = .ok n → e.marks.group n := fun n hname =>
      hn n ⟨b, List.mem_cons_self, Bool.eq_false_iff.2 hused, hname⟩
    refine Twin.bind (twin_convergeTargetGroup hone hs ht h) fun g u' v' h' hg => ?_
    obtain ⟨a, harn, ha⟩ := hg
    exact ih hrest (hthere.insert harn ha key) h'

/-- The target groups belong to the estate, and the tags that select them are those of the Service. -/
structure AllIn (e : Estate) (groups : TargetGroups) : Prop where
  byBackend : GroupsIn e groups.byBackend
  selector : groups.selector = .object e.marks.selector

theorem twin_convergeTargetGroups (hn : ∀ n, ServiceGroups i service settings n → e.marks.group n)
    (hsel : ∀ ns name selector, names service = .ok (ns, name) → i.identity.selector ns name = .ok selector →
      e.marks.selector = selector.entries) (hs : e.Covers s) (ht : e.Covers t) (h : Lockstep e s t u v) :
    (convergeTargetGroups i service settings).Twin (Lockstep e s t)
      (fun groups _ _ => AllIn e groups) u v := by
  refine twin_lift_bind h fun ⟨ns, name⟩ hnames => twin_lift_bind h fun specs hspecs => ?_
  have hempty : GroupsIn e ∅ := fun _ _ hk => nomatch hk
  refine Twin.bind (twin_convergeBackends (fun n hgroup => hn n ⟨specs, hspecs, hgroup⟩) hempty hs ht h) ?_
  intro byBackend u' v' h' hin
  refine twin_lift_bind h' fun selector hselector => twin_pure h' ⟨hin, ?_⟩
  rw [hsel ns name selector hnames hselector]
  rfl

/-- The two runs may find the target groups in another order, but delete them in one. -/
theorem twin_collect {groups : TargetGroups}
    (hsel : groups.selector = .object e.marks.selector) (hs : e.Covers s) (ht : e.Covers t)
    (h : Lockstep e s t u v) :
    (collect groups).Twin (Lockstep e s t) (fun _ _ _ => True) u v := by
  refine twin_lift_bind h fun inUse _ => ?_
  rw [hsel]
  obtain ⟨x, hx, hxkeys⟩ := tagged_eq_ok u e.marks.selector
  obtain ⟨y, hy, hykeys⟩ := tagged_eq_ok v e.marks.selector
  obtain ⟨hperm, hown⟩ := h.owned_perm hs ht
  have htexts : ∀ k ∈ u.owned e.marks.selector, ∃ a, k = .text a := fun k hk => (hown k hk).imp fun _ h => h.1
  have hsort : sortBy Key.before x.keys = sortBy Key.before y.keys := by
    rw [hxkeys, hykeys]
    exact Key.sortBy_of_perm hperm htexts
  refine twin_answer_bind (a := x) (b := y) (u := u) (v := v) h ?_ ?_ ?_ ?_
    (twin_lift_bind h fun row hrow => ?_)
  · rw [recorded_eq, recorded_eq]
    rfl
  · rw [perform_resourcesTagged, hx]
  · rw [perform_resourcesTagged, hy]
  · simp only [hsort]
  · refine twin_of_asks (asks_deleteTargetGroups fun k hk => ?_) hs ht h
    have howned : k ∈ u.owned e.marks.selector :=
      hxkeys ▸ (sortBy_perm hrow).mem_iff.1 (List.mem_of_mem_filter hk)
    obtain ⟨a, rfl, ha⟩ := hown k howned
    exact ⟨a, rfl, ha⟩

end

/-! ## Listeners -/

/-- No declared action names a target group. -/
def ActionsApart (actions : Actions) (s : Resources) : Prop :=
  ∀ name action, actions.get? name = some action → ∀ k, (Fields.get action "TargetGroupArn").key = .ok k →
    s.targetGroups.get? k = none

/-- No listener of the rest is in the way of a described one. -/
def IsListener (e : Estate) (s t : Resources) (l : Value) : Prop :=
  ∃ a, l.item "ListenerArn" = .ok (.text a) ∧ Free e s a ∧ Free e t a

section

variable {e : Estate} {s t u v : Resources} {a : String} {service : Value} {settings : ServiceSettings}
  {groups : TargetGroups} {b : Backend} {spec : ListenerSpec} {built : List Fields}
  {current : Table Key Value}

/-- A listener with actions that are built forwards to target groups of the estate, or to none. -/
theorem reaches_of_buildActions (hin : GroupsIn e groups.byBackend) (hs : ActionsApart settings.actions s)
    (ht : ActionsApart settings.actions t) (h : buildActions settings b groups = .ok built)
    {known : String × Value} (hknown : known.1 ≠ "DefaultActions") (spec : ListenerSpec) :
    e.Reaches s t (listenerParams known spec built) := by
  obtain ⟨action, rfl, haction⟩ := action_of_buildActions h
  intro as has x hx v k hv hk
  have hget : Fields.get (listenerParams known spec (numbered [action])) "DefaultActions" =
      .list [.object (Entries.put "Order" (.int 1) action)] := by
    simp [listenerParams, Fields.get, Entries.find?, hknown, numbered]
  have hactions : actionsOf (listenerParams known spec (numbered [action])) =
      .ok [.object (Entries.put "Order" (.int 1) action)] := by
    unfold actionsOf
    rw [hget]
    rfl
  rw [hactions] at has
  cases has
  rw [List.mem_singleton.1 hx, Value.get_object, Fields.get_put, if_neg (by decide)] at hv
  cases hv
  rcases haction with ⟨name, hname, -⟩ | ⟨-, key, g, -, hg, rfl⟩
  · exact .inr ⟨hs name action hname k hk, ht name action hname k hk⟩
  · obtain ⟨a, harn, ha⟩ := hin key g hg
    have hk' : (Value.text a).key = .ok k := harn ▸ hk
    cases hk'
    exact .inl ha

theorem mem_of_byPort {described : List Value} (h : byPort described = .ok current) {k : Key} {l : Value}
    (hk : current.get? k = some l) : l ∈ described := by
  obtain ⟨ps, hps, h⟩ := bind_eq_ok_iff.1 h
  cases h
  rw [Table.get?_ofList] at hk
  obtain ⟨k', -, hmem⟩ := Entries.mem_of_find? hk
  obtain ⟨l', hl', h⟩ := mem_of_mapM hps _ (List.mem_reverse.1 hmem)
  obtain ⟨p, -, h⟩ := bind_eq_ok_iff.1 h
  obtain ⟨key, -, h⟩ := bind_eq_ok_iff.1 h
  cases h
  exact hl'

theorem IsListener.free {l arn : Value} (h : IsListener e s t l) (harn : l.item "ListenerArn" = .ok arn) :
    ∃ b, arn = .text b ∧ Free e s b ∧ Free e t b := by
  obtain ⟨b, hb, hs, ht⟩ := h
  rw [hb] at harn
  cases harn
  exact ⟨b, rfl, hs, ht⟩

theorem owns_ensureListeners (ha : e.lb a) (hheld : e.held a)
    (hcurrent : ∀ k l, current.get? k = some l → IsListener e s t l)
    {pairs : List (ListenerSpec × List Fields)} (hreach : ∀ x ∈ pairs, ∀ known : String × Value,
      known.1 ≠ "DefaultActions" → e.Reaches s t (listenerParams known x.1 x.2)) :
    (ensureListeners (.text a) current pairs).Asks (e.Owns s t) := by
  refine asks_ensureListeners (fun x hx => ⟨a, rfl, ha, hheld, hreach x hx _ (by simp)⟩)
    fun x hx l arn hl harn => ?_
  obtain ⟨b, rfl, hs, ht⟩ := (hcurrent _ l hl).free harn
  exact ⟨b, rfl, hs, ht, by simp [listenerParams], by simp [listenerParams], hreach x hx _ (by simp)⟩

theorem owns_deleteListeners {row : List (Key × Value)} (hrow : ∀ x ∈ row, IsListener e s t x.2) :
    (deleteListeners row).Asks (e.Owns s t) :=
  asks_deleteListeners fun x hx _ harn => (hrow x hx).free harn

theorem owns_deleteEach {ls : List Value} (hls : ∀ l ∈ ls, IsListener e s t l) :
    (deleteEach ls).Asks (e.Owns s t) :=
  asks_deleteEach fun l hl _ harn => (hls l hl).free harn

theorem twin_listeners (ha : e.lb a) (hs : e.Covers s) (ht : e.Covers t) (h : Lockstep e s t u v) :
    (answer (.listeners (.text a))).Twin (Lockstep e s t)
      (fun ls _ _ => ∀ l ∈ ls, IsListener e s t l) u v := by
  refine twin_answer h (h.inStep hs ht (r := .listeners _) ⟨a, rfl, ha⟩) fun ls hls l hl => ?_
  rw [perform_listeners] at hls
  cases hls
  obtain ⟨fs, hfs, rfl⟩ := List.mem_map.1 hl
  obtain ⟨b, hb, hfree⟩ := h.free_of_listenersOf ha hfs
  exact ⟨b, Fields.item_of_get_text hb, hfree⟩

theorem twin_convergeListeners (ha : e.lb a) (hheld : e.held a) (hin : GroupsIn e groups.byBackend)
    (hsa : ActionsApart settings.actions s) (hta : ActionsApart settings.actions t)
    (hs : e.Covers s) (ht : e.Covers t) (h : Lockstep e s t u v) :
    (convergeListeners (.text a) service settings groups).Twin (Lockstep e s t) (fun _ _ _ => True) u v := by
  refine twin_lift_bind h fun specs _ => twin_lift_bind h fun built hbuilt => ?_
  refine Twin.bind (twin_listeners ha hs ht h) fun described u' v' h' hdescribed =>
    twin_lift_bind h' fun current hcurrent => ?_
  have hknown : ∀ k l, current.get? k = some l → IsListener e s t l :=
    fun k l hk => hdescribed l (mem_of_byPort hcurrent hk)
  have hreach : ∀ x ∈ specs.zip built, ∀ known : String × Value,
      known.1 ≠ "DefaultActions" → e.Reaches s t (listenerParams known x.1 x.2) := by
    intro x hx known hk
    obtain ⟨spec, -, hbuild⟩ := mem_of_mapM hbuilt x.2 (List.of_mem_zip hx).2
    exact reaches_of_buildActions hin hsa hta hbuild hk x.1
  refine twin_of_asks (Asks.bind (owns_ensureListeners ha hheld hknown hreach) fun _ => ?_) hs ht h'
  refine asks_lift_bind fun row hrow => Asks.bind (owns_deleteListeners fun x hx => ?_) fun _ => asks_pure _
  obtain ⟨hmem, -⟩ := List.mem_filter.1 ((sortBy_perm hrow).mem_iff.1 hx)
  exact hknown x.1 x.2 (Table.get?_of_mem hmem)

end

/-! ## A reconcile, a delete and a sync -/

/-- The marks are those of a Service, as its names and the store have it. -/
structure Marks.Names (m : Marks) (i : Inputs) (service : Value) : Prop where
  lb : NamesLb i service m.lb
  group : ∀ settings n, settingsOf i service = .ok settings → ServiceGroups i service settings n → m.group n
  selector : ∀ ns name selector, names service = .ok (ns, name) → i.identity.selector ns name = .ok selector →
    m.selector = selector.entries

/-- The declared actions of a Service name no target group. -/
def DeclaresApart (i : Inputs) (service : Value) (s : Resources) : Prop :=
  ∀ settings, settingsOf i service = .ok settings → ActionsApart settings.actions s

section

variable {e : Estate} {s t u v : Resources} {i : Inputs} {service live key : Value}
  {settings : ServiceSettings} {ns name : String}

theorem twin_equip (hm : e.marks.Names i service) (hsettings : settingsOf i service = .ok settings)
    (hsa : DeclaresApart i service s) (hta : DeclaresApart i service t)
    (hheld : ∀ b, ¬ e.held b) (hs : e.Covers s) (ht : e.Covers t) (h : Lockstep e s t u v)
    (hlive : IsLb e live u v) :
    (equip i service settings live).Twin (Lockstep e s t) (fun _ _ _ => True) u v := by
  obtain ⟨a, harn, ha, hnamed⟩ := hlive
  refine twin_lift_bind h fun arn harn' => ?_
  rw [harn] at harn'
  cases harn'
  -- from here on the load balancer is there to the end
  have hsteps : ∀ {u v}, Lockstep (holding e a) s t u v →
      (convergeTargetGroups i service settings >>= serve service settings (.text a) live).Twin
        (Lockstep (holding e a) s t)
        (fun _ _ _ => True) u v := by
    intro u v h
    have hs' := covers_holding hs a
    have ht' := covers_holding ht a
    refine Twin.bind
      (twin_convergeTargetGroups (fun n => hm.group settings n hsettings) hm.selector hs' ht' h) ?_
    intro groups u₁ v₁ h₁ hall
    refine Twin.bind (twin_convergeListeners ha rfl hall.byBackend (hsa settings hsettings)
      (hta settings hsettings) hs' ht' h₁) ?_
    intro _ u₂ v₂ h₂ _
    refine Twin.bind (twin_collect hall.selector hs' ht' h₂) fun _ u₃ v₃ h₃ _ => ?_
    exact twin_lift_bind h₃ fun _ _ => twin_pure h₃ trivial
  refine (hsteps (lockstep_holding h hs ht hnamed)).mono
    (fun _ _ h => lockstep_of_holding h hheld) fun _ _ _ _ h => h

theorem twin_convergeService (hm : e.marks.Names i service) (hsa : DeclaresApart i service s)
    (hta : DeclaresApart i service t) (hheld : ∀ b, ¬ e.held b) (hs : e.Covers s) (ht : e.Covers t)
    (h : Lockstep e s t u v) :
    (convergeService i service).Twin (Lockstep e s t) (fun _ _ _ => True) u v := by
  rw [convergeService_eq]
  refine twin_lift_bind h fun key hkey => twin_lift_bind h fun settings hsettings => ?_
  have hsettingsOf : settingsOf i service = .ok settings := by rw [settingsOf, hkey]; exact hsettings
  refine Twin.bind (twin_convergeLb hm.lb hheld hs ht h) fun live u' v' h' hlive => ?_
  exact twin_equip hm hsettingsOf hsa hta hheld hs ht h' hlive

theorem twin_dismantle (hsel : ∀ selector, i.identity.selector (.text ns) (.text name) = .ok selector →
      e.marks.selector = selector.entries) (hheld : ∀ b, ¬ e.held b) (hs : e.Covers s) (ht : e.Covers t)
    (h : Lockstep e s t u v) :
    (dismantle i ns name e.marks.lb).Twin (Lockstep e s t) (fun _ _ _ => True) u v := by
  have hfind : (answer (.loadBalancerNamed (.text e.marks.lb))).Twin (Lockstep e s t)
      (fun live _ _ => live = .null ∨ ∃ fs a, live = .object fs ∧ e.lb a ∧
        Fields.get fs "LoadBalancerArn" = .text a)
      u v := by
    refine twin_answer h (h.inStep_loadBalancerNamed hs ht) fun live hlive => ?_
    rw [perform_loadBalancerNamed] at hlive
    cases hlive
    exact (h.named_lb hs ht).2.imp (fun h => h.1) fun ⟨a, fs, hfound, ha, harn, _⟩ =>
      ⟨fs, a, hfound, ha, harn⟩
  refine Twin.bind hfind fun live u₁ v₁ h₁ hlive => ?_
  rcases hlive with rfl | ⟨fs, a, rfl, ha, harn⟩
  · exact twin_pure h₁ trivial
  refine twin_lift_bind h₁ fun arn harn' => ?_
  rw [Value.item_object, Fields.item_of_get_text harn] at harn'
  cases harn'
  have hlisteners : (deleteAllListeners (.text a)).Twin (Lockstep e s t) (fun _ _ _ => True) u₁ v₁ :=
    Twin.bind (twin_listeners ha hs ht h₁) fun ls u₂ v₂ h₂ hls => twin_of_asks (owns_deleteEach hls) hs ht h₂
  refine Twin.bind (Q := fun _ _ _ => True)
    (Twin.bind hlisteners fun _ u₂ v₂ h₂ _ => twin_lift_bind h₂ fun selector hsel' => ?_) ?_
  · exact twin_collect (congrArg Value.object (hsel selector hsel').symm) hs ht h₂
  · refine fun _ u₃ v₃ h₃ _ => twin_of_asks
      (Asks.bind (asks_answer ⟨a, rfl, ha, hheld a⟩) fun _ => asks_info _ _) hs ht h₃

theorem asks_publish {P : Request → Prop} (lb : LoadBalancer) : (publish i service lb).Asks P := by
  refine asks_ite (Asks.bind (asks_lift _) fun _ => asks_ite ?_ (asks_pure _)) (asks_pure _)
  exact Asks.bind (asks_lift _) fun _ => Asks.bind (asks_lift _) fun _ => trivial

/-- The marks are those of the Service of a key, be it there or not. -/
structure Marks.Keyed (m : Marks) (i : Inputs) (key : Value) : Prop where
  wanted : ∀ service, wantedAt i key = .ok (some service) → m.Names i service
  gone : wantedAt i key = .ok none → ∀ ns name, splitKey key = .ok (ns, name) →
    (∀ n, i.identity.nameLb (.text ns) (.text name) = .ok n → n = m.lb) ∧
      ∀ selector, i.identity.selector (.text ns) (.text name) = .ok selector → m.selector = selector.entries

theorem twin_sync (hm : e.marks.Keyed i key)
    (hapart : ∀ service, wantedAt i key = .ok (some service) →
      DeclaresApart i service s ∧ DeclaresApart i service t)
    (hheld : ∀ b, ¬ e.held b) (hs : e.Covers s) (ht : e.Covers t) (h : Lockstep e s t u v) :
    (sync i key).Twin (Lockstep e s t) (fun _ _ _ => True) u v := by
  rw [sync_eq]
  refine twin_lift_bind h fun wanted hwanted => ?_
  cases wanted with
  | none =>
    rw [deleteService_eq]
    refine Twin.bind (Q := fun _ _ _ => True) (twin_lift_bind h fun ⟨ns, name⟩ hkey => ?_) fun _ u' v' h' _ =>
      twin_pure h' trivial
    obtain ⟨hlb, hsel⟩ := hm.gone hwanted ns name hkey
    refine twin_lift_bind h fun lbName hname => ?_
    rw [hlb lbName hname]
    exact twin_dismantle hsel hheld hs ht h
  | some service =>
    obtain ⟨hsa, hta⟩ := hapart service hwanted
    refine Twin.bind (Q := fun _ _ _ => True) (twin_notice h trivial) fun _ u₁ v₁ h₁ _ => ?_
    refine Twin.bind (twin_convergeService (hm.wanted service hwanted) hsa hta hheld hs ht h₁)
      fun lb u₂ v₂ h₂ _ => ?_
    exact Twin.bind (twin_of_asks (asks_publish lb) hs ht h₂) fun _ u₃ v₃ h₃ _ => twin_pure h₃ trivial

end

end Converge

end Balancer
