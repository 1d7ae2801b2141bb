import Balancer.Proofs.Converge.Deletion
import Balancer.Proofs.Converge.Ensuring
import Balancer.Proofs.Converge.Strict

/-!
# A delete keeps its anchor

What is left of a Service is found again through its load balancer, so a delete has to leave that to the end.

* `Matching wanted s k` : a target group carries the tags that select those of a Service;
* `KeepsAnchor a wanted s u` : target groups are deleted only when no listener of the load balancer
  is left, and the load balancer only when none of the matching target groups is left either. All
  else is spared (`Spared`);
* `Cleared` : nothing of the Service is left;
* `deleteService_keepsAnchor` : wherever a delete ends, with whatever gate, it has kept its anchor, and if
  it returns all is cleared.
-/

namespace Balancer

set_option autoImplicit false

namespace Converge

open Cluster Resources

/-- A target group carries all given tags. -/
def Matching (wanted : Fields) (s : Resources) (k : Key) : Prop :=
  ∃ tg, s.targetGroups.get? k = some tg ∧ hasTags wanted (s.tagsOf k) = true

/-- The load balancer has a listener. -/
def HasListener (a : String) (s : Resources) : Prop :=
  ∃ k l, s.listeners.get? k = some l ∧ Fields.get l "LoadBalancerArn" = .text a

/-- Other load balancers, their listeners, and target groups that do not match are as they were. -/
structure Spared (a : String) (wanted : Fields) (s u : Resources) : Prop where
  lb : ∀ k, k ≠ .text a →
    u.loadBalancers.get? k = s.loadBalancers.get? k ∧ u.lbAttributes.get? k = s.lbAttributes.get? k
  listener : ∀ k l, Fields.get l "LoadBalancerArn" ≠ .text a →
    (u.listeners.get? k = some l ↔ s.listeners.get? k = some l)
  group : ∀ k, ¬ Matching wanted s k → u.targetGroups.get? k = s.targetGroups.get? k ∧
    u.targets.get? k = s.targets.get? k ∧ u.tgAttributes.get? k = s.tgAttributes.get? k
  tags : ∀ k, k ≠ .text a → ¬ Matching wanted s k → u.tags.get? k = s.tags.get? k

/-- The deletions that were done are those in front: of listeners of a load balancer, then of matching target
groups, then of the load balancer. -/
structure KeepsAnchor (a : String) (wanted : Fields) (s u : Resources) : Prop where
  listeners_first : (∃ k, u.targetGroups.get? k ≠ s.targetGroups.get? k) → ¬ HasListener a u
  lb_last : (HasListener a u ∨ ∃ k, Matching wanted s k ∧ u.targetGroups.get? k ≠ none) →
    u.loadBalancers.get? (.text a) = s.loadBalancers.get? (.text a)
  spared : Spared a wanted s u

/-- Neither the load balancer of a name nor its listeners nor the matching target groups are left. -/
structure Cleared (a lbName : String) (wanted : Fields) (s u : Resources) : Prop where
  listeners : ¬ HasListener a u
  groups : ∀ k, Matching wanted s k → u.targetGroups.get? k = none
  lb : ∀ k lb, u.loadBalancers.get? k = some lb → Fields.get lb "LoadBalancerName" ≠ .text lbName

section

variable {i : Inputs} {ns name lbName a : String} {key : Value}
  {selector : Table String Value} {wanted fs : Fields} {gone gone' : List Key} {s t u : Resources} {k : Key}

theorem matching_iff (hs : s.OwnArns) : Matching wanted s k ↔ k ∈ s.owned wanted := by
  constructor
  · rintro ⟨tg, hk, htags⟩
    obtain ⟨arn, rfl, -⟩ := hs.tg hk
    exact mem_owned_of_get? hk htags
  · exact get?_of_mem_owned

/-- What is not among texts is not left out with them. -/
theorem get?_eraseAll_of_notMem {β : Type} (table : Table Key β)
    (hgone : ∀ k ∈ gone, ∃ arn, k = .text arn) (hk : k ∉ gone) :
    (table.eraseAll gone).get? k = table.get? k := by
  rw [Table.get?_eraseAll, if_neg]
  intro hany
  obtain ⟨k', hk', hkk⟩ := List.any_eq_true.1 hany
  obtain ⟨arn, rfl⟩ := hgone k' hk'
  exact hk (Key.eq_text_of_beq hkk ▸ hk')

theorem get?_eraseAll_of_mem {β : Type} (table : Table Key β) (hk : k ∈ gone) :
    (table.eraseAll gone).get? k = none := by
  rw [Table.get?_eraseAll, if_pos (List.any_eq_true.2 ⟨k, hk, BEq.rfl⟩)]

/-- Listeners of a load balancer and matching target groups were deleted. -/
theorem spared_stripped (hs : s.OwnArns) (hgone : gone ⊆ ownListeners a s) (howned : gone' ⊆ s.owned wanted) :
    Spared a wanted s ((s.dropListeners gone).dropTgs gone') := by
  have htext : ∀ k ∈ gone', ∃ arn, k = .text arn := fun k hk => hs.text_of_mem_owned (howned hk)
  have hnot : ∀ {k}, ¬ Matching wanted s k → k ∉ gone' :=
    fun hk hmem => hk ((matching_iff hs).2 (howned hmem))
  refine ⟨fun _ _ => ⟨rfl, rfl⟩, fun k l hl => ?_, fun k hk => ?_, fun k _ hk => ?_⟩
  · have hlisteners : ∀ k ∈ gone, ∃ arn, k = .text arn := fun k hk => by
      obtain ⟨l, -, rfl⟩ := List.mem_map.1 (hgone hk)
      exact ⟨_, rfl⟩
    show (s.listeners.eraseAll gone).get? k = some l ↔ _
    by_cases hk : k ∈ gone
    · rw [get?_eraseAll_of_mem _ hk]
      refine iff_of_false nofun fun hs' => ?_
      obtain ⟨l', hl', hlb⟩ := (mem_ownListeners hs).1 (hgone hk)
      rw [hs'] at hl'
      cases hl'
      exact hl hlb
    · rw [get?_eraseAll_of_notMem _ hlisteners hk]
  · exact ⟨get?_eraseAll_of_notMem _ htext (hnot hk), get?_eraseAll_of_notMem _ htext (hnot hk), rfl⟩
  · exact get?_eraseAll_of_notMem _ htext (hnot hk)

/-- While the load balancer is still there, target groups are deleted only when all its listeners are gone. -/
theorem keepsAnchor_stripped (hs : s.OwnArns) (hgone : gone ⊆ ownListeners a s)
    (hall : gone' ≠ [] → gone = ownListeners a s) (howned : gone' ⊆ s.owned wanted) :
    KeepsAnchor a wanted s ((s.dropListeners gone).dropTgs gone') := by
  refine ⟨fun ⟨k, hk⟩ => ?_, fun _ => rfl, spared_stripped hs hgone howned⟩
  have hne : gone' ≠ [] := by
    rintro rfl
    rw [dropTgs_nil] at hk
    exact hk rfl
  rw [hall hne]
  rintro ⟨k, l, hl, hlb⟩
  have hmem : k ∈ ownListeners a (s.dropListeners (ownListeners a s)) :=
    (mem_ownListeners (hs.dropListeners _)).2 ⟨l, hl, hlb⟩
  rw [ownListeners_dropListeners hs] at hmem
  cases hmem

theorem not_hasListener_dropLb (a : String) (s : Resources) : ¬ HasListener a (s.dropLb a) := by
  rintro ⟨k, l, hl, hlb⟩
  rw [dropLb_listeners, Table.get?_filter_values, Option.filter_eq_some_iff, hlb] at hl
  simp at hl

theorem cleared_tornDown (hs : s.OwnArns) (hnames : s.UniqueLbNames)
    (hk : s.loadBalancers.get? (.text a) = some fs) (hn : Fields.get fs "LoadBalancerName" = .text lbName) :
    Cleared a lbName wanted s (tornDown a wanted s) where
  listeners := not_hasListener_dropLb a _
  groups _ hmatching := get?_eraseAll_of_mem _ ((matching_iff hs).1 hmatching)
  lb := not_named_dropLb (s := (s.dropListeners (ownListeners a s)).dropTgs (s.owned wanted)) hnames hk hn

theorem keepsAnchor_tornDown (hs : s.OwnArns) : KeepsAnchor a wanted s (tornDown a wanted s) := by
  have hspared : Spared a wanted s _ := spared_stripped hs (List.Subset.refl _) (List.Subset.refl _)
  have hbut := sameBut_dropLb ((s.dropListeners (ownListeners a s)).dropTgs (s.owned wanted)) a
  refine ⟨fun _ => not_hasListener_dropLb a _, ?_, fun k hk => ?_, fun k l hl => ?_,
    hspared.group, fun k hk hm => ?_⟩
  · rintro (hl | ⟨k, hmatching, hleft⟩)
    · exact absurd hl (not_hasListener_dropLb a _)
    · exact absurd (get?_eraseAll_of_mem _ ((matching_iff hs).1 hmatching)) hleft
  · exact ⟨(hbut.lb k (by simpa using hk)).loadBalancers, (hbut.lb k (by simpa using hk)).lbAttributes⟩
  · exact (hbut.listeners k l (by simpa using hl)).trans (hspared.listener k l hl)
  · exact (hbut.lb k (by simpa using hk)).tags.trans (hspared.tags k hk hm)

/-- Wherever a delete is cut off after its load balancer was found, it has kept its anchor. -/
theorem keepsAnchor_tearDown (hs : s.OwnArns)
    (hselector : i.identity.selector (.text ns) (.text name) = .ok selector)
    (h : (tearDown i ns name (.text a)).Visits s u) : KeepsAnchor a selector.entries s u := by
  rcases visits_tearDown h with h | ⟨t, ht, rfl⟩
  · obtain ⟨gone, gone', rfl, hgone, hall, howned⟩ := visits_strip hs h
    refine keepsAnchor_stripped hs hgone hall fun k hk => ?_
    obtain ⟨selector', hselector', hmem⟩ := howned k hk
    rw [hselector] at hselector'
    cases hselector'
    exact hmem
  · obtain ⟨selector', hselector', -, rfl⟩ := (yields_strip hs).1 ht
    rw [hselector] at hselector'
    cases hselector'
    exact keepsAnchor_tornDown hs

/-- A delete finds its load balancer and tears it down. -/
theorem deleteService_found (i : Inputs) (hs : s.OwnArns) (hnames : s.UniqueLbNames)
    (hkey : splitKey key = .ok (ns, name)) (hlbName : i.identity.nameLb (.text ns) (.text name) = .ok lbName)
    (hk : s.loadBalancers.get? (.text a) = some fs) (hn : Fields.get fs "LoadBalancerName" = .text lbName) :
    (∀ t, (deleteService i key).Yields s () t → (tearDown i ns name (.text a)).Yields s () t) ∧
      ∀ u, (deleteService i key).Visits s u → (tearDown i ns name (.text a)).Visits s u := by
  obtain ⟨hyields, hvisits⟩ := dismantle_cases i ns name hs hnames hk hn
  have hname := Program.does_lift hlbName s
  have hsplit := Program.does_lift hkey s
  rw [deleteService_eq]
  refine ⟨fun t ht => (hyields t).1 (hname.yields_bind_iff.1 (hsplit.yields_bind_iff.1 ht)), fun u hu => ?_⟩
  rcases hsplit.visits_bind hu with rfl | hu
  · exact Program.visits_self _ _
  rcases hname.visits_bind hu with rfl | hu
  · exact Program.visits_self _ _
  · exact hvisits u hu

end

/-! ## Runs behind a gate -/

/-- Wherever a delete ends, since it returns, fails or is cut off, it has kept its anchor. If it returns,
nothing of the Service is left. -/
theorem deleteService_keepsAnchor (i : Inputs) {key : Value} {ns name lbName a : String}
    {selector : Table String Value} {lb : Fields} (m : Memory) (hs : m.resources.OwnArns)
    (hnames : m.resources.UniqueLbNames) (hkey : splitKey key = .ok (ns, name))
    (hlbName : i.identity.nameLb (.text ns) (.text name) = .ok lbName)
    (hselector : i.identity.selector (.text ns) (.text name) = .ok selector)
    (hlb : m.resources.loadBalancers.get? (.text a) = some lb)
    (hn : Fields.get lb "LoadBalancerName" = .text lbName) {γ : Type} (gate : Gate γ) (c : γ)
    {x : Except Error Unit} {c' : γ} {m' : Memory}
    (hrun : (deleteService i key).run (Memory.cloud gate) (c, m) = (x, (c', m'))) :
    KeepsAnchor a selector.entries m.resources m'.resources ∧
      (x = .ok () → Cleared a lbName selector.entries m.resources m'.resources) := by
  obtain ⟨hyields, hvisits⟩ := deleteService_found i hs hnames hkey hlbName hlb hn
  constructor
  · have hvisit := (strict_deleteService i key).visits_run (g := gate) c m
    rw [hrun] at hvisit
    exact keepsAnchor_tearDown hs hselector (hvisits _ hvisit)
  · rintro rfl
    obtain ⟨rs, -, hends⟩ := (strict_deleteService i key).ends_run (g := gate) hrun
    obtain ⟨selector', hselector', -, ht⟩ := (yields_tearDown hs).1 (hyields _ hends.yields)
    rw [hselector] at hselector'
    cases hselector'
    rw [ht]
    exact cleared_tornDown hs hnames hlb hn

/-- What a reconcile of the sample Service has made is deleted again. -/
theorem deleteService_sample :
    ∃ (lb : LoadBalancer) (m m' : Memory) (a : String) (selector : Table String Value),
    (convergeService sampleInputs sampleService).run (Memory.cloud Gate.free)
      ((), ⟨{}, []⟩) = (.ok lb, ((), m)) ∧
      (deleteService sampleInputs (.text "default/web")).run (Memory.cloud Gate.free) ((), m) =
        (.ok (), ((), m')) ∧
      m.resources.loadBalancers.get? (.text a) ≠ none ∧
      KeepsAnchor a selector.entries m.resources m'.resources ∧
      Cleared a (Identity.lbName "prefix" "default" "web") selector.entries m.resources m'.resources := by
  obtain ⟨lb, m, h⟩ := sample_succeeds
  obtain ⟨rs, -, hends⟩ := (strict_convergeService _ _).ends_run (g := Gate.free) h
  have htext : TextSubnets {} := fun _ hv => (List.not_mem_nil hv).elim
  obtain ⟨d, old, hmet, hm, -⟩ :=
    yields_convergeService wellFormed_empty htext sample_distinctNames hends.yields
  -- the load balancer has the name by which the delete finds it
  have htext' : TextSubnets m.resources :=
    fun v hv => htext v ((Program.always_ground _ _ _ hends.yields.visits).1 ▸ hv)
  obtain ⟨ns, name, -, plan, hnames, hname, -, -, -, -, hconfig, -⟩ :=
    exists_plan htext' hmet.lb.planned.yields
  cases hnames
  have hplan : d.plan.name = plan.name := Value.text.inj (congrArg LoadBalancerConfig.name hconfig)
  have hn : plan.name = Identity.lbName "prefix" "default" "web" :=
    Except.ok.inj (hname.symm.trans (Identity.nameLb_text rfl "default" "web"))
  have hok : ((deleteService sampleInputs (.text "default/web")).run (Memory.cloud Gate.free)
      ((convergeService sampleInputs sampleService).run (Memory.cloud Gate.free)
        ((), ⟨{}, []⟩)).2).1.isOk = true := by
    set_option maxRecDepth 100000 in decide +kernel
  rw [h] at hok
  match hrun : (deleteService sampleInputs (.text "default/web")).run (Memory.cloud Gate.free) ((), m) with
  | (.error e, _) => simp [hrun, Except.isOk, Except.toBool] at hok
  | (.ok (), ((), m')) =>
    obtain ⟨hkeeps, hcleared⟩ :=
      deleteService_keepsAnchor sampleInputs m hm.ownArns hm.uniqueLbNames rfl rfl rfl
      hmet.lb.ready.there (hmet.lb.ready.name.trans (congrArg Value.text (hplan.trans hn))) Gate.free () hrun
    exact ⟨lb, m, m', d.arn, _, h, hrun, by simp [hmet.lb.ready.there], hkeeps, hcleared rfl⟩

end Converge

end Balancer
