import Balancer.Proofs.Converge.Scheme
import Balancer.Proofs.Converge.Strict
import Balancer.Proofs.Routing.Sharing

/-!
# Target groups and listeners agree

The target groups of a Service are converged first, and its listeners after them; both derive the backends
from the Service by themselves.

* `HasGroup arn s` : a target group has an ARN and stands under it. No request of the steps before
  the listeners takes that away, in a cloud where target groups stand under their own ARNs
  (`OwnGroups`, `keepsGroups_perform`);
* `prepared` : the steps before the listeners, which end with what the listeners are converged from;
* `Agrees` : every backend that is no declared action has a target group that stands, nothing else has one,
  and every declared action is there. So it is wherever the listeners are converged
  (`convergeService_agrees`).
-/

namespace Balancer

set_option autoImplicit false

namespace Converge

open Cluster Resources Routing Program

/-! ## Target groups that stand -/

/-- A target group has an ARN and stands under it. -/
def HasGroup (arn : Value) (s : Resources) : Prop :=
  ∃ a tg, arn = .text a ∧ s.targetGroups.get? (.text a) = some tg ∧ Fields.get tg "TargetGroupArn" = .text a

/-- Target groups stand under their own ARNs. -/
def OwnGroups (s : Resources) : Prop :=
  ∀ k tg, s.targetGroups.get? k = some tg → ∃ a, k = .text a ∧ Fields.get tg "TargetGroupArn" = .text a

/-- Target groups stand under their own ARNs, and those that stood before stand still. -/
structure KeepsGroups (s t : Resources) : Prop where
  own : OwnGroups t
  there : ∀ arn, HasGroup arn s → HasGroup arn t

section

variable {s t u : Resources} {arn : Value} {r : Request} {α : Type} {p : Program α}

theorem KeepsGroups.refl (h : OwnGroups s) : KeepsGroups s s := ⟨h, fun _ h => h⟩

theorem KeepsGroups.trans (h : KeepsGroups s t) (h' : KeepsGroups t u) : KeepsGroups s u :=
  ⟨h'.own, fun arn harn => h'.there arn (h.there arn harn)⟩

theorem KeepsGroups.of_eq (h : OwnGroups s) (ht : t.targetGroups = s.targetGroups) : KeepsGroups s t :=
  ⟨fun k tg hk => h k tg (ht ▸ hk), fun _ ⟨a, tg, ha, hk, harn⟩ => ⟨a, tg, ha, ht ▸ hk, harn⟩⟩

/-- A target group is new, or is described anew, under its own ARN. -/
theorem KeepsGroups.insert (h : OwnGroups s) {a : String} {tg : Fields}
    (htg : Fields.get tg "TargetGroupArn" = .text a)
    (ht : t.targetGroups = s.targetGroups.insert (.text a) tg) : KeepsGroups s t := by
  constructor
  · exact fun k tg' hk => own_insert (h _ _) htg (ht ▸ hk)
  · rintro _ ⟨a', tg', rfl, hk, harn⟩
    by_cases hak : a = a'
    · subst hak
      exact ⟨a, tg, rfl, ht ▸ Table.get?_insert_self _ _ _, htg⟩
    · refine ⟨a', tg', rfl, ?_, harn⟩
      rwa [ht, Table.get?_insert_of_ne]
      rw [BEq.comm]
      exact Key.text_beq_eq_false fun hkk => hak (Key.text.inj hkk).symm

/-- No request that deletes none takes a target group away. -/
theorem keepsGroups_perform (h : OwnGroups s) (hr : IsSafe r) : KeepsGroups s (s.perform r).2 := by
  cases targetGroups_perform hr s with
  | same hsame => exact KeepsGroups.of_eq h hsame
  | added params name a _ _ hadded => exact KeepsGroups.insert h (get_newTg_arn params name a) hadded
  | modified k tg params hk hmodified =>
    obtain ⟨a, rfl, harn⟩ := h k tg hk
    refine KeepsGroups.insert h ?_ hmodified
    rw [get_modifiedTg (by decide), harn]

theorem keepsGroups_of_asks (hp : p.Asks IsSafe) (h : OwnGroups s) (hu : p.Visits s u) : KeepsGroups s u := by
  have hsafe : p.Safe (fun _ _ => True) (KeepsGroups s) (fun _ _ => True) s :=
    hp.safe (fun r v hr hv => ⟨trivial, hv.trans (keepsGroups_perform hv.own hr)⟩) (KeepsGroups.refl h)
  exact hsafe.always u hu

theorem GroupWork.isSafe {P : Value → Value → Prop} (h : GroupWork P r) : IsSafe r := h.makes.isSafe

theorem LbWork.isSafe {Q : Fields → Prop} (h : LbWork Q r) : IsSafe r := by
  cases r with
  | deleteTargetGroup arn => exact h.elim fun _ h => h.elim
  | createListener params => exact h.elim fun _ h => h.elim
  | modifyListener params => exact h.elim fun _ h => h.elim
  | _ => trivial

end

/-! ## The target groups of backends -/

/-- A backend that is no declared action goes by a key. -/
def IsKeyed (key : BackendKey) (b : Backend) : Prop :=
  Actions.isUsed b.port = false ∧ ∃ k, b.key = .ok k ∧ (k == key) = true

/-- The target groups of a table have ARNs and stand under them. -/
def AllThere (groups : Table BackendKey TargetGroup) (s : Resources) : Prop :=
  ∀ key group, groups.get? key = some group → HasGroup group.arn s

section

variable {i : Inputs} {service : Value} {settings : ServiceSettings} {b : Backend} {bs : List Backend}
  {there groups : Table BackendKey TargetGroup} {s t : Resources} {n : String}
  {targetType protocol group : Value} {check : Fields} {tags : Table String Value}

theorem AllThere.mono (h : AllThere groups s) (hkeeps : KeepsGroups s t) : AllThere groups t :=
  fun key group hg => hkeeps.there _ (h key group hg)

theorem isKeyed_iff {key key' : BackendKey} (hused : Actions.isUsed b.port = false) (hkey : b.key = .ok key) :
    IsKeyed key' b ↔ (key == key') = true := by
  constructor
  · rintro ⟨-, k, hk, hkk⟩
    rw [hkey] at hk
    cases hk
    exact hkk
  · exact fun hkk => ⟨hused, key, hkey, hkk⟩

/-- The target group of a name is there, whether it is new, has other settings, or was there before. -/
theorem hasGroup_ensureTargetGroup (hs : OwnGroups s)
    (h : (ensureTargetGroup i n targetType protocol check tags.toObject).Yields s group t) :
    ∃ arn, group.item "TargetGroupArn" = .ok arn ∧ HasGroup arn t := by
  have h := (does_answer (perform_targetGroupNamed s (.text n))).yields_bind_iff.1 h
  rcases named_cases "TargetGroupName" (.text n) s.targetGroups with hnone | ⟨k, tg, hk, -, hnamed⟩
  · rw [hnone] at h
    obtain ⟨vs, hvs, hread⟩ := readTags_tagList tags
    have h := (does_lift hvs s).yields_bind_iff.1 h
    have hcreate := perform_createTg s (targetGroupParams i n targetType protocol check vs) rfl hread
    obtain ⟨arn, -, h⟩ := yields_lift_bind.1 ((does_answer hcreate).yields_bind_iff.1 h)
    have h := (does_info _ _ _).yields_bind_iff.1 h
    obtain ⟨rfl, rfl⟩ := yields_pure.1 h
    exact ⟨_, Fields.item_of_get_text (get_newTg_arn _ _ _), _, _, rfl,
      Table.get?_insert_self _ _ _, get_newTg_arn _ _ _⟩
  · rw [hnamed] at h
    obtain ⟨a, rfl, harn⟩ := hs k tg hk
    obtain ⟨differs, -, h⟩ := yields_lift_bind.1 h
    split at h
    · have h := (does_lift (Fields.item_of_get_text harn) s).yields_bind_iff.1 h
      have hmodify := perform_modifyTg s a (("TargetGroupArn", .text a) :: check) rfl hk
      have h := (does_info _ _ _).yields_bind_iff.1 ((does_answer hmodify).yields_bind_iff.1 h)
      obtain ⟨rfl, rfl⟩ := yields_pure.1 h
      have harn' : Fields.get (modifiedTg tg (("TargetGroupArn", .text a) :: check))
          "TargetGroupArn" = .text a := by
        rw [get_modifiedTg (by decide), harn]
      exact ⟨_, Fields.item_of_get_text harn', _, _, rfl, Table.get?_insert_self _ _ _, harn'⟩
    · obtain ⟨rfl, rfl⟩ := yields_pure.1 h
      exact ⟨_, Fields.item_of_get_text harn, _, _, rfl, hk, harn⟩

theorem arn_of_furnish {arn : Value} {g : TargetGroup} {store : Store}
    (h : (furnish store service settings b tags arn).Yields s g t) : g.arn = arn := by
  obtain ⟨_, _, -, h⟩ := yields_bind.1 h
  obtain ⟨_, _, -, h⟩ := yields_bind.1 h
  obtain ⟨_, _, -, h⟩ := yields_bind.1 h
  obtain ⟨_, _, -, h⟩ := yields_bind.1 h
  rw [(yields_pure.1 h).1]

theorem asksSafe_furnish {arn : Value} {store : Store} :
    (furnish store service settings b tags arn).Asks IsSafe := by
  have hgroup : ∀ r, AtGroup arn r → IsSafe r := fun _ => AtGroup.isSafe
  refine Asks.bind (asks_convergeTags.mono fun r hr => hgroup r hr.atGroup) fun _ => ?_
  refine Asks.bind (asks_convergeTgAttributes.mono hgroup) fun _ => Asks.bind (asks_lift _) fun ts => ?_
  exact Asks.bind (asks_convergeTargets.mono hgroup) fun _ => asks_pure _

/-- The target group of a backend is there. -/
theorem hasGroup_convergeTargetGroup (hs : OwnGroups s) {g : TargetGroup}
    (h : (convergeTargetGroup i service settings b).Yields s g t) : HasGroup g.arn t := by
  rw [convergeTargetGroup_eq] at h
  obtain ⟨plan, -, h⟩ := yields_lift_bind.1 h
  obtain ⟨group, s', hgroup, h⟩ := yields_bind.1 h
  obtain ⟨arn, harn, hthere⟩ := hasGroup_ensureTargetGroup hs hgroup
  have h := (does_lift harn s').yields_bind_iff.1 h
  have hasks : (ensureTargetGroup i plan.name settings.targetGroup.targetType b.protocol plan.check
      plan.tags.toObject).Asks (GroupWork fun _ _ => True) := groupWork_ensureTargetGroup trivial
  have hown := (keepsGroups_of_asks (hasks.mono fun _ => GroupWork.isSafe) hs hgroup.visits).own
  rw [arn_of_furnish h]
  exact (keepsGroups_of_asks asksSafe_furnish hown h.visits).there arn hthere

theorem asksSafe_convergeTargetGroup : (convergeTargetGroup i service settings b).Asks IsSafe :=
  (groupWork_convergeTargetGroup (P := fun _ _ => True) fun _ _ => trivial).mono fun _ => GroupWork.isSafe

/-- Every backend that is no declared action has a key and a target group that is there,
and no other has one. -/
theorem yields_convergeBackends_keys (hs : OwnGroups s) (hthere : AllThere there s)
    (h : (convergeBackends i service settings there bs).Yields s groups t) :
    AllThere groups t ∧ (∀ b ∈ bs, Actions.isUsed b.port = false → ∃ key, b.key = .ok key) ∧
      ∀ key, groups.contains key = true ↔ there.contains key = true ∨ ∃ b ∈ bs, IsKeyed key b := by
  induction bs generalizing s there with
  | nil =>
    obtain ⟨rfl, rfl⟩ := yields_pure.1 h
    exact ⟨hthere, by simp, by simp⟩
  | cons b bs ih =>
    unfold convergeBackends at h
    split at h
    · rename_i hused
      obtain ⟨hall, hkeyed, hkeys⟩ := ih hs hthere h
      have hnot : ∀ key, ¬ IsKeyed key b := fun key hb => absurd hused (by simp [hb.1])
      refine ⟨hall, List.forall_mem_cons.2 ⟨fun hb => by simp [hused] at hb, hkeyed⟩, fun key => ?_⟩
      rw [hkeys, List.exists_mem_cons_iff, or_iff_right (hnot key)]
    · rename_i hused
      obtain ⟨k, hk, h⟩ := yields_lift_bind.1 h
      have hb : ∀ key, IsKeyed key b ↔ (k == key) = true :=
        fun _ => isKeyed_iff (Bool.eq_false_iff.2 hused) hk
      split at h
      · rename_i hcontains
        obtain ⟨hall, hkeyed, hkeys⟩ := ih hs hthere h
        refine ⟨hall, List.forall_mem_cons.2 ⟨fun _ => ⟨k, hk⟩, hkeyed⟩, fun key => ?_⟩
        rw [hkeys, List.exists_mem_cons_iff, hb, ← or_assoc]
        refine or_congr_left (or_iff_left_of_imp fun hkk => ?_).symm
        rwa [← Table.contains_congr _ hkk]
      · obtain ⟨g, s', hg, h⟩ := yields_bind.1 h
        have hkeeps := keepsGroups_of_asks asksSafe_convergeTargetGroup hs hg.visits
        have hthere' : AllThere (there.insert k g) s' := by
          intro key group hget
          rcases Table.get?_insert_eq_some_iff.1 hget with ⟨-, rfl⟩ | ⟨-, hget⟩
          · exact hasGroup_convergeTargetGroup hs hg
          · exact (hthere.mono hkeeps) key group hget
        obtain ⟨hall, hkeyed, hkeys⟩ := ih hkeeps.own hthere' h
        refine ⟨hall, List.forall_mem_cons.2 ⟨fun _ => ⟨k, hk⟩, hkeyed⟩, fun key => ?_⟩
        rw [hkeys, List.exists_mem_cons_iff, hb, ← or_assoc]
        exact or_congr_left (Table.contains_insert.trans or_comm)

end

/-! ## The backends of a Service -/

section

variable {i : Inputs} {service : Value} {settings : ServiceSettings} {b : Backend} {specs : List ListenerSpec}
  {spec : ListenerSpec} {groups : TargetGroups} {s t : Resources}

theorem declared_of_actionName? {actions : Actions} {port name : Value}
    (h : actionName? actions port = .ok (some name)) :
    ∃ text action, name = .text text ∧ actions.get? text = some action := by
  obtain ⟨v, -, h⟩ := bind_eq_ok_iff.1 h
  split at h
  · cases h
  obtain ⟨found, hfound, h⟩ := bind_eq_ok_iff.1 h
  split at h
  · rename_i hsome
    cases h
    obtain ⟨k, hk, hfound⟩ := bind_eq_ok_iff.1 hfound
    split at hfound
    · cases hfound
      obtain ⟨action, haction⟩ := Option.isSome_iff_exists.1 hsome
      exact ⟨_, action, Value.eq_toValue_of_key hk, haction⟩
    · cases hfound
      cases hsome
  · cases h

/-- A backend that is a declared action names one. -/
theorem declared_of_listenerSpecs (h : listenerSpecs service settings = .ok specs) (hspec : spec ∈ specs)
    (hused : Actions.isUsed spec.backend.port = true) :
    ∃ name action, spec.backend.service = .text name ∧ settings.actions.get? name = some action := by
  obtain ⟨ports, -, h⟩ := bind_eq_ok_iff.1 h
  obtain ⟨numbered, -, h⟩ := bind_eq_ok_iff.1 h
  obtain ⟨g, -, h⟩ := mem_of_mapM h spec hspec
  obtain ⟨protocol, -, h⟩ := bind_eq_ok_iff.1 h
  obtain ⟨names, hnames, h⟩ := bind_eq_ok_iff.1 h
  split at h
  · cases h
    obtain ⟨port, -, hport⟩ := mem_of_filterMapM hnames _ List.mem_cons_self
    exact declared_of_actionName? hport
  · obtain ⟨name, -, h⟩ := bind_eq_ok_iff.1 h
    cases h
    rw [isUsed_decimal] at hused
    cases hused

/-- A declared action is found, or else it is declared wrongly. -/
theorem not_isMissing_find {actions : Actions} {name : String} {action : Fields} {e : Error}
    (haction : actions.get? name = some action) (h : actions.find (.text name) = .error e) :
    ¬ e.IsMissing := by
  have hfound : actions.declared? (.text name) = .ok (some action) := congrArg Except.ok haction
  unfold Actions.find at h
  rw [hfound] at h
  dsimp only [bind, Except.bind] at h
  split at h
  · cases h
    exact id
  · split at h
    · cases h
      exact id
    · cases h

/-- The target groups are those that the listeners of a Service need. -/
structure Agreement (service : Value) (settings : ServiceSettings) (groups : TargetGroups)
    (specs : List ListenerSpec) (u : Resources) : Prop where
  /-- These are the listeners that the Service asks for. -/
  derived : listenerSpecs service settings = .ok specs
  keyed : ∀ spec ∈ specs, Actions.isUsed spec.backend.port = false → ∃ key, spec.backend.key = .ok key
  keys : ∀ key, groups.byBackend.contains key = true ↔ ∃ spec ∈ specs, IsKeyed key spec.backend
  declared : ∀ spec ∈ specs, Actions.isUsed spec.backend.port = true →
    ∃ name action, spec.backend.service = .text name ∧ settings.actions.get? name = some action
  there : AllThere groups.byBackend u

/-- Where target groups and listeners agree, nothing is missing for the actions of a listener. -/
theorem Agreement.not_isMissing (hagree : Agreement service settings groups specs s)
    (hspec : spec ∈ specs) {e : Error} (h : buildActions settings spec.backend groups = .error e) :
    ¬ e.IsMissing := by
  unfold buildActions at h
  by_cases hused : Actions.isUsed spec.backend.port = true
  · obtain ⟨name, action, hservice, haction⟩ := hagree.declared spec hspec hused
    rw [if_pos hused, hservice] at h
    cases hfind : settings.actions.find (.text name) with
    | error e' =>
      rw [hfind] at h
      cases h
      exact not_isMissing_find haction hfind
    | ok action' =>
      rw [hfind] at h
      cases h
  · have hused := Bool.eq_false_iff.2 hused
    obtain ⟨key, hkey⟩ := hagree.keyed spec hspec hused
    obtain ⟨group, hgroup⟩ :=
      Table.contains_iff.1 ((hagree.keys key).2 ⟨spec, hspec, hused, key, hkey, BEq.rfl⟩)
    simp only [hused, Bool.false_eq_true, if_false, hkey, hgroup, bind, Except.bind, pure, Except.pure] at h
    cases h

/-- The target groups of a Service agree with its listeners. -/
theorem yields_convergeTargetGroups_agreement (hs : OwnGroups s)
    (h : (convergeTargetGroups i service settings).Yields s groups t) :
    ∃ specs, Agreement service settings groups specs t := by
  obtain ⟨⟨ns, name⟩, -, h⟩ := yields_lift_bind.1 h
  obtain ⟨specs, hspecs, h⟩ := yields_lift_bind.1 h
  obtain ⟨byBackend, t', hbyBackend, h⟩ := yields_bind.1 h
  obtain ⟨selector, -, h⟩ := yields_lift_bind.1 h
  obtain ⟨rfl, rfl⟩ := yields_pure.1 h
  have hnone : ∀ key, ¬ (∅ : Table BackendKey TargetGroup).contains key = true := fun _ h => nomatch h
  obtain ⟨hall, hkeyed, hkeys⟩ := yields_convergeBackends_keys hs (fun _ _ hg => by cases hg) hbyBackend
  refine ⟨specs, hspecs, fun spec hspec => hkeyed _ (List.mem_map_of_mem hspec), fun key => ?_,
    fun spec hspec => declared_of_listenerSpecs hspecs hspec, hall⟩
  rw [hkeys, or_iff_right (hnone key)]
  simp only [List.mem_map, exists_exists_and_eq_and]

end

/-! ## The steps before the listeners -/

/-- What the listeners of a Service are converged from. -/
structure Prepared where
  settings : ServiceSettings
  arn : Value
  live : Value
  groups : TargetGroups

/-- The steps before the listeners. -/
def prepared (i : Inputs) (service : Value) : Program Prepared := do
  let key ← serviceKey service
  let settings ← i.store.settings i.config key
  let live ← convergeLb i service settings
  let arn ← live.item "LoadBalancerArn"
  let groups ← convergeTargetGroups i service settings
  return ⟨settings, arn, live, groups⟩

section

variable {i : Inputs} {service : Value} {p : Prepared} {γ : Type} {g : Gate γ}

theorem convergeService_prepared (i : Inputs) (service : Value) : convergeService i service = (do
    let p ← prepared i service
    serve service p.settings p.arn p.live p.groups) := by
  rw [convergeService_eq]
  unfold prepared equip
  simp only [LawfulMonad.bind_assoc, LawfulMonad.pure_bind]

theorem strict_prepared (i : Inputs) (service : Value) : (prepared i service).Strict := by
  refine Strict.bind (strict_lift _) fun _ => Strict.bind (strict_lift _) fun _ =>
    Strict.bind (strict_convergeLb ..) fun _ => ?_
  exact Strict.bind (strict_lift _) fun _ =>
    Strict.bind (strict_convergeTargetGroups ..) fun _ => strict_pure _

theorem yields_prepared_agreement {s t : Resources} (hs : OwnGroups s)
    (h : (prepared i service).Yields s p t) :
    ∃ specs, Agreement service p.settings p.groups specs t := by
  obtain ⟨key, -, h⟩ := yields_lift_bind.1 h
  obtain ⟨settings, -, h⟩ := yields_lift_bind.1 h
  obtain ⟨live, s', hlive, h⟩ := yields_bind.1 h
  obtain ⟨arn, -, h⟩ := yields_lift_bind.1 h
  obtain ⟨groups, t', hgroups, h⟩ := yields_bind.1 h
  obtain ⟨rfl, rfl⟩ := yields_pure.1 h
  have hasks : (convergeLb i service settings).Asks (LbWork fun _ => True) :=
    lbWork_convergeLb fun _ _ _ _ _ _ _ _ _ _ => trivial
  have hown := (keepsGroups_of_asks (hasks.mono fun _ => LbWork.isSafe) hs hlive.visits).own
  exact yields_convergeTargetGroups_agreement hown hgroups

/-- In a reconcile that gets to the listeners, they agree with the target groups, so that nothing is missing
for their actions: behind any gate, in any cloud whose resources stand under their own ARNs. -/
theorem convergeService_agrees (i : Inputs) (service : Value) {c c' : γ} {m m' : Memory}
    (hown : m.resources.OwnArns) (h : (prepared i service).run (Memory.cloud g) (c, m) = (.ok p, (c', m'))) :
    (convergeService i service).run (Memory.cloud g) (c, m) =
        (serve service p.settings p.arn p.live p.groups).run (Memory.cloud g) (c', m') ∧
      ∃ specs, Agreement service p.settings p.groups specs m'.resources ∧
        ∀ spec ∈ specs, ∀ e, buildActions p.settings spec.backend p.groups = .error e → ¬ e.IsMissing := by
  constructor
  · rw [convergeService_prepared, run_bind, h]
  · obtain ⟨rs, -, hends⟩ := (strict_prepared i service).ends_run g h
    obtain ⟨specs, hagree⟩ := yields_prepared_agreement (fun _ _ hk => hown.tg hk) hends.yields
    exact ⟨specs, hagree, fun spec hspec e => hagree.not_isMissing hspec⟩

/-- From an empty cloud, the ports of the sample Service have a target group each when its
listeners are converged. -/
theorem sample_agrees : ∃ p m,
    (prepared sampleInputs sampleService).run (Memory.cloud Gate.free) ((), ⟨{}, []⟩) = (.ok p, ((), m)) ∧
    p.groups.byBackend.keys.map (·.port.toValue.shown) = ["80", "443"] ∧
    ∃ specs, Agreement sampleService p.settings p.groups specs m.resources ∧
      ∀ spec ∈ specs, ∀ e, buildActions p.settings spec.backend p.groups = .error e → ¬ e.IsMissing := by
  have hports : ((prepared sampleInputs sampleService).run (Memory.cloud Gate.free)
      ((), ⟨{}, []⟩)).1.toOption.any (fun p =>
      p.groups.byBackend.keys.map (·.port.toValue.shown) = ["80", "443"]) = true := by
    set_option maxRecDepth 100000 in decide +kernel
  match h : (prepared sampleInputs sampleService).run (Memory.cloud Gate.free) ((), ⟨{}, []⟩) with
  | (.ok p, ((), m)) =>
    rw [h] at hports
    have hown : (⟨{}, []⟩ : Memory).resources.OwnArns := wellFormed_empty.ownArns
    exact ⟨p, m, rfl, of_decide_eq_true hports, (convergeService_agrees sampleInputs sampleService hown h).2⟩
  | (.error e, _) => simp [h, Except.toOption] at hports

end

end Converge

end Balancer
