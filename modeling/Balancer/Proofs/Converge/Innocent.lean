import Balancer.Proofs.Cloud.Refusal
import Balancer.Proofs.Converge.Strict

/-!
# A reconcile refuses nothing itself

`Innocent p` : the program fails by a refusal only where that is the answer to a request. So it is for every
part of a reconcile: `innocent_sync`. From the listeners on, data of an unexpected shape is all that a part
fails on by itself (`own_ensureListeners`, `own_deleteListeners`, `own_collect`).
-/

namespace Balancer

set_option autoImplicit false

/-- The errors of a program that are no answers to requests are no refusals. -/
abbrev Program.Innocent {α : Type} (p : Program α) : Prop := p.Own fun e => ¬ e.IsRefusal

namespace Converge

open Program Cluster Routing

theorem unrefused_planGroup (i : Inputs) (service : Value) (settings : ServiceSettings) (b : Backend) :
    Unrefused (planGroup i service settings b) := by
  simp [planGroup]

theorem own_deleteTargetGroups {E : Error → Prop} (arns : List Key) : (deleteTargetGroups arns).Own E := by
  induction arns with
  | nil => exact own_pure _
  | cons arn arns ih => exact Own.bind (own_answer _) fun _ => Own.bind (own_info _ _) fun _ => ih

section

variable {E : Error → Prop} [AdmitsMisfits E] (i : Inputs) (service arn live : Value)
  (settings : ServiceSettings) (lb : LoadBalancerConfig) (b : Backend) (groups : TargetGroups)

/-! ## Load balancers -/

theorem innocent_subnetsNamed (vs : List Value) : (subnetsNamed vs).Innocent :=
  own_ite (own_pure _) (own_answer _)

theorem innocent_clusterSubnets (clusterName scheme : Value) :
    (clusterSubnets clusterName scheme).Innocent := by
  rw [clusterSubnets_eq]
  split
  · exact own_throw id
  · refine Own.bind (own_lift (by simp)) fun _ => Own.bind (own_answer _) fun _ => ?_
    refine Own.bind (own_lift (by simp)) fun _ => Own.bind (innocent_subnetsNamed _) fun _ => ?_
    refine Own.bind (own_lift (by simp)) fun _ => own_ite ?_ (own_lift (by simp))
    exact Own.bind (own_throw id) fun _ => own_lift (by simp)

theorem innocent_resolveSubnets (clusterName scheme requested : Value) :
    (resolveSubnets clusterName scheme requested).Innocent := by
  rw [resolveSubnets_eq]
  refine own_ite (innocent_clusterSubnets _ _) ?_
  refine Own.bind (own_lift (by simp)) fun _ => Own.bind (own_lift (by simp)) fun _ =>
    Own.bind (own_lift (by simp)) fun _ => ?_
  refine Own.bind (innocent_subnetsNamed _) fun _ => Own.bind (own_lift (by simp)) fun _ => ?_
  refine Own.bind (own_lift (by simp)) fun _ => Own.bind (own_lift (by simp)) fun _ => own_ite ?_ (own_pure _)
  refine Own.bind (own_lift (by simp)) fun _ => Own.bind (own_lift (by simp)) fun _ => ?_
  exact Own.bind (own_throw id) fun _ => own_pure _

theorem innocent_buildLb : (buildLb i service settings).Innocent := by
  refine Own.bind (own_lift (by simp)) fun _ => Own.bind (own_lift (by simp)) fun _ =>
    Own.bind (own_lift (by simp)) fun _ => ?_
  exact Own.bind (innocent_resolveSubnets _ _ _) fun _ => own_pure _

theorem innocent_createLb : (createLb lb).Innocent := by
  refine Own.bind (own_lift (by simp)) fun _ => Own.bind (Own.warning (own_answer _) _ _) fun _ => ?_
  exact Own.bind (own_lift (by simp)) fun _ => Own.bind (own_info _ _) fun _ => own_pure _

theorem innocent_recreateLb : (recreateLb live lb).Innocent := by
  refine Own.bind (own_lift (by simp)) fun _ => Own.bind (own_answer _) fun _ => ?_
  exact Own.bind (own_info _ _) fun _ => innocent_createLb lb

theorem innocent_convergeIpType : (convergeIpType arn live lb).Innocent := by
  refine own_ite (own_pure _) (Own.bind (own_lift (by simp)) fun _ => own_ite (own_pure _) ?_)
  exact Own.bind (Own.warning (own_answer _) _ _) fun _ => own_info _ _

theorem innocent_convergeSubnets : (convergeSubnets arn live lb).Innocent := by
  unfold convergeSubnets
  simp only [mapM_liftM]
  refine Own.bind (own_lift (by simp)) fun _ => Own.bind (own_lift (by simp)) fun _ =>
    Own.bind (own_lift (by simp)) fun _ => ?_
  refine Own.bind (own_lift (by simp)) fun _ =>
    own_ite (own_pure _) (Own.bind (own_lift (by simp)) fun _ => ?_)
  exact Own.bind (Own.warning (own_answer _) _ _) fun _ => own_info _ _

/-! ## Tags, attributes and targets -/

theorem innocent_doIf {p : Program Unit} (hp : p.Innocent) (b : Bool) : (doIf b p).Innocent :=
  own_ite hp (own_pure _)

theorem innocent_convergeTags (desired : Value) : (convergeTags arn desired).Innocent := by
  rw [convergeTags_eq]
  refine Own.bind (own_answer _) fun _ => Own.bind (own_lift (by simp)) fun _ =>
    Own.bind (own_lift (by simp)) fun _ => ?_
  refine Own.bind (innocent_doIf (own_answer _) _) fun _ =>
    Own.bind (innocent_doIf (own_answer _) _) fun _ => ?_
  exact own_pure _

theorem innocent_convergeLbAttributes (desired : Value) : (convergeLbAttributes arn desired).Innocent := by
  refine own_ite (own_pure _) (Own.bind (own_answer _) fun _ => Own.bind (own_lift (by simp)) fun _ => ?_)
  exact own_ite (own_pure _) (Own.bind (own_answer _) fun _ => own_pure _)

theorem innocent_convergeTgAttributes (desired : Value) : (convergeTgAttributes arn desired).Innocent := by
  refine own_ite (own_pure _) (Own.bind (own_answer _) fun _ => Own.bind (own_lift (by simp)) fun _ => ?_)
  exact own_ite (own_pure _) (Own.bind (own_answer _) fun _ => own_pure _)

theorem innocent_convergeTargets (desired : Value) : (convergeTargets arn desired).Innocent := by
  rw [convergeTargets_eq]
  refine Own.bind (own_answer _) fun _ => Own.bind (own_lift (by simp)) fun _ =>
    Own.bind (own_lift (by simp)) fun _ => ?_
  refine Own.bind (own_lift (by simp)) fun _ => Own.bind (own_lift (by simp)) fun _ =>
    Own.bind (own_lift (by simp)) fun _ => ?_
  refine Own.bind (innocent_doIf (own_answer _) _) fun _ =>
    Own.bind (innocent_doIf (own_answer _) _) fun _ => ?_
  exact own_pure _

theorem innocent_modifyLb : (modifyLb live lb).Innocent := by
  refine Own.bind (own_lift (by simp)) fun _ => Own.bind (innocent_convergeIpType _ _ _) fun _ => ?_
  refine Own.bind (innocent_convergeSubnets _ _ _) fun _ => Own.bind (innocent_convergeTags _ _) fun _ => ?_
  exact own_pure _

theorem innocent_ensureLb : (ensureLb lb).Innocent := by
  refine Own.bind (own_answer _) fun live => ?_
  split
  · exact innocent_createLb lb
  · refine Own.bind (own_lift (by simp)) fun _ => own_ite (innocent_recreateLb _ lb) ?_
    exact Own.bind (innocent_modifyLb _ lb) fun _ => own_pure _

theorem innocent_convergeLb : (convergeLb i service settings).Innocent := by
  refine Own.bind (innocent_buildLb i service settings) fun _ => Own.bind (own_lift (by simp)) fun _ => ?_
  refine Own.bind (innocent_ensureLb _) fun _ => Own.bind (own_lift (by simp)) fun _ => ?_
  exact Own.bind (innocent_convergeLbAttributes _ _) fun _ => own_pure _

/-! ## Target groups -/

theorem innocent_createTargetGroup (tgName : String) (targetType protocol : Value)
    (check : Fields) (tags : Value) :
    (createTargetGroup i tgName targetType protocol check tags).Innocent := by
  refine Own.bind (own_lift (by simp)) fun _ => Own.bind (own_answer _) fun _ => ?_
  exact Own.bind (own_lift (by simp)) fun _ => Own.bind (own_info _ _) fun _ => own_pure _

theorem innocent_modifyTargetGroup (tgName : String) (group : Value) (check : Fields) :
    (modifyTargetGroup tgName group check).Innocent := by
  refine Own.bind (own_lift (by simp)) fun _ => own_ite ?_ (own_pure _)
  refine Own.bind (own_lift (by simp)) fun _ => Own.bind (own_answer _) fun _ => ?_
  exact Own.bind (own_info _ _) fun _ => own_pure _

theorem innocent_ensureTargetGroup (tgName : String) (targetType protocol : Value)
    (check : Fields) (tags : Value) :
    (ensureTargetGroup i tgName targetType protocol check tags).Innocent := by
  refine Own.bind (own_answer _) fun _ => ?_
  split
  · exact innocent_createTargetGroup _ _ _ _ _ _
  · exact innocent_modifyTargetGroup _ _ _

theorem innocent_furnish (store : Store) (tags : Table String Value) :
    (furnish store service settings b tags arn).Innocent := by
  refine Own.bind (innocent_convergeTags _ _) fun _ =>
    Own.bind (innocent_convergeTgAttributes _ _) fun _ => ?_
  exact Own.bind (own_lift (by simp)) fun _ => Own.bind (innocent_convergeTargets _ _) fun _ => own_pure _

theorem innocent_convergeTargetGroup : (convergeTargetGroup i service settings b).Innocent := by
  rw [convergeTargetGroup_eq]
  refine Own.bind (own_lift (unrefused_planGroup i service settings b)) fun _ =>
    Own.bind (innocent_ensureTargetGroup _ _ _ _ _ _) fun _ => ?_
  exact Own.bind (own_lift (by simp)) fun _ => innocent_furnish _ _ _ _ _ _

theorem innocent_convergeBackends (there : Table BackendKey TargetGroup) (bs : List Backend) :
    (convergeBackends i service settings there bs).Innocent := by
  induction bs generalizing there with
  | nil => exact own_pure _
  | cons b bs ih =>
    refine own_ite (ih there) (Own.bind (own_lift (by simp)) fun _ => own_ite (ih there) ?_)
    exact Own.bind (innocent_convergeTargetGroup i service settings b) fun _ => ih _

theorem innocent_convergeTargetGroups : (convergeTargetGroups i service settings).Innocent := by
  refine Own.bind (own_lift (by simp)) fun _ => Own.bind (own_lift (by simp)) fun _ => ?_
  exact Own.bind (innocent_convergeBackends _ _ _ _ _) fun _ =>
    Own.bind (own_lift (by simp)) fun _ => own_pure _

theorem own_collect : (collect groups).Own E := by
  refine Own.bind (own_lift (by simp)) fun _ => Own.bind (own_answer _) fun _ =>
    Own.bind (own_lift (by simp)) fun _ => ?_
  exact own_deleteTargetGroups _

/-! ## Listeners -/

theorem own_ensureListener (current : Option Value) (spec : ListenerSpec) (actions : List Fields) :
    (ensureListener arn current spec actions).Own E := by
  unfold ensureListener
  split
  · refine Own.bind (own_answer _) fun _ => Own.bind (own_lift (by simp)) fun _ => ?_
    exact Own.bind (own_info _ _) fun _ => own_pure _
  · refine Own.bind (own_lift (by simp)) fun _ => own_ite ?_ (own_pure _)
    refine Own.bind (own_lift (by simp)) fun _ => Own.bind (own_answer _) fun _ => ?_
    exact Own.bind (own_info _ _) fun _ => own_pure _

theorem own_ensureListeners (current : Table Key Value) (pairs : List (ListenerSpec × List Fields)) :
    (ensureListeners arn current pairs).Own E := by
  induction pairs with
  | nil => exact own_pure _
  | cons e pairs ih =>
    exact Own.bind (own_ensureListener arn _ _ _) fun _ => Own.bind ih fun _ => own_pure _

theorem own_deleteListeners (row : List (Key × Value)) : (deleteListeners row).Own E := by
  induction row with
  | nil => exact own_pure _
  | cons e row ih =>
    refine Own.bind (own_lift (by simp)) fun _ => Own.bind (own_answer _) fun _ => ?_
    exact Own.bind (own_info _ _) fun _ => ih

theorem innocent_convergeListeners : (convergeListeners arn service settings groups).Innocent := by
  refine Own.bind (own_lift (by simp)) fun _ => Own.bind (own_lift (by simp)) fun _ =>
    Own.bind (own_answer _) fun _ => ?_
  refine Own.bind (own_lift (by simp)) fun _ => Own.bind (own_ensureListeners _ _ _) fun _ => ?_
  exact Own.bind (own_lift (by simp)) fun _ => Own.bind (own_deleteListeners _) fun _ => own_pure _

theorem innocent_deleteAllListeners : (deleteAllListeners arn).Innocent := by
  have heach : ∀ ls, (deleteEach ls).Innocent := by
    intro ls
    induction ls with
    | nil => exact own_pure _
    | cons l ls ih => exact Own.bind (own_lift (by simp)) fun _ => Own.bind (own_answer _) fun _ => ih
  exact Own.bind (own_answer _) fun _ => heach _

/-! ## Services -/

theorem innocent_convergeService : (convergeService i service).Innocent := by
  refine Own.bind (own_lift (by simp)) fun _ => Own.bind (own_lift (by simp)) fun _ => ?_
  refine Own.bind (innocent_convergeLb _ _ _) fun _ => Own.bind (own_lift (by simp)) fun _ => ?_
  refine Own.bind (innocent_convergeTargetGroups _ _ _) fun _ => ?_
  refine Own.bind (innocent_convergeListeners _ _ _ _) fun _ => Own.bind (own_collect _) fun _ => ?_
  exact Own.bind (own_lift (by simp)) fun _ => own_pure _

theorem innocent_deleteService (key : Value) : (deleteService i key).Innocent := by
  refine Own.bind (own_lift (by simp)) fun n =>
    Own.bind (Own.bind (own_lift (by simp)) fun _ => own_answer _) fun live => ?_
  split
  · exact own_pure _
  · refine Own.bind (own_lift (by simp)) fun _ => Own.bind (innocent_deleteAllListeners _) fun _ => ?_
    refine Own.bind (Own.bind (own_lift (by simp)) fun _ => own_collect _) fun _ => ?_
    exact Own.bind (own_answer _) fun _ => own_info _ _

theorem innocent_publish (published : LoadBalancer) : (publish i service published).Innocent := by
  refine own_ite (Own.bind (own_lift (by simp)) fun _ => own_ite ?_ (own_pure _)) (own_pure _)
  exact Own.bind (own_lift (by simp)) fun _ => Own.bind (own_lift (by simp)) fun _ => own_notice _

theorem innocent_sync (key : Value) : (sync i key).Innocent := by
  refine Own.bind (own_lift (by simp)) fun _ => Own.bind (own_lift (by simp)) fun wanted => ?_
  split
  · exact Own.bind (innocent_deleteService _ _) fun _ => own_pure _
  · refine Own.bind (own_notice _) fun _ => Own.bind (innocent_convergeService _ _) fun _ => ?_
    exact Own.bind (innocent_publish _ _ _) fun _ => own_pure _

end

end Converge

end Balancer
