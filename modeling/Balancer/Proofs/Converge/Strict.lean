import Balancer.Proofs.Converge.Service

/-!
# Errors end a reconcile

No step of a reconcile goes on after an error of the cloud: `strict_convergeService`, `strict_deleteService`.
-/

namespace Balancer.Converge

set_option autoImplicit false

open Program Cluster Routing

section

variable (i : Inputs) (service arn live : Value) (settings : ServiceSettings)
  (lb : LoadBalancerConfig) (b : Backend) (groups : TargetGroups)

/-! ## Load balancers -/

theorem strict_subnetsNamed (vs : List Value) : (subnetsNamed vs).Strict :=
  strict_ite (strict_pure _) (strict_answer _)

theorem strict_clusterSubnets (clusterName scheme : Value) : (clusterSubnets clusterName scheme).Strict := by
  rw [clusterSubnets_eq]
  split
  · exact strict_throw _
  · refine Strict.bind (strict_lift _) fun _ => Strict.bind (strict_answer _) fun _ => ?_
    refine Strict.bind (strict_lift _) fun _ => Strict.bind (strict_subnetsNamed _) fun _ => ?_
    refine Strict.bind (strict_lift _) fun _ => strict_ite ?_ (strict_lift _)
    exact Strict.bind (strict_throw _) fun _ => strict_lift _

theorem strict_resolveSubnets (clusterName scheme requested : Value) :
    (resolveSubnets clusterName scheme requested).Strict := by
  rw [resolveSubnets_eq]
  refine strict_ite (strict_clusterSubnets _ _) ?_
  refine Strict.bind (strict_lift _) fun _ => Strict.bind (strict_lift _) fun _ =>
    Strict.bind (strict_lift _) fun _ => ?_
  refine Strict.bind (strict_subnetsNamed _) fun _ => Strict.bind (strict_lift _) fun _ => ?_
  refine Strict.bind (strict_lift _) fun _ => Strict.bind (strict_lift _) fun _ =>
    strict_ite ?_ (strict_pure _)
  refine Strict.bind (strict_lift _) fun _ => Strict.bind (strict_lift _) fun _ => ?_
  exact Strict.bind (strict_throw _) fun _ => strict_pure _

theorem strict_buildLb : (buildLb i service settings).Strict := by
  refine Strict.bind (strict_lift _) fun _ => Strict.bind (strict_lift _) fun _ =>
    Strict.bind (strict_lift _) fun _ => ?_
  exact Strict.bind (strict_resolveSubnets _ _ _) fun _ => strict_pure _

theorem strict_createLb : (createLb lb).Strict := by
  refine Strict.bind (strict_lift _) fun _ => Strict.bind (Strict.warning (strict_answer _) _ _) fun _ => ?_
  exact Strict.bind (strict_lift _) fun _ => Strict.bind (strict_info _ _) fun _ => strict_pure _

theorem strict_recreateLb : (recreateLb live lb).Strict := by
  refine Strict.bind (strict_lift _) fun _ => Strict.bind (strict_answer _) fun _ => ?_
  exact Strict.bind (strict_info _ _) fun _ => strict_createLb lb

theorem strict_convergeIpType : (convergeIpType arn live lb).Strict := by
  refine strict_ite (strict_pure _) (Strict.bind (strict_lift _) fun _ => strict_ite (strict_pure _) ?_)
  exact Strict.bind (Strict.warning (strict_answer _) _ _) fun _ => strict_info _ _

theorem strict_convergeSubnets : (convergeSubnets arn live lb).Strict := by
  unfold convergeSubnets
  simp only [mapM_liftM]
  refine Strict.bind (strict_lift _) fun _ => Strict.bind (strict_lift _) fun _ =>
    Strict.bind (strict_lift _) fun _ => ?_
  refine Strict.bind (strict_lift _) fun _ =>
    strict_ite (strict_pure _) (Strict.bind (strict_lift _) fun _ => ?_)
  exact Strict.bind (Strict.warning (strict_answer _) _ _) fun _ => strict_info _ _

/-! ## Tags, attributes and targets -/

theorem strict_doIf {p : Program Unit} (hp : p.Strict) (b : Bool) : (doIf b p).Strict :=
  strict_ite hp (strict_pure _)

theorem strict_convergeTags (desired : Value) : (convergeTags arn desired).Strict := by
  rw [convergeTags_eq]
  refine Strict.bind (strict_answer _) fun _ => Strict.bind (strict_lift _) fun _ =>
    Strict.bind (strict_lift _) fun _ => ?_
  refine Strict.bind (strict_doIf (strict_answer _) _) fun _ =>
    Strict.bind (strict_doIf (strict_answer _) _) fun _ => ?_
  exact strict_pure _

theorem strict_convergeLbAttributes (desired : Value) : (convergeLbAttributes arn desired).Strict := by
  refine strict_ite (strict_pure _)
    (Strict.bind (strict_answer _) fun _ => Strict.bind (strict_lift _) fun _ => ?_)
  exact strict_ite (strict_pure _) (Strict.bind (strict_answer _) fun _ => strict_pure _)

theorem strict_convergeTgAttributes (desired : Value) : (convergeTgAttributes arn desired).Strict := by
  refine strict_ite (strict_pure _)
    (Strict.bind (strict_answer _) fun _ => Strict.bind (strict_lift _) fun _ => ?_)
  exact strict_ite (strict_pure _) (Strict.bind (strict_answer _) fun _ => strict_pure _)

theorem strict_convergeTargets (desired : Value) : (convergeTargets arn desired).Strict := by
  rw [convergeTargets_eq]
  refine Strict.bind (strict_answer _) fun _ => Strict.bind (strict_lift _) fun _ =>
    Strict.bind (strict_lift _) fun _ => ?_
  refine Strict.bind (strict_lift _) fun _ => Strict.bind (strict_lift _) fun _ =>
    Strict.bind (strict_lift _) fun _ => ?_
  refine Strict.bind (strict_doIf (strict_answer _) _) fun _ =>
    Strict.bind (strict_doIf (strict_answer _) _) fun _ => ?_
  exact strict_pure _

theorem strict_modifyLb : (modifyLb live lb).Strict := by
  refine Strict.bind (strict_lift _) fun _ => Strict.bind (strict_convergeIpType _ _ _) fun _ => ?_
  refine Strict.bind (strict_convergeSubnets _ _ _) fun _ => Strict.bind (strict_convergeTags _ _) fun _ => ?_
  exact strict_pure _

theorem strict_ensureLb : (ensureLb lb).Strict := by
  refine Strict.bind (strict_answer _) fun live => ?_
  split
  · exact strict_createLb lb
  · refine Strict.bind (strict_lift _) fun _ => strict_ite (strict_recreateLb _ lb) ?_
    exact Strict.bind (strict_modifyLb _ lb) fun _ => strict_pure _

theorem strict_convergeLb : (convergeLb i service settings).Strict := by
  refine Strict.bind (strict_buildLb i service settings) fun _ => Strict.bind (strict_lift _) fun _ => ?_
  refine Strict.bind (strict_ensureLb _) fun _ => Strict.bind (strict_lift _) fun _ => ?_
  exact Strict.bind (strict_convergeLbAttributes _ _) fun _ => strict_pure _

/-! ## Target groups -/

theorem strict_createTargetGroup (tgName : String) (targetType protocol : Value)
    (check : Fields) (tags : Value) :
    (createTargetGroup i tgName targetType protocol check tags).Strict := by
  refine Strict.bind (strict_lift _) fun _ => Strict.bind (strict_answer _) fun _ => ?_
  exact Strict.bind (strict_lift _) fun _ => Strict.bind (strict_info _ _) fun _ => strict_pure _

theorem strict_modifyTargetGroup (tgName : String) (group : Value) (check : Fields) :
    (modifyTargetGroup tgName group check).Strict := by
  refine Strict.bind (strict_lift _) fun _ => strict_ite ?_ (strict_pure _)
  refine Strict.bind (strict_lift _) fun _ => Strict.bind (strict_answer _) fun _ => ?_
  exact Strict.bind (strict_info _ _) fun _ => strict_pure _

theorem strict_ensureTargetGroup (tgName : String) (targetType protocol : Value)
    (check : Fields) (tags : Value) :
    (ensureTargetGroup i tgName targetType protocol check tags).Strict := by
  refine Strict.bind (strict_answer _) fun _ => ?_
  split
  · exact strict_createTargetGroup ..
  · exact strict_modifyTargetGroup ..

theorem strict_furnish (store : Store) (tags : Table String Value) :
    (furnish store service settings b tags arn).Strict := by
  refine Strict.bind (strict_convergeTags _ _) fun _ =>
    Strict.bind (strict_convergeTgAttributes _ _) fun _ => ?_
  exact Strict.bind (strict_lift _) fun _ => Strict.bind (strict_convergeTargets _ _) fun _ => strict_pure _

theorem strict_convergeTargetGroup : (convergeTargetGroup i service settings b).Strict := by
  rw [convergeTargetGroup_eq]
  refine Strict.bind (strict_lift _) fun _ => Strict.bind (strict_ensureTargetGroup ..) fun _ => ?_
  exact Strict.bind (strict_lift _) fun _ => strict_furnish ..

theorem strict_convergeBackends (there : Table BackendKey TargetGroup) (bs : List Backend) :
    (convergeBackends i service settings there bs).Strict := by
  induction bs generalizing there with
  | nil => exact strict_pure _
  | cons b bs ih =>
    refine strict_ite (ih there) (Strict.bind (strict_lift _) fun _ => strict_ite (ih there) ?_)
    exact Strict.bind (strict_convergeTargetGroup i service settings b) fun _ => ih _

theorem strict_convergeTargetGroups : (convergeTargetGroups i service settings).Strict := by
  refine Strict.bind (strict_lift _) fun _ => Strict.bind (strict_lift _) fun _ => ?_
  exact Strict.bind (strict_convergeBackends ..) fun _ => Strict.bind (strict_lift _) fun _ => strict_pure _

theorem strict_deleteTargetGroups (arns : List Key) : (deleteTargetGroups arns).Strict := by
  induction arns with
  | nil => exact strict_pure _
  | cons arn arns ih => exact Strict.bind (strict_answer _) fun _ => Strict.bind (strict_info _ _) fun _ => ih

theorem strict_collect : (collect groups).Strict := by
  refine Strict.bind (strict_lift _) fun _ => Strict.bind (strict_answer _) fun _ =>
    Strict.bind (strict_lift _) fun _ => ?_
  exact strict_deleteTargetGroups _

/-! ## Listeners -/

theorem strict_ensureListener (current : Option Value) (spec : ListenerSpec) (actions : List Fields) :
    (ensureListener arn current spec actions).Strict := by
  unfold ensureListener
  split
  · refine Strict.bind (strict_answer _) fun _ => Strict.bind (strict_lift _) fun _ => ?_
    exact Strict.bind (strict_info _ _) fun _ => strict_pure _
  · refine Strict.bind (strict_lift _) fun _ => strict_ite ?_ (strict_pure _)
    refine Strict.bind (strict_lift _) fun _ => Strict.bind (strict_answer _) fun _ => ?_
    exact Strict.bind (strict_info _ _) fun _ => strict_pure _

theorem strict_ensureListeners (current : Table Key Value) (pairs : List (ListenerSpec × List Fields)) :
    (ensureListeners arn current pairs).Strict := by
  induction pairs with
  | nil => exact strict_pure _
  | cons e pairs ih =>
    exact Strict.bind (strict_ensureListener arn _ _ _) fun _ => Strict.bind ih fun _ => strict_pure _

theorem strict_deleteListeners (row : List (Key × Value)) : (deleteListeners row).Strict := by
  induction row with
  | nil => exact strict_pure _
  | cons e row ih =>
    refine Strict.bind (strict_lift _) fun _ => Strict.bind (strict_answer _) fun _ => ?_
    exact Strict.bind (strict_info _ _) fun _ => ih

theorem strict_convergeListeners : (convergeListeners arn service settings groups).Strict := by
  refine Strict.bind (strict_lift _) fun _ => Strict.bind (strict_lift _) fun _ =>
    Strict.bind (strict_answer _) fun _ => ?_
  refine Strict.bind (strict_lift _) fun _ => Strict.bind (strict_ensureListeners ..) fun _ => ?_
  exact Strict.bind (strict_lift _) fun _ => Strict.bind (strict_deleteListeners _) fun _ => strict_pure _

theorem strict_deleteAllListeners : (deleteAllListeners arn).Strict := by
  have heach : ∀ ls, (deleteEach ls).Strict := by
    intro ls
    induction ls with
    | nil => exact strict_pure _
    | cons l ls ih => exact Strict.bind (strict_lift _) fun _ => Strict.bind (strict_answer _) fun _ => ih
  exact Strict.bind (strict_answer _) fun _ => heach _

/-! ## Services -/

theorem strict_convergeService : (convergeService i service).Strict := by
  refine Strict.bind (strict_lift _) fun _ => Strict.bind (strict_lift _) fun _ => ?_
  refine Strict.bind (strict_convergeLb ..) fun _ => Strict.bind (strict_lift _) fun _ => ?_
  refine Strict.bind (strict_convergeTargetGroups ..) fun _ => ?_
  refine Strict.bind (strict_convergeListeners ..) fun _ => Strict.bind (strict_collect _) fun _ => ?_
  exact Strict.bind (strict_lift _) fun _ => strict_pure _

theorem strict_deleteService (key : Value) : (deleteService i key).Strict := by
  refine Strict.bind (strict_lift _) fun n =>
    Strict.bind (Strict.bind (strict_lift _) fun _ => strict_answer _) fun live => ?_
  split
  · exact strict_pure _
  · refine Strict.bind (strict_lift _) fun _ => Strict.bind (strict_deleteAllListeners _) fun _ => ?_
    refine Strict.bind (Strict.bind (strict_lift _) fun _ => strict_collect _) fun _ => ?_
    exact Strict.bind (strict_answer _) fun _ => strict_info _ _

theorem strict_publish (published : LoadBalancer) : (publish i service published).Strict := by
  refine strict_ite (Strict.bind (strict_lift _) fun _ => strict_ite ?_ (strict_pure _)) (strict_pure _)
  exact Strict.bind (strict_lift _) fun _ => Strict.bind (strict_lift _) fun _ => strict_notice _

theorem strict_sync (key : Value) : (sync i key).Strict := by
  refine Strict.bind (strict_lift _) fun _ => Strict.bind (strict_lift _) fun wanted => ?_
  split
  · exact Strict.bind (strict_deleteService ..) fun _ => strict_pure _
  · refine Strict.bind (strict_notice _) fun _ => Strict.bind (strict_convergeService ..) fun _ => ?_
    exact Strict.bind (strict_publish ..) fun _ => strict_pure _

end

end Balancer.Converge
