import Balancer.Proofs.Converge.Agreement
import Balancer.Proofs.Converge.Innocent

/-!
# What is missing is found out before the listeners

A reconcile that fails on a configuration, or on something that is not there, has written no listener and
deleted no target group.

* `Error.IsUnmet` : such an error. A sober gate, like that of a context, cuts runs off with other
  errors only (`Gate.Sober`);
* `decided` : the steps before the load balancer, which look subnets up at most;
* `planned` : the steps before the listeners are converged, with what these are to be. Its requests spare the
  listeners (`spares_planned`);
* `fulfil` : the steps that are left. None of them fails on what is unmet (`own_fulfil`), and neither does a
  cloud (`convergeService_unmet`).
-/

namespace Balancer

set_option autoImplicit false

/-- A configuration or a Service cannot be served as it is, or something that a Service
refers to is not there. -/
def Error.IsUnmet : Error → Prop
  | .configuration _ => True
  | e => e.IsMissing

instance : AdmitsMisfits fun e => ¬ e.IsUnmet where
  admits e h := by
    cases e with
    | mismatch what => exact id
    | noField key => exact id
    | _ => exact h.elim

instance : DecidablePred Error.IsUnmet
  | .configuration _ | .missing _ | .notFound _ => .isTrue trivial
  | .cloud .. | .stopping _ | .deadline _ | .noField _ | .mismatch _ | .noCertificate | .server
    _ | .noServer | .failure .. =>
    .isFalse id

/-- A gate that cuts runs off with errors of its own, and not with what is unmet. -/
def Gate.Sober {γ : Type} (g : Gate γ) : Prop := ∀ r c e c', g.allow r c = (.error e, c') → ¬ e.IsUnmet

theorem Context.sober_gate : gate.Sober := by
  intro r c e c' h
  have hcheck : Errs (fun e => ¬ e.IsUnmet) c.check.1 := errs_check c id id
  exact hcheck e (congrArg Prod.fst h)

/-- Faults in front of a sober gate are one. -/
theorem Fault.sober_gate {γ : Type} {g : Gate γ} (hg : g.Sober) : (Fault.gate g).Sober := by
  rintro r ⟨fs, c⟩ e c' h
  have hallow : Errs (fun e => ¬ e.IsUnmet) (allow r fs).1 := errs_allow (fun _ _ _ => id) r fs
  dsimp only [Fault.gate] at h
  rcases hfs : allow r fs with ⟨e' | ⟨⟩, fs'⟩
  · rw [hfs] at h hallow
    cases h
    exact errs_error.1 hallow
  · simp only [hfs] at h
    exact hg r c e (g.allow r c).2 (Prod.ext (Prod.mk.inj h).1 rfl)

namespace Converge

open Cluster Resources Routing Program

/-! ## Requests that spare the listeners -/

/-- A request that writes no listener and deletes no target group. -/
def SparesListeners : Request → Prop
  | .createListener _ | .modifyListener _ | .deleteListener _ | .deleteTargetGroup _ => False
  | _ => True

/-- The names of requests that write a listener or delete a target group. -/
def listenerWrites : List String :=
  ["create_listener", "modify_listener", "delete_listener", "delete_target_group"]

section

variable {r : Request} {record : Record}

theorem LbWork.sparesListeners {Q : Fields → Prop} (h : LbWork Q r) : SparesListeners r := by
  cases r with
  | createListener params => exact h.elim fun _ h => h.elim
  | modifyListener params => exact h.elim fun _ h => h.elim
  | deleteListener arn => exact h.elim fun _ h => h.elim
  | deleteTargetGroup arn => exact h.elim fun _ h => h.elim
  | _ => trivial

theorem GroupWork.sparesListeners {P : Value → Value → Prop} (h : GroupWork P r) : SparesListeners r := by
  cases r with
  | createListener params => exact h.elim fun _ h => h.elim
  | modifyListener params => exact h.elim fun _ h => h.elim
  | deleteListener arn => exact h.elim fun _ h => h.elim
  | deleteTargetGroup arn => exact h.elim fun _ h => h.elim
  | _ => trivial

/-- What is kept of such a request goes by another name. -/
theorem SparesListeners.name_notMem (h : SparesListeners r) (hrecord : r.record? = .ok (some record)) :
    record.name ∉ listenerWrites := by
  have hkept : ∀ (name : String) (args : Fields), name ∉ listenerWrites →
      Request.record?.kept name args = .ok (some record) →
      record.name ∉ listenerWrites := by
    rintro name args hname ⟨⟩
    exact hname
  cases r with
  | createListener params => exact h.elim
  | modifyListener params => exact h.elim
  | deleteListener arn => exact h.elim
  | deleteTargetGroup arn => exact h.elim
  | _ =>
    first
    | exact hkept _ _ (by decide) hrecord
    | exact (bind_eq_ok_iff.1 hrecord).elim fun _ h => hkept _ _ (by decide) h.2
    | cases hrecord

end

/-! ## The steps of a reconcile -/

/-- The steps before the load balancer: the annotations are parsed, the subnets resolved
and the scheme checked. -/
def decided (i : Inputs) (service : Value) : Program (ServiceSettings × LoadBalancerConfig) := do
  let settings ← (settingsOf i service : Except Error ServiceSettings)
  let lb ← buildLb i service settings
  checkScheme i.config service lb
  return (settings, lb)

/-- What the listeners of a Service are to be. -/
structure Plan extends Prepared where
  specs : List ListenerSpec
  actions : List (List Fields)

/-- The steps before the listeners are converged. -/
def planned (i : Inputs) (service : Value) : Program Plan := do
  let p ← prepared i service
  let specs ← listenerSpecs service p.settings
  let actions ← (specs.mapM fun spec => buildActions p.settings spec.backend p.groups : Except Error
      (List (List Fields)))
  return ⟨p, specs, actions⟩

/-- The steps that are left: the listeners are converged, and then target groups are
deleted that are of no use. -/
def fulfil (plan : Plan) : Program LoadBalancer := do
  let current ← byPort (← Program.answer (.listeners plan.arn))
  let _ ← ensureListeners plan.arn current (plan.specs.zip plan.actions)
  deleteListeners (← stale current plan.specs)
  finish plan.arn plan.live plan.groups

section

variable {i : Inputs} {service : Value}

theorem convergeService_planned (i : Inputs) (service : Value) :
    convergeService i service = planned i service >>= fulfil := by
  rw [convergeService_prepared]
  unfold planned serve convergeListeners fulfil
  simp only [LawfulMonad.bind_assoc, LawfulMonad.pure_bind]

theorem convergeService_decided (i : Inputs) (service : Value) : convergeService i service = (do
    let (settings, lb) ← decided i service
    let live ← ensureLb lb
    let arn ← live.item "LoadBalancerArn"
    let _ ← convergeLbAttributes arn settings.loadBalancer.attributes.toTextObject
    equip i service settings live) := by
  rw [convergeService_eq]
  unfold decided convergeLb settingsOf
  simp only [liftM_bind, LawfulMonad.bind_assoc, LawfulMonad.pure_bind]

theorem asks_decided : (decided i service).Asks IsSurvey := by
  refine Asks.bind (asks_lift _) fun settings => ?_
  refine Asks.bind
    ((surveys_buildLb i service settings).asks (fun _ => trivial) fun _ => trivial) fun lb => ?_
  exact Asks.bind (asks_lift _) fun _ => asks_pure _

/-- No listener is written, and no target group is deleted, before it is known what
the listeners are to be. -/
theorem spares_planned : (planned i service).Asks SparesListeners := by
  have hlb : ∀ settings, (convergeLb i service settings).Asks SparesListeners := fun settings =>
    (lbWork_convergeLb (Q := fun _ => True) fun _ _ _ _ _ _ _ _ _ _ => trivial).mono fun _ =>
      LbWork.sparesListeners
  have hgroups : ∀ settings, (convergeTargetGroups i service settings).Asks SparesListeners := fun settings =>
    (groupWork_convergeTargetGroups (P := fun _ _ => True) fun _ _ _ _ _ _ _ => trivial).mono fun _ =>
      GroupWork.sparesListeners
  unfold planned prepared
  simp only [LawfulMonad.bind_assoc, LawfulMonad.pure_bind]
  refine Asks.bind (asks_lift _) fun _ => Asks.bind (asks_lift _) fun settings =>
    Asks.bind (hlb settings) fun _ => ?_
  refine Asks.bind (asks_lift _) fun _ => Asks.bind (hgroups settings) fun _ =>
    Asks.bind (asks_lift _) fun _ => ?_
  exact Asks.bind (asks_lift _) fun _ => asks_pure _

theorem strict_fulfil (plan : Plan) : (fulfil plan).Strict := by
  refine Strict.bind (strict_answer _) fun _ => Strict.bind (strict_lift _) fun _ => ?_
  refine Strict.bind (strict_ensureListeners ..) fun _ => Strict.bind (strict_lift _) fun _ => ?_
  refine Strict.bind (strict_deleteListeners _) fun _ => ?_
  exact Strict.bind (strict_collect _) fun _ => Strict.bind (strict_lift _) fun _ => strict_pure _

/-- From the listeners on, data of an unexpected shape is all that a reconcile fails on by itself. -/
theorem own_fulfil {E : Error → Prop} [AdmitsMisfits E] (plan : Plan) : (fulfil plan).Own E := by
  refine Own.bind (own_answer _) fun _ => Own.bind (own_lift (by simp)) fun _ =>
    Own.bind (own_ensureListeners _ _ _) fun _ => ?_
  refine Own.bind (own_lift (by simp)) fun _ => Own.bind (own_deleteListeners _) fun _ => ?_
  exact Own.bind (own_collect _) fun _ => Own.bind (own_lift (by simp)) fun _ => own_pure _

/-- Behind a sober gate, what is unmet is found out before the listeners are converged. -/
theorem not_isUnmet_fulfil {γ : Type} {g : Gate γ} (hg : g.Sober) {plan : Plan} {c c' : γ}
    {m m' : Memory} {e : Error} (h : (fulfil plan).run (Memory.cloud g) (c, m) = (.error e, (c', m'))) :
    ¬ e.IsUnmet := by
  have hany : (fulfil plan).Each (fun _ _ => True) m.resources :=
    Always.each (I := fun _ => True) fun _ _ => trivial
  have hown : (fulfil plan).Own fun e => ¬ e.IsUnmet := own_fulfil plan
  rcases (strict_fulfil plan).run_error hown hany h with ⟨r, b, b', hgate⟩ | hown | ⟨r, u, -, hperform⟩
  · exact hg r b e b' hgate
  · exact hown
  · have hcloud : Errs (fun e => ¬ e.IsUnmet) (u.perform r).1 := errs_perform (fun _ _ _ => id) u r
    exact hcloud e (congrArg Prod.fst hperform)

/-- A reconcile that fails on a configuration, or on something that is not there, has written no listener and
deleted no target group: for any Service, in any cluster and any cloud. If the annotations, the subnets or the
scheme are what it fails on, all is as it was. -/
theorem convergeService_unmet (i : Inputs) (service : Value) {γ : Type} {g : Gate γ} (hg : g.Sober)
    (c : γ) (m : Memory) :
    (∀ e c' m', (convergeService i service).run (Memory.cloud g) (c, m) = (.error e, (c', m')) → e.IsUnmet →
      ∃ log, m'.records = m.records ++ log ∧ ∀ record ∈ log, record.name ∉ listenerWrites) ∧
    ∀ e c' m', (decided i service).run (Memory.cloud g) (c, m) = (.error e, (c', m')) →
      (convergeService i service).run (Memory.cloud g) (c, m) = (.error e, (c', m)) := by
  constructor
  · intro e c' m' hrun hunmet
    rw [convergeService_planned, run_bind] at hrun
    rcases hplanned : (planned i service).run (Memory.cloud g) (c, m) with ⟨e' | plan, c₁, m₁⟩
    · rw [hplanned] at hrun
      cases hrun
      obtain ⟨log, hlog, hall⟩ := spares_planned.records_run g c m
      rw [hplanned] at hlog
      refine ⟨log, hlog, fun record hmem => ?_⟩
      obtain ⟨r, hr, hrecord⟩ := hall record hmem
      exact hr.name_notMem hrecord
    · rw [hplanned] at hrun
      exact absurd hunmet (not_isUnmet_fulfil hg hrun)
  · intro e c' m' hdecided
    have hsame : ((decided i service).run (Memory.cloud g) (c, m)).2.2 = m :=
      asks_decided.run_same (fun r hr => hr.perform) g c m
    rw [hdecided] at hsame
    obtain rfl : m' = m := hsame
    rw [convergeService_decided, run_bind, hdecided]

end

/-! ## Samples -/

/-- The sample Service where the node has no identifier of the provider. -/
def namelessInputs : Inputs :=
  { sampleInputs with store := { sampleInputs.store with
      nodes := .ofList [(.text "node", .object [("metadata", .object [("name", .text "node")])])] } }

/-- A Service that asks for a subnet by its name. -/
def blueService : Value :=
  .object [("metadata", .object [("namespace", .text "default"), ("name", .text "web"),
    ("annotations", .object [("example.com/subnets", .text "blue")])])]

def blueInputs :
    Inputs := { sampleInputs with store := { services := .ofList [(.text "default/web", blueService)] } }

/-- A context, in front of a cloud that refuses the first listener. -/
def refusingGate : Gate (List Fault × Context) := Fault.gate Context.gate

def refusedFirst : List Fault × Context :=
  ([⟨"create_listener", .text "Throttling", .text "Rate exceeded", 0, 1⟩], { key := "default/web" })

/-- What a reconcile from an empty cloud comes to where the first listener would be refused. -/
def refusedRun (i : Inputs) (service : Value) :
    Except Error LoadBalancer × ((List Fault × Context) × Memory) :=
  (convergeService i service).run (Memory.cloud refusingGate) (refusedFirst, ⟨{}, []⟩)

/-- Where the provider does not know the node, a reconcile makes a load balancer and a target group and fails
before the cloud is asked for a listener. Where there is no subnet of a name, all is left as it was. -/
theorem sample_unmet : (∃ e c m, refusedRun namelessInputs sampleService = (.error e, (c, m)) ∧ e.IsUnmet ∧
      m.records.map (·.name) = ["create_load_balancer", "create_target_group"] ∧
      ∀ record ∈ m.records, record.name ∉ listenerWrites) ∧
    ∃ e c, refusedRun blueInputs blueService = (.error e, (c, ⟨{}, []⟩)) ∧ e.IsUnmet := by
  have hsober : refusingGate.Sober := Fault.sober_gate Context.sober_gate
  constructor
  · have hfails : (refusedRun namelessInputs sampleService).1.isOk = false ∧
        Errs Error.IsUnmet (refusedRun namelessInputs sampleService).1 ∧
        (refusedRun namelessInputs sampleService).2.2.records.map (·.name) =
          ["create_load_balancer", "create_target_group"] := by
      set_option maxRecDepth 100000 in decide +kernel
    obtain ⟨hfailed, hunmet, hnames⟩ := hfails
    rcases h : refusedRun namelessInputs sampleService with ⟨e | lb, c, m⟩
    · rw [h] at hunmet hnames
      obtain ⟨hspared, -⟩ := convergeService_unmet namelessInputs sampleService hsober refusedFirst ⟨{}, []⟩
      obtain ⟨log, hlog, hall⟩ := hspared e c m h (hunmet e rfl)
      exact ⟨e, c, m, rfl, hunmet e rfl, hnames, hlog ▸ hall⟩
    · simp [h, Except.isOk, Except.toBool] at hfailed
  · have hfails : ((decided blueInputs blueService).run (Memory.cloud refusingGate)
        (refusedFirst, ⟨{}, []⟩)).1.isOk = false ∧
        Errs Error.IsUnmet ((decided blueInputs blueService).run (Memory.cloud refusingGate)
          (refusedFirst, ⟨{}, []⟩)).1 := by
      set_option maxRecDepth 100000 in decide +kernel
    obtain ⟨hfailed, hunmet⟩ := hfails
    rcases h : (decided blueInputs blueService).run (Memory.cloud refusingGate)
      (refusedFirst, ⟨{}, []⟩) with ⟨e | d, c, m⟩
    · rw [h] at hunmet
      obtain ⟨-, hsame⟩ := convergeService_unmet blueInputs blueService hsober refusedFirst ⟨{}, []⟩
      exact ⟨e, c, hsame e c m h, hunmet e rfl⟩
    · simp [h, Except.isOk, Except.toBool] at hfailed

end Converge

end Balancer
