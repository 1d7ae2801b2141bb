import Balancer.Proofs.Errors

/-!
# Refusals come from the cloud

* `Error.IsRefusal` : the cloud refused an operation;
* `Unrefused x` : a computation does not fail in that way. No computation over annotations, objects of the
  cluster, identities and settings does: also those do not that have checks of their own.
-/

namespace Balancer

set_option autoImplicit false

/-- The cloud refused an operation. -/
def Error.IsRefusal : Error → Prop
  | .cloud _ _ _ => True
  | _ => False

@[simp] theorem Error.isRefusal_configuration (fault : ConfigurationFault) :
    (Error.configuration fault).IsRefusal ↔ False := .rfl

@[simp] theorem Error.isRefusal_missing (what : Missing) : (Error.missing what).IsRefusal ↔ False := .rfl

@[simp] theorem Error.isRefusal_notFound (key : Value) : (Error.notFound key).IsRefusal ↔ False := .rfl

instance : AdmitsMisfits fun e => ¬ e.IsRefusal where
  admits e h := by cases e <;> first | exact id | exact h.elim

/-- A computation that does not fail by a refusal. -/
abbrev Unrefused {α : Type} (x : Except Error α) : Prop := Errs (fun e => ¬ e.IsRefusal) x

/-! ## Objects of the cluster -/

namespace Cluster

variable (v w : Value) (k : String)

@[simp] theorem unrefused_instanceId : Unrefused (instanceId v) := by simp [instanceId, providerId]

end Cluster

namespace Store

open Cluster

variable (s : Store) (kind : ObjectKind) (v : Value)

@[simp] theorem unrefused_find : Unrefused (s.find kind v) := by
  refine errs_bind.2 ⟨errs_find? s kind v, fun obj _ => ?_⟩
  cases obj <;> simp

@[simp] theorem unrefused_instanceIds : Unrefused s.instanceIds := by simp [instanceIds, eligibleNodes]

end Store

/-! ## Annotations -/

namespace Annotations

variable (domain name : String) (v : Value)

@[simp] theorem unrefused_invalid {α : Type} : Unrefused (invalid domain name v : Except Error α) := by
  simp [invalid]

@[simp] theorem unrefused_integer? : Unrefused (integer? domain name v) := by
  refine errs_bind.2 ⟨errs_raw _ _ _, fun w _ => ?_⟩
  split
  · exact errs_pure _
  · have hinteger : Unrefused w.integer := w.errs_integer
    split
    · exact errs_pure _
    · simp
    · rename_i he
      exact errs_throw.2 (hinteger _ he)

@[simp] theorem unrefused_pairs : Unrefused (pairs domain name v) := by
  refine errs_bind.2 ⟨errs_slice _ _ _, fun ps _ => ?_⟩
  cases pairsOf ps with
  | ok ps => exact errs_ok _
  | error e => exact errs_error.2 id

end Annotations

namespace Actions

variable (actions : Actions) (v : Value)

@[simp] theorem unrefused_parseOne (name : String) : Unrefused (parseOne name v) := by
  cases v with
  | text s =>
    unfold parseOne
    dsimp only
    split <;> simp
  | _ => simp [parseOne]

@[simp] theorem unrefused_parse (raw : Fields) : Unrefused (parse raw) := by simp [parse]

@[simp] theorem unrefused_find : Unrefused (actions.find v) := by
  refine errs_bind.2 ⟨errs_declared? actions v, fun action _ => ?_⟩
  cases action <;> simp

end Actions

namespace ServiceSettings

@[simp] theorem unrefused_choice? (name : String) (v : Value) (allowed : List String) :
    Unrefused (choice? name v allowed) := by
  cases v <;> simp [choice?]

@[simp] theorem unrefused_parse (c : Config) (v : Value) : Unrefused (parse c v) := by simp [parse]

end ServiceSettings

@[simp] theorem Store.unrefused_settings (s : Store) (c : Config) (v : Value) :
    Unrefused (s.settings c v) := by
  simp [Store.settings, Store.service]

/-! ## Listeners, targets and health checks -/

namespace Routing

open Cluster Value

variable (v w : Value) (b : Backend) (settings : ServiceSettings) (store : Store)

@[simp] theorem unrefused_listenerProtocol (n : Int) (ports : List Value) :
    Unrefused (listenerProtocol v n ports w) := by
  refine errs_bind.2 ⟨by simp, fun values _ => errs_bind.2 ⟨by simp, fun protocols _ => ?_⟩⟩
  refine errs_bind.2 ⟨errs_unsupported _, fun refused _ => ?_⟩
  rcases protocols with _ | ⟨p, _ | ⟨q, protocols⟩⟩ <;> simp

@[simp] theorem unrefused_listenerSpec (n : Int) (ports : List Value) :
    Unrefused (listenerSpec v settings n ports) := by
  refine errs_bind.2 ⟨unrefused_listenerProtocol _ _ _ _, fun protocol _ => ?_⟩
  refine errs_bind.2 ⟨by simp, fun names _ => ?_⟩
  cases names <;> simp

@[simp] theorem unrefused_listenerSpecs : Unrefused (listenerSpecs v settings) := by simp [listenerSpecs]

@[simp] theorem unrefused_findPort : Unrefused (findPort v w) := by
  refine errs_bind.2 ⟨errs_ports v, fun ports _ => errs_bind.2 ⟨by simp, fun port _ => ?_⟩⟩
  cases port <;> simp

@[simp] theorem unrefused_instanceTargets : Unrefused (instanceTargets store v b w) := by
  simp [instanceTargets]

@[simp] theorem unrefused_addressTargets : Unrefused (addressTargets store v w) := by
  simp [addressTargets, Store.endpointsOf]

@[simp] theorem unrefused_resolveTargets : Unrefused (resolveTargets store v b w) := by
  simp [resolveTargets, Target.sorted]

@[simp] theorem unrefused_healthCheckPort (endpoints port : Value) :
    Unrefused (healthCheckPort v port w endpoints) := by
  refine errs_bind.2 ⟨errs_textFor _ _, fun p _ => errs_ite.2 ⟨fun _ => errs_pure _, fun _ => ?_⟩⟩
  refine errs_bind.2 ⟨errs_ports v, fun ports _ => errs_bind.2 ⟨by simp, fun servicePort _ => ?_⟩⟩
  cases servicePort with
  | none => simp
  | some servicePort =>
    refine errs_ite.2 ⟨fun _ => by simp, fun _ => ?_⟩
    refine errs_bind.2 ⟨errs_item _ _, fun number _ => errs_bind.2 ⟨errs_getOr _ _ _, fun target _ => ?_⟩⟩
    refine errs_ite.2 ⟨fun _ => errs_pure _, fun _ => ?_⟩
    refine errs_bind.2 ⟨errs_endpointPort? _ _, fun n _ => ?_⟩
    cases n <;> simp

end Routing

/-! ## Steps of a reconcile that ask nothing -/

namespace Converge

open Cluster Routing Value

variable (i : Inputs) (v w ns name : Value) (vs : List Value) (b : Backend) (settings : ServiceSettings)
  (groups : TargetGroups)

@[simp] theorem unrefused_checkScheme (c : Config) (lb : LoadBalancerConfig) :
    Unrefused (checkScheme c v lb) := by
  simp [checkScheme]

@[simp] theorem unrefused_buildActions : Unrefused (buildActions settings b groups) := by
  refine errs_ite.2 ⟨fun _ => by simp, fun _ => errs_bind.2 ⟨errs_backendKey b, fun key _ => ?_⟩⟩
  cases groups.byBackend.get? key <;> simp

end Converge

end Balancer
