import Balancer.Cloud.Context
import Balancer.Cloud.Fault
import Balancer.Cloud.Resources
import Balancer.Converge.Service

/-!
# Errors of computations

* `Errs E x` : the errors of a computation satisfy a condition; `errs_bind` puts computations together;
* `AdmitsMisfits E` : the condition admits data of an unexpected shape. That is all that a computation fails
  on which reads values, objects of the cluster, names and descriptions, and has no check of its own;
* `Context.errs_check`, `Fault.errs_allow` : the errors of contexts and of faults.
-/

namespace Balancer

set_option autoImplicit false

/-- Data has an unexpected shape: a value does not know an operation, or a field is not there. -/
def Error.IsMisfit : Error → Prop
  | .mismatch _ | .noField _ => True
  | _ => False

/-- A setting or an annotation is not valid. -/
def Error.IsConfiguration (e : Error) : Prop := ∃ fault, e = .configuration fault

@[simp] theorem Error.isConfiguration_configuration (fault : ConfigurationFault) :
    (Error.configuration fault).IsConfiguration :=
  ⟨fault, rfl⟩

/-- A condition on errors that admits data of an unexpected shape. -/
class AdmitsMisfits (E : Error → Prop) : Prop where
  admits : ∀ e : Error, e.IsMisfit → E e

/-- A computation whose errors satisfy a condition. -/
def Errs {α : Type} (E : Error → Prop) (x : Except Error α) : Prop := ∀ e, x = .error e → E e

instance {α : Type} {E : Error → Prop} [DecidablePred E] (x : Except Error α) : Decidable (Errs E x) :=
  match x with
  | .ok _ => .isTrue fun _ h => nomatch h
  | .error e => decidable_of_iff (E e) ⟨fun h _ he => Except.error.inj he ▸ h, fun h => h e rfl⟩

/-! ## Computations put together -/

section

variable {E : Error → Prop} {α β : Type} {x y : Except Error α} {f : α → Except Error β}
  {g : α → β} {xs : List α}

@[simp] theorem errs_ok (a : α) : Errs E (.ok a : Except Error α) := fun _ h => nomatch h

@[simp] theorem errs_pure (a : α) : Errs E (pure a : Except Error α) := fun _ h => nomatch h

@[simp] theorem errs_error {e : Error} : Errs E (.error e : Except Error α) ↔ E e := by
  constructor
  · exact fun h => h e rfl
  · rintro h _ ⟨⟩
    exact h

@[simp] theorem errs_throw {e : Error} : Errs E (throw e : Except Error α) ↔ E e := errs_error

@[simp] theorem errs_mismatch [AdmitsMisfits E] (m : Mismatch) : Errs E (m.error : Except Error α) :=
  errs_error.2 (AdmitsMisfits.admits _ trivial)

@[simp] theorem errs_noField [AdmitsMisfits E] (v : Value) : Errs E (.error (.noField v) : Except Error α) :=
  errs_error.2 (AdmitsMisfits.admits _ trivial)

@[simp] theorem errs_bind : Errs E (x >>= f) ↔ Errs E x ∧ ∀ a, x = .ok a → Errs E (f a) := by
  cases x with
  | error e => simp [bind, Except.bind]
  | ok a => simp [bind, Except.bind]

@[simp] theorem errs_map : Errs E (g <$> x) ↔ Errs E x := by
  cases x with
  | error e => exact errs_error.trans errs_error.symm
  | ok a => exact iff_of_true (errs_ok _) (errs_ok _)

@[simp] theorem errs_mapError {x : Except ConfigurationFault α} :
    Errs Error.IsConfiguration (x.mapError .configuration) := by
  cases x with
  | error fault => exact errs_error.2 (Error.isConfiguration_configuration fault)
  | ok a => exact errs_ok a

@[simp] theorem errs_ite {c : Prop} [Decidable c] :
    Errs E (if c then x else y) ↔ (c → Errs E x) ∧ (¬ c → Errs E y) := by
  by_cases h : c <;> simp [h]

@[simp] theorem errs_mapM (h : ∀ a ∈ xs, Errs E (f a)) : Errs E (xs.mapM f) := by
  induction xs with
  | nil => exact errs_pure _
  | cons a xs ih =>
    obtain ⟨ha, hxs⟩ := List.forall_mem_cons.1 h
    rw [List.mapM_cons]
    simp [ha, ih hxs]

@[simp] theorem errs_filterM {p : α → Except Error Bool} (h : ∀ a ∈ xs, Errs E (p a)) :
    Errs E (xs.filterM p) := by
  suffices haux : ∀ acc, Errs E (xs.filterAuxM p acc) by simp [List.filterM, haux]
  induction xs with
  | nil => exact fun _ => errs_pure _
  | cons a xs ih =>
    obtain ⟨ha, hxs⟩ := List.forall_mem_cons.1 h
    exact fun acc => errs_bind.2 ⟨ha, fun _ _ => ih hxs _⟩

@[simp] theorem errs_filterMapM {f : α → Except Error (Option β)} (h : ∀ a ∈ xs, Errs E (f a)) :
    Errs E (xs.filterMapM f) := by
  suffices haux : ∀ acc, Errs E (List.filterMapM.loop f xs acc) from haux []
  induction xs with
  | nil => exact fun _ => errs_pure _
  | cons a xs ih =>
    obtain ⟨ha, hxs⟩ := List.forall_mem_cons.1 h
    refine fun acc => errs_bind.2 ⟨ha, fun b _ => ?_⟩
    cases b <;> exact ih hxs _

theorem errs_placeIn {before : α → α → Except Error Bool} (h : ∀ a b, Errs E (before a b))
    (a : α) (row : List α) :
    Errs E (placeIn before a row) := by
  induction row with
  | nil => exact errs_ok _
  | cons b row ih => simp [placeIn, h, ih]

@[simp] theorem errs_sortBy {before : α → α → Except Error Bool} (h : ∀ a b, Errs E (before a b)) :
    Errs E (sortBy before xs) := by
  suffices hfold : ∀ row, Errs E (xs.foldlM (fun row x => placeIn before x row) row) by simp [sortBy, hfold]
  induction xs with
  | nil => exact fun _ => errs_pure _
  | cons a xs ih => exact fun row => errs_bind.2 ⟨errs_placeIn h a row, fun row' _ => ih row'⟩

@[simp] theorem Routing.errs_firstThat {p : Value → Except Error Bool} {vs : List Value}
    (h : ∀ v, Errs E (p v)) :
    Errs E (Routing.firstThat p vs) := by
  induction vs with
  | nil => exact errs_ok _
  | cons v vs ih => simp [Routing.firstThat, h, ih]

end

/-! ## Values -/

namespace Value

mutual
theorem errs_before {E : Error → Prop} [AdmitsMisfits E] (v w : Value) : Errs E (v.before w) := by
  cases v with
  | list as =>
    cases w with
    | list bs => exact errs_beforeItems as bs
    | _ => simp [before, number?]
  | _ => cases w <;> simp [before, number?]
theorem errs_beforeItems {E : Error → Prop} [AdmitsMisfits E] (as bs : List Value) :
    Errs E (beforeItems as bs) := by
  cases as with
  | nil => simp [beforeItems]
  | cons a as =>
    cases bs with
    | nil => simp [beforeItems]
    | cons b bs => simp [beforeItems, errs_before a b, errs_beforeItems as bs]
end

variable {E : Error → Prop} [AdmitsMisfits E] (v w : Value) (k : String)

@[simp] theorem errs_sorted (vs : List Value) : Errs E (sorted vs) := errs_sortBy errs_before

@[simp] theorem errs_fieldsFor : Errs E (v.fieldsFor k) := by cases v <;> simp [fieldsFor]

@[simp] theorem errs_entries : Errs E v.entries := by simp [entries]

@[simp] theorem errs_get : Errs E (v.get k) := by simp [get]

@[simp] theorem errs_getOr : Errs E (v.getOr k w) := by simp [getOr]

@[simp] theorem errs_fieldsItem (fs : Fields) : Errs E (Fields.item fs k) := by
  unfold Fields.item
  split
  · exact errs_ok _
  · exact errs_noField _

@[simp] theorem errs_item : Errs E (v.item k) := by cases v <;> simp [item]

@[simp] theorem errs_first : Errs E v.first := by
  cases v with
  | list vs =>
    cases vs with
    | nil => exact errs_mismatch _
    | cons v vs => exact errs_ok _
  | object fs => exact errs_noField _
  | text s =>
    unfold Value.first
    dsimp only
    split
    · exact errs_ok _
    · exact errs_mismatch _
  | _ => exact errs_mismatch _

@[simp] theorem errs_elements : Errs E v.elements := by cases v <;> simp [elements]

@[simp] theorem errs_elementsIfAny : Errs E v.elementsIfAny := by simp [elementsIfAny]

@[simp] theorem errs_length : Errs E v.length := by cases v <;> simp [length]

@[simp] theorem errs_textFor : Errs E (v.textFor k) := by cases v <;> simp [textFor]

@[simp] theorem errs_asText : Errs E v.asText := by cases v <;> simp [asText]

@[simp] theorem errs_asRest : Errs E v.asRest := by cases v <;> simp [asRest]

@[simp] theorem errs_startsWith : Errs E (v.startsWith k) := by simp [startsWith]

@[simp] theorem errs_textsAt (place : Nat) (vs : List Value) : Errs E (textsAt place vs) := by
  induction vs generalizing place with
  | nil => simp [textsAt]
  | cons v vs ih => cases v <;> simp [textsAt, ih]

@[simp] theorem errs_integer : Errs E v.integer := by
  unfold integer
  split
  · simp
  · split <;> simp
  · simp
  · split <;> simp
  · simp

@[simp] theorem errs_key : Errs E v.key := by cases v <;> simp [key]

@[simp] theorem errs_has : Errs E (v.has w) := by
  unfold has
  split
  · refine errs_bind.2 ⟨errs_key _, fun k _ => ?_⟩
    split <;> simp
  all_goals simp

@[simp] theorem errs_pairAt (place : Nat) : Errs E (pairAt place v) := by
  unfold pairAt
  split <;> simp

@[simp] theorem errs_table : Errs E v.table := by
  unfold table
  split <;> simp

end Value

variable {E : Error → Prop} [AdmitsMisfits E]

@[simp] theorem Key.errs_before (k l : Key) : Errs E (k.before l) := Value.errs_before _ _

@[simp] theorem Table.errs_take {β : Type} (t : Table Key β) (v : Value) : Errs E (t.take v) := by simp [take]

@[simp] theorem Table.errs_without {β : Type} (t : Table Key β) (v : Value) : Errs E (t.without v) := by
  simp [without]

/-! ## Objects of the cluster -/

namespace Cluster

variable (v w : Value) (k : String)

@[simp] theorem errs_part : Errs E (part v k) := by simp [part]

@[simp] theorem errs_metadata : Errs E (metadata v) := by simp [metadata]

@[simp] theorem errs_objectKey : Errs E (objectKey v) := by simp [objectKey]

@[simp] theorem errs_splitKey : Errs E (splitKey v) := by simp [splitKey]

@[simp] theorem errs_annotations : Errs E (annotations v) := by simp [annotations]

@[simp] theorem errs_isOfClass : Errs E (isOfClass v w) := by simp [isOfClass]

@[simp] theorem errs_metaField : Errs E (metaField v k) := by simp [metaField]

@[simp] theorem errs_names : Errs E (names v) := by simp [names]

@[simp] theorem errs_isEligible : Errs E (isEligible v) := by simp [isEligible]

@[simp] theorem errs_ports : Errs E (ports v) := by simp [ports]

@[simp] theorem errs_publishedHost : Errs E (publishedHost v) := by simp [publishedHost]

end Cluster

@[simp] theorem Store.errs_find? (s : Store) (kind : ObjectKind) (v : Value) :
    Errs E (s.find? kind v) := by simp [find?]

/-! ## Annotations -/

namespace Annotations

variable (domain name : String) (v : Value)

@[simp] theorem errs_raw : Errs E (raw domain name v) := by simp [raw]

@[simp] theorem errs_slice : Errs E (slice domain name v) := by
  refine errs_bind.2 ⟨errs_raw _ _ _, fun w _ => ?_⟩
  split <;> simp

@[simp] theorem errs_group : Errs E (group domain name v) := by simp [group]

end Annotations

@[simp] theorem Actions.errs_declared? (actions : Actions) (v : Value) : Errs E (actions.declared? v) := by
  refine errs_bind.2 ⟨v.errs_key, fun k _ => ?_⟩
  cases k <;> simp

/-! ## Identities -/

namespace Identity

variable (i : Identity) (ns name backend port targetType protocol : Value)

@[simp] theorem errs_nameLb : Errs E (i.nameLb ns name) := by simp [nameLb]

@[simp] theorem errs_nameTg : Errs E (i.nameTg ns name backend port targetType protocol) := by simp [nameTg]

@[simp] theorem errs_tagLb : Errs E (i.tagLb ns name) := by simp [tagLb]

@[simp] theorem errs_tagGroup : Errs E (i.tagGroup ns name) := by simp [tagGroup]

@[simp] theorem errs_selector : Errs E (i.selector ns name) := by simp [selector]

end Identity

/-! ## Listeners, targets and health checks -/

namespace Routing

open Cluster Value

variable (v w : Value) (b : Backend) (settings : ServiceSettings) (store : Store)

@[simp] theorem errs_backendKey : Errs E b.key := by simp [Backend.key]

@[simp] theorem errs_portProtocol : Errs E (portProtocol v) := by simp [portProtocol]

@[simp] theorem errs_unsupported (protocols : List Key) :
    Errs E (unsupported protocols) := by simp [unsupported]

@[simp] theorem errs_actionName? : Errs E (actionName? settings.actions v) := by simp [actionName?]

@[simp] theorem errs_isReferred : Errs E (isReferred v w) := by simp [isReferred]

@[simp] theorem errs_subsetPort : Errs E (subsetPort v w) := by simp [subsetPort, matchPort]

@[simp] theorem errs_portNumber : Errs E (portNumber v) := by simp [portNumber]

@[simp] theorem errs_endpointPort? : Errs E (endpointPort? v w) := by
  suffices hgo : ∀ subsets, Errs E (endpointPort?.go w subsets) by simp [endpointPort?, hgo]
  intro subsets
  induction subsets with
  | nil => exact errs_ok _
  | cons subset subsets ih =>
    refine errs_bind.2 ⟨errs_subsetPort _ _, fun p _ => ?_⟩
    cases p <;> simp [ih]

@[simp] theorem errs_nodePortsOf : Errs E (nodePortsOf v w) := by simp [nodePortsOf, nodePortOf?]

@[simp] theorem errs_subsetTargets : Errs E (subsetTargets v w) := by
  refine errs_bind.2 ⟨errs_subsetPort _ _, fun p _ => ?_⟩
  cases p <;> simp

@[simp] theorem errs_targetBefore (t u : Target) : Errs E (t.before u) := by
  simp [Target.before, Value.errs_before]

@[simp] theorem errs_settingDiffers (name : String) : Errs E (settingDiffers v name w) := by
  simp [settingDiffers]

@[simp] theorem errs_differs (check : Fields) : Errs E (differs v check) := by
  induction check with
  | nil => exact errs_ok _
  | cons f fs ih => simp [differs, ih]

end Routing

/-! ## Steps of a reconcile that ask nothing -/

namespace Converge

open Cluster Routing Value

variable (i : Inputs) (v w ns name : Value) (vs : List Value) (b : Backend) (settings : ServiceSettings)
  (groups : TargetGroups)

@[simp] theorem errs_serviceKey : Errs E (serviceKey v) := by simp [serviceKey]

@[simp] theorem errs_wanted? (service : Option Value) : Errs E (wanted? i service) := by
  cases service <;> simp [wanted?]

@[simp] theorem errs_isSubnetId : Errs E (isSubnetId v) := by simp [isSubnetId]

@[simp] theorem errs_subnetOfArn : Errs E (subnetOfArn v) := by simp [subnetOfArn]

@[simp] theorem errs_firstOfZones (seen : List Key) : Errs E (firstOfZones seen vs) := by
  induction vs generalizing seen with
  | nil => exact errs_ok _
  | cons v vs ih => simp [firstOfZones, ih]

@[simp] theorem errs_whitelisted : Errs E (whitelisted v w) := by
  refine errs_bind.2 ⟨errs_fieldsFor _ _, fun fields _ => errs_bind.2 ⟨w.errs_key, fun k _ => ?_⟩⟩
  cases k <;> simp

@[simp] theorem errs_attachedSubnets : Errs E (attachedSubnets v) := by simp [attachedSubnets]

@[simp] theorem errs_sortedEntries : Errs E (sortedEntries v) := by simp [sortedEntries]

@[simp] theorem errs_tagList : Errs E (tagList v) := by simp [tagList]

@[simp] theorem errs_lbParams (lb : LoadBalancerConfig) : Errs E (lbParams lb) := by simp [lbParams]

@[simp] theorem errs_toRemove (current : Labels) (desired : Fields) : Errs E (toRemove current desired) := by
  simp [toRemove]

@[simp] theorem errs_targetKeys : Errs E (targetKeys vs) := by simp [targetKeys, Target.ofValue, Target.key]

@[simp] theorem errs_missingFrom (wanted there : List (Key × Key)) : Errs E (missingFrom wanted there) := by
  simp [missingFrom, Target.sorted]

@[simp] theorem errs_endpointsOrNull (store : Store) : Errs E (endpointsOrNull store v) := by
  simp [endpointsOrNull]

@[simp] theorem errs_targetGroupTags : Errs E (targetGroupTags i ns name settings b) := by
  simp [targetGroupTags]

@[simp] theorem errs_arns : Errs E groups.arns := by simp [TargetGroups.arns]

theorem errs_orderBefore (as bs : Fields) : Errs E ((order as).before (order bs)) := errs_before _ _

@[simp] theorem errs_normalize : Errs E (normalize v) := by
  simp [normalize, comparable, errs_orderBefore]

@[simp] theorem errs_listenerDiffers (actions : Value) : Errs E (listenerDiffers v w actions) := by
  simp [listenerDiffers]

@[simp] theorem errs_byPort : Errs E (byPort vs) := by simp [byPort]

@[simp] theorem errs_stale (current : Table Key Value) (specs : List ListenerSpec) :
    Errs E (stale current specs) := by
  simp [stale]

end Converge

/-! ## Gates -/

section

variable {E : Error → Prop}

theorem Context.errs_check (c : Context) (hstopping : E (.stopping c.key)) (hdeadline : E (.deadline c.key)) :
    Errs E c.check.1 := by
  unfold check
  split
  · exact errs_error.2 hstopping
  · split
    · exact errs_ok _
    · dsimp only
      split
      · exact errs_error.2 hdeadline
      · exact errs_ok _

theorem Fault.errs_allow (hE : ∀ operation code text, E (.cloud operation code text))
    (r : Request) (fs : List Fault) :
    Errs E (allow r fs).1 := by
  induction fs with
  | nil => exact errs_ok _
  | cons f fs ih =>
    unfold allow
    split
    · exact errs_error.2 (hE _ _ _)
    · exact ih

end

end Balancer
