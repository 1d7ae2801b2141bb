import Balancer.Proofs.Paired
import Balancer.Routing.HealthCheck

/-!
# What routing reads

* `SamePort`, `SameSubset`, `SameEndpoints` : objects that are the same where routing reads them;
* `SameRoutes s t` : two Services of one name whose ports are the same where they are read;
* `SameSettings a b` : settings with the same declared actions, in whatever order;
* `listenerSpecs_eq`, `resolveTargets_eq`, `healthCheckPort_eq` : what is computed from one is
  computed from the other.
-/

namespace Balancer

set_option autoImplicit false

open Cluster Value

namespace Routing

/-- The fields of a port of a Service that are read. -/
def portFields : List String := ["name", "nodePort", "port", "protocol", "targetPort"]

/-- The fields of a port of Endpoints that are read. -/
def endpointPortFields : List String := ["name", "port"]

def addressFields : List String := ["ip"]

abbrev SamePort : Value → Value → Prop := SameFields portFields

/-- Two subsets of Endpoints with the same ports and ready addresses. -/
def SameSubset (v w : Value) : Prop :=
  ∃ fs gs, v = .object fs ∧ w = .object gs ∧
    Rows (SameFields endpointPortFields) (Fields.get fs "ports") (Fields.get gs "ports") ∧
    Rows (SameFields addressFields) (Fields.get fs "addresses") (Fields.get gs "addresses")

/-- Two Endpoints with the same subsets. -/
def SameEndpoints (v w : Value) : Prop :=
  ∃ fs gs, v = .object fs ∧ w = .object gs ∧
    Rows SameSubset (Fields.get fs "subsets") (Fields.get gs "subsets")

/-- Two Services of one name with the same ports. -/
structure SameRoutes (s t : Value) : Prop where
  ns : metaField s "namespace" = metaField t "namespace"
  name : metaField s "name" = metaField t "name"
  objectKey : objectKey s = objectKey t
  ports : Paired (List.Forall₂ SamePort) (ports s) (ports t)

end Routing

/-- Settings that differ in the order of their declared actions only. -/
structure SameSettings (a b : ServiceSettings) : Prop where
  settings : b = { a with actions := b.actions }
  actions (n : String) : a.actions.get? n = b.actions.get? n

namespace Routing

section

variable {p q v w service service' ref : Value} {ps qs : List Value}
  {settings settings' : ServiceSettings} {number : Int} {usual : Value} {actions actions' : Actions}
  {store store' : Store} {b : Backend} {type : Value}

theorem SameRoutes.names (h : SameRoutes service service') : names service = names service' := by
  unfold Cluster.names
  rw [h.ns, h.name]

/-! ## Listeners -/

theorem portProtocol_eq (h : SamePort p q) : portProtocol p = portProtocol q := by
  unfold portProtocol
  rw [h.get (by decide)]

theorem listenerProtocol_eq (h : List.Forall₂ SamePort ps qs)
    (hkey : objectKey service = objectKey service') :
    listenerProtocol service number ps usual = listenerProtocol service' number qs usual := by
  unfold listenerProtocol
  rw [mapM_eq h fun _ _ => portProtocol_eq, hkey]

theorem declared?_eq (h : ∀ n, actions.get? n = actions'.get? n) (name : Value) :
    actions.declared? name = actions'.declared? name := by
  unfold Actions.declared?
  simp only [h]

theorem actionName?_eq (h : ∀ n, actions.get? n = actions'.get? n) (hp : SamePort p q) :
    actionName? actions p = actionName? actions' q := by
  unfold actionName?
  rw [hp.get (by decide)]
  simp only [declared?_eq h]

theorem listenerSpec_eq (hroutes : SameRoutes service service') (hsettings : SameSettings settings settings')
    (h : List.Forall₂ SamePort ps qs) :
    listenerSpec service settings number ps = listenerSpec service' settings' number qs := by
  unfold listenerSpec
  rw [hsettings.settings]
  simp only
  rw [listenerProtocol_eq h hroutes.objectKey,
    filterMapM_eq h fun _ _ => actionName?_eq hsettings.actions, hroutes.name]

/-- Groups of one number with the same ports. -/
def SameGroups (e f : Int × List Value) : Prop := e.1 = f.1 ∧ List.Forall₂ SamePort e.2 f.2

theorem sameGroups_groupByNumber {ns ms : List (Int × Value)}
    (h : List.Forall₂ (fun e f : Int × Value => e.1 = f.1 ∧ SamePort e.2 f.2) ns ms) :
    List.Forall₂ SameGroups (groupByNumber ns) (groupByNumber ms) := by
  have hadd : ∀ {e f : Int × Value} {gs gs' : List (Int × List Value)}, e.1 = f.1 → SamePort e.2 f.2 →
    List.Forall₂ SameGroups gs gs' →
      List.Forall₂ SameGroups (groupByNumber.add e gs) (groupByNumber.add f gs') := by
    intro e f gs gs' hn hp hgs
    induction hgs with
    | nil => exact .cons ⟨hn, .cons hp .nil⟩ .nil
    | @cons g g' gs gs' hg _ ih =>
      unfold groupByNumber.add
      rw [← hn, ← hg.1]
      split
      · exact .cons ⟨rfl, List.rel_append hg.2 (.cons hp .nil)⟩ ‹_›
      · exact .cons hg ih
  have hfold : ∀ {gs gs'}, List.Forall₂ SameGroups gs gs' → List.Forall₂ SameGroups
      (ns.foldl (fun groups p => groupByNumber.add p groups) gs)
        (ms.foldl (fun groups p => groupByNumber.add p groups) gs') := by
    induction h with
    | nil => exact id
    | cons hef _ ih => exact fun hgs => ih (hadd hef.1 hef.2 hgs)
  exact hfold .nil

theorem listenerSpecs_eq (hroutes : SameRoutes service service')
    (hsettings : SameSettings settings settings') :
    listenerSpecs service settings = listenerSpecs service' settings' := by
  unfold listenerSpecs
  refine hroutes.ports.bind_eq fun ps qs hpq => ?_
  refine Paired.bind_eq (paired_mapM hpq fun p q hp => ?_) fun ns ms hnm =>
    mapM_eq (sameGroups_groupByNumber hnm) fun e f hef => ?_
  · rw [hp.item (by decide)]
    exact (paired_of_eq (fun _ => rfl) rfl).bind fun v w hvw => by
      subst hvw
      exact (paired_of_eq (fun _ => rfl) rfl).bind fun n m hnm => .ok ⟨hnm, hp⟩
  · rw [hef.1]
    exact listenerSpec_eq hroutes hsettings hef.2

/-! ## Ports -/

theorem paired_firstThat {R : Value → Value → Prop} {f g : Value → Except Error Bool}
    (h : List.Forall₂ R ps qs) (hf : ∀ v w, R v w → f v = g w) :
    Paired (Option.Rel R) (firstThat f ps) (firstThat g qs) := by
  induction h with
  | nil => exact .ok .none
  | @cons v w vs ws hvw _ ih =>
    unfold firstThat
    rw [hf v w hvw]
    refine (paired_of_eq (fun _ => rfl) rfl).bind fun a b hab => ?_
    subst hab
    cases a with
    | true => exact .ok (.some hvw)
    | false => exact ih

theorem isReferred_eq (h : SamePort p q) : isReferred ref p = isReferred ref q := by
  unfold isReferred
  rw [h.get (by decide), h.get (by decide)]

theorem paired_findPort (h : SameRoutes service service') :
    Paired SamePort (findPort service ref) (findPort service' ref) := by
  unfold findPort
  refine h.ports.bind fun ps qs hpq => (paired_firstThat hpq fun _ _ => isReferred_eq).bind fun x y hxy => ?_
  cases hxy with
  | some hp => exact .ok hp
  | none =>
    rw [h.objectKey]
    exact (paired_of_eq (R := Eq) (fun _ => rfl) rfl).bind fun _ _ h => by
      subst h
      exact .error _

/-! ## Targets -/

/-- Two times nothing, or two ports of Endpoints with the same name and number. -/
def SameFound (v w : Value) : Prop := v = .null ∧ w = .null ∨ SameFields endpointPortFields v w

theorem SameFound.portNumber_eq (h : SameFields endpointPortFields v w) : portNumber v = portNumber w := by
  unfold portNumber
  rw [h.item (by decide)]

theorem paired_matchPort (h : List.Forall₂ (SameFields endpointPortFields) ps qs) (hp : SamePort p q) :
    Paired SameFound (matchPort (.list ps) p) (matchPort (.list qs) q) := by
  unfold matchPort
  rw [hp.get (by decide)]
  refine (paired_of_eq (R := Eq) (fun _ => rfl) rfl).bind fun name name' hname => ?_
  subst hname
  show Paired _ (if name.holds = true then _ else if ps.length = 1 then _ else _)
    (if name.holds = true then _ else if qs.length = 1 then _ else _)
  split
  · refine (paired_firstThat h fun v w hvw => ?_).bind fun x y hxy => ?_
    · rw [hvw.get (by decide)]
    · cases hxy with
      | some h => exact .ok (.inr h)
      | none => exact .ok (.inl ⟨rfl, rfl⟩)
  · rw [h.length_eq]
    split
    · cases h with
      | nil => exact .error _
      | cons h _ => exact .ok (.inr h)
    · exact .ok (.inl ⟨rfl, rfl⟩)

theorem paired_subsetPort (h : SameSubset v w) (hp : SamePort p q) :
    Paired SameFound (subsetPort p v) (subsetPort q w) := by
  obtain ⟨fs, gs, rfl, rfl, hports, -⟩ := h
  obtain ⟨as, bs, has, hbs, hab⟩ := hports.orElse_nil
  show Paired _ (matchPort ((Fields.get fs "ports").orElse (.list [])) p)
    (matchPort ((Fields.get gs "ports").orElse (.list [])) q)
  rw [has, hbs]
  exact paired_matchPort hab hp

theorem SameEndpoints.get (h : SameEndpoints v w) :
    ∃ ss ts, v.get "subsets" = .ok ss ∧ w.get "subsets" = .ok ts ∧
    Rows SameSubset ss ts := by
  obtain ⟨fs, gs, rfl, rfl, h⟩ := h
  exact ⟨_, _, rfl, rfl, h⟩

theorem SameEndpoints.orElse (h : SameEndpoints v w) :
    v.orElse (.object []) = v ∧ w.orElse (.object []) = w := by
  obtain ⟨fs, gs, rfl, rfl, -⟩ := h
  constructor
  · cases fs <;> rfl
  · cases gs <;> rfl

theorem endpointPort?_eq (h : SameEndpoints v w) (hp : SamePort p q) :
    endpointPort? v p = endpointPort? w q := by
  have hgo : ∀ {ss ts}, List.Forall₂ SameSubset ss ts → endpointPort?.go p ss = endpointPort?.go q ts := by
    intro ss ts hst
    induction hst with
    | nil => rfl
    | cons hst _ ih =>
      unfold endpointPort?.go
      refine (paired_subsetPort hst hp).bind_eq fun x y hxy => ?_
      obtain ⟨rfl, rfl⟩ | hxy := hxy
      · exact ih
      · obtain ⟨fs, gs, rfl, rfl, hfg⟩ := hxy
        exact congrArg (· >>= fun n => pure (some n)) (SameFound.portNumber_eq ⟨fs, gs, rfl, rfl, hfg⟩)
  unfold endpointPort?
  rw [h.orElse.1, h.orElse.2]
  obtain ⟨ss, ts, hss, hts, hrows⟩ := h.get
  rw [hss, hts]
  exact hrows.elementsIfAny.bind_eq fun _ _ => hgo

theorem nodePortOf?_eq (h : SamePort p q) : nodePortOf? ref p = nodePortOf? ref q := by
  unfold nodePortOf?
  rw [h.get (by decide), h.get (by decide)]

theorem nodePortsOf_eq (h : SameRoutes service service') :
    nodePortsOf service ref = nodePortsOf service' ref := by
  unfold nodePortsOf
  exact h.ports.bind_eq fun ps qs hpq => by rw [filterMapM_eq hpq fun _ _ => nodePortOf?_eq]

theorem instanceTargets_eq (hroutes : SameRoutes service service')
    (hids : store.instanceIds = store'.instanceIds) (hp : SamePort p q) :
    instanceTargets store service b p = instanceTargets store' service' b q := by
  unfold instanceTargets
  rw [hp.get (by decide), hp.get (by decide), hp.item (by decide), hroutes.objectKey,
    nodePortsOf_eq hroutes, hids]

theorem subsetTargets_eq (h : SameSubset v w) (hp : SamePort p q) :
    subsetTargets p v = subsetTargets q w := by
  unfold subsetTargets
  refine (paired_subsetPort h hp).bind_eq fun x y hxy => ?_
  obtain ⟨rfl, rfl⟩ | hxy := hxy
  · rfl
  obtain ⟨fs, gs, rfl, rfl, -, haddresses⟩ := h
  have hnumber := SameFound.portNumber_eq hxy
  obtain ⟨fs', gs', rfl, rfl, -⟩ := hxy
  refine haddresses.elementsIfAny.bind_eq fun as bs hab => mapM_eq hab fun a b h => ?_
  rw [h.item (by decide), hnumber]

theorem addressTargets_eq (hroutes : SameRoutes service service') (hp : SamePort p q)
    (hendpoints : ∀ key, objectKey service = .ok key →
      Paired SameEndpoints (store.endpointsOf key) (store'.endpointsOf key)) :
    addressTargets store service p = addressTargets store' service' q := by
  unfold addressTargets
  rw [← hroutes.objectKey]
  cases hkey : objectKey service with
  | error e => rfl
  | ok key =>
    refine (hendpoints key hkey).bind_eq fun v w hvw => ?_
    obtain ⟨ss, ts, hss, hts, hrows⟩ := hvw.get
    rw [hss, hts]
    exact hrows.elementsIfAny.bind_eq fun as bs hab => by rw [mapM_eq hab fun _ _ h => subsetTargets_eq h hp]

theorem resolveTargets_eq (hroutes : SameRoutes service service')
    (hids : store.instanceIds = store'.instanceIds) (hendpoints : ∀ key, objectKey service = .ok key →
      Paired SameEndpoints (store.endpointsOf key) (store'.endpointsOf key)) :
    resolveTargets store service b type = resolveTargets store' service' b type := by
  unfold resolveTargets
  refine (paired_findPort hroutes).bind_eq fun p q hp => ?_
  rw [instanceTargets_eq hroutes hids hp, addressTargets_eq hroutes hp hendpoints]

/-! ## Health checks -/

theorem healthCheckPort_eq (hroutes : SameRoutes service service')
    (h : v = .null ∧ w = .null ∨ SameEndpoints v w) :
    healthCheckPort service usual type v = healthCheckPort service' usual type w := by
  have htarget : ∀ {p q}, SamePort p q → endpointPort? v p = endpointPort? w q := by
    intro p q hp
    obtain ⟨rfl, rfl⟩ | h := h
    · rfl
    · exact endpointPort?_eq h hp
  unfold healthCheckPort
  refine (paired_of_eq (R := Eq) (fun _ => rfl) rfl).bind_eq fun port port' hport => ?_
  subst hport
  split
  · rfl
  refine hroutes.ports.bind_eq fun ps qs hpq =>
    (paired_firstThat hpq fun v w hvw => ?_).bind_eq fun x y hxy => ?_
  · rw [hvw.get (by decide)]
  · rw [hroutes.objectKey]
    cases hxy with
    | none => rfl
    | some hp =>
      have htargetPort : ∀ number, Value.getOr _ "targetPort" number = Value.getOr _ "targetPort" number :=
        hp.getOr (by decide)
      dsimp only
      rw [hp.get (by decide), hp.item (by decide), htarget hp]
      simp only [htargetPort]

end

end Routing

end Balancer
