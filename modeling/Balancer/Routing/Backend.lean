import Balancer.Annotations.Service
import Balancer.Cluster.Object

/-!
# Backends and listeners of a Service

A load balancer has one listener for each port number of a Service, whatever protocols share the number.
`listenerSpecs` lists the listeners with their protocols and backends, in the order in which the numbers
are declared first; `findPort` finds a declared port by number or name. `BackendKey` is a backend by which
its target group is found.
-/

namespace Balancer

set_option autoImplicit false

/-- What the traffic of one port number goes to. For a declared action, `service` is the name of the action
and `port` is `actionPort`. -/
structure Backend where
  service : Value
  port : Value
  protocol : Value := .text "TCP"

/-- A backend of keys. -/
structure BackendKey where
  service : Key
  port : Key
  protocol : Key

namespace BackendKey

instance : BEq BackendKey :=
  ⟨fun a b => a.service == b.service && a.port == b.port && a.protocol == b.protocol⟩

instance : EquivBEq BackendKey where
  rfl := by simp [BEq.beq, Key.meaning]
  symm h := by
    simp only [BEq.beq, Bool.and_eq_true, decide_eq_true_eq] at h ⊢
    exact ⟨⟨h.1.1.symm, h.1.2.symm⟩, h.2.symm⟩
  trans h h' := by
    simp only [BEq.beq, Bool.and_eq_true, decide_eq_true_eq] at h h' ⊢
    exact ⟨⟨h.1.1.trans h'.1.1, h.1.2.trans h'.1.2⟩, h.2.trans h'.2⟩

def toBackend (b : BackendKey) : Backend := ⟨b.service.toValue, b.port.toValue, b.protocol.toValue⟩

end BackendKey

/-- A backend as a key. -/
def Backend.key (b : Backend) : Except Error BackendKey := do
  return ⟨← b.service.key, ← b.port.key, ← b.protocol.key⟩

structure ListenerSpec where
  port : Int
  protocol : Value
  backend : Backend

namespace Routing

open Cluster

/-- The protocol of a port, TCP if none is declared. -/
def portProtocol (port : Value) : Except Error Value := do return (← port.get "protocol").orElse (.text "TCP")

/-- Ports by number, in the order in which the numbers come first. -/
def groupByNumber (numbered : List (Int × Value)) : List (Int × List Value) :=
  numbered.foldl (fun groups p => add p groups) []
where
  /-- The groups with one more port. -/
  add (p : Int × Value) : List (Int × List Value) → List (Int × List Value)
    | [] => [(p.1, [p.2])]
    | g :: gs => if g.1 = p.1 then (g.1, g.2 ++ [p.2]) :: gs else g :: add p gs

/-- The protocols among some that no listener can serve, in order and without repetition. -/
def unsupported (protocols : List Key) : Except Error (List Value) :=
  Value.sorted ((protocols.eraseDups.filter fun p => !(p == .text "TCP" || p == .text "UDP")).map Key.toValue)

/-- The protocol of the listener for all ports of one number: one port of each protocol share a listener for
both, a UDP port keeps its protocol, a TCP port takes that of the annotations. -/
def listenerProtocol (service : Value) (number : Int) (ports : List Value) (usual : Value) :
    Except Error Value := do
  let protocols ← (← ports.mapM portProtocol).mapM Value.key
  let refused ← unsupported protocols
  if !refused.isEmpty then
    let key ← objectKey service
    throw (.configuration (.portProtocols number key.shown (← Value.textsAt 0 refused)))
  if protocols.eraseDups.length ≠ protocols.length then
    throw (.configuration (.portRepeats number (← objectKey service).shown
      (protocols.headD .null).toValue.shown))
  match protocols with
  | [p] => return if p == .text "UDP" then .text "UDP" else usual
  | _ => return .text "TCP_UDP"

/-- The name of a port if an action is declared under it. -/
def actionName? (actions : Actions) (port : Value) : Except Error (Option Value) := do
  let name ← port.get "name"
  if !name.holds then return none
  return if (← actions.declared? name).isSome then some name else none

/-- The listener for all ports of one number. -/
def listenerSpec (service : Value) (settings : ServiceSettings) (number : Int) (ports : List Value) :
    Except Error ListenerSpec := do
  let protocol ← listenerProtocol service number ports settings.targetGroup.backendProtocol
  match ← ports.filterMapM (actionName? settings.actions) with
  | name :: _ => return ⟨number, protocol, ⟨name, .text actionPort, protocol⟩⟩
  | [] => return ⟨number, protocol, ⟨← metaField service "name", .text (Text.decimal number), protocol⟩⟩

/-- The listeners that a Service asks for. -/
def listenerSpecs (service : Value) (settings : ServiceSettings) : Except Error (List ListenerSpec) := do
  let numbered ← (← ports service).mapM fun p => do return (← (← p.item "port").integer, p)
  (groupByNumber numbered).mapM fun g => listenerSpec service settings g.1 g.2

/-- Whether a port goes by a reference: its number or its name. -/
def isReferred (ref port : Value) : Except Error Bool := do
  if ref.same (.text (← port.get "port").shown) then return true
  return (← port.get "name").same ref

/-- The first of some values that satisfies a condition. -/
def firstThat (p : Value → Except Error Bool) : List Value → Except Error (Option Value)
  | [] => .ok none
  | v :: vs => do if ← p v then return some v else firstThat p vs

/-- The port of a Service with a number or a name. -/
def findPort (service ref : Value) : Except Error Value := do
  match ← firstThat (isReferred ref) (← ports service) with
  | some port => return port
  | none => throw (.missing (.servicePort ref.shown (← objectKey service).shown))

end Routing

end Balancer
