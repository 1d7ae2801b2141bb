import Balancer.Cluster.Store
import Balancer.Routing.Backend

/-!
# Targets of a backend

`resolveTargets` lists the targets that a target group should contain, in order: the node port on every
eligible node, or the endpoint port on every ready address of the Endpoints. An endpoint port belongs to a
Service port by name; `endpointPort?` finds it.
-/

namespace Balancer

set_option autoImplicit false

/-- An instance or an address, and the port that receives traffic on it. -/
structure Target where
  id : Value
  port : Value

namespace Target

/-- The order of targets: by identifier, then by port. -/
def before (a b : Target) : Except Error Bool :=
  if !a.id.alike b.id then a.id.before b.id
  else if !a.port.alike b.port then a.port.before b.port
  else .ok false

/-- Targets in order. -/
def sorted (ts : List Target) : Except Error (List Target) := sortBy before ts

def toValue (t : Target) : Value := .object [("Id", t.id), ("Port", t.port)]

/-- The target that a description names. -/
def ofValue (v : Value) : Except Error Target := do return ⟨← v.item "Id", ← v.item "Port"⟩

/-- A target as a key. -/
def key (t : Target) : Except Error (Key × Key) := do return (← t.id.key, ← t.port.key)

/-- The target of a key. -/
def ofKey (k : Key × Key) : Target := ⟨k.1.toValue, k.2.toValue⟩

end Target

namespace Routing

open Cluster

/-- The endpoint port that belongs to a Service port: the one of its name; for a Service port
without a name the only one. -/
def matchPort (endpointPorts servicePort : Value) : Except Error Value := do
  let name ← servicePort.get "name"
  let candidates ← endpointPorts.elements
  if name.holds then
    return (← firstThat (fun p => do return (← p.get "name").same name) candidates).getD .null
  else if candidates.length = 1 then endpointPorts.first
  else return .null

/-- The port of a subset of Endpoints that belongs to a Service port, null if there is none. -/
def subsetPort (servicePort subset : Value) : Except Error Value := do
  matchPort ((← subset.get "ports").orElse (.list [])) servicePort

/-- The number of a described port. -/
def portNumber (port : Value) : Except Error Int := do (← port.item "port").integer

/-- The number of the endpoint port that belongs to a Service port, from the first subset that has one. -/
def endpointPort? (endpoints servicePort : Value) : Except Error (Option Int) := do
  go (← (← (endpoints.orElse (.object [])).get "subsets").elementsIfAny)
where
  /-- As above, among some subsets. -/
  go : List Value → Except Error (Option Int)
    | [] => .ok none
    | subset :: rest => do
      match ← subsetPort servicePort subset with
      | .null => go rest
      | p => return some (← portNumber p)

/-- The node port of a port, if its number is referred to. -/
def nodePortOf? (ref port : Value) : Except Error (Option Key) := do
  if ref.same (.text (← port.get "port").shown) then
    return some (← (← port.get "nodePort").key) else return none

/-- The node ports of all ports with a number, without repetition. -/
def nodePortsOf (service ref : Value) : Except Error (List Key) := do
  return (← (← ports service).filterMapM (nodePortOf? ref)).eraseDups

/-- The node port of a port on every eligible node. -/
def instanceTargets (store : Store) (service : Value) (backend : Backend) (port : Value) :
    Except Error (List Target) := do
  let nodePort ← port.get "nodePort"
  if !nodePort.holds then
    let key ← objectKey service
    let name ← port.get "name"
    let label ← if name.holds then pure name else port.item "port"
    throw (.missing (.nodePort key.shown label.shown))
  if backend.protocol.same (.text "TCP_UDP") then
    if 1 < (← nodePortsOf service backend.port).length then
      throw (.configuration (.nodePortsDiffer backend.port.shown (← objectKey service).shown))
  (← store.instanceIds).mapM fun id => do return ⟨.text id, .int (← nodePort.integer)⟩

/-- The endpoint port of one subset on each of its ready addresses. -/
def subsetTargets (servicePort subset : Value) : Except Error (List Target) := do
  match ← subsetPort servicePort subset with
  | .null => return []
  | p => (← (← subset.get "addresses").elementsIfAny).mapM fun a => do
    return ⟨← a.item "ip", .int (← portNumber p)⟩

/-- The endpoint port of a port on every ready address. -/
def addressTargets (store : Store) (service port : Value) : Except Error (List Target) := do
  let endpoints ← store.endpointsOf (← objectKey service)
  let subsets ← (← endpoints.get "subsets").elementsIfAny
  return (← subsets.mapM (subsetTargets port)).flatten

/-- The targets that the target group of a backend should contain. -/
def resolveTargets (store : Store) (service : Value) (backend : Backend) (targetType : Value) :
    Except Error (List Target) := do
  let port ← findPort service backend.port
  let targets ← if targetType.same (.text "instance") then instanceTargets store service backend port
    else addressTargets store service port
  Target.sorted targets

end Routing

end Balancer
