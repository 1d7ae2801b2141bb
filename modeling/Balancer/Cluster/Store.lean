import Balancer.Annotations.Service
import Balancer.Cluster.Object

/-!
# The store of cluster objects

`Store` holds the last reported object of each key and kind, in the order in which the keys were first
reported. Of a pod only its addresses are kept.
-/

namespace Balancer

set_option autoImplicit false

inductive ObjectKind where
  | service
  | endpoints
  | node
  | pod
  deriving DecidableEq, Repr

structure Store where
  services : Table Key Value := ∅
  endpoints : Table Key Value := ∅
  nodes : Table Key Value := ∅
  pods : Table Key Value := ∅

namespace Store

open Cluster

def table (s : Store) : ObjectKind → Table Key Value
  | .service => s.services
  | .endpoints => s.endpoints
  | .node => s.nodes
  | .pod => s.pods

def setTable (s : Store) (t : Table Key Value) : ObjectKind → Store
  | .service => { s with services := t }
  | .endpoints => { s with endpoints := t }
  | .node => { s with nodes := t }
  | .pod => { s with pods := t }

/-- The named fields that an object has. -/
def select (v : Value) (names : List String) : Except Error Fields :=
  names.filterMapM fun k => do
    if ← v.has (.text k) then return some (k, ← v.item k) else return none

/-- What is kept of an object. -/
def snapshot (kind : ObjectKind) (obj : Value) : Except Error Value :=
  match kind with
  | .pod => do
    let names ← select (← metadata obj) ["name", "namespace"]
    let addresses ← select (← part obj "status") ["podIP", "hostIP"]
    return .object [("metadata", .object names), ("status", .object addresses)]
  | _ => .ok obj

/-- The object that was stored before under the key of the given one, and the store with the new one. -/
def upsert (s : Store) (kind : ObjectKind) (obj : Value) : Except Error (Option Value × Store) := do
  let kept ← snapshot kind obj
  let key ← (← objectKey kept).key
  return ((s.table kind).get? key, s.setTable ((s.table kind).insert key kept) kind)

/-- The object that was stored under the key of the given one, and the store without it. -/
def delete (s : Store) (kind : ObjectKind) (obj : Value) : Except Error (Option Value × Store) := do
  let (old, left) ← (s.table kind).take (← objectKey obj)
  return (old, s.setTable left kind)

/-- The object of a kind and key, if there is one. -/
def find? (s : Store) (kind : ObjectKind) (key : Value) : Except Error (Option Value) := do
  return (s.table kind).get? (← key.key)

/-- The object of a kind and key, which has to be there. -/
def find (s : Store) (kind : ObjectKind) (key : Value) : Except Error Value := do
  match ← s.find? kind key with
  | some obj => return obj
  | none => throw (.notFound key)

def service (s : Store) (key : Value) : Except Error Value := s.find .service key

def endpointsOf (s : Store) (key : Value) : Except Error Value := s.find .endpoints key

/-- What the annotations of a stored Service ask for. -/
def settings (s : Store) (c : Config) (key : Value) : Except Error ServiceSettings := do
  ServiceSettings.parse c (← annotations (← s.service key))

/-- The nodes that may receive targets. -/
def eligibleNodes (s : Store) : Except Error (List Value) := s.nodes.values.filterM isEligible

/-- The instances of the nodes that may receive targets. -/
def instanceIds (s : Store) : Except Error (List String) := do (← s.eligibleNodes).mapM instanceId

/-- The host address of the first pod with an address, null if there is none. -/
def hostOf (ip : Value) : List Value → Except Error Value
  | [] => .ok .null
  | pod :: pods => do
    let status ← part pod "status"
    if (← status.get "podIP").same ip then status.get "hostIP" else hostOf ip pods

/-- Whether one of the elements has an address. -/
def hasAddress (host : Value) : List Value → Except Error Bool
  | [] => .ok false
  | a :: as => do if (← a.get "address").same host then return true else hasAddress host as

/-- The first node that has an address. -/
def nodeAt? (host : Value) : List Value → Except Error (Option Value)
  | [] => .ok none
  | node :: nodes => do
    let addresses ← (← (← part node "status").get "addresses").elementsIfAny
    if ← hasAddress host addresses then return some node else nodeAt? host nodes

/-- The instance that hosts the pod with an address. -/
def instanceOfPod (s : Store) (ip : Value) : Except Error String := do
  let unknown := Error.notFound (.text ("host of pod ip " ++ ip.shown))
  let host ← hostOf ip s.pods.values
  if !host.holds then throw unknown
  match ← nodeAt? host s.nodes.values with
  | some node => instanceId node
  | none => throw unknown

end Store

end Balancer
