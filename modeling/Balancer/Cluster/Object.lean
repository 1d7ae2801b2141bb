import Balancer.Value.Access

/-!
# Cluster objects

What is read of the objects that a cluster reports: the key of an object, its annotations, the class of a
Service, and the eligibility and instance of a node. A part that is missing or null reads as empty.
-/

namespace Balancer.Cluster

set_option autoImplicit false

/-- A field that is an object, empty if it is missing or null. -/
def part (obj : Value) (k : String) : Except Error Value := do return (← obj.get k).orElse (.object [])

def metadata (obj : Value) : Except Error Value := part obj "metadata"

/-- The key of an object: its name after its namespace; without a namespace its name as it is. -/
def objectKey (obj : Value) : Except Error Value := do
  let meta_ ← metadata obj
  let ns ← meta_.get "namespace"
  let name ← meta_.item "name"
  return if ns.holds then .text (ns.shown ++ "/" ++ name.shown) else name

/-- The namespace and the name in a key. -/
def splitKey (key : Value) : Except Error (String × String) :=
  do return Text.splitLast '/' (← key.textFor "rpartition")

/-- The annotations of an object, null if it has none. -/
def annotations (obj : Value) : Except Error Value := do (← metadata obj).get "annotations"

def classKey : String := "kubernetes.io/service.class"

/-- Whether a Service is of a class. -/
def isOfClass (serviceClass service : Value) : Except Error Bool := do
  return (← ((← annotations service).orElse (.object [])).get classKey).same serviceClass

/-- A field of the metadata of an object, which both have to be there. -/
def metaField (obj : Value) (k : String) : Except Error Value := do (← obj.item "metadata").item k

/-- The namespace and the name of an object that has both. -/
def names (obj : Value) : Except Error (Value × Value) := do
  let ns ← metaField obj "namespace"
  let name ← metaField obj "name"
  return (ns, name)

/-! ## Nodes -/

def masterLabel : String := "node-role.kubernetes.io/master"

def excludeLabel : String := "alpha.service-controller.kubernetes.io/exclude-balancer"

/-- Whether a node may receive targets: masters and excluded nodes do not. -/
def isEligible (node : Value) : Except Error Bool := do
  let labels := (← (← metadata node).get "labels").orElse (.object [])
  if ← labels.has (.text masterLabel) then return false
  return !(← labels.has (.text excludeLabel))

/-- The provider's identifier of a node, null if it has none. -/
def providerId (node : Value) : Except Error Value := do (← part node "spec").get "providerID"

/-- The instance of a node: the last part of its provider identifier. -/
def instanceId (node : Value) : Except Error String := do
  let id ← providerId node
  if !id.holds then throw (.notFound (.text ("providerID of node " ++ (← metaField node "name").shown)))
  return Text.afterLast '/' (← id.textFor "split")

/-! ## Services -/

/-- The declared ports of a Service. -/
def ports (service : Value) : Except Error (List Value) :=
  do (← (← part service "spec").get "ports").elementsIfAny

/-- The host name that the status of a Service publishes first, null if there is none. -/
def publishedHost (service : Value) : Except Error Value := do
  let balancer := (← (← part service "status").get "loadBalancer").orElse (.object [])
  let ingress ← balancer.get "ingress"
  if ingress.holds then (← ingress.first).get "hostname" else return .null

end Balancer.Cluster
