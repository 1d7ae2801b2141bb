import Balancer.Value

/-!
# Tags of cloud resources

The tags of a load balancer or a target group say which Service owns it. `ownership` is the part of them by
which the resources of one Service are selected; `Matches` says that tags hold a selection.
-/

namespace Balancer.Identity

set_option autoImplicit false

def namespaceKey : String := "kubernetes.io/namespace"

def serviceNameKey : String := "kubernetes.io/service-name"

def servicePortKey : String := "kubernetes.io/service-port"

def resourceKey : String := "service.k8s.aws/resource"

def clusterNameKey : String := "elbv2.k8s.aws/cluster"

def stackKey : String := "service.k8s.aws/stack"

/-- The key that marks the resources of a cluster. -/
def clusterKey (clusterName : String) : String := "kubernetes.io/cluster/" ++ clusterName

/-- The tags by which the resources of a Service are selected. -/
def ownership (clusterName : String) (ns service : Value) : Table String Value :=
  .ofList [(clusterKey clusterName, .text "owned"), (namespaceKey, ns), (serviceNameKey, service)]

/-- The tags of every resource of a Service, over the usual ones. -/
def serviceTags (usual : Table String Value) (clusterName : String) (ns service : Value) :
    Table String Value :=
  ((usual.update (ownership clusterName ns service)).insert clusterNameKey
    (.text clusterName)).insert stackKey
    (.text (ns.shown ++ "/" ++ service.shown))

/-- The tags of the load balancer of a Service. -/
def lbTags (usual : Table String Value) (clusterName : String) (ns service : Value) : Table String Value :=
  (serviceTags usual clusterName ns service).insert resourceKey (.text "LoadBalancer")

/-- The tags of the target group of one backend, beside those of its Service. -/
def backendTags (ns backend port : Value) : Table String Value :=
  .ofList [(serviceNameKey, backend), (servicePortKey, port),
    (resourceKey, .text (ns.shown ++ "/" ++ backend.shown ++ ":" ++ port.shown))]

/-- Whether tags hold every tag of a selection. -/
def Matches (selection tags : Table String Value) : Prop :=
  ∀ k v, selection.get? k = some v → tags.get? k = some v

end Balancer.Identity
