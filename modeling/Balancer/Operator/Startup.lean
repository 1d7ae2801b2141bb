import Balancer.Config.Environment
import Balancer.Operator

/-!
# Starting the operator

`Startup.run` starts an operator from the environment: the steps that it takes, the threads that it starts,
and the operator itself, which is there as soon as the configuration is accepted and the clients are made.
-/

namespace Balancer

set_option autoImplicit false

/-- What is done to reach the cluster and the cloud. -/
inductive StartStep where
  /-- The access that a cluster gives to what runs in it. -/
  | clusterAccess
  /-- The access of a user, outside of a cluster. -/
  | userAccess
  | credentials
  /-- A client of a service of the cloud, for a region. -/
  | client (service : String) (region : Value)

inductive Thread where
  | worker (number : Nat)
  | resync
  | webhook
  deriving DecidableEq, Repr

def Thread.name : Thread → String
  | .worker n => "reconcile-worker-" ++ toString n
  | .resync => "periodic-resync"
  | .webhook => "webhook"

structure Startup where
  steps : List StartStep := []
  threads : List Thread := []
  operator : Option Operator := none
  result : Except Error Unit := .ok ()

namespace Startup

/-- The services of the cloud that have clients. -/
def services : List String := ["elbv2", "ec2", "resourcegroupstaggingapi"]

/-- The steps of a start. Whether there are credentials makes no difference. -/
def stepsOf (c : Config) (inCluster : Bool) : List StartStep :=
  [.clusterAccess] ++ (if inCluster then [] else [.userAccess]) ++ [.credentials] ++
    services.map fun s => .client s c.region

/-- The threads that run beside the webhook. -/
def threadsOf (workers : Int) : List Thread := (List.range workers.toNat).map .worker ++ [.resync]

/-- The start of an operator with a number of workers. -/
def ofOperator (o : Operator) (workers : Int) (inCluster serverStarts : Bool) : Startup where
  steps := stepsOf o.config inCluster
  threads := threadsOf workers ++ if o.config.webhook.holds && serverStarts then [.webhook] else []
  operator := some o
  result := if o.config.webhook.holds && !serverStarts then .error .noServer else .ok ()

/-- The start of an operator from the environment. -/
def run (env : Config.Environment) (inCluster serverStarts : Bool) : Startup :=
  match do
    let c ← Config.load env
    return (← Operator.ofConfig c, ← c.workers.integer) with
  | .error e => { result := .error e }
  | .ok (o, workers) => ofOperator o workers inCluster serverStarts

end Startup

end Balancer
