import Balancer.Converge.Listeners
import Balancer.Converge.LoadBalancer

/-!
# Converging a Service

`convergeService` brings the load balancer, the target groups and the listeners of a Service in line with its
annotations, in this order, and then deletes the target groups that are left over. `deleteService` deletes all
of them. `sync` does one or the other, as the store has the Service, and `syncOrWarn` tells a failure as an
event. Nothing is remembered between two runs: everything is found again by name and tags.
-/

namespace Balancer.Converge

set_option autoImplicit false

open Cluster

/-- The key of a Service that has a namespace. -/
def serviceKey (service : Value) : Except Error Value := do
  let (ns, name) ← names service
  return .text (ns.shown ++ "/" ++ name.shown)

/-- Converges everything that belongs to a Service. -/
def convergeService (i : Inputs) (service : Value) : Program LoadBalancer := do
  let settings ← i.store.settings i.config (← serviceKey service)
  let live ← convergeLb i service settings
  let arn ← live.item "LoadBalancerArn"
  let groups ← convergeTargetGroups i service settings
  let _ ← convergeListeners arn service settings groups
  collect groups
  return ⟨arn, ← live.getOr "DNSName" (.text "")⟩

/-- Deletes everything that belongs to a Service, if it has a load balancer. -/
def deleteService (i : Inputs) (key : Value) : Program Unit := do
  let (ns, name) ← splitKey key
  match ← findLb i (.text ns) (.text name) with
  | .null => return ()
  | live =>
    let arn ← live.item "LoadBalancerArn"
    deleteAllListeners arn
    deleteAllTargetGroups i (.text ns) (.text name)
    deleteLb arn

/-- Publishes the host name of a load balancer in the status of its Service, unless it is there already. -/
def publish (i : Inputs) (service : Value) (lb : LoadBalancer) : Program Unit := do
  if i.publishes && lb.dnsName.holds then
    if !(← publishedHost service).same lb.dnsName then
      let name ← metaField service "name"
      let ns ← metaField service "namespace"
      Program.notice (.status ns name lb.dnsName)

/-- The Service if it is to be reconciled: it is there, not being deleted, and of the class. -/
def wanted? (i : Inputs) (service : Option Value) : Except Error (Option Value) := do
  match service with
  | none => return none
  | some service =>
    if (← (← service.item "metadata").get "deletionTimestamp").holds then return none
    if ← isOfClass i.config.serviceClass service then return some service else return none

/-- Reconciles the Service of a key, or deletes what belonged to it. -/
def sync (i : Inputs) (key : Value) : Program (Option LoadBalancer) := do
  match ← wanted? i (← i.store.find? .service key) with
  | none =>
    deleteService i key
    return none
  | some service =>
    Program.notice (.subject service)
    let lb ← convergeService i service
    publish i service lb
    return some lb

/-- Reconciles the Service of a key and tells a failure as an event. -/
def syncOrWarn (i : Inputs) (key : Value) : Program (Option LoadBalancer) :=
  (sync i key).warning "ERROR" fun e => "failed to reconcile service " ++ key.shown ++ " due to " ++ e.message

end Balancer.Converge
