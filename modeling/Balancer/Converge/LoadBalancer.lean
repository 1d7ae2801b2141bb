import Balancer.Converge.TargetGroup

/-!
# Converging a load balancer

`buildLb` is the configuration that a Service asks for, with its subnets resolved; `checkScheme` refuses one
that may not face the internet. `ensureLb` creates, recreates or modifies the load balancer of that name,
`convergeLb` does all of it.
-/

namespace Balancer

set_option autoImplicit false

/-- The desired configuration of a load balancer. -/
structure LoadBalancerConfig where
  name : Value
  tags : Value := .object []
  type : Value := .text "network"
  scheme : Value := .text internalScheme
  ipAddressType : Value := .null
  subnets : Value := .list []

/-- A load balancer that was reconciled. -/
structure LoadBalancer where
  arn : Value
  dnsName : Value

namespace Converge

open Cluster

/-! ## Subnets -/

/-- The role that subnets of a scheme are tagged with. -/
def roleKey? (scheme : Value) : Option String :=
  if scheme.same (.text internalScheme) then some "kubernetes.io/role/internal-elb"
  else if scheme.same (.text internetFacingScheme) then some "kubernetes.io/role/elb"
  else none

/-- The fewest subnets that are discovered for a load balancer. -/
def minClusterSubnets : Nat := 2

/-- The identifier of a subnet in its ARN. -/
def subnetOfArn (arn : Value) : Except Error String := do return Text.afterLast '/' (← arn.textFor "split")

/-- The first subnet of each zone that is not yet seen. -/
def firstOfZones (seen : List Key) : List Value → Except Error (List Value)
  | [] => .ok []
  | subnet :: rest => do
    let zone ← (← subnet.get "AvailabilityZone").key
    if seen.contains zone then firstOfZones seen rest
    else do
      let id ← subnet.item "SubnetId"
      return id :: (← firstOfZones (zone :: seen) rest)

/-- The described subnets that go by one of some names or identifiers, if there are any. -/
def subnetsNamed (namesOrIds : List Value) : Program (List Value) :=
  if namesOrIds.isEmpty then return [] else Program.answer (.subnetsNamed (.list namesOrIds))

/-- The subnets that are tagged for a cluster and for the role of a scheme, the first of each zone. -/
def clusterSubnets (clusterName scheme : Value) : Program (List Value) := do
  match roleKey? scheme with
  | none => throw (.configuration (.scheme scheme.shown))
  | some role =>
    let key := Identity.clusterKey (← clusterName.asRest)
    let tagged ← Program.answer (.clusterSubnets (.text key))
    let ofRole := (tagged.entries.filter fun e => e.2.contains (.text role)).map fun e => e.1.toValue
    let ids ← ofRole.mapM fun arn => (.text <$> subnetOfArn arn : Except Error Value)
    let out ← firstOfZones [] (← subnetsNamed ids)
    if out.length < minClusterSubnets then throw (.configuration (.fewSubnets key role out))
    Value.sorted out

/-- The identifiers of requested subnets, in order; identifiers stand for themselves and names are looked up.
Without a request the subnets of the cluster are taken. -/
def resolveSubnets (clusterName scheme requested : Value) : Program (List Value) := do
  if !requested.holds then clusterSubnets clusterName scheme
  else
    let all ← requested.elements
    let ids ← all.filterM fun s => (isSubnetId s : Except Error Bool)
    let names ← all.filterM fun s => (do return !(← isSubnetId s) : Except Error Bool)
    let found ← (← subnetsNamed names).mapM fun s => (s.item "SubnetId" : Except Error Value)
    let subnets ← Value.sorted (ids ++ found)
    if subnets.length ≠ (← requested.length) then
      throw (.configuration (.subnetsUnresolved (← Value.textsAt 0 all) (← Value.textsAt 0 subnets)))
    return subnets

/-! ## The desired configuration -/

/-- The configuration of the load balancer of a Service. -/
def buildLb (i : Inputs) (service : Value) (settings : ServiceSettings) : Program LoadBalancerConfig := do
  let (ns, name) ← names service
  let lb := settings.loadBalancer
  let tags ← i.identity.tagLb ns name
  let lbName ← i.identity.nameLb ns name
  let subnets ← resolveSubnets i.config.clusterName (.text lb.scheme) (textList lb.subnets)
  return {
    name := .text lbName
    tags := (tags.update (settings.tags.map .text)).toObject
    scheme := .text lb.scheme
    ipAddressType := .text lb.ipAddressType
    subnets := .list subnets }

/-- The names on a whitelist for a namespace. -/
def whitelisted (whitelist ns : Value) : Except Error Value := do
  let fields ← whitelist.fieldsFor "get"
  match ← ns.key with
  | .text k => return Fields.getOr fields k (.list [])
  | _ => return .list []

/-- Refuses a load balancer that faces the internet for a Service that is not on the whitelist, if the
scheme is restricted. -/
def checkScheme (c : Config) (service : Value) (lb : LoadBalancerConfig) : Except Error Unit := do
  if c.restrictScheme.holds && lb.scheme.same (.text internetFacingScheme) then
    let (ns, name) ← names service
    if !(← (← whitelisted c.internetFacing ns).has name) then
      throw (.configuration (.notWhitelisted ns.shown name.shown))

/-! ## The live load balancer -/

/-- The subnets that a described load balancer is attached to, in order. -/
def attachedSubnets (lb : Value) : Except Error (List Value) := do
  let zones ← (← lb.get "AvailabilityZones").elementsIfAny
  let attached ← zones.filterMapM fun z => do
    if (← z.get "SubnetId").holds then return some (← z.item "SubnetId") else return none
  Value.sorted attached

/-- Whether two lists have the same members. -/
def sameMembers (as bs : List Key) : Bool := as.all bs.contains && bs.all as.contains

/-- The parameters of a new load balancer. -/
def lbParams (lb : LoadBalancerConfig) : Except Error Fields := do
  let subnets ← lb.subnets.elements
  let tags ← tagList lb.tags
  return [("Name", lb.name), ("Type", lb.type), ("Scheme", lb.scheme), ("Subnets", .list subnets),
    ("Tags", .list tags)] ++
    if lb.ipAddressType.holds then [("IpAddressType", lb.ipAddressType)] else []

def createLb (lb : LoadBalancerConfig) : Program Value := do
  let params ← lbParams lb
  let live ← (Program.answer (.createLoadBalancer params)).warning "ERROR" fun e =>
    "failed to create LoadBalancer " ++ lb.name.shown ++ " due to " ++ e.message
  let arn ← live.item "LoadBalancerArn"
  Program.info "CREATE" ("LoadBalancer " ++ lb.name.shown ++ " created, ARN: " ++ arn.shown)
  return live

/-- Deletes a load balancer and creates it anew. -/
def recreateLb (live : Value) (lb : LoadBalancerConfig) : Program Value := do
  let arn ← live.item "LoadBalancerArn"
  Program.answer (.deleteLoadBalancer arn)
  Program.info "DELETE" ("LoadBalancer " ++ arn.shown ++ " deleted for recreation")
  createLb lb

/-- Sets the IP address type of a live load balancer if the configuration asks for another one. -/
def convergeIpType (arn live : Value) (lb : LoadBalancerConfig) : Program Unit := do
  if !lb.ipAddressType.holds then return ()
  if (← live.get "IpAddressType").same lb.ipAddressType then return ()
  (Program.answer (.setIpAddressType arn lb.ipAddressType)).warning "ERROR" fun e =>
    "failed to modify IpAddressType of " ++ arn.shown ++ " due to " ++ e.message
  Program.info "MODIFY" ("IpAddressType of " ++ arn.shown ++ " modified")

/-- Sets the subnets of a live load balancer if they differ as sets. New ones have to stand in an order. -/
def convergeSubnets (arn live : Value) (lb : LoadBalancerConfig) : Program Unit := do
  let current ← (← attachedSubnets live).mapM fun s => (s.key : Except Error Key)
  let wanted ← lb.subnets.elements
  if sameMembers current (← wanted.mapM fun s => (s.key : Except Error Key)) then return ()
  let _ ← Value.sorted wanted
  (Program.answer (.setSubnets arn lb.subnets)).warning "ERROR" fun e =>
    "failed to modify Subnets of " ++ arn.shown ++ " due to " ++ e.message
  Program.info "MODIFY" ("Subnets of " ++ arn.shown ++ " modified")

/-- Modifies a live load balancer where it differs. -/
def modifyLb (live : Value) (lb : LoadBalancerConfig) : Program Unit := do
  let arn ← live.item "LoadBalancerArn"
  convergeIpType arn live lb
  convergeSubnets arn live lb
  let _ ← convergeTags arn lb.tags

/-- Creates the load balancer of a configuration, recreates it if its scheme differs, or modifies it. -/
def ensureLb (lb : LoadBalancerConfig) : Program Value := do
  match ← Program.answer (.loadBalancerNamed lb.name) with
  | .null => createLb lb
  | live =>
    if !(← live.get "Scheme").same lb.scheme then recreateLb live lb
    else
      modifyLb live lb
      return live

/-- Converges the load balancer of a Service. -/
def convergeLb (i : Inputs) (service : Value) (settings : ServiceSettings) : Program Value := do
  let lb ← buildLb i service settings
  checkScheme i.config service lb
  let live ← ensureLb lb
  let arn ← live.item "LoadBalancerArn"
  let _ ← convergeLbAttributes arn settings.loadBalancer.attributes.toTextObject
  return live

/-- The live load balancer of a Service, null if there is none. -/
def findLb (i : Inputs) (ns name : Value) : Program Value := do
  Program.answer (.loadBalancerNamed (.text (← i.identity.nameLb ns name)))

def deleteLb (arn : Value) : Program Unit := do
  Program.answer (.deleteLoadBalancer arn)
  Program.info "DELETE" ("LoadBalancer " ++ arn.shown ++ " deleted")

end Converge

end Balancer
