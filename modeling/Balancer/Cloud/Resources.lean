import Balancer.Cloud.Program
import Balancer.Cloud.Record

/-!
# A cloud in memory

`Resources` holds load balancers, target groups, listeners, targets, attributes and tags by ARN. A
request is refused (`refusal`) or has an effect (`effect`); where an effect breaks off with an error,
what it did before stays. `Memory` also records every mutating request that was not refused;
`Memory.cloud` is the cloud behind a gate.
-/

namespace Balancer

set_option autoImplicit false

structure Resources where
  /-- The number in the next ARN. -/
  nextId : Nat := 1
  loadBalancers : Table Key Fields := ∅
  lbAttributes : Table Key Labels := ∅
  targetGroups : Table Key Fields := ∅
  tgAttributes : Table Key Labels := ∅
  targets : Table Key (List Value) := ∅
  listeners : Table Key Fields := ∅
  tags : Table Key Labels := ∅
  /-- The subnets, as the cloud describes them. -/
  subnets : List Value := []
  /-- The tags of subnets by ARN. -/
  subnetTags : Table String Value := ∅

namespace Resources

/-! ## ARNs -/

def arnStart : String := "arn:aws:elasticloadbalancing:us-east-1:123456789012"

/-- The number of a resource, in sixteen hexadecimal digits. -/
def idText (n : Nat) : String := String.ofList (Text.hex 16 n)

def lbArn (name : String) (n : Nat) : String := arnStart ++ ":loadbalancer/net/" ++ name ++ "/" ++ idText n

def tgArn (name : String) (n : Nat) : String := arnStart ++ ":targetgroup/" ++ name ++ "/" ++ idText n

def listenerArn (n : Nat) : String := arnStart ++ ":listener/net/" ++ idText n

/-- What belongs to an ARN, which has to be there. -/
def at_ {β : Type} (t : Table Key β) (arn : Value) : Except Error (Key × β) := do
  let k ← arn.key
  match t.get? k with
  | some x => return (k, x)
  | none => throw (.noField arn)

/-! ## Refusals -/

/-- The actions of a listener. -/
def actionsOf (listener : Fields) : Except Error (List Value) :=
  (Fields.get listener "DefaultActions").elementsIfAny

/-- Whether one of some actions forwards to a target group. -/
def forwardsTo (arn : Value) : List Value → Except Error Bool
  | [] => .ok false
  | a :: as => do if (← a.get "TargetGroupArn").same arn then return true else forwardsTo arn as

/-- A target group that a listener forwards to cannot be deleted. -/
def checkUnused (arn : Value) : List Fields → Except Error Unit
  | [] => .ok ()
  | l :: ls => do
    if ← forwardsTo arn (← actionsOf l) then
      throw (.cloud "delete_target_group" (.text "ResourceInUse")
        (.text ("Target group '" ++ arn.shown ++ "' is currently in use by a listener or a rule")))
    checkUnused arn ls

/-- No other listener of a load balancer may have the port. -/
def checkPort (method : String) (own lb : Value) (params : Fields) : List (Key × Fields) → Except Error Unit
  | [] => .ok ()
  | (arn, l) :: ls => do
    if !arn.toValue.same own && (Fields.get l "LoadBalancerArn").same lb then
      let taken ← Fields.item l "Port"
      let port ← Fields.item params "Port"
      if taken.same port then
        throw (.cloud method (.text "DuplicateListener")
          (.text ("A listener already exists on port " ++ port.shown)))
    checkPort method own lb params ls

/-- The target group that an action forwards to. -/
def targetGroupOf? (s : Resources) (action : Value) : Except Error (Option Fields) := do
  return s.targetGroups.get? (← (← action.get "TargetGroupArn").key)

/-- A listener and the target groups that it forwards to must have one protocol. -/
def checkProtocol (s : Resources) (method : String) (params : Fields) : List Value → Except Error Unit
  | [] => .ok ()
  | a :: as => do
    match ← s.targetGroupOf? a with
    | none => pure ()
    | some group =>
      let theirs := Fields.get group "Protocol"
      let protocol ← Fields.item params "Protocol"
      if !theirs.same protocol then
        throw (.cloud method (.text "ValidationError")
          (.text ("Listener protocol '" ++ protocol.shown ++
            "' must be compatible with target group protocol '" ++
            theirs.shown ++ "'")))
    checkProtocol s method params as

/-- The load balancer that a listener will belong to, or belongs to. -/
def lbOfListener (s : Resources) (own : Value) (params : Fields) : Except Error Value := do
  let given := Fields.get params "LoadBalancerArn"
  if given.holds then return given else Fields.item (← at_ s.listeners own).2 "LoadBalancerArn"

/-- A listener that is to be created, or the one of an ARN that is to be modified. -/
def checkListener (s : Resources) (method : String) (own : Value) (params : Fields) : Except Error Unit := do
  checkPort method own (← s.lbOfListener own params) params s.listeners.entries
  s.checkProtocol method params (← actionsOf params)

/-- Why a request is refused before anything is done. -/
def refusal (s : Resources) : Request → Except Error Unit
  | .deleteTargetGroup arn => checkUnused arn s.listeners.values
  | .createListener params => s.checkListener "create_listener" .null params
  | .modifyListener params => do s.checkListener "modify_listener" (← Fields.item params "ListenerArn") params
  | _ => .ok ()

/-! ## Effects -/

/-- An effect that does all or nothing. -/
def change {α : Type} (s : Resources) (x : Except Error (α × Resources)) : Except Error α × Resources :=
  match x with
  | .ok (a, s) => (.ok a, s)
  | .error e => (.error e, s)

/-- The first resource whose field has a value, null if there is none. -/
def named (k : String) (name : Value) (t : Table Key Fields) : Value :=
  ((t.values.find? fun fs => (Fields.get fs k).same name).map .object).getD .null

/-- The zones of a load balancer in some subnets. -/
def zones (subnets : List Value) : Value := .list (subnets.map fun s => .object [("SubnetId", s)])

/-- The description of a new load balancer. -/
def newLb (params : Fields) (name : Value) (subnets : List Value) (n : Nat) : Fields :=
  [("LoadBalancerArn", .text (lbArn name.shown n)), ("LoadBalancerName", name),
    ("DNSName", .text (name.shown ++ "-" ++ toString n ++ ".elb.us-east-1.amazonaws.com")),
    ("Type", Fields.getOr params "Type" (.text "network")),
    ("Scheme", Fields.getOr params "Scheme" (.text "internal")),
    ("IpAddressType", Fields.getOr params "IpAddressType" (.text "ipv4")),
    ("AvailabilityZones", zones subnets)]

def createLb (s : Resources) (params : Fields) : Except Error Value × Resources :=
  let n := s.nextId
  let s := { s with nextId := n + 1 }
  match Fields.item params "Name", (Fields.get params "Subnets").elementsIfAny with
  | .error e, _ | _, .error e => (.error e, s)
  | .ok name, .ok subnets =>
    let arn := Key.text (lbArn name.shown n)
    let lb := newLb params name subnets n
    let s := { s with
      loadBalancers := s.loadBalancers.insert arn lb
      lbAttributes := s.lbAttributes.insert arn ∅ }
    match readTags (Fields.get params "Tags") with
    | .error e => (.error e, s)
    | .ok tags => (.ok (.object lb), { s with tags := s.tags.insert arn tags })

/-- The description of a new target group: the parameters without the tags, and its ARN and name. -/
def newTg (params : Fields) (name : Value) (arn : String) : Fields :=
  Entries.put "TargetGroupName" name (Entries.put "TargetGroupArn" (.text arn) (Entries.drop "Tags" params))

def createTg (s : Resources) (params : Fields) : Except Error Value × Resources :=
  let n := s.nextId
  let s := { s with nextId := n + 1 }
  match Fields.item params "Name" with
  | .error e => (.error e, s)
  | .ok name =>
    let arn := tgArn name.shown n
    let tg := newTg params name arn
    let s := { s with
      targetGroups := s.targetGroups.insert (.text arn) tg
      tgAttributes := s.tgAttributes.insert (.text arn) ∅
      targets := s.targets.insert (.text arn) [] }
    match readTags (Fields.get params "Tags") with
    | .error e => (.error e, s)
    | .ok tags => (.ok (.object tg), { s with tags := s.tags.insert (.text arn) tags })

/-- The fields of a target group that can be modified. -/
def modifiableFields : List String :=
  ["HealthCheckProtocol", "HealthCheckPort", "HealthCheckPath", "HealthCheckIntervalSeconds",
    "HealthyThresholdCount", "UnhealthyThresholdCount", "Matcher"]

/-- The description of a target group with the modifiable ones of some parameters. -/
def modifiedTg (tg params : Fields) : Fields :=
  modifiableFields.foldl (fun tg k =>
    match Entries.find? k params with
    | some v => Entries.put k v tg
    | none => tg) tg

def modifyTg (s : Resources) (params : Fields) : Except Error (Value × Resources) := do
  let (arn, tg) ← at_ s.targetGroups (← Fields.item params "TargetGroupArn")
  let tg := modifiedTg tg params
  return (.object tg, { s with targetGroups := s.targetGroups.insert arn tg })

/-- A field of a load balancer set to a value. -/
def setLbField (s : Resources) (arn : Value) (k : String) (v : Value) : Except Error (Unit × Resources) := do
  let (arn, lb) ← at_ s.loadBalancers arn
  return ((), { s with loadBalancers := s.loadBalancers.insert arn (Entries.put k v lb) })

/-- Without a load balancer, its tags and its listeners. -/
def deleteLb (s : Resources) (arn : Value) : Except Error (Unit × Resources) := do
  let loadBalancers ← s.loadBalancers.without arn
  let tags ← s.tags.without arn
  let listeners := s.listeners.filter fun _ l => !(Fields.get l "LoadBalancerArn").same arn
  return ((), { s with loadBalancers, tags, listeners })

/-- Without a target group, its targets and its tags. -/
def deleteTg (s : Resources) (arn : Value) : Except Error (Unit × Resources) := do
  let targetGroups ← s.targetGroups.without arn
  let targets ← s.targets.without arn
  let tags ← s.tags.without arn
  return ((), { s with targetGroups, targets, tags })

/-- What is labelled to an ARN, nothing if that is unknown. -/
def labelsOf (t : Table Key Labels) (arn : Value) : Except Error Labels :=
  do return (t.get? (← arn.key)).getD ∅

/-- Labels of an ARN overwritten and extended. -/
def labelled (t : Table Key Labels) (arn new : Value) : Except Error (Table Key Labels) := do
  let k ← arn.key
  return t.insert k (((t.get? k).getD ∅).update (← new.table))

/-- Targets with some more, each once. What is no target breaks this off. -/
def addTargets (current : List Value) : List Value → Except Error Unit × List Value
  | [] => (.ok (), current)
  | t :: ts =>
    if current.any (·.alike t) then addTargets current ts
    else match objectOf t with
      | .ok t => addTargets (current ++ [t]) ts
      | .error e => (.error e, current)

def register (s : Resources) (arn new : Value) : Except Error Unit × Resources :=
  match new.elements with
  | .error e => (.error e, s)
  | .ok [] => (.ok (), s)
  | .ok new =>
    match at_ s.targets arn with
    | .error e => (.error e, s)
    | .ok (arn, current) =>
      let (done, current) := addTargets current new
      (done, { s with targets := s.targets.insert arn current })

def deregister (s : Resources) (arn gone : Value) : Except Error (Unit × Resources) := do
  let (arn, current) ← at_ s.targets arn
  let left ← current.filterM fun t => do return !(← gone.has t)
  return ((), { s with targets := s.targets.insert arn left })

/-- Labels without some keys. What is no key breaks this off. -/
def removeLabels (labels : Labels) : List Value → Except Error Unit × Labels
  | [] => (.ok (), labels)
  | k :: ks =>
    match labels.without k with
    | .ok labels => removeLabels labels ks
    | .error e => (.error e, labels)

/-- Without some tags of a resource. -/
def untag (s : Resources) (arn keys : Value) : Except Error Unit × Resources :=
  match keys.elements >>= Value.sorted with
  | .error e => (.error e, s)
  | .ok [] => (.ok (), s)
  | .ok keys =>
    match arn.key with
    | .error e => (.error e, s)
    | .ok arn =>
      match s.tags.get? arn with
      | none => (.ok (), s)
      | some tags =>
        let (done, tags) := removeLabels tags keys
        (done, { s with tags := s.tags.insert arn tags })

def createListener (s : Resources) (params : Fields) : Value × Resources :=
  let arn := listenerArn s.nextId
  let l := Entries.put "ListenerArn" (.text arn) params
  (.object l, { s with nextId := s.nextId + 1, listeners := s.listeners.insert (.text arn) l })

def modifyListener (s : Resources) (params : Fields) : Except Error (Value × Resources) := do
  let (arn, l) ← at_ s.listeners (← Fields.item params "ListenerArn")
  let l := params.foldl (fun l f => Entries.put f.1 f.2 l) l
  return (.object l, { s with listeners := s.listeners.insert arn l })

/-- The listeners of a load balancer. -/
def listenersOf (s : Resources) (lb : Value) : List Fields :=
  s.listeners.values.filter fun l => (Fields.get l "LoadBalancerArn").same lb

/-- The tags of a resource. -/
def tagsOf (s : Resources) (arn : Key) : Labels := (s.tags.get? arn).getD ∅

/-- Whether tags hold every one of some others. -/
def hasTags (wanted : Fields) (tags : Labels) : Bool :=
  wanted.all fun e => ((tags.get? (.text e.1)).getD .null).same e.2

/-- The tags of the resources of a type that carry all given tags. -/
def tagged (s : Resources) (wanted type : Value) : Except Error (Table Key Labels) := do
  if !type.same (.text targetGroupType) || s.targetGroups.isEmpty then return ∅
  let wanted ← wanted.entries
  return .ofList ((s.targetGroups.keys.filter fun arn => hasTags wanted (s.tagsOf arn)).map
    fun arn => (arn, s.tagsOf arn))

/-- Whether tags mark a subnet as one that a cluster owns or shares. -/
def isOfCluster (key tags : Value) : Except Error Bool := do
  let fields ← tags.fieldsFor "get"
  match ← key.key with
  | .text k => return (Fields.get fields k).isOneOf ["owned", "shared"]
  | _ => return false

/-- The tags of the subnets that a cluster owns or shares. -/
def clusterSubnets (s : Resources) (key : Value) : Except Error (Table Key Labels) := do
  let owned ← s.subnetTags.entries.filterM fun e => isOfCluster key e.2
  return .ofList (← owned.mapM fun e => do return (.text e.1, ← e.2.table))

/-- Whether a subnet goes by one of some names or identifiers. -/
def isNamed (namesOrIds subnet : Value) : Except Error Bool := do
  let tags ← readTags (← subnet.get "Tags")
  if ← namesOrIds.has (← subnet.item "SubnetId") then return true
  let name := (tags.get? (.text "Name")).getD .null
  if name.holds then namesOrIds.has name else return false

/-- The answer to a request that is not refused, and what it leaves. -/
def effect (s : Resources) : (r : Request) → Except Error r.Answer × Resources
  | .loadBalancerNamed name => (.ok (named "LoadBalancerName" name s.loadBalancers), s)
  | .createLoadBalancer params => s.createLb params
  | .deleteLoadBalancer arn => s.change (s.deleteLb arn)
  | .setIpAddressType arn type => s.change (s.setLbField arn "IpAddressType" type)
  | .setSubnets arn subnets => s.change do s.setLbField arn "AvailabilityZones" (zones (← subnets.elements))
  | .lbAttributes arn => (labelsOf s.lbAttributes arn, s)
  | .modifyLbAttributes arn new => s.change do
    return ((), { s with lbAttributes := ← labelled s.lbAttributes arn new })
  | .targetGroupNamed name => (.ok (named "TargetGroupName" name s.targetGroups), s)
  | .createTargetGroup params => s.createTg params
  | .modifyTargetGroup params => s.change (s.modifyTg params)
  | .deleteTargetGroup arn => s.change (s.deleteTg arn)
  | .tgAttributes arn => (labelsOf s.tgAttributes arn, s)
  | .modifyTgAttributes arn new => s.change do
    return ((), { s with tgAttributes := ← labelled s.tgAttributes arn new })
  | .targets arn => (do return (s.targets.get? (← arn.key)).getD [], s)
  | .registerTargets arn new => s.register arn new
  | .deregisterTargets arn gone => s.change (s.deregister arn gone)
  | .tags arn => (labelsOf s.tags arn, s)
  | .addTags arn new => s.change do return ((), { s with tags := ← labelled s.tags arn new })
  | .removeTags arn keys => s.untag arn keys
  | .listeners lb => (.ok ((s.listenersOf lb).map .object), s)
  | .createListener params => (.ok (s.createListener params).1, (s.createListener params).2)
  | .modifyListener params => s.change (s.modifyListener params)
  | .deleteListener arn => s.change do return ((), { s with listeners := ← s.listeners.without arn })
  | .resourcesTagged wanted type => (s.tagged wanted type, s)
  | .clusterSubnets key => (s.clusterSubnets key, s)
  | .subnetsNamed namesOrIds => (s.subnets.filterM (isNamed namesOrIds), s)

end Resources

/-- A cloud in memory, and what it keeps of the mutating requests that it did not refuse, in order. -/
structure Memory where
  resources : Resources := {}
  records : List Record := []

namespace Memory

/-- The answer to a request. -/
def perform (m : Memory) (r : Request) : Except Error r.Answer × Memory :=
  match do m.resources.refusal r; r.record? with
  | .error e => (.error e, m)
  | .ok record =>
    let (x, resources) := m.resources.effect r
    (x, { resources, records := m.records ++ record.toList })

/-- The cloud in memory behind a gate. -/
def cloud {γ : Type} (g : Gate γ) : Cloud (γ × Memory) where
  perform r s :=
    match g.allow r s.1 with
    | (.error e, c) => (.error e, (c, s.2))
    | (.ok (), c) =>
      let (x, m) := s.2.perform r
      (x, (c, m))
  hear n s := (g.hear n s.1, s.2)

end Memory

end Balancer
