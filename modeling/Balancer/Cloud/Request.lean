import Balancer.Value.Access

/-!
# Requests to a cloud

`Request` is what the controllers ask of a cloud, `Request.Answer` the type of the answer. What is asked
for, and how a cloud describes load balancers, target groups, listeners and subnets, are values as they
were given. `Request.isMutating` tells the requests that change something, `Request.method` is the name
by which a request goes.
-/

namespace Balancer

set_option autoImplicit false

inductive Request where
  | loadBalancerNamed (name : Value)
  | createLoadBalancer (params : Fields)
  | deleteLoadBalancer (arn : Value)
  | setIpAddressType (arn type : Value)
  | setSubnets (arn subnets : Value)
  | lbAttributes (arn : Value)
  | modifyLbAttributes (arn attributes : Value)
  | targetGroupNamed (name : Value)
  | createTargetGroup (params : Fields)
  | modifyTargetGroup (params : Fields)
  | deleteTargetGroup (arn : Value)
  | tgAttributes (arn : Value)
  | modifyTgAttributes (arn attributes : Value)
  | targets (arn : Value)
  | registerTargets (arn targets : Value)
  | deregisterTargets (arn targets : Value)
  | tags (arn : Value)
  | addTags (arn tags : Value)
  | removeTags (arn keys : Value)
  | listeners (lbArn : Value)
  | createListener (params : Fields)
  | modifyListener (params : Fields)
  | deleteListener (arn : Value)
  /-- The tags of the resources of a type that carry all given tags, by ARN. -/
  | resourcesTagged (tags type : Value)
  /-- The tags of the subnets that a cluster owns or shares, by ARN. -/
  | clusterSubnets (key : Value)
  /-- The subnets with one of the names or identifiers. -/
  | subnetsNamed (namesOrIds : Value)

/-- Attributes or tags of a resource. -/
abbrev Labels := Table Key Value

namespace Request

/-- The type of the answer to a request. A lookup by name answers null where there is nothing of that name. -/
@[reducible] def Answer : Request → Type
  | loadBalancerNamed _ | targetGroupNamed _ => Value
  | createLoadBalancer _ | createTargetGroup _ | modifyTargetGroup _ | createListener _
  | modifyListener _ => Value
  | lbAttributes _ | tgAttributes _ | tags _ => Labels
  | targets _ | listeners _ | subnetsNamed _ => List Value
  | resourcesTagged _ _ | clusterSubnets _ => Table Key Labels
  | _ => Unit

/-- Whether a request changes something in the cloud. -/
def isMutating : Request → Bool
  | loadBalancerNamed _ | lbAttributes _ | targetGroupNamed _ | tgAttributes _ | targets
    _ | tags _ | listeners _
  | resourcesTagged _ _ | clusterSubnets _ | subnetsNamed _ => false
  | _ => true

/-- The name by which a request goes. -/
def method : Request → String
  | loadBalancerNamed _ => "get_load_balancer_by_name"
  | createLoadBalancer _ => "create_load_balancer"
  | deleteLoadBalancer _ => "delete_load_balancer_by_arn"
  | setIpAddressType _ _ => "set_ip_address_type"
  | setSubnets _ _ => "set_subnets"
  | lbAttributes _ => "describe_load_balancer_attributes"
  | modifyLbAttributes _ _ => "modify_load_balancer_attributes"
  | targetGroupNamed _ => "get_target_group_by_name"
  | createTargetGroup _ => "create_target_group"
  | modifyTargetGroup _ => "modify_target_group"
  | deleteTargetGroup _ => "delete_target_group_by_arn"
  | tgAttributes _ => "describe_target_group_attributes"
  | modifyTgAttributes _ _ => "modify_target_group_attributes"
  | targets _ => "describe_targets"
  | registerTargets _ _ => "register_targets"
  | deregisterTargets _ _ => "deregister_targets"
  | tags _ => "describe_tags"
  | addTags _ _ => "add_tags"
  | removeTags _ _ => "remove_tags"
  | listeners _ => "describe_listeners"
  | createListener _ => "create_listener"
  | modifyListener _ => "modify_listener"
  | deleteListener _ => "delete_listener"
  | resourcesTagged _ _ => "get_resources_by_tags"
  | clusterSubnets _ => "get_cluster_subnets"
  | subnetsNamed _ => "get_subnets_by_name_or_id"

end Request

/-- The resource type of target groups. -/
def targetGroupType : String := "elasticloadbalancing:targetgroup"

/-- Whether a subnet is asked for by its identifier, and not by its name. -/
def isSubnetId (nameOrId : Value) : Except Error Bool := nameOrId.startsWith "subnet-"

/-- The fields of an object in order of their names. -/
def sortedEntries (v : Value) : Except Error Fields := do return Entries.sorted (← v.entries)

/-- Tags or attributes in the form in which a cloud takes them, in order of their keys. -/
def tagList (tags : Value) : Except Error (List Value) := do
  return (← sortedEntries tags).map fun e => .object [("Key", .text e.1), ("Value", e.2)]

/-- The key and the value of one tag in the form in which a cloud gives it. -/
def readTag (tag : Value) : Except Error (Key × Value) := do
  let key ← tag.item "Key"
  let value ← tag.item "Value"
  return (← key.key, value)

/-- The table of tags in the form in which a cloud gives them. -/
def readTags (tags : Value) : Except Error Labels := do return .ofList (← (← tags.elementsIfAny).mapM readTag)

end Balancer
