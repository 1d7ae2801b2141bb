import Balancer.Cloud.Request

/-!
# Records of requests

A cloud in memory keeps a `Record` of every mutating request that it takes up: the name of what is done, and
the arguments as they were at that time. `Request.record?` fails where an argument is not what it has to be;
of lists and objects it keeps the elements and the entries, and of keys to be removed the sorted row.
-/

namespace Balancer

set_option autoImplicit false

structure Record where
  name : String
  args : Fields

/-- The elements of a value as a list. -/
def listOf (v : Value) : Except Error Value := .list <$> v.elements

/-- The elements of a value as a sorted list. -/
def sortedListOf (v : Value) : Except Error Value := .list <$> (v.elements >>= Value.sorted)

/-- The object of the entries of an object or of a list of pairs. -/
def objectOf (v : Value) : Except Error Value :=
  match v with
  | .object fs => .ok (.object fs)
  | v => Table.toValue <$> v.table

/-- What is kept of a request, if it is mutating. -/
def Request.record? : Request → Except Error (Option Record)
  | createLoadBalancer params => kept "create_load_balancer" params
  | createTargetGroup params => kept "create_target_group" params
  | modifyTargetGroup params => kept "modify_target_group" params
  | createListener params => kept "create_listener" params
  | modifyListener params => kept "modify_listener" params
  | deleteLoadBalancer arn => kept "delete_load_balancer" [("arn", arn)]
  | deleteTargetGroup arn => kept "delete_target_group" [("arn", arn)]
  | deleteListener arn => kept "delete_listener" [("arn", arn)]
  | setIpAddressType arn type => kept "set_ip_address_type" [("arn", arn), ("ip_address_type", type)]
  | setSubnets arn subnets => do kept "set_subnets" [("arn", arn), ("subnets", ← listOf subnets)]
  | modifyLbAttributes arn attributes => do
    kept "modify_load_balancer_attributes" [("arn", arn), ("attributes", ← objectOf attributes)]
  | modifyTgAttributes arn attributes => do
    kept "modify_target_group_attributes" [("arn", arn), ("attributes", ← objectOf attributes)]
  | registerTargets arn new => kept "register_targets" [("arn", arn), ("targets", new)]
  | deregisterTargets arn gone => kept "deregister_targets" [("arn", arn), ("targets", gone)]
  | addTags arn new => do kept "add_tags" [("arn", arn), ("tags", ← objectOf new)]
  | removeTags arn keys => do kept "remove_tags" [("arn", arn), ("keys", ← sortedListOf keys)]
  | _ => .ok none
where
  /-- A record of that name. -/
  kept (name : String) (args : Fields) : Except Error (Option Record) := .ok (some ⟨name, args⟩)

end Balancer
