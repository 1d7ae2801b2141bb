import Balancer.Cloud.Program

/-!
# A cloud behind clients

The requests of the controllers as calls of three clients: `elbv2` for load balancers, `ec2` for subnets and
`tagging` for resources by tag. `Clients` are clients that give prepared answers, each method in its own order
and an empty one when there are no more, and keep the calls that were sent. `Clients.cloud` is the cloud
behind a gate, which every call passes.
-/

namespace Balancer

set_option autoImplicit false

/-- A call that was sent. -/
structure Call where
  client : String
  method : String
  params : Fields

structure Clients where
  /-- The prepared answers of each method of each client. -/
  answers : Table String (Table String (List Value)) := ∅
  sent : List Call := []

namespace Clients

/-- The prepared answers of a method. -/
def pending (c : Clients) (client method : String) : List Value :=
  (((c.answers.get? client).getD ∅).get? method).getD []

/-- The next answer of a method, and the clients after the call. -/
def send (c : Clients) (call : Call) : Value × Clients :=
  let pending := c.pending call.client call.method
  let methods := (c.answers.get? call.client).getD ∅
  (pending.headD (.object []),
    { answers := c.answers.insert call.client (methods.insert call.method pending.tail)
      sent := c.sent ++ [call] })

/-! ## Refused calls -/

/-- How often a refused call was retried, in words. -/
def retries (response : Value) : Except Error String := do
  if !(← response.has (.text "ResponseMetadata")) then return ""
  let data ← response.item "ResponseMetadata"
  if !(← data.get "MaxAttemptsReached").holds then return ""
  if !(← data.has (.text "RetryAttempts")) then return ""
  return " (reached max retries: " ++ (← data.item "RetryAttempts").shown ++ ")"

/-- The error of a call that was refused, from the response and the name of the operation. -/
def refusal (method : String) (response operation : Value) : Except Error Error := do
  let retries ← retries response
  let error ← response.getOr "Error" (.object [])
  let code ← error.getOr "Code" (.text "Unknown")
  let usual := "An error occurred (" ++ code.shown ++ ") when calling the " ++
    operation.shown ++ " operation" ++
    retries ++ ": Unknown"
  return .cloud method code (← error.getOr "Message" (.text usual))

/-- The answer of a call, or its error if the call was refused. -/
def received (method : String) (answer : Value) : Except Error Value := do
  match answer with
  | .object fs =>
    match Entries.find? "client_error" fs with
    | some response => throw (← refusal method response (Fields.get fs "operation_name"))
    | none => return answer
  | v => return v

/-! ## Calls behind a gate -/

variable {γ : Type}

/-- A computation over clients behind a gate. -/
abbrev Wire (γ : Type) := ExceptT Error (StateM (γ × Clients))

/-- One call, sent if the gate admits it. -/
def call (g : Gate γ) (r : Request) (client method : String) (params : Fields) : Wire γ Value := do
  let (gate, clients) ← get
  let (admitted, gate) := g.allow r gate
  set (gate, clients)
  liftM admitted
  let (answer, clients) := clients.send ⟨client, method, params⟩
  set (gate, clients)
  liftM (received method answer)

/-- A call of which only the success matters. -/
def command (g : Gate γ) (r : Request) (method : String) (params : Fields) : Wire γ Unit := do
  discard <| call g r "elbv2" method params

/-- The first element of a part of an answer, which has to be there. -/
def created (g : Gate γ) (r : Request) (method result : String) (params : Fields) : Wire γ Value := do
  liftM ((← call g r "elbv2" method params).item result >>= Value.first)

/-- The first element of a part of an answer, null if there is none; a refusal with the
given code means the same. -/
def found (g : Gate γ) (r : Request) (method result absent : String) (name : Value) : Wire γ Value := do
  let answer ← tryCatch (some <$> call g r "elbv2" method [("Names", .list [name])]) fun
    | .cloud operation code text =>
      if code.same (.text absent) then pure none else throw (.cloud operation code text)
    | e => throw e
  match answer with
  | none => return .null
  | some answer =>
    let all ← liftM (answer.get result)
    if all.holds then liftM all.first else return .null

/-- The elements of a part of an answer; there may be none. -/
def part (answer : Value) (k : String) : Except Error (List Value) := do (← answer.get k).elementsIfAny

/-- A listing that comes in pages. -/
structure Listing (β : Type) where
  client : String
  method : String
  params : Fields
  /-- The parameter by which a page is asked for, and the field of a page that gives it for the next one. -/
  asked : String
  given : String
  /-- What is read of a page. -/
  read : Value → Except Error (List β)

/-- The parameters for the page of a token; the first page has none. -/
def Listing.paramsAt {β : Type} (l : Listing β) (token : Value) : Fields :=
  if token.holds then l.params ++ [(l.asked, token)] else l.params

/-- What is read of all pages from that of a token on. After `n` more prepared answers a page is
empty and thus the last. -/
def pages {β : Type} (g : Gate γ) (r : Request) (l : Listing β) :
    (n : Nat) → (token : Value) → Wire γ (List β)
  | n, token => do
    let page ← call g r l.client l.method (l.paramsAt token)
    let items ← liftM (l.read page)
    match n with
    | 0 => return items
    | n + 1 =>
      let next ← liftM (page.get l.given)
      if next.holds then return items ++ (← pages g r l n next) else return items

/-- What is read of all pages. -/
def allPages {β : Type} (g : Gate γ) (r : Request) (l : Listing β) : Wire γ (List β) := do
  let (_, clients) ← get
  pages g r l (clients.pending l.client l.method).length .null

/-- The tags of a resource in a page. -/
def mapping (m : Value) : Except Error (Key × Labels) := do
  let tags ← readTags (← m.get "Tags")
  return (← (← m.item "ResourceARN").key, tags)

/-- The tags of resources by ARN, from the pages of an answer. -/
def resources (g : Gate γ) (r : Request) (filters : List Value) (type : Value) :
    Wire γ (Table Key Labels) := do
  let entries ← allPages g r {
    client := "tagging"
    method := "get_resources"
    params := [("TagFilters", .list filters), ("ResourceTypeFilters", .list [type])]
    asked := "PaginationToken"
    given := "PaginationToken"
    read := fun page => do (← part page "ResourceTagMappingList").mapM mapping }
  return .ofList entries

/-- A condition on a tag. -/
def tagFilter (k : Value) (values : List Value) : Value := .object [("Key", k), ("Values", .list values)]

def subnetType : String := "ec2:subnet"

/-- The subnets that satisfy a condition on some names, if there are any names. -/
def subnetsBy (g : Gate γ) (r : Request) (condition : String) (names : List Value) : Wire γ (List Value) := do
  if names.isEmpty then return []
  let answer ← call g r "ec2" "describe_subnets"
    [("Filters", .list [.object [("Name", .text condition), ("Values", .list names)]])]
  liftM (part answer "Subnets")

/-- The tags that an answer gives for a resource. -/
def tagsIn (arn : Value) : List Value → Except Error Labels
  | [] => .ok ∅
  | d :: ds => do
    if (← d.get "ResourceArn").same arn then readTags (← d.get "Tags") else tagsIn arn ds

/-- The identifier and the port of a described target. -/
def describedTarget (d : Value) : Except Error Value := do
  let id ← (← d.item "Target").item "Id"
  let port ← (← d.item "Target").item "Port"
  return .object [("Id", id), ("Port", port)]

/-- The attributes in an answer. -/
def attributes (answer : Value) : Except Error Labels := do readTags (← answer.get "Attributes")

/-- The answer to a request. -/
def perform (g : Gate γ) (r : Request) : Wire γ r.Answer :=
  match r with
  | .loadBalancerNamed name => found g r "describe_load_balancers" "LoadBalancers" "LoadBalancerNotFound" name
  | .createLoadBalancer params => created g r "create_load_balancer" "LoadBalancers" params
  | .deleteLoadBalancer arn => command g r "delete_load_balancer" [("LoadBalancerArn", arn)]
  | .setIpAddressType arn type =>
    command g r "set_ip_address_type" [("LoadBalancerArn", arn), ("IpAddressType", type)]
  | .setSubnets arn subnets => do
    let subnets ← liftM subnets.elements
    command g r "set_subnets" [("LoadBalancerArn", arn), ("Subnets", .list subnets)]
  | .lbAttributes arn => do
    liftM (attributes (← call g r "elbv2" "describe_load_balancer_attributes" [("LoadBalancerArn", arn)]))
  | .modifyLbAttributes arn attributes => do
    let attributes ← liftM (tagList attributes)
    command g r "modify_load_balancer_attributes" [("LoadBalancerArn", arn), ("Attributes", .list attributes)]
  | .targetGroupNamed name => found g r "describe_target_groups" "TargetGroups" "TargetGroupNotFound" name
  | .createTargetGroup params => created g r "create_target_group" "TargetGroups" params
  | .modifyTargetGroup params => created g r "modify_target_group" "TargetGroups" params
  | .deleteTargetGroup arn => command g r "delete_target_group" [("TargetGroupArn", arn)]
  | .tgAttributes arn => do
    liftM (attributes (← call g r "elbv2" "describe_target_group_attributes" [("TargetGroupArn", arn)]))
  | .modifyTgAttributes arn attributes => do
    let attributes ← liftM (tagList attributes)
    command g r "modify_target_group_attributes" [("TargetGroupArn", arn), ("Attributes", .list attributes)]
  | .targets arn => do
    let answer ← call g r "elbv2" "describe_target_health" [("TargetGroupArn", arn)]
    liftM (part answer "TargetHealthDescriptions" >>= List.mapM describedTarget)
  | .registerTargets arn new => command g r "register_targets" [("TargetGroupArn", arn), ("Targets", new)]
  | .deregisterTargets arn gone =>
    command g r "deregister_targets" [("TargetGroupArn", arn), ("Targets", gone)]
  | .tags arn => do
    let answer ← call g r "elbv2" "describe_tags" [("ResourceArns", .list [arn])]
    liftM (part answer "TagDescriptions" >>= tagsIn arn)
  | .addTags arn tags => do
    let tags ← liftM (tagList tags)
    command g r "add_tags" [("ResourceArns", .list [arn]), ("Tags", .list tags)]
  | .removeTags arn keys => do
    let keys ← liftM (keys.elements >>= Value.sorted)
    command g r "remove_tags" [("ResourceArns", .list [arn]), ("TagKeys", .list keys)]
  | .listeners lb => allPages g r {
      client := "elbv2"
      method := "describe_listeners"
      params := [("LoadBalancerArn", lb)]
      asked := "Marker"
      given := "NextMarker"
      read := (part · "Listeners") }
  | .createListener params => created g r "create_listener" "Listeners" params
  | .modifyListener params => created g r "modify_listener" "Listeners" params
  | .deleteListener arn => command g r "delete_listener" [("ListenerArn", arn)]
  | .resourcesTagged tags type => do
    let tags ← liftM (sortedEntries tags)
    resources g r (tags.map fun e => tagFilter (.text e.1) [e.2]) type
  | .clusterSubnets key => resources g r [tagFilter key [.text "owned", .text "shared"]] (.text subnetType)
  | .subnetsNamed namesOrIds => do
    let all ← liftM namesOrIds.elements
    let ids ← liftM (all.filterM isSubnetId)
    let names ← liftM (all.filterM fun n => do return !(← isSubnetId n))
    let byId ← subnetsBy g r "subnet-id" ids
    return byId ++ (← subnetsBy g r "tag:Name" names)

/-- The cloud of some clients, behind a gate. -/
def cloud (g : Gate γ) : Cloud (γ × Clients) where
  perform r s := (perform g r).run s
  hear n s := (g.hear n s.1, s.2)

end Clients

end Balancer
