import Balancer.Converge.Tags
import Balancer.Identity
import Balancer.Routing.HealthCheck

/-!
# Converging target groups

`convergeTargets` makes the registered targets of a target group the desired ones. `convergeTargetGroup` finds
the target group of a backend by name, creates or modifies it, and converges its tags, attributes and targets.
`convergeTargetGroups` does so for every backend of a Service, `collect` deletes the target groups of a
Service that no backend has any more.
-/

namespace Balancer

set_option autoImplicit false

/-- What a reconcile reads. -/
structure Inputs where
  config : Config
  identity : Identity
  store : Store
  /-- Whether the status of Services can be published. -/
  publishes : Bool := true

/-- The target group of a backend. -/
structure TargetGroup where
  arn : Value
  targetType : Value
  targets : List Target := []

/-- The target groups of a Service, in the order of its backends, and the tags that select them. -/
structure TargetGroups where
  byBackend : Table BackendKey TargetGroup := ∅
  selector : Value := .object []

/-- The ARNs of target groups. -/
def TargetGroups.arns (g : TargetGroups) : Except Error (List Key) := g.byBackend.values.mapM (·.arn.key)

namespace Converge

open Cluster Routing

/-! ## Targets -/

/-- The keys of the targets that some descriptions name. -/
def targetKeys (described : List Value) : Except Error (List (Key × Key)) :=
  described.mapM fun t => do (← Target.ofValue t).key

/-- Targets that are in the first list and not in the second, each once and in order. -/
def missingFrom (wanted there : List (Key × Key)) : Except Error (List Target) :=
  Target.sorted ((wanted.eraseDups.filter fun t => !there.contains t).map Target.ofKey)

/-- Targets as a list value. -/
def targetList (ts : List Target) : Value := .list (ts.map Target.toValue)

/-- Converges the registered targets of a target group; true if that took a change. -/
def convergeTargets (arn desired : Value) : Program Bool := do
  let current ← targetKeys (← Program.answer (.targets arn))
  let wanted ← targetKeys (← desired.elements)
  let additions ← missingFrom wanted current
  let removals ← missingFrom current wanted
  if !additions.isEmpty then Program.answer (.registerTargets arn (targetList additions))
  if !removals.isEmpty then Program.answer (.deregisterTargets arn (targetList removals))
  return !additions.isEmpty || !removals.isEmpty

/-! ## One target group -/

/-- The port that a target group is created with. Targets are registered with ports of their own. -/
def creationPort : Int := 1

/-- The tags of the target group of a backend. -/
def targetGroupTags (i : Inputs) (ns name : Value) (settings : ServiceSettings) (b : Backend) :
    Except Error (Table String Value) := do
  let shared ← i.identity.tagGroup ns name
  return (shared.update (Identity.backendTags ns b.service b.port)).update (settings.tags.map .text)

/-- The Endpoints of a Service, null if there are none. -/
def endpointsOrNull (store : Store) (service : Value) : Except Error Value := do
  return (← store.find? .endpoints (← objectKey service)).getD .null

/-- The parameters of a new target group. -/
def targetGroupParams (i : Inputs) (tgName : String) (targetType protocol : Value) (check : Fields)
    (tags : List Value) : Fields :=
  [("Name", .text tgName), ("Protocol", protocol), ("Port", .int creationPort), ("VpcId", i.config.vpcId),
    ("TargetType", targetType), ("Tags", .list tags)] ++ check

def createTargetGroup (i : Inputs) (tgName : String) (targetType protocol : Value)
    (check : Fields) (tags : Value) :
    Program Value := do
  let tags ← tagList tags
  let group ← Program.answer (.createTargetGroup (targetGroupParams i tgName targetType protocol check tags))
  let arn ← group.item "TargetGroupArn"
  Program.info "CREATE" ("target group " ++ tgName ++ " created, ARN: " ++ arn.shown)
  return group

/-- Modifies a described target group where its health check differs. -/
def modifyTargetGroup (tgName : String) (group : Value) (check : Fields) : Program Value := do
  if ← differs group check then
    let arn ← group.item "TargetGroupArn"
    let modified ← Program.answer (.modifyTargetGroup (("TargetGroupArn", arn) :: check))
    Program.info "MODIFY" ("target group " ++ tgName ++ " modified")
    return modified
  else return group

/-- Creates a target group, or modifies it where its health check differs. -/
def ensureTargetGroup (i : Inputs) (tgName : String) (targetType protocol : Value)
    (check : Fields) (tags : Value) :
    Program Value := do
  match ← Program.answer (.targetGroupNamed (.text tgName)) with
  | .null => createTargetGroup i tgName targetType protocol check tags
  | group => modifyTargetGroup tgName group check

/-- Converges the target group of a backend. -/
def convergeTargetGroup (i : Inputs) (service : Value) (settings : ServiceSettings) (b : Backend) :
    Program TargetGroup := do
  let (ns, name) ← names service
  let targetType := settings.targetGroup.targetType
  let endpoints ← if targetType.same (.text "ip") then endpointsOrNull i.store service else pure .null
  let port ← healthCheckPort service settings.healthCheck.port targetType endpoints
  let check := healthCheck settings (.text port)
  let tags := (← targetGroupTags i ns name settings b).toObject
  let tgName ← i.identity.nameTg ns name b.service b.port targetType b.protocol
  let group ← ensureTargetGroup i tgName targetType b.protocol check tags
  let arn ← group.item "TargetGroupArn"
  let _ ← convergeTags arn tags
  let _ ← convergeTgAttributes arn settings.targetGroup.attributes.toTextObject
  let targets ← resolveTargets i.store service b targetType
  let _ ← convergeTargets arn (targetList targets)
  return ⟨arn, targetType, targets⟩

/-! ## The target groups of a Service -/

/-- Converges the target groups of backends in turn. A backend of a declared action has none, and one that is
there already is passed over. -/
def convergeBackends (i : Inputs) (service : Value) (settings : ServiceSettings)
    (there : Table BackendKey TargetGroup) : List Backend → Program (Table BackendKey TargetGroup)
  | [] => return there
  | b :: bs => do
    if Actions.isUsed b.port then convergeBackends i service settings there bs
    else
      let key ← b.key
      if there.contains key then convergeBackends i service settings there bs
      else
        let group ← convergeTargetGroup i service settings b
        convergeBackends i service settings (there.insert key group) bs

/-- Converges one target group for each backend of a Service. -/
def convergeTargetGroups (i : Inputs) (service : Value) (settings : ServiceSettings) :
    Program TargetGroups := do
  let (ns, name) ← names service
  let specs ← listenerSpecs service settings
  let byBackend ← convergeBackends i service settings ∅ (specs.map (·.backend))
  return ⟨byBackend, (← i.identity.selector ns name).toObject⟩

/-- Deletes target groups in turn. -/
def deleteTargetGroups : List Key → Program Unit
  | [] => return ()
  | arn :: arns => do
    Program.answer (.deleteTargetGroup arn.toValue)
    Program.info "DELETE" ("target group " ++ arn.toValue.shown ++ " deleted")
    deleteTargetGroups arns

/-- Deletes the selected target groups that are not among the given ones. To be done when no listener
forwards to them any more. -/
def collect (g : TargetGroups) : Program Unit := do
  let inUse ← g.arns
  let owned ← Program.answer (.resourcesTagged g.selector (.text targetGroupType))
  let arns ← sortBy Key.before owned.keys
  deleteTargetGroups (arns.filter fun arn => !inUse.contains arn)

/-- Deletes every target group of a Service. -/
def deleteAllTargetGroups (i : Inputs) (ns name : Value) : Program Unit := do
  collect { selector := (← i.identity.selector ns name).toObject }

end Converge

end Balancer
