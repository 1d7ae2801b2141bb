import Balancer.Routing.Target

/-!
# Health checks

`healthCheckPort` turns the annotated port of a health check into a number or `trafficPort`;
`healthCheck` lists the settings of a target group that can be modified, and `differs` compares them with
a described target group.
-/

namespace Balancer.Routing

set_option autoImplicit false

open Cluster

/-- The word for the port that receives the traffic. -/
def trafficPort : String := "traffic-port"

/-- Whether a text consists of digits. -/
def isNumeric (s : String) : Bool := s ≠ "" && s.toList.all Text.isDigit

/-- The port of a health check: a number or `trafficPort` as they are, else the node port or the target port
of the Service port of that name. A target port may itself be a name, whose number only the Endpoints know. -/
def healthCheckPort (service port targetType endpoints : Value) : Except Error String := do
  let port ← port.textFor "isdigit"
  if isNumeric port || port == trafficPort then return port
  match ← firstThat (fun p => do return (← p.get "name").same (.text port)) (← ports service) with
  | none => throw (.missing (.healthCheckPort port (← objectKey service).shown))
  | some servicePort =>
    if targetType.same (.text "instance") then
      let nodePort ← servicePort.get "nodePort"
      if !nodePort.holds then throw (.missing (.nodePort (← objectKey service).shown port))
      return nodePort.shown
    else
      let number ← servicePort.item "port"
      let target := (← servicePort.getOr "targetPort" number).shown
      if isNumeric target then return target
      match ← endpointPort? endpoints servicePort with
      | some n => return Text.decimal n
      | none => throw (.missing (.targetPort target port (← objectKey service).shown))

/-- The modifiable health check settings of a target group. -/
def healthCheck (settings : ServiceSettings) (port : Value) : Fields :=
  let check := settings.healthCheck
  let group := settings.targetGroup
  [("HealthCheckProtocol", .text check.protocol), ("HealthCheckPort", port),
    ("HealthCheckIntervalSeconds", .int check.interval),
    ("HealthyThresholdCount", .int group.healthyThreshold),
    ("UnhealthyThresholdCount", .int group.unhealthyThreshold)] ++
  if check.usesHttp then
    [("HealthCheckPath", check.path), ("Matcher", .object [("HttpCode", group.successCodes)])]
  else []

/-- Whether one setting of a described target group differs from the desired one. -/
def settingDiffers (group : Value) (name : String) (desired : Value) : Except Error Bool := do
  if name = "Matcher" then
    let current ← (← part group "Matcher").get "HttpCode"
    return !current.same (← desired.item "HttpCode")
  else return !(← group.get name).same desired

/-- Whether a described target group differs from desired settings. -/
def differs (group : Value) : Fields → Except Error Bool
  | [] => .ok false
  | f :: fs => do if ← settingDiffers group f.1 f.2 then return true else differs group fs

end Balancer.Routing
