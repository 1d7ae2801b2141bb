import Balancer.Annotations.Action
import Balancer.Annotations.Reader
import Balancer.Config

/-!
# The annotations of a Service

`ServiceSettings` is what the annotations of a Service ask for, with defaults in place of what they leave
open. `ServiceSettings.parse` reads it.
-/

namespace Balancer

set_option autoImplicit false

def internalScheme : String := "internal"

def internetFacingScheme : String := "internet-facing"

structure LoadBalancerSettings where
  scheme : String := internalScheme
  ipAddressType : String := "ipv4"
  subnets : List String := []
  attributes : Table String String := ∅

structure TargetGroupSettings where
  targetType : Value := .text "ip"
  backendProtocol : Value := .text "TCP"
  healthyThreshold : Int := 3
  unhealthyThreshold : Int := 3
  successCodes : Value := .text "200-399"
  attributes : Table String String := ∅

structure HealthCheckSettings where
  protocol : String := "TCP"
  port : Value := .text "traffic-port"
  path : Value := .text "/"
  interval : Int := 30

/-- Whether a health check asks for a path. -/
def HealthCheckSettings.usesHttp (h : HealthCheckSettings) : Bool := h.protocol ∈ ["HTTP", "HTTPS"]

/-- What the annotations of a Service ask for. -/
structure ServiceSettings where
  loadBalancer : LoadBalancerSettings := {}
  targetGroup : TargetGroupSettings := {}
  healthCheck : HealthCheckSettings := {}
  tags : Table String String := ∅
  actions : Actions := ∅

namespace ServiceSettings

/-- The word that an annotation chooses of a few; none if it is missing. -/
def choice? (name : String) (value : Value) (allowed : List String) : Except Error (Option String) :=
  let refused := Error.configuration (.annotationChoice name allowed value.shown)
  match value with
  | .null => .ok none
  | .text s => if s ∈ allowed then .ok (some s) else .error refused
  | _ => .error refused

/-- What annotations ask for, under a configuration. -/
def parse (c : Config) (annotations : Value) : Except Error ServiceSettings := do
  let domain := c.domain.shown
  let raw (name : String) := Annotations.raw domain name annotations
  let scheme ← choice? "scheme" (← raw "scheme") [internalScheme, internetFacingScheme]
  let ipAddressType ← choice? "ip-address-type" (← raw "ip-address-type") ["ipv4", "dualstack"]
  let subnets ← Annotations.slice domain "subnets" annotations
  let lbAttributes ← Annotations.pairs domain "load-balancer-attributes" annotations
  let type ← raw "target-type"
  let healthy ← Annotations.integer? domain "healthy-threshold-count" annotations
  let unhealthy ← Annotations.integer? domain "unhealthy-threshold-count" annotations
  let targetType ← choice? "target-type" (Config.currentTargetType type) Config.targetTypes
  let backendProtocol ← choice? "backend-protocol" (← raw "backend-protocol") Config.backendProtocols
  let successCodes ← raw "success-codes"
  let tgAttributes ← Annotations.pairs domain "target-group-attributes" annotations
  let interval ← Annotations.integer? domain "healthcheck-interval-seconds" annotations
  let protocol ← choice? "healthcheck-protocol" (← raw "healthcheck-protocol") ["TCP", "HTTP", "HTTPS"]
  let port ← raw "healthcheck-port"
  let path ← raw "healthcheck-path"
  let tags ← Annotations.pairs domain "tags" annotations
  let actions ← Actions.parse (← Annotations.group domain "actions" annotations)
  return {
    loadBalancer := {
      scheme := scheme.getD internalScheme
      ipAddressType := ipAddressType.getD "ipv4"
      subnets
      attributes := lbAttributes }
    targetGroup := {
      targetType := (targetType.map .text).getD c.targetType
      backendProtocol := (backendProtocol.map .text).getD c.backendProtocol
      healthyThreshold := healthy.getD 3
      unhealthyThreshold := unhealthy.getD 3
      successCodes := successCodes.orElse (.text "200-399")
      attributes := tgAttributes }
    healthCheck := {
      protocol := protocol.getD "TCP"
      port := port.orElse (.text "traffic-port")
      path := path.orElse (.text "/")
      interval := interval.getD 30 }
    tags, actions }

end ServiceSettings

end Balancer
