import Balancer.Config
import Balancer.Number.Fraction

/-!
# Configuration from the environment

`Config.ofEnvironment` reads the settings from environment variables, `Config.load` also validates them.
`readPairs` reads a comma-separated list of `Key=Value` pairs in one pass over its parts, keeping the pairs
and the parts that are none.

An `Environment` comes from outside, so there may be surrogates in it. Settings are texts, in which a
surrogate is shown as the replacement character. That makes a difference to the name of the cluster alone,
which is encoded where no name stem is set.
-/

namespace Balancer.Config

set_option autoImplicit false

/-- What has been read of a list of pairs: the pairs, and the parts that are no pairs, the last first. -/
structure Pairs where
  table : Table String String := ∅
  bad : List String := []

/-- One more part of a list of pairs; a blank one counts for nothing. -/
def Pairs.add (ps : Pairs) (part : List Char) : Pairs :=
  match Text.stripOf Text.isBlank part with
  | [] => ps
  | part =>
    match Text.splitOn '=' part with
    | [k, v] =>
      { ps with table := ps.table.insert (Text.strip (String.ofList k)) (Text.strip (String.ofList v)) }
    | _ => { ps with bad := String.ofList part :: ps.bad }

/-- The table of a comma-separated list of `Key=Value` pairs. -/
def readPairs (raw : String) : Except ConfigurationFault (Table String String) :=
  let ps := (Text.splitOn ',' raw.toList).foldl Pairs.add {}
  if ps.bad = [] then .ok ps.table else .error (.keyValues ps.bad.reverse)

def trueWords : List String := ["1", "t", "true", "yes"]

def falseWords : List String := ["0", "f", "false", "no", ""]

/-- The truth value of a variable. -/
def readTruth (name value : String) : Except ConfigurationFault Bool :=
  let word := Text.lower (Text.strip value)
  if word ∈ trueWords then .ok true
  else if word ∈ falseWords then .ok false
  else .error (.notTruthValue name value)

/-- The number of a variable. -/
def readNumber {α : Type} (read : String → Option α) (name value : String) : Except ConfigurationFault α :=
  match read value with
  | some x => .ok x
  | none => .error (.notNumber name value)

/-- The variables of an environment, as they come from outside. -/
abbrev Environment := Table String Text.Raw

instance : Coe (Table String String) Environment := ⟨Table.map Text.Raw.ofText⟩

namespace Environment

/-- The variables as they are shown. -/
def shown (env : Environment) : Table String String := env.map Text.Raw.shown

/-- The name of the cluster as it is encoded, or why it cannot be. -/
def clusterName (env : Environment) : Except Error String :=
  ((env.get? "K8S_CLUSTER_NAME").getD []).text.mapError fun strays => .mismatch (.unencodable strays)

end Environment

/-- The configuration that the variables of an environment ask for. -/
def ofEnvironment (env : Table String String) : Except ConfigurationFault Config := do
  let setting (name usual : String) : String := (env.get? name).getD usual
  let tags ← readPairs (setting "DEFAULT_TAGS" "")
  let restrictScheme ←
    readTruth "NLB_CONTROLLER_RESTRICT_SCHEME" (setting "NLB_CONTROLLER_RESTRICT_SCHEME" "false")
  let workers ←
    readNumber Text.readInteger "MAX_CONCURRENT_RECONCILES" (setting "MAX_CONCURRENT_RECONCILES" "1")
  let timeout ← readNumber Text.readFraction "RECONCILE_TIMEOUT" (setting "RECONCILE_TIMEOUT" "300")
  let resyncInterval ← readNumber Text.readFraction "RESYNC_INTERVAL" (setting "RESYNC_INTERVAL" "600")
  let webhook ← readTruth "ENABLE_WEBHOOK" (setting "ENABLE_WEBHOOK" "false")
  return {
    clusterName := .text (setting "K8S_CLUSTER_NAME" "")
    vpcId := .text (setting "AWS_VPC_ID" "")
    region := ((env.get? "AWS_DEFAULT_REGION").map .text).getD .null
    nameStem := .text (setting "NLB_NAME_PREFIX" "")
    domain := .text (setting "NLB_ANNOTATIONS_PREFIX" "nlb.service.kubernetes.io")
    serviceClass := .text (setting "NLB_SERVICE_CLASS" "nlb")
    targetType := .text (setting "NLB_TARGET_TYPE" "ip")
    backendProtocol := .text (setting "NLB_BACKEND_PROTOCOL" "TCP")
    tags := tags.toTextObject
    restrictScheme := .bool restrictScheme
    restrictSchemeNamespace := .text (setting "NLB_CONTROLLER_RESTRICT_SCHEME_CONFIG_NAMESPACE" "default")
    workers := .int workers
    timeout := .number (.fraction timeout)
    resyncInterval := .number (.fraction resyncInterval)
    webhook := .bool webhook }

/-- The validated configuration of an environment. -/
def load (env : Environment) : Except Error Config := do
  (← (ofEnvironment env.shown).mapError .configuration).validateWith env.clusterName

end Balancer.Config
