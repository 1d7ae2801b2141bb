import Balancer.Digest.Crc32
import Balancer.Value.Access

/-!
# Configuration

`Config` holds the settings of the controller as they were given. `Config.validate` checks them and fills in
the name stem; it accepts what it returns and changes nothing in it. The name of a cluster has to be encoded
for its stem, which `Config.validateWith` leaves to who knows the name as it came from outside.
-/

namespace Balancer

set_option autoImplicit false

/-- The settings of the controller. Delays are in seconds. -/
structure Config where
  clusterName : Value := .text ""
  vpcId : Value := .text ""
  region : Value := .null
  /-- What the names of load balancers and target groups start with. -/
  nameStem : Value := .text ""
  /-- What the keys of annotations start with, before a slash. -/
  domain : Value := .text "nlb.service.kubernetes.io"
  serviceClass : Value := .text "nlb"
  targetType : Value := .text "ip"
  backendProtocol : Value := .text "TCP"
  tags : Value := .object []
  restrictScheme : Value := .bool false
  restrictSchemeNamespace : Value := .text "default"
  /-- The names of the Services of each namespace that may face the internet. -/
  internetFacing : Value := .object []
  workers : Value := .int 1
  timeout : Value := .int 300
  resyncInterval : Value := .int 600
  webhook : Value := .bool false

namespace Config

def targetTypes : List String := ["instance", "ip"]

def backendProtocols : List String := ["TCP", "UDP"]

/-- The most characters of a name stem. -/
def maxStemLength : Nat := 12

/-- The name stem of a cluster that has none set: the checksum of the cluster's name. -/
def stemOf (clusterName : String) : String := Digest.crc32Hex clusterName

/-- The older word `pod` stands for the target type `ip`. -/
def currentTargetType (type : Value) : Value := if type.same (.text "pod") then .text "ip" else type

/-- A name stem, or the one of a cluster in place of none. The name of the cluster is given as it is
encoded, or why it cannot be. -/
def stemOr (stem : Value) (clusterName : Except Error String) : Except Error Value := do
  if stem.holds then return stem else return .text (stemOf (← clusterName))

/-- The configuration with its derived settings, or what is wrong with it, given the name of the cluster as it
is encoded, or why it cannot be. -/
def validateWith (c : Config) (clusterName : Except Error String) : Except Error Config := do
  let targetType := currentTargetType c.targetType
  if !targetType.isOneOf targetTypes then throw (.configuration (.targetType targetType.shown))
  if !c.backendProtocol.isOneOf backendProtocols then
    throw (.configuration (.backendProtocol c.backendProtocol.shown))
  if !c.clusterName.holds then throw (.configuration .noClusterName)
  if !c.vpcId.holds then throw (.configuration .noVpc)
  if maxStemLength < (← c.nameStem.length) then throw (.configuration (.longNameStem maxStemLength))
  let nameStem ← stemOr c.nameStem clusterName
  if ← c.workers.before (.int 1) then throw (.configuration .noWorkers)
  return { c with targetType, nameStem }

/-- The configuration with its derived settings, or what is wrong with it. -/
def validate (c : Config) : Except Error Config := c.validateWith (c.clusterName.textFor "encode")

end Config

end Balancer
