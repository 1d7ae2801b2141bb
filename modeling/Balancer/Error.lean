import Balancer.Text.CodePoint
import Balancer.Value

/-!
# Errors

`Error` is why an operation failed. Its causes fall into those that hold until a configuration or a Service
changes (`ConfigurationFault`), things that are missing for now (`Missing`, `notFound`), failures of the
cloud, interruptions, and data of an unexpected shape (`Mismatch`). `Error.message` is the wording,
`Error.isPermanent` tells which errors a retry cannot mend.
-/

namespace Balancer

set_option autoImplicit false

/-- An invalid setting, an invalid annotation, or a Service that cannot be served as declared. -/
inductive ConfigurationFault where
  | targetType (given : String)
  | backendProtocol (given : String)
  | noClusterName
  | noVpc
  | longNameStem (limit : Nat)
  | noWorkers
  | keyValues (parts : List String)
  | notTruthValue (setting given : String)
  | notNumber (setting given : String)
  | annotationValue (key given : String)
  | annotationChoice (name : String) (allowed : List String) (given : String)
  | actionText (name why : String)
  | actionShape (name : String)
  | actionType (type name : String)
  | actionTarget (name : String)
  | portProtocols (number : Int) (service : String) (protocols : List String)
  | portRepeats (number : Int) (service protocol : String)
  | nodePortsDiffer (port service : String)
  | notWhitelisted (namespace_ name : String)
  | subnetsUnresolved (requested resolved : List String)
  | scheme (given : String)
  | fewSubnets (clusterKey roleKey : String) (found : List Value)

def ConfigurationFault.message : ConfigurationFault → String
  | .targetType given => "Invalid default target type " ++ given ++ ". Must be instance or ip"
  | .backendProtocol given => "Invalid default backend protocol " ++ given ++ ". Must be TCP or UDP"
  | .noClusterName => "K8S_CLUSTER_NAME environment variable is required but not set"
  | .noVpc => "AWS_VPC_ID environment variable is required but not set"
  | .longNameStem limit => "NLB name prefix must be " ++ toString limit ++ " characters or less"
  | .noWorkers => "MAX_CONCURRENT_RECONCILES must be at least 1"
  | .keyValues parts => "unable to parse `" ++ ", ".intercalate parts ++ "` into Key=Value pair(s)"
  | .notTruthValue setting given =>
    setting ++ " environment variable must be either true or false. Value was: " ++ given
  | .notNumber setting given => setting ++ " environment variable must be a number. Value was: " ++ given
  | .annotationValue key given => "annotation " ++ key ++ " contains invalid value " ++ given
  | .annotationChoice name allowed given =>
    "annotation " ++ name ++ " must be one of " ++ ", ".intercalate allowed ++ ", got `" ++ given ++ "`"
  | .actionText name why => "action " ++ name ++ " is not valid JSON: " ++ why
  | .actionShape name => "action " ++ name ++ " must be a JSON object"
  | .actionType type name => "an invalid action type " ++ type ++ " was configured in " ++ name
  | .actionTarget name => name ++ " is type forward but did not include a valid TargetGroupArn configuration"
  | .portProtocols number service protocols =>
    "port " ++ Text.decimal number ++ " of service " ++ service ++ " uses unsupported protocol " ++
      ", ".intercalate protocols
  | .portRepeats number service protocol =>
    "port " ++ Text.decimal number ++ " of service " ++ service ++ " repeats protocol " ++ protocol
  | .nodePortsDiffer port service =>
    "TCP and UDP node ports of port " ++ port ++ " on service " ++ service ++ " differ"
  | .notWhitelisted ns name => "service " ++ ns ++ "/" ++ name ++ " is not in internetFacing whitelist"
  | .subnetsUnresolved requested resolved =>
    "not all subnets were resolvable, (" ++ ",".intercalate requested ++ " != " ++
      ",".intercalate resolved ++ ")"
  | .scheme given => "invalid scheme [" ++ given ++ "]"
  | .fewSubnets clusterKey roleKey found =>
    "retrieval of subnets failed to resolve 2 qualified subnets. Subnets must contain the " ++ clusterKey ++
      " tag with a value of shared or owned and the " ++ roleKey ++
        " tag, in at least 2 availability zones. " ++
      "Either tag subnets or use the subnets annotation. The subnets that did resolve were " ++
      (Value.list found).written

/-- Something that a Service refers to and that is not there, or not yet. -/
inductive Missing where
  | action (name : String)
  | servicePort (ref service : String)
  | nodePort (service port : String)
  | healthCheckPort (port service : String)
  | targetPort (target port service : String)
  | targetGroup (service port : String)
  deriving DecidableEq, Repr

/-- The port of a backend that is served by a declared action. -/
def actionPort : String := "use-annotation"

def Missing.message : Missing → String
  | .action name =>
    "backend with `servicePort: " ++ actionPort ++ "` was configured with `serviceName: " ++ name ++
      "` but an action annotation for " ++ name ++ " is not set"
  | .servicePort ref service => "unable to find port " ++ ref ++ " on service " ++ service
  | .nodePort service port => "failed to find valid NodePort for service " ++ service ++ " with port " ++ port
  | .healthCheckPort port service =>
    "failed to resolve healthcheck port " ++ port ++ " for service " ++ service
  | .targetPort target port service =>
    "failed to resolve target port " ++ target ++ " of healthcheck port " ++ port ++
      " for service " ++ service
  | .targetGroup service port => "unable to find target group for backend " ++ service ++ ":" ++ port

/-- Data of another shape than an operation needs. -/
inductive Mismatch where
  /-- A value of this kind does not know the operation. -/
  | operation (kind name : String)
  /-- A value of this kind has no fields or places. -/
  | fieldOf (kind : String)
  /-- A value of this kind has no elements. -/
  | elementsOf (kind : String)
  /-- Nothing can be a member of a value of this kind. -/
  | membersOf (kind : String)
  /-- A value of this kind cannot be a part of a text. -/
  | partOfText (kind : String)
  /-- A value of this kind has no length. -/
  | lengthOf (kind : String)
  /-- A value of this kind cannot be a key. -/
  | keyOf (kind : String)
  /-- No integer can be made of a value of this kind. -/
  | integerOf (kind : String)
  /-- A text does not stand for an integer. -/
  | integerText (given : String)
  /-- A text stands for an integer of too many digits. -/
  | longInteger (digits : Nat)
  /-- A fraction that is no number, or an infinite one, has no integer part. -/
  | integerOfNaN
  | integerOfInfinity
  /-- A document has to be a text. -/
  | document (kind : String)
  /-- A text was needed. -/
  | textFrom (kind : String)
  /-- A value of this kind cannot follow a text. -/
  | textBefore (kind : String)
  /-- A text from outside has surrogates that no encoding writes. -/
  | unencodable (strays : Text.Strays)
  /-- The value at a place of a list that is to be joined is no text. -/
  | textAt (place : Nat) (kind : String)
  /-- The value at a place of a list of pairs is none, or one of another length. -/
  | pairAt (place : Nat)
  | pairLength (place length : Nat)
  /-- No sum of two values of these kinds. -/
  | sum (left right : String)
  /-- Two values stand in no order. -/
  | order (left right : String)
  /-- A call without an argument that it needs, or with one that it does not know. -/
  | arguments (call : String)
  /-- The first element of an empty list, or of an empty text, was needed. -/
  | emptyList
  | emptyText
  /-- An integer is too large for a binary64 number. -/
  | largeInteger
  deriving DecidableEq, Repr

def Mismatch.message : Mismatch → String
  | .operation kind name => "'" ++ kind ++ "' object has no attribute '" ++ name ++ "'"
  | .fieldOf "list" => "list indices must be integers or slices, not str"
  | .fieldOf "str" => "string indices must be integers, not 'str'"
  | .fieldOf kind => "'" ++ kind ++ "' object is not subscriptable"
  | .elementsOf kind => "'" ++ kind ++ "' object is not iterable"
  | .membersOf kind => "argument of type '" ++ kind ++ "' is not iterable"
  | .partOfText kind => "'in <string>' requires string as left operand, not " ++ kind
  | .lengthOf kind => "object of type '" ++ kind ++ "' has no len()"
  | .keyOf kind => "unhashable type: '" ++ kind ++ "'"
  | .integerOf kind =>
    "int() argument must be a string, a bytes-like object or a real number, not '" ++ kind ++ "'"
  | .integerText given =>
    "invalid literal for int() with base 10: " ++ String.ofList ((Text.quoted given).toList.take 200)
  | .longInteger digits => Text.tooManyDigits digits
  | .integerOfNaN => "cannot convert float NaN to integer"
  | .integerOfInfinity => "cannot convert float infinity to integer"
  | .document kind => "the JSON object must be str, bytes or bytearray, not " ++ kind
  | .textFrom kind => "expected string or bytes-like object, got '" ++ kind ++ "'"
  | .textBefore kind => "can only concatenate str (not \"" ++ kind ++ "\") to str"
  | .unencodable ⟨place, first, 1⟩ =>
    "'utf-8' codec can't encode character '\\u" ++ String.ofList (Text.hex 4 first) ++ "' in position " ++
      toString place ++ ": surrogates not allowed"
  | .unencodable ⟨place, _, count⟩ =>
    "'utf-8' codec can't encode characters in position " ++ toString place ++ "-" ++
      toString (place + count - 1) ++ ": surrogates not allowed"
  | .textAt place kind =>
    "sequence item " ++ toString place ++ ": expected str instance, " ++ kind ++ " found"
  | .pairAt place =>
    "cannot convert dictionary update sequence element #" ++ toString place ++ " to a sequence"
  | .pairLength place length =>
    "dictionary update sequence element #" ++ toString place ++ " has length " ++
      toString length ++ "; 2 is required"
  | .sum left right => "unsupported operand type(s) for +: '" ++ left ++ "' and '" ++ right ++ "'"
  | .order left right => "'<' not supported between instances of '" ++ left ++ "' and '" ++ right ++ "'"
  | .arguments call => call ++ "() got unexpected or missing arguments"
  | .emptyList => "list index out of range"
  | .emptyText => "string index out of range"
  | .largeInteger => "int too large to convert to float"

/-- Why an operation failed. -/
inductive Error where
  | configuration (fault : ConfigurationFault)
  | missing (what : Missing)
  /-- No object of that key is in the store. -/
  | notFound (key : Value)
  /-- The cloud refused an operation with a code. -/
  | cloud (operation : String) (code text : Value)
  /-- The operator is stopping. -/
  | stopping (key : String)
  /-- The time for a reconcile is over. -/
  | deadline (key : String)
  /-- A field that has to be there is not. -/
  | noField (key : Value)
  | mismatch (what : Mismatch)
  /-- The certificate of the webhook, or its key, is not there. -/
  | noCertificate
  /-- The webhook server ended. -/
  | server (text : String)
  /-- The webhook server could not be started. -/
  | noServer
  /-- Any other failure, that lasts or that may pass. -/
  | failure (permanent : Bool) (text : String)
  deriving Inhabited

namespace Error

def message : Error → String
  | .configuration fault => fault.message
  | .missing what => what.message
  | .notFound key => "no object matching key " ++ key.written ++ " in local store"
  | .cloud operation code text => operation ++ " failed: " ++ code.shown ++ ": " ++ text.shown
  | .stopping key => "reconcile of " ++ key ++ " cancelled: operator is stopping"
  | .deadline key => "reconcile of " ++ key ++ " exceeded its deadline"
  | .noField key => key.written
  | .mismatch what => what.message
  | .noCertificate => "SSL certificate or key not found"
  | .server text => text
  | .noServer => "Failed to start webhook server"
  | .failure _ text => text

/-- Whether an error lasts until a configuration or an object changes, so that a retry is of no use. -/
def isPermanent : Error → Bool
  | .configuration _ | .noServer => true
  | .failure permanent _ => permanent
  | _ => false

end Error

end Balancer
