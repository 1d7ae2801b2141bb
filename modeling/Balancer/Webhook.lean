import Balancer.Annotations.Service
import Balancer.Cluster.Object
import Balancer.Text.Blank
import Balancer.Text.Encoding
import Balancer.Value.Reader

/-!
# The admission webhook

`review` answers an admission review of a Service: it is denied if its annotations cannot be read, or if the
request itself cannot be. Deletions and Services of another class are always allowed. `jsonBody` is the JSON
value that the body of an HTTP request holds.
-/

namespace Balancer.Webhook

set_option autoImplicit false

open Cluster

/-- The answer to an admission review. -/
structure Review where
  /-- What the request calls itself. -/
  uid : Value
  /-- Why the request is denied; none if it is allowed. -/
  denial : Option String

/-- The message of an answer. -/
def Review.toValue (r : Review) : Value :=
  .object [("apiVersion", .text "admission.k8s.io/v1"), ("kind", .text "AdmissionReview"),
    ("response", .object ([("uid", r.uid), ("allowed", .bool r.denial.isNone)] ++
      r.denial.toList.map fun text => ("status", .object [("message", .text text)])))]

/-- Whether an operation is a deletion. -/
def isDeletion (operation : Value) : Except Error Bool := do
  return Text.upper (← operation.textFor "upper") == "DELETE"

/-- Whether a request is allowed whatever the annotations say. -/
def isExempt (c : Config) (request : Fields) : Except Error Bool := do
  let service := Fields.get request "object"
  if ← isDeletion (Fields.getOr request "operation" (.text "")) then return true
  if !service.holds then return true
  return !(← isOfClass c.serviceClass service)

/-- Whether a request is allowed. -/
def judge (c : Config) (request : Fields) : Except Error Unit := do
  if ← isExempt c request then return ()
  discard <| ServiceSettings.parse c (← annotations (Fields.get request "object"))

/-- Why a request is denied. -/
def denialOf : Error → String
  | .configuration fault => fault.message
  | e => "Error processing validation request: " ++ e.message

/-- The answer to a request that is an object. -/
def reviewRequest (c : Config) (request : Fields) : Review where
  uid := Fields.getOr request "uid" (.text "")
  denial := match judge c request with
    | .ok () => none
    | .error e => some (denialOf e)

/-- A denial of a request that has no name yet. -/
def deny (text : String) : Review := ⟨.text "", some text⟩

/-- The answer to the body of a request. -/
def review (c : Config) (body : Value) : Review :=
  if !body.holds then deny "No request body"
  else match body.get "request" with
    | .error e => deny (denialOf e)
    | .ok request =>
      if !request.holds then deny "No request data"
      else match request.fieldsFor "get" with
        | .error e => deny (denialOf e)
        | .ok fields => reviewRequest c fields

/-- The answer to the question whether the server is well. -/
def health : Value := .object [("status", .text "healthy")]

/-! ## Bodies -/

/-- The media type of a content type, without its parameters. -/
def mediaType (contentType : String) : String :=
  Text.lower (Text.strip (String.ofList (contentType.toList.takeWhile (· ≠ ';'))))

/-- Whether a media type is one of JSON. -/
def isJson (type : String) : Bool :=
  type == "application/json" ||
    Text.startsWith "application/" type && "+json".toList.isSuffixOf type.toList

/-- The JSON value of a body, null if it has none. -/
def jsonBody (contentType : Option String) (raw : ByteArray) : Value :=
  if !isJson (mediaType (contentType.getD "")) then .null
  else match Text.ofBytes? raw with
    | none => .null
    | some text =>
      match Value.read text with
      | .ok v => v
      | .error _ => .null

end Balancer.Webhook
