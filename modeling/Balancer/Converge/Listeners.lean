import Balancer.Converge.TargetGroup

/-!
# Converging listeners

`buildActions` are the default actions of the listener of a backend, `normalize` what of described
actions counts in a comparison. `convergeListeners` creates, modifies and deletes listeners until a load
balancer has those of a Service.
-/

namespace Balancer.Converge

set_option autoImplicit false

open Cluster Routing

/-! ## Actions -/

/-- An action forwarding to a target group. -/
def forward (arn : Value) : Fields := [("Type", .text "forward"), ("TargetGroupArn", arn)]

/-- Actions with their order, from 1. -/
def numbered (actions : List Fields) : List Fields :=
  actions.zipIdx.map fun a => Entries.put "Order" (.int (a.2 + 1)) a.1

/-- The default actions of the listener of a backend: the declared action, or a
forward to its target group. -/
def buildActions (settings : ServiceSettings) (b : Backend) (groups : TargetGroups) :
    Except Error (List Fields) := do
  if Actions.isUsed b.port then return numbered [← settings.actions.find b.service]
  match groups.byBackend.get? (← b.key) with
  | none => throw (.missing (.targetGroup b.service.shown b.port.shown))
  | some group => return numbered [forward group.arn]

/-- The fields of an action that are compared. -/
def comparedFields : List String := ["Type", "TargetGroupArn", "Order"]

/-- The fields of an action that are compared, less those that are null. -/
def comparable (action : Value) : Except Error Fields := do
  let fields ← action.fieldsFor "get"
  return (comparedFields.map fun k => (k, Fields.get fields k)).filter fun f => !f.2.same .null

/-- The place of an action, 0 if it has none. -/
def order (action : Fields) : Value := Fields.getOr action "Order" (.int 0)

/-- What of described actions is compared, in order; of two actions at one place the first stays first. -/
def normalize (actions : Value) : Except Error (List Fields) := do
  sortBy (fun a b => (order a).before (order b)) (← (← actions.elementsIfAny).mapM comparable)

def sameActions (as bs : List Fields) : Bool := (Value.list (as.map .object)).same (.list (bs.map .object))

/-- Whether a described listener differs from a protocol or from actions. -/
def listenerDiffers (listener protocol actions : Value) : Except Error Bool := do
  if !(← listener.get "Protocol").same protocol then return true
  let current ← normalize (← listener.get "DefaultActions")
  return !sameActions current (← normalize actions)

/-! ## One listener -/

/-- The parameters of a listener, given how it is known. -/
def listenerParams (known : String × Value) (spec : ListenerSpec) (actions : List Fields) : Fields :=
  [known, ("Port", .int spec.port), ("Protocol", spec.protocol),
    ("DefaultActions", .list (actions.map .object))]

def createListener (lbArn : Value) (spec : ListenerSpec) (actions : List Fields) : Program Value := do
  let listener ← Program.answer (.createListener (listenerParams ("LoadBalancerArn", lbArn) spec actions))
  let arn ← listener.item "ListenerArn"
  Program.info "CREATE" ("listener on port " ++ Text.decimal spec.port ++ " created, ARN: " ++ arn.shown)
  return listener

def modifyListener (listener : Value) (spec : ListenerSpec) (actions : List Fields) : Program Value := do
  let arn ← listener.item "ListenerArn"
  let modified ← Program.answer (.modifyListener (listenerParams ("ListenerArn", arn) spec actions))
  Program.info "MODIFY" ("listener on port " ++ Text.decimal spec.port ++ " modified")
  return modified

/-- Creates the listener of a port, or modifies the described one where it differs. -/
def ensureListener (lbArn : Value) (current : Option Value) (spec : ListenerSpec) (actions : List Fields) :
    Program Value := do
  match current with
  | none => createListener lbArn spec actions
  | some listener =>
    if ← listenerDiffers listener spec.protocol (.list (actions.map .object)) then
      modifyListener listener spec actions
    else return listener

/-! ## The listeners of a load balancer -/

/-- Described listeners by port; of several on one port the last counts. -/
def byPort (described : List Value) : Except Error (Table Key Value) := do
  return .ofList (← described.mapM fun l => do return (← (← l.item "Port").key, l))

/-- The key of the port of a listener. -/
def portKey (spec : ListenerSpec) : Key := .number (.integer spec.port)

/-- Ensures listeners in turn. -/
def ensureListeners (lbArn : Value) (current : Table Key Value) :
    List (ListenerSpec × List Fields) → Program (List Value)
  | [] => return []
  | (spec, actions) :: rest => do
    let listener ← ensureListener lbArn (current.get? (portKey spec)) spec actions
    return listener :: (← ensureListeners lbArn current rest)

/-- Deletes listeners in turn. -/
def deleteListeners : List (Key × Value) → Program Unit
  | [] => return ()
  | (port, listener) :: rest => do
    let arn ← listener.item "ListenerArn"
    Program.answer (.deleteListener arn)
    Program.info "DELETE" ("listener on port " ++ port.toValue.shown ++ " deleted")
    deleteListeners rest

/-- The listeners on ports that no spec has, in order of their ports. -/
def stale (current : Table Key Value) (specs : List ListenerSpec) : Except Error (List (Key × Value)) :=
  sortBy (fun a b => a.1.before b.1) (current.entries.filter fun l => !specs.any fun s => l.1 == portKey s)

/-- Converges the listeners of a load balancer. All actions are built before any request, so that an invalid
action leaves the listeners alone. -/
def convergeListeners (lbArn service : Value) (settings : ServiceSettings) (groups : TargetGroups) :
    Program (List Value) := do
  let specs ← listenerSpecs service settings
  let actions ← (specs.mapM fun spec => buildActions settings spec.backend groups : Except Error
      (List (List Fields)))
  let current ← byPort (← Program.answer (.listeners lbArn))
  let listeners ← ensureListeners lbArn current (specs.zip actions)
  deleteListeners (← stale current specs)
  return listeners

/-- Deletes described listeners in turn. -/
def deleteEach : List Value → Program Unit
  | [] => return ()
  | listener :: rest => do
    let arn ← listener.item "ListenerArn"
    Program.answer (.deleteListener arn)
    deleteEach rest

/-- Deletes every listener of a load balancer. -/
def deleteAllListeners (lbArn : Value) : Program Unit := do deleteEach (← Program.answer (.listeners lbArn))

end Balancer.Converge
