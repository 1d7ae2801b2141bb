import Balancer.Value.Access
import Balancer.Value.Reader

/-!
# Annotated actions

An annotation may declare a static action, in JSON notation, to which a port of a Service then routes.
`Actions.parse` reads the declared actions, `Actions.find` is a valid action by name.
-/

namespace Balancer

set_option autoImplicit false

/-- The declared actions of a Service, by name. -/
abbrev Actions := Table String Fields

namespace Actions

/-- The action that an annotation declares. -/
def parseOne (name : String) (raw : Value) : Except Error Fields :=
  match raw with
  | .text s =>
    match Value.read s with
    | .ok (.object fields) => .ok fields
    | .ok _ => .error (.configuration (.actionShape name))
    | .error e => .error (.configuration (.actionText name (e.message s)))
  | v => (Mismatch.document v.kind).error

/-- The actions that annotations declare. -/
def parse (raw : Fields) : Except Error Actions := do
  let actions ← raw.mapM fun e => do return (e.1, ← parseOne e.1 e.2)
  return .ofList actions

/-- Whether the port of a backend asks for a declared action. -/
def isUsed (servicePort : Value) : Bool := servicePort.same (.text actionPort)

/-- The declared action of a name, whatever it is. -/
def declared? (actions : Actions) (name : Value) : Except Error (Option Fields) := do
  match ← name.key with
  | .text s => return actions.get? s
  | _ => return none

/-- The types of action that a listener can take. -/
def supportedTypes : List String := ["forward"]

/-- Whether a value is one of the supported types. -/
def isSupported (type : Value) : Bool := supportedTypes.any fun t => type.same (.text t)

/-- A declared action, which has to be a forward to a target group. -/
def find (actions : Actions) (name : Value) : Except Error Fields := do
  match ← actions.declared? name with
  | none => throw (.missing (.action name.shown))
  | some action =>
    let type := Fields.get action "Type"
    if !isSupported type then throw (.configuration (.actionType type.shown name.shown))
    else if !(Fields.get action "TargetGroupArn").holds then throw (.configuration (.actionTarget name.shown))
    else return action

end Actions

end Balancer
