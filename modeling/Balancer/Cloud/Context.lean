import Balancer.Cloud.Program

/-!
# The context of a reconcile

A `Context` bounds a reconcile in time and carries the object that its events are about. `Context.check`
refuses any further request when the operator is stopping or the deadline has passed; `Context.gate` puts it
between a program and its cloud and records what the program tells.
-/

namespace Balancer

set_option autoImplicit false

/-- A clock that goes on by a tick with each reading. -/
structure Clock where
  now : Float := 0
  tick : Float := 0

/-- The time, and the clock after the reading. -/
def Clock.read (c : Clock) : Float × Clock := (c.now, { c with now := c.now + c.tick })

structure Event where
  isWarning : Bool
  reason : Value
  text : Value

/-- A status sent to the cluster: the host name of a Service's load balancer. -/
structure Patch where
  ns : Value
  name : Value
  host : Value

structure Context where
  key : String
  body : Value := .null
  deadline : Option Float := none
  stopped : Bool := false
  clock : Clock := {}
  /-- Whether events cannot be posted. -/
  eventsFail : Bool := false
  events : List Event := []
  patches : List Patch := []

namespace Context

/-- The deadline of a reconcile that starts now, and the clock after it was read; none without a timeout. -/
def deadlineOf (timeout : Value) (clock : Clock) : Except Error (Option Float) × Clock :=
  if timeout.holds then
    let (now, clock) := clock.read
    (timeout.seconds.map fun d => some (now + d), clock)
  else (.ok none, clock)

/-- Whether a reconcile may go on. -/
def check (c : Context) : Except Error Unit × Context :=
  if c.stopped then (.error (.stopping c.key), c)
  else match c.deadline with
    | none => (.ok (), c)
    | some d =>
      let (now, clock) := c.clock.read
      (if d < now then .error (.deadline c.key) else .ok (), { c with clock })

/-- An event is recorded if there is an object that it is about and events can be posted. -/
def hear (n : Notice) (c : Context) : Context :=
  match n with
  | .subject body => { c with body }
  | .event isWarning reason text =>
    if c.body.holds && !c.eventsFail then { c with events := c.events ++ [⟨isWarning, reason, text⟩] } else c
  | .status ns name host => { c with patches := c.patches ++ [⟨ns, name, host⟩] }

def gate : Gate Context where
  allow _ c := c.check
  hear := hear

end Context

end Balancer
