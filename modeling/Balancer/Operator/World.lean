import Balancer.Cloud.Context
import Balancer.Cloud.Fault
import Balancer.Cloud.Resources
import Balancer.Operator

/-!
# An operator and its surroundings

`World` is an operator together with a cloud in memory, a clock and whoever hears of its events and patches.
`World.within` runs a program in the context of one reconcile, `World.syncService` is what a worker does with
a key, and `World.work` lets a worker take keys from the queue.
-/

namespace Balancer

set_option autoImplicit false

structure World where
  operator : Operator
  memory : Memory := {}
  faults : List Fault := []
  clock : Clock := {}
  /-- Whether events cannot be posted. -/
  eventsFail : Bool := false
  events : List Event := []
  patches : List Patch := []

namespace World

/-- The context of a reconcile that starts now, and the clock after that. -/
def context (w : World) (key body : Value) : Except Error Context × Clock :=
  let (deadline, clock) := Context.deadlineOf w.operator.config.timeout w.clock
  (deadline.map fun deadline =>
    { key := key.shown, body, deadline, clock, stopped := w.operator.stopped, eventsFail := w.eventsFail },
    clock)

/-- A program run in the context of a reconcile of a key. -/
def within {α : Type} (w : World) (key body : Value) (p : Program α) : Except Error α × World :=
  match w.context key body with
  | (.error e, clock) => (.error e, { w with clock })
  | (.ok context, _) =>
    let (result, (faults, context), memory) :=
      p.run (Memory.cloud (Fault.gate Context.gate)) ((w.faults, context), w.memory)
    (result, { w with
      memory, faults
      clock := context.clock
      events := w.events ++ context.events
      patches := w.patches ++ context.patches })

/-- What a worker does with a key. -/
def syncService (w : World) (key : Value) : Except Error Unit × World :=
  let (result, w) := w.within key .null (Converge.syncOrWarn w.operator.inputs key)
  (result.map fun _ => (), w)

/-- Processing of keys by workers; it adds no keys itself. -/
def process : Handler World := fun key w =>
  let (result, w) := w.syncService key.toValue
  (([], result), w)

def withQueue (w : World) (queue : Queue) : World := { w with operator := { w.operator with queue } }

/-- One key taken from the queue; false if none is waiting. -/
def workOnce (w : World) : Except Error Bool × World :=
  let (result, queue, w) := w.operator.queue.workOnce process w
  (result, w.withQueue queue)

/-- At most `limit` keys taken from the queue, and how many there were. -/
def work (w : World) (limit : Nat) : Except Error Nat × World :=
  let (count, queue, w) := Queue.work process limit w.operator.queue w
  (count, w.withQueue queue)

/-- All waiting keys taken from a queue that is shut down. -/
def workOff (w : World) : Except Error Unit × World :=
  let (result, queue, w) := w.operator.queue.workOff process w
  (result, w.withQueue queue)

end World

end Balancer
