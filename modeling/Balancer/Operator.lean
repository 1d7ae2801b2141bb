import Balancer.Cluster.Trigger
import Balancer.Converge.Service
import Balancer.Queue.Worker

/-!
# The operator

`Operator` ties the store of cluster objects to the work queue. An event changes the store first and then
queues the keys of the Services that it concerns (`observe`, `observeConfigMap`); `resync` queues all of them,
and `stop` shuts the queue down.
-/

namespace Balancer

set_option autoImplicit false

structure Operator where
  config : Config
  identity : Identity
  store : Store := {}
  queue : Queue := {}
  /-- Whether the status of Services can be published. -/
  publishes : Bool := true
  stopped : Bool := false

namespace Operator

def ofConfig (c : Config) : Except Error Operator :=
  do return { config := c, identity := ← Identity.ofConfig c }

/-- What a reconcile reads. -/
def inputs (o : Operator) : Inputs := ⟨o.config, o.identity, o.store, o.publishes⟩

/-- Keys queued in turn, up to one that is no key. A queue that is shut down takes none and looks at none. -/
def queueAll (q : Queue) : List Value → Except Error Unit × Queue
  | [] => (.ok (), q)
  | v :: vs =>
    if q.shuttingDown then (.ok (), q)
    else match v.key with
      | .ok k => queueAll (q.add k) vs
      | .error e => (.error e, q)

/-- Keys queued, if there is no error in finding them. -/
def enqueue (o : Operator) (keys : Except Error (List Value)) : Except Error Unit × Operator :=
  match keys with
  | .ok keys => ((queueAll o.queue keys).1, { o with queue := (queueAll o.queue keys).2 })
  | .error e => (.error e, o)

/-- The keys of the Services that an event concerns, after the store was changed. -/
def concernedKeys (o : Operator) (kind : ObjectKind) (type : EventType) (old : Option Value) (new : Value) :
    Except Error (List Value) :=
  match kind with
  | .service => Trigger.serviceKeys o.config.serviceClass type old new
  | .endpoints => Trigger.endpointsKeys o.config.serviceClass o.store type old new
  | .node => Trigger.nodeKeys o.config.serviceClass o.store type old new
  | .pod => .ok []

/-- The object that an event replaces in the store, and the store after it. -/
def record (o : Operator) (kind : ObjectKind) (type : EventType) (obj : Value) :
    Except Error (Option Value × Store) :=
  if type = .deleted then o.store.delete kind obj else o.store.upsert kind obj

/-- An event on an object that the store holds. -/
def observe (o : Operator) (kind : ObjectKind) (type : EventType) (obj : Value) :
    Except Error Unit × Operator :=
  match o.record kind type obj with
  | .error e => (.error e, o)
  | .ok (old, store) =>
    let o := { o with store }
    o.enqueue (o.concernedKeys kind type old obj)

/-- An event on a config map. -/
def observeConfigMap (o : Operator) (type : EventType) (obj : Value) : Except Error Unit × Operator :=
  let (config, keys) := Trigger.configMapKeys o.config o.store type obj
  { o with config }.enqueue keys

/-- Every Service of the class queued, a number of times. -/
def resync (o : Operator) : (rounds : Nat) → Except Error Unit × Operator
  | 0 => (.ok (), o)
  | rounds + 1 =>
    match o.enqueue (Trigger.qualifyingKeys o.config.serviceClass o.store) with
    | (.error e, o) => (.error e, o)
    | (.ok (), o) => resync o rounds

/-- No key is queued any more, and running reconciles end before their next request. -/
def stop (o : Operator) : Operator := { o with stopped := true, queue := o.queue.shutDown }

end Operator

end Balancer
