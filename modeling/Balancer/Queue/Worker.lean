import Balancer.Queue

/-!
# Workers

A worker takes a key from the queue, processes it, and gives it back: `workOnce`. A key that was processed is
forgotten, as is one whose error lasts; any other error counts as a failure, and the key is added again after
its delay. `work` does so again and again while keys are waiting.
-/

namespace Balancer

set_option autoImplicit false

/-- Processing of keys on a state: the keys that are added meanwhile, and whether it succeeded. -/
abbrev Handler (σ : Type) := Key → σ → (List Key × Except Error Unit) × σ

namespace Queue

variable {σ : Type}

/-- What becomes of a key that was processed, before its worker gives it back. -/
def settle (q : Queue) (k : Key) (result : Except Error Unit) : Except Error Unit × Queue :=
  match result with
  | .ok () => (.ok (), q.forget k)
  | .error e => if e.isPermanent then (.ok (), q.forget k) else q.addRateLimited k

/-- One key taken, processed and given back; false if no key is waiting. Null stands for no key: it is taken
and not given back. The only error is that of a delay out of range. -/
def workOnce (process : Handler σ) (q : Queue) (s : σ) : Except Error Bool × Queue × σ :=
  match q.get with
  | (none, q) | (some .null, q) => (.ok false, q, s)
  | (some k, q) =>
    let ((added, result), s) := process k s
    let (settled, q) := (q.addAll added).settle k result
    (settled.map fun _ => true, q.done k, s)

/-- At most `limit` keys taken, processed and given back while keys are waiting, and how many there were. -/
def work (process : Handler σ) : (limit : Nat) → Queue → σ → Except Error Nat × Queue × σ
  | 0, q, s => (.ok 0, q, s)
  | limit + 1, q, s =>
    match workOnce process q s with
    | (.ok false, q, s) => (.ok 0, q, s)
    | (.error e, q, s) => (.error e, q, s)
    | (.ok true, q, s) =>
      let (n, q, s) := work process limit q s
      (n.map (· + 1), q, s)

/-- All waiting keys taken, processed and given back. When the queue is shut down none come in
meanwhile, and the worker ends. -/
def workOff (process : Handler σ) (q : Queue) (s : σ) : Except Error Unit × Queue × σ :=
  let (n, q, s) := work process q.waiting.length q s
  (n.map fun _ => (), q, s)

end Queue

end Balancer
