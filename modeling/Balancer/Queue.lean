import Balancer.Number.Binary64
import Balancer.Table
import Balancer.Value.Access

/-!
# The work queue

`Queue` hands out keys to workers. A key waits at most once and is not handed out while a worker has it: a key
that is added in the meantime is `dirty` and waits again when the worker is `done`. A key whose work failed is
added again after a delay that doubles with each failure (`delayAfter?`), up to a greatest delay.

`contains_mark`, `contains_unmark` and `distinct_mark` say what the two marks of a key are.
-/

namespace Balancer

set_option autoImplicit false

/-- A key that is to be added after a delay. -/
structure Timer where
  key : Key
  delay : Float

instance : BEq Timer := ⟨fun a b => a.key == b.key && decide (a.delay = b.delay)⟩

/-- Delays are in seconds. -/
structure Queue where
  baseDelay : Float := 1
  maxDelay : Float := 300
  /-- The keys to be handed out, the next one first. -/
  waiting : List Key := []
  /-- The keys that were added and not handed out since. -/
  dirty : List Key := []
  /-- The keys that workers have. -/
  processing : List Key := []
  /-- The number of failures of each key since it was last forgotten. -/
  failures : Table Key Nat := ∅
  /-- The pending timers, in the order in which they were started. -/
  timers : List Timer := []
  shuttingDown : Bool := false

namespace Queue

/-! ## Marks -/

/-- Marked keys with one more. -/
def mark (k : Key) (ks : List Key) : List Key := if ks.contains k then ks else ks ++ [k]

/-- Marked keys with one less. -/
def unmark (k : Key) (ks : List Key) : List Key := ks.filter fun k' => !(k' == k)

/-- No two marked keys are equal. -/
def Distinct (ks : List Key) : Prop := ks.Pairwise fun a b => (a == b) = false

theorem contains_mark (k k' : Key) (ks : List Key) :
    (mark k ks).contains k' = (k' == k || ks.contains k') := by
  unfold mark
  split
  · rename_i h
    by_cases hk : k' == k
    · rw [List.contains_congr hk, h, hk]
      rfl
    · simp [hk]
  · simp [Bool.or_comm]

theorem contains_unmark (k k' : Key) (ks : List Key) :
    (unmark k ks).contains k' = (!(k' == k) && ks.contains k') := by
  induction ks with
  | nil => simp [unmark]
  | cons a ks ih =>
    unfold unmark at ih ⊢
    rw [List.filter_cons]
    by_cases ha : k' == a
    · rw [BEq.congr_left ha] at ih ⊢
      by_cases hk : a == k <;> simp [hk, ha, ih]
    · by_cases hk : a == k <;> simp [hk, ha, ih]

theorem distinct_mark {k : Key} {ks : List Key} (h : Distinct ks) : Distinct (mark k ks) := by
  unfold mark
  split
  · exact h
  · rename_i hk
    refine List.pairwise_append.2 ⟨h, by simp, fun a ha b hb => ?_⟩
    rw [List.mem_singleton.1 hb, Bool.eq_false_iff]
    exact fun hab => hk (List.contains_iff_exists_mem_beq.2 ⟨a, ha, BEq.symm hab⟩)

theorem distinct_unmark {k : Key} {ks : List Key} (h : Distinct ks) : Distinct (unmark k ks) := h.filter _

/-! ## Adding keys -/

/-- A key that nobody waits for and no worker has waits at the end. -/
def add (q : Queue) (k : Key) : Queue :=
  if q.shuttingDown || q.dirty.contains k then q
  else if q.processing.contains k then { q with dirty := mark k q.dirty }
  else { q with dirty := mark k q.dirty, waiting := q.waiting ++ [k] }

/-- Keys added in turn. -/
def addAll (q : Queue) (ks : List Key) : Queue := ks.foldl add q

/-- A key added after a delay, at once if there is none. -/
def addAfter (q : Queue) (k : Key) (delay : Float) : Queue :=
  if delay ≤ 0 then q.add k
  else if q.shuttingDown then q
  else { q with timers := q.timers ++ [⟨k, delay⟩] }

/-- The end of one timer: it is pending no more, and its key is added. A timer that ends late, when it is no
longer pending, adds its key all the same. -/
def fire (q : Queue) (t : Timer) : Queue := { q with timers := q.timers.erase t }.add t.key

/-- The pending timers in the order in which they end. -/
def ending (q : Queue) : List Timer := q.timers.mergeSort fun a b => decide (a.delay ≤ b.delay)

/-- The end of all pending timers. -/
def fireAll (q : Queue) : Queue := q.ending.foldl fire q

/-! ## Failures -/

/-- The number of failures of a key. -/
def requeues (q : Queue) (k : Key) : Nat := (q.failures.get? k).getD 0

/-- The delay that follows `n + 1` failures; none if the doubling goes out of range. -/
def delayAfter? (q : Queue) (n : Nat) : Option Float :=
  (Binary64.twoPow? n).map fun factor =>
    if q.baseDelay * factor < q.maxDelay then q.baseDelay * factor else q.maxDelay

/-- One more failure of a key, and the delay before the key is tried again. The failure counts even if
there is no such delay. -/
def fail (q : Queue) (k : Key) : Except Error Float × Queue :=
  let delay := match q.delayAfter? (q.requeues k) with
    | some d => .ok d
    | none => Mismatch.largeInteger.error
  (delay, { q with failures := q.failures.insert k (q.requeues k + 1) })

/-- A key that failed, added after its delay. -/
def addRateLimited (q : Queue) (k : Key) : Except Error Unit × Queue :=
  match q.fail k with
  | (.ok delay, q) => (.ok (), q.addAfter k delay)
  | (.error e, q) => (.error e, q)

/-- The failures of a key count no more. -/
def forget (q : Queue) (k : Key) : Queue := { q with failures := q.failures.erase k }

/-! ## Handing out -/

/-- The next key, which its worker then has; none if no key is waiting. -/
def get (q : Queue) : Option Key × Queue :=
  match q.waiting with
  | [] => (none, q)
  | k :: ks =>
    (some k, { q with waiting := ks, processing := mark k q.processing, dirty := unmark k q.dirty })

/-- The worker of a key has it no more; if it was added in the meantime, it waits again. -/
def done (q : Queue) (k : Key) : Queue :=
  let q := { q with processing := unmark k q.processing }
  if q.dirty.contains k then { q with waiting := q.waiting ++ [k] } else q

/-- No key can be added any more, and no timer is pending. -/
def shutDown (q : Queue) : Queue := { q with shuttingDown := true, timers := [] }

end Queue

end Balancer
