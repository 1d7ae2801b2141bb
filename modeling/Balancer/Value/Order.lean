import Balancer.Error

/-!
# The order of values

`Value.before` tells whether a value stands before another: texts by code point, numbers and truth values by
value, lists by their first elements that differ. Other values stand in no order. `sortBy` sorts by a
comparison that may fail: of elements at one place the first stays first, and the error is that of the first
element that cannot be compared with those in front of it.
-/

namespace Balancer

set_option autoImplicit false

def Mismatch.error {α : Type} (m : Mismatch) : Except Error α := .error (.mismatch m)

/-! ## Sorting -/

section

variable {α : Type} (before : α → α → Except Error Bool)

/-- A row, its last element first, with one more element behind those that it does not stand before. -/
def placeIn (x : α) : List α → Except Error (List α)
  | [] => .ok [x]
  | y :: ys => do
    if ← before x y then return y :: (← placeIn x ys) else return x :: y :: ys

/-- A list in the order of a comparison. -/
def sortBy (xs : List α) : Except Error (List α) := do
  return (← xs.foldlM (fun row x => placeIn before x row) []).reverse

end

/-! ## Values -/

namespace Value

/-- The number that a value is, a truth value counting as one. -/
def number? : Value → Option Number
  | .number n => some n
  | .bool b => some (bit b)
  | _ => none

mutual
/-- Whether a value stands before another. -/
def before : Value → Value → Except Error Bool
  | .text s, .text t => .ok (decide (s < t))
  | .list as, .list bs => beforeItems as bs
  | a, b =>
    match a.number?, b.number? with
    | some m, some n => .ok (Number.compare? m n == some .lt)
    | _, _ => (Mismatch.order a.kind b.kind).error
  termination_by structural v => v
def beforeItems : List Value → List Value → Except Error Bool
  | [], bs => .ok !bs.isEmpty
  | _ :: _, [] => .ok false
  | a :: as, b :: bs => if alike a b then beforeItems as bs else before a b
  termination_by structural vs => vs
end

/-- Values in order. -/
def sorted (vs : List Value) : Except Error (List Value) := sortBy before vs

end Value

/-- Whether a key stands before another. -/
def Key.before (a b : Key) : Except Error Bool := a.toValue.before b.toValue

end Balancer
