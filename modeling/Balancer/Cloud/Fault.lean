import Balancer.Cloud.Program

/-!
# Faults

A `Fault` makes a cloud refuse requests of one method, a number of times and after letting some pass.
`Fault.gate` puts faults in front of another gate.
-/

namespace Balancer

set_option autoImplicit false

structure Fault where
  method : String
  code : Value
  text : Value
  /-- How many requests still pass. -/
  skip : Nat := 0
  /-- How many requests are refused after them. -/
  times : Nat := 1

namespace Fault

/-- Whether faults let a request pass, and what is left of them. They are asked in order; the first that
refuses the request is the last that hears of it. -/
def allow (r : Request) : List Fault → Except Error Unit × List Fault
  | [] => (.ok (), [])
  | f :: fs =>
    if f.method = r.method ∧ f.skip = 0 ∧ 0 < f.times then
      (.error (.cloud f.method f.code f.text), { f with times := f.times - 1 } :: fs)
    else
      let (admitted, fs) := allow r fs
      (admitted, (if f.method = r.method then { f with skip := f.skip - 1 } else f) :: fs)

/-- Faults in front of a gate. -/
def gate {γ : Type} (g : Gate γ) : Gate (List Fault × γ) where
  allow r s :=
    match allow r s.1 with
    | (.error e, fs) => (.error e, (fs, s.2))
    | (.ok (), fs) =>
      let (admitted, c) := g.allow r s.2
      (admitted, (fs, c))
  hear n s := (s.1, g.hear n s.2)

end Fault

end Balancer
