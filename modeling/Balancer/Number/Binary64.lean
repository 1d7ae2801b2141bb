/-!
# Binary64 numbers, exactly

`Binary64.parts?` takes a finite number apart into a sign, a significand and a power of two;
`Binary64.truncate?`, `Binary64.whole?` and `Binary64.compareInt?` are exact integer arithmetic on these.
`Binary64.ofDecimal` is the nearest number to a decimal fraction.
-/

namespace Balancer.Binary64

set_option autoImplicit false

/-- A finite number `±significand · 2 ^ exponent`. -/
structure Parts where
  negative : Bool
  significand : Nat
  exponent : Int
  deriving DecidableEq, Repr

/-- The parts of a finite number; none of an infinity or of what is no number. -/
def parts? (x : Float) : Option Parts :=
  let bits := x.toBits.toNat
  let negative := bits / Nat.pow 2 63 == 1
  let biased : Nat := bits / Nat.pow 2 52 % Nat.pow 2 11
  let fraction : Nat := bits % Nat.pow 2 52
  if biased = 2047 then none
  else if biased = 0 then some ⟨negative, fraction, -1074⟩
  else some ⟨negative, Nat.pow 2 52 + fraction, (biased : Int) - 1075⟩

/-- The integer that is left when the fraction is cut off. -/
def Parts.truncate (p : Parts) : Int :=
  let n :=
    if p.exponent < 0 then p.significand / Nat.pow 2 (-p.exponent).toNat
    else p.significand * Nat.pow 2 p.exponent.toNat
  if p.negative then -(n : Int) else n

/-- The integer that is left of a finite number when its fraction is cut off. -/
def truncate? (x : Float) : Option Int := (parts? x).map Parts.truncate

/-- How `±significand · 2 ^ exponent` stands to an integer. -/
def Parts.compareInt (p : Parts) (n : Int) : Ordering :=
  let m : Int := if p.negative then -(p.significand : Int) else p.significand
  if p.exponent < 0 then compare m (n * Int.pow 2 (-p.exponent).toNat)
  else compare (m * Int.pow 2 p.exponent.toNat) n

/-- How a number stands to an integer; what is no number stands in no order. -/
def compareInt? (x : Float) (n : Int) : Option Ordering :=
  match parts? x with
  | some p => some (p.compareInt n)
  | none => if x.isNaN then none else if x < 0 then some .lt else some .gt

/-- The integer that a number is, if it is whole. -/
def whole? (x : Float) : Option Int :=
  (parts? x).bind fun p => if p.compareInt p.truncate = .eq then some p.truncate else none

/-- How two numbers stand to each other. -/
def compare? (x y : Float) : Option Ordering :=
  if x < y then some .lt else if y < x then some .gt else if x == y then some .eq else none

def infinity : Float := Float.ofBits 0x7FF0000000000000

def notANumber : Float := Float.ofBits 0x7FF8000000000000

/-- The number `2 ^ k`; none if it is out of range. -/
def twoPow? (k : Nat) : Option Float :=
  if k < 1024 then some (Float.ofBits (UInt64.ofNat ((k + 1023) * Nat.pow 2 52))) else none

/-- The number nearest to `digits · 10 ^ exponent`. Beyond these bounds every such
fraction is infinite or zero. -/
def ofDecimal (digits : List Nat) (exponent : Int) : Float :=
  let significant := digits.dropWhile (· = 0)
  let m := significant.foldl (fun n d => 10 * n + d) 0
  if significant = [] then 0
  else if 400 < (significant.length : Int) + exponent then infinity
  else if (significant.length : Int) + exponent < -400 then 0
  else if exponent < 0 then Float.ofScientific m true (-exponent).toNat
  else Float.ofScientific m false exponent.toNat

/-- The number nearest to an integer; none if that is out of range. -/
def ofInt? (n : Int) : Option Float :=
  let x := ofDecimal ((Nat.toDigits 10 n.natAbs).map fun c => c.toNat - 48) 0
  if x == infinity then none else some (if n < 0 then -x else x)

end Balancer.Binary64
