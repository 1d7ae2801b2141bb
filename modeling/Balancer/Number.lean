import Balancer.Number.Shortest
import Balancer.Number.Fraction

/-!
# Numbers

`Number` is an integer of any size or a binary64 number. Both kinds compare by value: `1` and `1.0` are the
same, since they have one `reduced` form. What is no number is `alike` itself, but `same` as nothing.
-/

namespace Balancer

set_option autoImplicit false

inductive Number where
  | integer (n : Int)
  | fraction (x : Float)
  deriving DecidableEq

namespace Number

/-- How two numbers stand to each other by value. -/
def compare? : Number → Number → Option Ordering
  | .integer m, .integer n => some (compare m n)
  | .fraction x, .integer n => Binary64.compareInt? x n
  | .integer m, .fraction y => (Binary64.compareInt? y m).map Ordering.swap
  | .fraction x, .fraction y => Binary64.compare? x y

/-- Whether this is a number at all. -/
def isNumber : Number → Bool
  | .integer _ => true
  | .fraction x => !x.isNaN

/-- The form that all numbers of one value share: the integer if the value is whole. -/
def reduced : Number → Number
  | .integer n => .integer n
  | .fraction x =>
    if x.isNaN then .fraction Binary64.notANumber
    else match Binary64.whole? x with
      | some n => .integer n
      | none => .fraction x

/-- Whether two numbers have one value, or are both no numbers. -/
def alike (a b : Number) : Bool := a.reduced = b.reduced

/-- Whether two numbers have one value. -/
def same (a b : Number) : Bool := a.isNumber && alike a b

def isZero (a : Number) : Bool := same a (.integer 0)

/-- The binary64 number nearest to a number; none if it is an integer out of range. -/
def toFloat? : Number → Option Float
  | .integer n => Binary64.ofInt? n
  | .fraction x => some x

/-- The decimal text of a number. -/
def text : Number → String
  | .integer n => Text.decimal n
  | .fraction x => Shortest.text x

end Number

end Balancer
