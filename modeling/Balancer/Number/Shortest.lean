import Balancer.Number.Binary64
import Balancer.Text.Quoted

/-!
# The shortest decimal text of a binary64 number

`Shortest.digits?` finds the fewest decimal digits that read back as a positive number, and of those the
nearest to it: for 1, 2, … 17 digits it tests the two neighbours of the number on that decimal grid against
the interval of reals that round to it. `Shortest.Style` says how a text is made of the digits,
`Shortest.text` makes it.
-/

namespace Balancer.Shortest

set_option autoImplicit false

open Binary64 (Parts)

/-- An interval of reals `lo / den … hi / den` around `value / den`, with its ends or without. -/
structure Interval where
  lo : Nat
  value : Nat
  hi : Nat
  den : Nat
  closed : Bool

/-- The reals that round to a positive number: up to halfway to its neighbours, the ends if
the significand is even. -/
def Interval.around (p : Parts) : Interval :=
  let scale := if p.exponent < 2 then 1 else Nat.pow 2 (p.exponent - 2).toNat
  let den := if p.exponent < 2 then Nat.pow 2 (2 - p.exponent).toNat else 1
  let m := p.significand
  let below := if m = Nat.pow 2 52 ∧ p.exponent ≠ -1074 then 1 else 2
  ⟨(4 * m - below) * scale, 4 * m * scale, (4 * m + 2) * scale, den, m % 2 = 0⟩

/-- Whether `num / den` lies in an interval. -/
def Interval.has (i : Interval) (num den : Nat) : Bool :=
  let x := num * i.den
  if i.closed then i.lo * den ≤ x && x ≤ i.hi * den else i.lo * den < x && x < i.hi * den

/-- The exponent `k` with `10 ^ (k - 1) ≤ num / den < 10 ^ k`. -/
def magnitude (num den : Nat) : Int :=
  if den ≤ num then ((Nat.toDigits 10 (num / den)).length : Int)
  else match (List.range 400).find? fun j => den ≤ num * Nat.pow 10 (j + 1) with
    | some j => -(j : Int)
    | none => -400

/-- The neighbours of a number on the grid of `10 ^ place`, the nearer first; the even
one of two equally near. -/
def neighbours (i : Interval) (place : Int) : List Nat :=
  let num := if place < 0 then i.value * Nat.pow 10 (-place).toNat else i.value
  let den := if place < 0 then i.den else i.den * Nat.pow 10 place.toNat
  let d := num / den
  match compare (2 * (num % den)) den with
  | .lt => [d, d + 1]
  | .gt => [d + 1, d]
  | .eq => if d % 2 = 0 then [d, d + 1] else [d + 1, d]

/-- A point of a decimal grid that lies in the interval, with its place. -/
def onGrid? (i : Interval) (place : Int) : Option (Nat × Int) :=
  let num (d : Nat) := if place < 0 then d else d * Nat.pow 10 place.toNat
  let den := if place < 0 then Nat.pow 10 (-place).toNat else 1
  ((neighbours i place).find? fun d => i.has (num d) den).map (·, place)

/-- The fewest digits `d` and the place `k` with `d · 10 ^ k` read back as the number. -/
def digits? (p : Parts) : Option (Nat × Int) :=
  let i := Interval.around p
  let k := magnitude i.value i.den
  (List.range 17).findSome? fun n => onGrid? i (k - (n + 1 : Nat))

/-- How a text is made of digits: from where on it has an exponent, and how wide that is at least. -/
structure Style where
  /-- The least and the greatest power of ten of the first digit that is written without an exponent. -/
  least : Int
  greatest : Int
  exponentWidth : Nat

/-- A number is written without an exponent from `0.0001` to below `10 ^ 16`; the exponent has two digits. -/
def style : Style := ⟨-4, 15, 2⟩

def zeros (n : Nat) : List Char := List.replicate n '0'

/-- The text of `digits · 10 ^ place`, whose digits do not end in zero. -/
def layOut (s : Style) (digits : List Char) (place : Int) : List Char :=
  let first := place + digits.length - 1
  if s.least ≤ first ∧ first ≤ s.greatest then
    if first < 0 then '0' :: '.' :: zeros (-first - 1).toNat ++ digits
    else
      let whole := first.toNat + 1
      if digits.length ≤ whole then digits ++ zeros (whole - digits.length) ++ ['.', '0']
      else digits.take whole ++ '.' :: digits.drop whole
  else
    let mantissa := match digits with
      | d :: [] => [d]
      | d :: ds => d :: '.' :: ds
      | [] => ['0']
    let e := Nat.toDigits 10 first.natAbs
    mantissa ++ 'e' :: (if first < 0 then '-' else '+') :: zeros (s.exponentWidth - e.length) ++ e

/-- A number of digits without the zeros at its end, which count for its place. -/
def trimZeros : List Char → Int → List Char × Int
  | ds, place =>
    let trimmed := (ds.reverse.dropWhile (· = '0')).reverse
    (trimmed, place + (ds.length - trimmed.length : Nat))

/-- The shortest text of a number that reads back as it. -/
def text (x : Float) : String :=
  match Binary64.parts? x with
  | none => if x.isNaN then "nan" else if x < 0 then "-inf" else "inf"
  | some p =>
    let body := match p.significand, digits? p with
      | 0, _ => ['0', '.', '0']
      | _, none => ['0', '.', '0']
      | _, some (d, place) => let (ds, place) := trimZeros (Nat.toDigits 10 d) place; layOut style ds place
    String.ofList (if p.negative then '-' :: body else body)

end Balancer.Shortest
