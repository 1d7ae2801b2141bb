import Balancer.Number.Binary64
import Balancer.Text.Integer
import Balancer.Text.Split

/-!
# Decimal fractions

`readFraction` reads a binary64 number from a text: white space around it, an optional sign, then decimal
digits with a point and an exponent, or a word for infinity or for what is no number. Digits may be of any
script and may have single underscores between them.
-/

namespace Balancer.Text

set_option autoImplicit false

/-- The digits of a group that may be missing. -/
def digitsOrNone? : List Char → Option (List Nat)
  | [] => some []
  | cs => digitGroup? cs

/-- The value of an exponent: an optional sign and digits. -/
def exponent? (cs : List Char) : Option Int :=
  let (negative, body) := splitSign cs
  (digitGroup? body).map fun ds => signed negative (digitsValue ds)

/-- A text up to the first character of a class, and what follows that character if there is one. -/
def cutAt (stops : Char → Bool) (cs : List Char) : List Char × Option (List Char) :=
  match cs.dropWhile (fun c => !stops c) with
  | [] => (cs, none)
  | _ :: rest => (cs.takeWhile (fun c => !stops c), some rest)

/-- The magnitude of an unsigned decimal fraction. -/
def magnitude? (cs : List Char) : Option Float := do
  let (mantissa, power) := cutAt (fun c => c = 'e' || c = 'E') cs
  let (whole, fraction) := cutAt (· = '.') mantissa
  let w ← digitsOrNone? whole
  let f ← digitsOrNone? (fraction.getD [])
  guard (w ++ f ≠ [])
  let e ← match power with
    | none => some 0
    | some p => exponent? p
  return Binary64.ofDecimal (w ++ f) (e - f.length)

/-- The number that a text stands for. -/
def readFraction (s : String) : Option Float :=
  let (negative, body) := splitSign (stripOf isNumberBlank s.toList)
  let word := body.map Char.toLower
  let magnitude :=
    if word = "inf".toList ∨ word = "infinity".toList then some Binary64.infinity
    else if word = "nan".toList then some Binary64.notANumber
    else magnitude? body
  magnitude.map fun x => if negative then -x else x

end Balancer.Text
