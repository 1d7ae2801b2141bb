import Balancer.Text.Blank
import Balancer.Text.Digit

/-!
# Decimal integers

`readInteger` reads an integer from a text: white space around it, an optional sign, then decimal digits of
any script with single underscores between them. `maxDigits` bounds their number, and `excessDigits?` tells
when they are more. `digitGroup?` is the part about digits and underscores, which decimal fractions share.
-/

namespace Balancer.Text

set_option autoImplicit false

/-- The most digits that an integer may be read from. -/
def maxDigits : Nat := 4300

/-- The values of the digits in a text of digits with single underscores between them. -/
def digitGroup? : List Char → Option (List Nat)
  | [] => none
  | c :: cs =>
    match decimalDigit? c, cs with
    | none, _ => none
    | some d, [] => some [d]
    | some d, '_' :: rest => (digitGroup? rest).map (d :: ·)
    | some d, c' :: rest => (digitGroup? (c' :: rest)).map (d :: ·)

/-- The number that a row of decimal digits stands for. -/
def digitsValue (ds : List Nat) : Nat := ds.foldl (fun n d => 10 * n + d) 0

/-- A sign and what follows it; no sign is plus. -/
def splitSign : List Char → Bool × List Char
  | '-' :: cs => (true, cs)
  | '+' :: cs => (false, cs)
  | cs => (false, cs)

def signed (negative : Bool) (n : Nat) : Int := if negative then -(n : Int) else n

/-- The integer that a text stands for. -/
def readInteger (s : String) : Option Int :=
  let (negative, body) := splitSign (stripOf isNumberBlank s.toList)
  match digitGroup? body with
  | none => none
  | some ds => if maxDigits < ds.length then none else some (signed negative (digitsValue ds))

/-- The number of digits that a text starts with, if these are more than an integer may be read from. -/
def excessDigits? (s : String) : Option Nat :=
  let body := (splitSign (stripOf isNumberBlank s.toList)).2
  ((digitGroup? (body.takeWhile fun c => (decimalDigit? c).isSome || c = '_')).map List.length).filter
    (maxDigits < ·)

/-- That a text has too many digits for an integer. -/
def tooManyDigits (digits : Nat) : String :=
  "Exceeds the limit (" ++ toString maxDigits ++ " digits) for integer string conversion: value has " ++
    toString digits ++ " digits; use sys.set_int_max_str_digits() to increase the limit"

/-- The decimal text of an integer. -/
def decimal (n : Int) : String :=
  match n with
  | .ofNat n => String.ofList (Nat.toDigits 10 n)
  | .negSucc n => String.ofList ('-' :: Nat.toDigits 10 (n + 1))

end Balancer.Text
