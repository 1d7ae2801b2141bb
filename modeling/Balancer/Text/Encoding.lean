/-!
# Encodings

A text that comes as bytes without a word on its encoding begins with two ASCII characters, so the zeros among
its first bytes tell the encoding: `Encoding.ofBytes`. `Encoding.decode?` are the characters that bytes stand
for. `ofUnits` joins the pairs of 16-bit code units, and `unitChar` stands for a unit that has no partner.
-/

namespace Balancer.Text

set_option autoImplicit false

/-! ## Code units -/

def isHighSurrogate (u : Nat) : Bool := 0xD800 ≤ u && u ≤ 0xDBFF

def isLowSurrogate (u : Nat) : Bool := 0xDC00 ≤ u && u ≤ 0xDFFF

/-- The character of a code unit; a surrogate that stands alone is no character. -/
def unitChar (u : Nat) : Char := if isHighSurrogate u || isLowSurrogate u then '\uFFFD' else Char.ofNat u

/-- The character of a pair of surrogates. -/
def pairChar (high low : Nat) : Char := Char.ofNat (0x10000 + (high - 0xD800) * 0x400 + (low - 0xDC00))

/-- The characters of 16-bit code units, given the unit before them if it waits for a partner. -/
def ofUnits : (waiting : Option Nat) → List Nat → List Char
  | none, [] => []
  | some high, [] => [unitChar high]
  | none, u :: us => if isHighSurrogate u then ofUnits (some u) us else unitChar u :: ofUnits none us
  | some high, u :: us =>
    if isLowSurrogate u then pairChar high u :: ofUnits none us
    else if isHighSurrogate u then unitChar high :: ofUnits (some u) us
    else unitChar high :: unitChar u :: ofUnits none us

/-- The character of a 32-bit code unit. -/
def wideChar? (u : Nat) : Option Char := if u < 0x110000 then some (unitChar u) else none

/-! ## Bytes -/

/-- The numbers that groups of two bytes stand for, the greater byte first or last. -/
def pairsOfBytes (greatFirst : Bool) : List UInt8 → Option (List Nat)
  | [] => some []
  | a :: b :: rest => do
    let n := if greatFirst then 256 * a.toNat + b.toNat else a.toNat + 256 * b.toNat
    return n :: (← pairsOfBytes greatFirst rest)
  | _ => none

/-- The numbers that pairs of numbers stand for, the greater one first or last. -/
def pairsOfUnits (greatFirst : Bool) : List Nat → Option (List Nat)
  | [] => some []
  | a :: b :: rest => do
    let n := if greatFirst then 0x10000 * a + b else a + 0x10000 * b
    return n :: (← pairsOfUnits greatFirst rest)
  | _ => none

/-- How the characters of a text are written in bytes: in UTF-8, or in units of two or four bytes. -/
inductive Encoding where
  | utf8
  | utf16 (greatFirst : Bool)
  | utf32 (greatFirst : Bool)
  deriving DecidableEq, Repr

namespace Encoding

/-- The encoding of a text that begins with two ASCII characters, or is a single one. -/
def ofBytes : List UInt8 → Encoding
  | [a, b] => if a = 0 then .utf16 true else if b = 0 then .utf16 false else .utf8
  | a :: b :: c :: d :: _ =>
    if a = 0 then (if b = 0 then .utf32 true else .utf16 true)
    else if b = 0 then (if c = 0 ∧ d = 0 then .utf32 false else .utf16 false)
    else .utf8
  | _ => .utf8

/-- The characters that bytes stand for. A byte order mark in front of UTF-8 is none of them. -/
def decode? (bytes : ByteArray) : Encoding → Option (List Char)
  | .utf8 => do
    match (← String.fromUTF8? bytes).toList with
    | '\uFEFF' :: cs => return cs
    | cs => return cs
  | .utf16 greatFirst => ofUnits none <$> pairsOfBytes greatFirst bytes.toList
  | .utf32 greatFirst => do
    (← pairsOfUnits greatFirst (← pairsOfBytes greatFirst bytes.toList)).mapM wideChar?

end Encoding

/-- The text that bytes stand for. -/
def ofBytes? (bytes : ByteArray) : Option String :=
  String.ofList <$> (Encoding.ofBytes bytes.toList).decode? bytes

end Balancer.Text
