import Balancer.Table
import Balancer.Text.Encoding
import Balancer.Value

/-!
# Values from text

`Value.read` reads the JSON notation of a value, with `NaN` and infinities as numbers. Every step of the
reader returns the rest of the text with a proof that it is shorter. A `ReadError` says what was expected and
how much text was left there, from which `ReadError.message` finds line and column.
-/

namespace Balancer

set_option autoImplicit false

/-- What does not fit at a place of a text. -/
inductive ReadFault where
  | value
  | fieldName
  | colon
  | comma
  | extraData
  | controlCharacter
  | badEscape
  | badCodeUnit
  | unterminated
  | byteOrderMark
  deriving DecidableEq, Repr

def ReadFault.message : ReadFault → String
  | .value => "Expecting value"
  | .fieldName => "Expecting property name enclosed in double quotes"
  | .colon => "Expecting ':' delimiter"
  | .comma => "Expecting ',' delimiter"
  | .extraData => "Extra data"
  | .controlCharacter => "Invalid control character at"
  | .badEscape => "Invalid \\escape"
  | .badCodeUnit => "Invalid \\uXXXX escape"
  | .unterminated => "Unterminated string starting at"
  | .byteOrderMark => "Unexpected UTF-8 BOM (decode using utf-8-sig)"

inductive ReadError where
  /-- A fault at the place where so many characters are left. -/
  | fault (what : ReadFault) (left : Nat)
  /-- An integer of too many digits. -/
  | tooManyDigits (count : Nat)
  deriving DecidableEq, Repr

/-- The line and the column, from 1, of the place after the given text. -/
def lineAndColumn (before : List Char) : Nat × Nat :=
  (before.count '\n' + 1, (before.reverse.takeWhile (· ≠ '\n')).length + 1)

/-- What is wrong with a text, and where. -/
def ReadError.message (text : String) : ReadError → String
  | .fault what left =>
    let place := text.length - left
    let (line, column) := lineAndColumn (text.toList.take place)
    what.message ++ ": line " ++ toString line ++ " column " ++ toString column ++
      " (char " ++ toString place ++ ")"
  | .tooManyDigits count => Text.tooManyDigits count

namespace Reader

/-- What is left of a text after a part of it that is not empty. -/
abbrev Rest (s : List Char) := { r : List Char // r.length < s.length }

abbrev Result (α : Type) (s : List Char) := Except ReadError (α × Rest s)

def isSpace (c : Char) : Bool := c = ' ' || c = '\t' || c = '\n' || c = '\r'

def skip (s : List Char) : List Char := s.dropWhile isSpace

theorem length_skip_le (s : List Char) : (skip s).length ≤ s.length := (List.dropWhile_sublist _).length_le

def fail {α : Type} (what : ReadFault) (s : List Char) : Except ReadError α := .error (.fault what s.length)

/-! ## Texts -/

def hexValue? (c : Char) : Option Nat :=
  if '0' ≤ c ∧ c ≤ '9' then some (c.toNat - 48)
  else if 'a' ≤ c ∧ c ≤ 'f' then some (c.toNat - 87)
  else if 'A' ≤ c ∧ c ≤ 'F' then some (c.toNat - 55)
  else none

/-- The code unit in the first four characters, if more text follows them. -/
def codeUnit? : List Char → Option Nat
  | a :: b :: c :: d :: _ :: _ => do
    return 4096 * (← hexValue? a) + 256 * (← hexValue? b) + 16 * (← hexValue? c) + (← hexValue? d)
  | _ => none

/-- The second half of a pair of code units. -/
inductive Partner where
  | unit (u : Nat)
  | malformed (at_ : List Char)
  | missing

/-- The code unit that follows a first half at the start of a text. -/
def partner : List Char → Partner
  | '\\' :: 'u' :: r =>
    if r.length < 5 then .missing
    else match codeUnit? r with
      | some u => .unit u
      | none => .malformed ('u' :: r)
  | _ => .missing

def simpleEscape? : Char → Option Char
  | '"' => some '"'
  | '\\' => some '\\'
  | '/' => some '/'
  | 'b' => some '\x08'
  | 'f' => some '\x0c'
  | 'n' => some '\n'
  | 'r' => some '\r'
  | 't' => some '\t'
  | _ => none

/-- The characters up to the closing quote. `start` is the text from the opening quote on. -/
def readText (start : List Char) (s : List Char) : Result (List Char) s :=
  match s with
  | [] => fail .unterminated start
  | '"' :: r => .ok ([], ⟨r, by simp⟩)
  | '\\' :: [] => fail .unterminated start
  | '\\' :: 'u' :: r =>
    match codeUnit? r with
    | none => fail .badCodeUnit ('u' :: r)
    | some u =>
      have h4 : (r.drop 4).length ≤ r.length := by simp
      have h10 : ((r.drop 4).drop 6).length ≤ r.length := by simp only [List.length_drop]; omega
      match if Text.isHighSurrogate u then partner (r.drop 4) else .missing with
      | .malformed r' => fail .badCodeUnit r'
      | .unit v =>
        if Text.isLowSurrogate v then do
          let (cs, ⟨rest, h⟩) ← readText start ((r.drop 4).drop 6)
          return (Text.pairChar u v :: cs,
            ⟨rest, by simp only [List.length_cons]; omega⟩)
        else do
          let (cs, ⟨rest, h⟩) ← readText start (r.drop 4)
          return (Text.unitChar u :: cs, ⟨rest, by simp only [List.length_cons]; omega⟩)
      | .missing => do
        let (cs, ⟨rest, h⟩) ← readText start (r.drop 4)
        return (Text.unitChar u :: cs, ⟨rest, by simp only [List.length_cons]; omega⟩)
  | '\\' :: c :: r =>
    match simpleEscape? c with
    | none => fail .badEscape ('\\' :: c :: r)
    | some d => do
      let (cs, ⟨rest, h⟩) ← readText start r
      return (d :: cs, ⟨rest, by simp only [List.length_cons]; omega⟩)
  | c :: r =>
    if c < ' ' then fail .controlCharacter (c :: r)
    else do
      let (cs, ⟨rest, h⟩) ← readText start r
      return (c :: cs, ⟨rest, by simp only [List.length_cons]; omega⟩)
termination_by s.length
decreasing_by all_goals (simp only [List.length_cons]; omega)

/-! ## Numbers and words -/

def isAsciiDigit (c : Char) : Bool := '0' ≤ c && c ≤ '9'

/-- A number as written: its sign, the digits before and after the point, and the exponent with its sign. -/
structure NumberToken where
  negative : Bool
  whole : List Char
  fraction : List Char
  power : List Char

/-- The number that a text starts with, read as far as it is well-formed. -/
def numberToken? (s : List Char) : Option NumberToken :=
  let (negative, body) := match s with
    | '-' :: r => (true, r)
    | r => (false, r)
  let whole := match body with
    | '0' :: _ => ['0']
    | _ => body.takeWhile isAsciiDigit
  if whole = [] then none
  else
    let rest := body.drop whole.length
    let fraction := match rest with
      | '.' :: r => r.takeWhile isAsciiDigit
      | _ => []
    let rest := if fraction = [] then rest else rest.drop (1 + fraction.length)
    let power := match rest with
      | e :: r =>
        let sign := match r with
          | '+' :: _ => ['+']
          | '-' :: _ => ['-']
          | _ => []
        let digits := (r.drop sign.length).takeWhile isAsciiDigit
        if (e = 'e' ∨ e = 'E') ∧ digits ≠ [] then sign ++ digits else []
      | [] => []
    some ⟨negative, whole, fraction, power⟩

/-- How many characters a number takes. -/
def NumberToken.size (t : NumberToken) : Nat :=
  t.negative.toNat + t.whole.length + (if t.fraction = [] then 0 else 1 + t.fraction.length) +
    (if t.power = [] then 0 else 1 + t.power.length)

def asciiDigits (cs : List Char) : List Nat := cs.map fun c => c.toNat - 48

/-- The number that a token stands for: an integer if it has neither point nor exponent. -/
def NumberToken.value (t : NumberToken) : Except ReadError Number :=
  if t.fraction = [] ∧ t.power = [] then
    if Text.maxDigits < t.whole.length then .error (.tooManyDigits t.whole.length)
    else .ok (.integer (Text.signed t.negative (Text.digitsValue (asciiDigits t.whole))))
  else
    let (negativePower, digits) := Text.splitSign t.power
    let exponent := Text.signed negativePower (Text.digitsValue (asciiDigits digits))
    let x := Binary64.ofDecimal (asciiDigits (t.whole ++ t.fraction)) (exponent - t.fraction.length)
    .ok (.fraction (if t.negative then -x else x))

/-- The words that stand for values. -/
def words : List (String × Value) :=
  [("null", .null), ("true", .bool true), ("false", .bool false),
    ("NaN", .number (.fraction Binary64.notANumber)),
    ("Infinity", .number (.fraction Binary64.infinity)),
    ("-Infinity", .number (.fraction (-Binary64.infinity)))]

/-- The word that a text starts with, and its value. -/
def word? (s : List Char) : Option (String × Value) := words.find? fun w => w.1.toList.isPrefixOf s

/-- What is left of a text that is not empty after its first `n + 1` characters. -/
def restAfter (c : Char) (r : List Char) (n : Nat) : Rest (c :: r) :=
  ⟨r.drop n, by simp only [List.length_drop, List.length_cons]; omega⟩

/-- The word or the number that a text starts with. -/
def readPlain (c : Char) (r : List Char) : Result Value (c :: r) :=
  match word? (c :: r) with
  | some (w, v) => .ok (v, restAfter c r (w.length - 1))
  | none =>
    match numberToken? (c :: r) with
    | none => fail .value (c :: r)
    | some t => t.value.map fun n => (.number n, restAfter c r (t.size - 1))

/-! ## Values -/

mutual
def readValue (s : List Char) : Result Value s :=
  match s with
  | [] => fail .value []
  | '"' :: r => do
    let (cs, ⟨rest, h⟩) ← readText ('"' :: r) r
    return (.text (String.ofList cs), ⟨rest, by simp only [List.length_cons]; omega⟩)
  | '[' :: r =>
    have hr := length_skip_le r
    match hs : skip r with
    | ']' :: rest => .ok (.list [], ⟨rest, by simp only [hs, List.length_cons] at hr ⊢; omega⟩)
    | _ => do
      let (vs, ⟨rest, h⟩) ← readItems (skip r)
      return (.list vs, ⟨rest, by simp only [List.length_cons]; omega⟩)
  | '\x7b' :: r =>
    have hr := length_skip_le r
    match hs : skip r with
    | '\x7d' :: rest => .ok (.object [], ⟨rest, by simp only [hs, List.length_cons] at hr ⊢; omega⟩)
    | _ => do
      let (fs, ⟨rest, h⟩) ← readFields (skip r)
      return (.object (Entries.collect fs), ⟨rest, by simp only [List.length_cons]; omega⟩)
  | c :: r => readPlain c r
termination_by (s.length, 0)
decreasing_by all_goals (simp only [List.length_cons]; omega)
/-- The items of a list up to its closing bracket. -/
def readItems (s : List Char) : Result (List Value) s := do
  let (v, ⟨r, h⟩) ← readValue s
  have hr := length_skip_le r
  match hs : skip r with
  | ']' :: rest => return ([v], ⟨rest, by simp only [hs, List.length_cons] at hr; omega⟩)
  | ',' :: r' =>
    have hr' := length_skip_le r'
    have : r'.length < s.length := by simp only [hs, List.length_cons] at hr; omega
    let (vs, ⟨rest, h⟩) ← readItems (skip r')
    return (v :: vs, ⟨rest, by omega⟩)
  | other => fail .comma other
termination_by (s.length, 1)
decreasing_by all_goals omega
/-- The fields of an object up to its closing brace. -/
def readFields (s : List Char) : Result Fields s :=
  match s with
  | '"' :: r => do
    let (cs, ⟨r1, h1⟩) ← readText ('"' :: r) r
    have hr1 := length_skip_le r1
    match hs1 : skip r1 with
    | ':' :: r2 =>
      have hr2 := length_skip_le r2
      have hlt2 : r2.length < r.length := by simp only [hs1, List.length_cons] at hr1; omega
      let (v, ⟨r3, h3⟩) ← readValue (skip r2)
      have hr3 := length_skip_le r3
      match hs3 : skip r3 with
      | '\x7d' :: rest =>
        return ([(String.ofList cs, v)], ⟨rest, by simp only [hs3, List.length_cons] at hr3 ⊢; omega⟩)
      | ',' :: r4 =>
        have hr4 := length_skip_le r4
        have hlt4 : r4.length < r.length := by simp only [hs3, List.length_cons] at hr3; omega
        let (fs, ⟨rest, h⟩) ← readFields (skip r4)
        return ((String.ofList cs, v) :: fs, ⟨rest, by simp only [List.length_cons]; omega⟩)
      | other => fail .comma other
    | other => fail .colon other
  | other => fail .fieldName other
termination_by (s.length, 1)
decreasing_by all_goals (simp only [List.length_cons]; omega)
end

end Reader

/-- The value that a text stands for. -/
def Value.read (text : String) : Except ReadError Value :=
  let cs := text.toList
  if cs.head? = some '\uFEFF' then Reader.fail .byteOrderMark cs
  else do
    let (v, ⟨rest, _⟩) ← Reader.readValue (Reader.skip cs)
    match Reader.skip rest with
    | [] => return v
    | extra => Reader.fail .extraData extra

end Balancer
