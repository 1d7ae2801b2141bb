import Balancer.Text.Split
import Balancer.Value.Order

/-!
# Reading values

Partial reads of a value, each with the error of a value of another shape: `get`, `item` and `first` read a
part that may be missing and ones that may not, `elements` are the elements to go through, `has` tells what is
among them; `textFor`, `asText`, `integer`, `key` and `table` need a text, a number, something that can be a
key, or pairs of keys and values.
-/

namespace Balancer

set_option autoImplicit false

namespace Fields

/-- A field, null if it is missing. -/
def get (fs : Fields) (k : String) : Value := (Entries.find? k fs).getD .null

/-- A field that has to be there. -/
def item (fs : Fields) (k : String) : Except Error Value :=
  match Entries.find? k fs with
  | some v => .ok v
  | none => .error (.noField (.text k))

/-- A field, or the usual value if it is missing. -/
def getOr (fs : Fields) (k : String) (usual : Value) : Value := (Entries.find? k fs).getD usual

end Fields

namespace Value

/-! ## Parts -/

/-- The fields of an object. -/
def fields? : Value → Option Fields
  | .object fs => some fs
  | _ => none

/-- The fields of an object, for an operation that others do not know. -/
def fieldsFor (operation : String) : Value → Except Error Fields
  | .object fs => .ok fs
  | v => (Mismatch.operation v.kind operation).error

/-- The fields of an object to go through. -/
def entries (v : Value) : Except Error Fields := v.fieldsFor "items"

/-- A field of an object, null if it is missing. -/
def get (v : Value) (k : String) : Except Error Value := do return Fields.get (← v.fieldsFor "get") k

/-- A field of an object, or the usual value if it is missing. -/
def getOr (v : Value) (k : String) (usual : Value) : Except Error Value := do
  return Fields.getOr (← v.fieldsFor "get") k usual

/-- A field of an object that has to be there. -/
def item (v : Value) (k : String) : Except Error Value :=
  match v with
  | .object fs => Fields.item fs k
  | v => (Mismatch.fieldOf v.kind).error

/-- The first element of a list or a text, which has to have one. -/
def first : Value → Except Error Value
  | .list (v :: _) => .ok v
  | .list [] => Mismatch.emptyList.error
  | .text s =>
    match s.toList with
    | c :: _ => .ok (.text (String.singleton c))
    | [] => Mismatch.emptyText.error
  | .object _ => .error (.noField (.int 0))
  | v => (Mismatch.fieldOf v.kind).error

/-- The elements of a value: the items of a list, the names of an object's fields, the
characters of a text. -/
def elements : Value → Except Error (List Value)
  | .list items => .ok items
  | .object fs => .ok (fs.map fun f => .text f.1)
  | .text s => .ok (s.toList.map fun c => .text (String.singleton c))
  | v => (Mismatch.elementsOf v.kind).error

/-- The elements of a value; one that does not hold has none. -/
def elementsIfAny (v : Value) : Except Error (List Value) := if v.holds then v.elements else .ok []

/-- The number of elements. -/
def length : Value → Except Error Nat
  | .list items => .ok items.length
  | .object fs => .ok fs.length
  | .text s => .ok s.length
  | v => (Mismatch.lengthOf v.kind).error

/-! ## Texts -/

/-- A text, for an operation that others do not know. -/
def textFor (operation : String) : Value → Except Error String
  | .text s => .ok s
  | v => (Mismatch.operation v.kind operation).error

/-- A text in which something is to be replaced. -/
def asText : Value → Except Error String
  | .text s => .ok s
  | v => (Mismatch.textFrom v.kind).error

/-- A text that is to follow another one. -/
def asRest : Value → Except Error String
  | .text s => .ok s
  | v => (Mismatch.textBefore v.kind).error

/-- Whether a value is one of some words. -/
def isOneOf (words : List String) : Value → Bool
  | .text s => s ∈ words
  | _ => false

/-- Whether a text starts with another. -/
def startsWith (start : String) (v : Value) : Except Error Bool := do
  return Text.startsWith start (← v.textFor "startswith")

/-- Texts that are to be joined. -/
def textsAt : (place : Nat) → List Value → Except Error (List String)
  | _, [] => .ok []
  | place, .text s :: vs => do return s :: (← textsAt (place + 1) vs)
  | place, v :: _ => (Mismatch.textAt place v.kind).error

/-! ## Numbers -/

/-- The integer that a value stands for: a number without its fraction, or what a text says. -/
def integer : Value → Except Error Int
  | .number (.integer n) => .ok n
  | .number (.fraction x) =>
    match Binary64.truncate? x with
    | some n => .ok n
    | none => (if x.isNaN then Mismatch.integerOfNaN else Mismatch.integerOfInfinity).error
  | .bool b => .ok (if b then 1 else 0)
  | .text s =>
    match Text.readInteger s, Text.excessDigits? s with
    | some n, _ => .ok n
    | none, some digits => (Mismatch.longInteger digits).error
    | none, none => (Mismatch.integerText s).error
  | v => (Mismatch.integerOf v.kind).error

/-- The binary64 number that is to be added to a time. -/
def seconds (v : Value) : Except Error Float :=
  match v.number? with
  | none => (Mismatch.sum "float" v.kind).error
  | some n =>
    match n.toFloat? with
    | some x => .ok x
    | none => Mismatch.largeInteger.error

/-! ## Keys -/

/-- A value as a key. -/
def key : Value → Except Error Key
  | .null => .ok .null
  | .bool b => .ok (.bool b)
  | .number n => .ok (.number n)
  | .text s => .ok (.text s)
  | v => (Mismatch.keyOf v.kind).error

/-- Whether a value is among the names of an object, the items of a list or the parts of a text. -/
def has (v x : Value) : Except Error Bool :=
  match v, x with
  | .object fs, x => do
    match ← x.key with
    | .text s => return (Entries.find? s fs).isSome
    | _ => return false
  | .list items, x => .ok (items.any (·.alike x))
  | .text s, .text t => .ok (Text.isPart t s)
  | .text _, x => (Mismatch.partOfText x.kind).error
  | v, _ => (Mismatch.membersOf v.kind).error

/-- The key and the value of a pair at a place of a list. -/
def pairAt (place : Nat) (v : Value) : Except Error (Key × Value) :=
  match v.elements with
  | .error _ => (Mismatch.pairAt place).error
  | .ok [k, x] => do return (← k.key, x)
  | .ok items => (Mismatch.pairLength place items.length).error

/-- The table of an object's fields, or of a list of pairs. -/
def table : Value → Except Error (Table Key Value)
  | .object fs => .ok (.ofList (fs.map fun f => (.text f.1, f.2)))
  | v => do return .ofList (← (← v.elements).zipIdx.mapM fun e => pairAt e.2 e.1)

@[simp] theorem key_text (s : String) : key (.text s) = .ok (.text s) := rfl

@[simp] theorem textFor_text (operation s : String) : textFor operation (.text s) = .ok s := rfl

@[simp] theorem asText_text (s : String) : asText (.text s) = .ok s := rfl

end Value

/-- What belongs to a key, and the table without it. In an empty table nothing is looked for, so that
anything will do as a key. -/
def Table.take {β : Type} (t : Table Key β) (k : Value) : Except Error (Option β × Table Key β) :=
  if t.isEmpty then .ok (none, t) else do
    let k ← k.key
    return (t.get? k, t.erase k)

/-- A table without the entry of a key. -/
def Table.without {β : Type} (t : Table Key β) (k : Value) : Except Error (Table Key β) :=
  do return (← t.take k).2

/-- Texts as a list value. -/
def textList (ss : List String) : Value := .list (ss.map .text)

end Balancer
