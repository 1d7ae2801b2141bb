import Balancer.Key
import Balancer.Table

/-!
# Values

`Value` is the data of cluster objects, cloud descriptions and annotated actions: null, truth values,
numbers, texts, lists and objects. `same` compares by value: numbers of both kinds and truth values as
numbers, objects without regard to the order of their fields. `alike` is the same but for what is no number,
which is alike itself; so compare the parts of values. `holds` is the truth of a value: null, zero and
whatever is empty are false.
-/

namespace Balancer

set_option autoImplicit false

inductive Value where
  | null
  | bool (b : Bool)
  | number (n : Number)
  | text (s : String)
  | list (items : List Value)
  | object (fields : List (String × Value))
  deriving Inhabited

/-- The fields of an object. -/
abbrev Fields := List (String × Value)

/-- A key as a value. -/
def Key.toValue : Key → Value
  | .null => .null
  | .bool b => .bool b
  | .number n => .number n
  | .text s => .text s

namespace Value

/-- An integer. -/
abbrev int (n : Int) : Value := .number (.integer n)

/-- A truth value as a number. -/
def bit (b : Bool) : Number := .integer (if b then 1 else 0)

mutual
/-- Whether two values are equal, or both no numbers. -/
def alike : Value → Value → Bool
  | .null, .null => true
  | .bool a, .bool b => a == b
  | .bool a, .number n => Number.alike (bit a) n
  | .number m, .bool b => Number.alike m (bit b)
  | .number m, .number n => Number.alike m n
  | .text a, .text b => a == b
  | .list as, .list bs => alikeItems as bs
  | .object fs, .object gs => fs.length == gs.length && alikeFields fs gs
  | _, _ => false
  termination_by structural v => v
def alikeItems : List Value → List Value → Bool
  | [], [] => true
  | a :: as, b :: bs => alike a b && alikeItems as bs
  | _, _ => false
  termination_by structural vs => vs
def alikeFields : Fields → Fields → Bool
  | [], _ => true
  | f :: fs, gs => alikeField f gs && alikeFields fs gs
  termination_by structural fs => fs
def alikeField : String × Value → Fields → Bool
  | (k, v), gs =>
    match Entries.find? k gs with
    | some w => alike v w
    | none => false
  termination_by structural f => f
end

/-- Whether a value equals itself: all do but what is no number. -/
def isDefinite : Value → Bool
  | .number n => n.isNumber
  | _ => true

/-- Whether two values are equal. -/
def same (a b : Value) : Bool := a.isDefinite && a.alike b

/-- The truth of a value. -/
def holds : Value → Bool
  | .null => false
  | .bool b => b
  | .number n => !n.isZero
  | .text s => !s.isEmpty
  | .list items => !items.isEmpty
  | .object fields => !fields.isEmpty

/-- A value, or another in place of one that does not hold. -/
def orElse (v other : Value) : Value := if v.holds then v else other

/-- The word for the kind of a value. -/
def kind : Value → String
  | .null => "NoneType"
  | .bool _ => "bool"
  | .number (.integer _) => "int"
  | .number (.fraction _) => "float"
  | .text _ => "str"
  | .list _ => "list"
  | .object _ => "dict"

mutual
/-- The text of a value as a part of a larger one: texts are quoted. -/
def written : Value → String
  | .null => "None"
  | .bool b => if b then "True" else "False"
  | .number n => n.text
  | .text s => Text.quoted s
  | .list items => "[" ++ ", ".intercalate (writtenItems items) ++ "]"
  | .object fields => "\x7b" ++ ", ".intercalate (writtenFields fields) ++ "\x7d"
  termination_by structural v => v
def writtenItems : List Value → List String
  | [] => []
  | v :: vs => written v :: writtenItems vs
  termination_by structural vs => vs
def writtenFields : Fields → List String
  | [] => []
  | f :: fs => writtenField f :: writtenFields fs
  termination_by structural fs => fs
def writtenField : String × Value → String
  | (k, v) => Text.quoted k ++ ": " ++ written v
  termination_by structural f => f
end

/-- The text of a value in a sentence: a text stands as it is. -/
def shown : Value → String
  | .text s => s
  | v => v.written

@[simp] theorem shown_text (s : String) : shown (.text s) = s := rfl

@[simp] theorem same_text (a b : String) : same (.text a) (.text b) = (a == b) := by
    simp [same, isDefinite, alike]

@[simp] theorem same_int (m n : Int) : same (.int m) (.int n) = decide (m = n) := by
  simp [same, isDefinite, alike, Number.isNumber, Number.alike, Number.reduced]

@[simp] theorem same_null_left (v : Value) : same .null v = true ↔ v = .null := by
  cases v <;> simp [same, isDefinite, alike]

@[simp] theorem same_text_iff (v : Value) (s : String) : same v (.text s) = true ↔ v = .text s := by
  cases v <;> simp [same, isDefinite, alike]

end Value

/-- The object of a table's entries, each under the text of its key. -/
def Table.toValue (t : Table Key Value) : Value := .object (t.entries.map fun e => (e.1.toValue.shown, e.2))

/-- The object of a table of values. -/
def Table.toObject (t : Table String Value) : Value := .object t.entries

/-- The object of a table of texts. -/
def Table.toTextObject (t : Table String String) : Value := .object (t.entries.map fun e => (e.1, .text e.2))

end Balancer
