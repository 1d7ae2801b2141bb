import Balancer.Value

/-!
# Values as text

`Value.compact` writes a value in JSON notation without white space. Numbers that are not
finite are written as words.
-/

namespace Balancer.Value

set_option autoImplicit false

/-- A character between double quotes. -/
def jsonEscaped (c : Char) : List Char :=
  if c = '"' then ['\\', '"']
  else if c = '\\' then ['\\', '\\']
  else if c < ' ' then '\\' :: 'u' :: Text.hex 4 c.toNat
  else [c]

def jsonQuoted (s : String) : String := String.ofList ('"' :: s.toList.flatMap jsonEscaped ++ ['"'])

def jsonNumber : Number → String
  | .integer n => Text.decimal n
  | .fraction x => if x.isNaN then "NaN" else if x.isInf then
    (if x < 0 then "-Infinity" else "Infinity") else Shortest.text x

mutual
def compact : Value → String
  | .null => "null"
  | .bool b => if b then "true" else "false"
  | .number n => jsonNumber n
  | .text s => jsonQuoted s
  | .list items => "[" ++ ",".intercalate (compactItems items) ++ "]"
  | .object fields => "\x7b" ++ ",".intercalate (compactFields fields) ++ "\x7d"
  termination_by structural v => v
def compactItems : List Value → List String
  | [] => []
  | v :: vs => compact v :: compactItems vs
  termination_by structural vs => vs
def compactFields : Fields → List String
  | [] => []
  | f :: fs => compactField f :: compactFields fs
  termination_by structural fs => fs
def compactField : String × Value → String
  | (k, v) => jsonQuoted k ++ ":" ++ compact v
  termination_by structural f => f
end

end Balancer.Value
