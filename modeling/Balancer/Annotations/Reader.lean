import Balancer.Value.Access
import Balancer.Text.Blank

/-!
# Reading annotations

Typed reads of the annotations of an object, under the domain that their keys start with. An annotation that
is missing or null reads as nothing; one that is malformed is a configuration error.
-/

namespace Balancer.Annotations

set_option autoImplicit false

/-- The key of an annotation in a domain. -/
def key (domain name : String) : String := domain ++ "/" ++ name

/-- The value of an annotation, null if it is missing. -/
def raw (domain name : String) (annotations : Value) : Except Error Value :=
  (annotations.orElse (.object [])).get (key domain name)

/-- The error of an annotation whose value cannot be read. -/
def invalid {α : Type} (domain name : String) (v : Value) : Except Error α :=
  .error (.configuration (.annotationValue (key domain name) v.shown))

/-- Whether an integer cannot be read because of what is given, and not because of its kind. -/
def isUnreadable : Mismatch → Bool
  | .integerText _ | .longInteger _ | .integerOfNaN => true
  | _ => false

/-- The integer of an annotation. -/
def integer? (domain name : String) (annotations : Value) : Except Error (Option Int) := do
  match ← raw domain name annotations with
  | .null => return none
  | v =>
    match v.integer with
    | .ok n => return some n
    | .error (.mismatch m) => if isUnreadable m then invalid domain name v else m.error
    | .error e => throw e

def trueWords : List String := ["1", "t", "true"]

def falseWords : List String := ["0", "f", "false"]

/-- The truth value of an annotation. -/
def truth? (domain name : String) (annotations : Value) : Except Error (Option Bool) := do
  match ← raw domain name annotations with
  | .null => return none
  | v =>
    let word := Text.lower (← v.textFor "lower")
    if word ∈ trueWords then return some true
    else if word ∈ falseWords then return some false
    else invalid domain name v

/-- The parts of a comma-separated list, without white space around them and without the blank ones. -/
def parts (s : String) : List String := ((Text.pieces ',' s).map Text.strip).filter (· ≠ "")

/-- The parts of an annotation that is a comma-separated list. -/
def slice (domain name : String) (annotations : Value) : Except Error (List String) := do
  match ← raw domain name annotations with
  | .null => return []
  | v => return parts (← v.textFor "split")

/-- The key and the value of a part with exactly one equals sign. -/
def pair? (part : String) : Option (String × String) :=
  match Text.pieces '=' part with
  | [k, v] => some (Text.strip k, Text.strip v)
  | _ => none

/-- The table of a list of `Key=Value` parts; if some parts are no pairs, these are the error. -/
def pairsOf (ps : List String) : Except ConfigurationFault (Table String String) :=
  match ps.filter fun p => (pair? p).isNone with
  | [] => .ok (.ofList (ps.filterMap pair?))
  | bad => .error (.keyValues bad)

/-- The table of an annotation that is a comma-separated list of `Key=Value` pairs. -/
def pairs (domain name : String) (annotations : Value) : Except Error (Table String String) := do
  (pairsOf (← slice domain name annotations)).mapError .configuration

/-- All annotations whose names start with `name` and a point, by the rest of their names. -/
def group (domain name : String) (annotations : Value) : Except Error Fields := do
  let fields ← (annotations.orElse (.object [])).entries
  return fields.filterMap fun f => (Text.dropStart? (key domain (name ++ ".")) f.1).map (·, f.2)

end Balancer.Annotations
