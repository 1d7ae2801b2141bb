import Balancer.Cluster.Store

/-!
# Which Services an event concerns

For each kind of event, the keys of the Services that have to be reconciled: the Service itself
(`serviceKeys`), the one of the same name (`endpointsKeys`), or every Service of the class (`nodeKeys`,
`configMapKeys`). An update that changes nothing a reconcile reads concerns none.
-/

namespace Balancer

set_option autoImplicit false

inductive EventType where
  | added
  | modified
  | deleted
  /-- A word without a meaning of its own. -/
  | other
  deriving DecidableEq, Repr

/-- The type of an event; an object of the first listing, which has none, counts as added. -/
def EventType.ofValue (v : Value) : EventType :=
  if !v.holds then .added
  else if v.same (.text "ADDED") then .added
  else if v.same (.text "MODIFIED") then .modified
  else if v.same (.text "DELETED") then .deleted
  else .other

namespace Trigger

open Cluster

/-- Whether a Service differs in a part that a reconcile reads. -/
def serviceChanged (old new : Value) : Except Error Bool := do
  let oldMeta ← metadata old
  let newMeta ← metadata new
  if !(← old.get "spec").same (← new.get "spec") then return true
  if !(← oldMeta.get "annotations").same (← newMeta.get "annotations") then return true
  return !(← oldMeta.get "deletionTimestamp").same (← newMeta.get "deletionTimestamp")

/-- Whether an event is an update of a known object that a test finds unchanged. -/
def isUnchanged (type : EventType) (old : Option Value) (changed : Value → Except Error Bool) :
    Except Error Bool :=
  match type, old with
  | .modified, some old => do return !(← changed old)
  | _, _ => .ok false

/-- Whether one of some Services is of a class. -/
def anyOfClass (serviceClass : Value) : List Value → Except Error Bool
  | [] => .ok false
  | s :: ss => do if ← isOfClass serviceClass s then return true else anyOfClass serviceClass ss

/-- A Service is concerned if it is of the class before or after the event. -/
def serviceKeys (serviceClass : Value) (type : EventType) (old : Option Value) (new : Value) :
    Except Error (List Value) := do
  if ← isUnchanged type old (serviceChanged · new) then return []
  if ← anyOfClass serviceClass (old.toList ++ [new]) then return [← objectKey new] else return []

/-- The Service of the name of an Endpoints object is concerned if it is of the class
and the subsets changed. -/
def endpointsKeys (serviceClass : Value) (store : Store) (type : EventType)
    (old : Option Value) (new : Value) :
    Except Error (List Value) := do
  if ← isUnchanged type old fun old =>
    do return !(← old.get "subsets").same (← new.get "subsets") then return []
  let key ← objectKey new
  match ← store.find? .service key with
  | none => return []
  | some service => if ← isOfClass serviceClass service then return [key] else return []

/-- The keys of all Services of a class, in order. -/
def qualifyingKeys (serviceClass : Value) (store : Store) : Except Error (List Value) := do
  let services ← store.services.values.filterM (isOfClass serviceClass)
  Value.sorted (← services.mapM objectKey)

/-- Whether a node's eligibility or provider identifier differs. -/
def nodeChanged (old new : Value) : Except Error Bool := do
  let wasEligible ← isEligible old
  let oldId ← providerId old
  let eligible ← isEligible new
  let newId ← providerId new
  return wasEligible != eligible || !oldId.alike newId

/-- Every Service is concerned when the set of target nodes may have changed. -/
def nodeKeys (serviceClass : Value) (store : Store) (type : EventType) (old : Option Value) (new : Value) :
    Except Error (List Value) := do
  if ← isUnchanged type old (nodeChanged · new) then return []
  qualifyingKeys serviceClass store

/-! ## The whitelist -/

/-- The name of the config map that lists the Services that may face the internet. -/
def whitelistName : String := "nlb-internet-facing-services"

/-- A whitelist: the names of the Services of each namespace. -/
abbrev Whitelist := Table String (List String)

def Whitelist.toValue (w : Whitelist) : Value := (w.map textList).toObject

/-- The names in one entry of the whitelist. -/
def whitelistNames (v : Value) : Except Error (List String) := do
  return Annotations.parts (← (v.orElse (.text "")).textFor "split")

/-- The whitelist in the data of a config map: names, separated by commas, for each namespace. -/
def parseWhitelist (data : Value) : Except Error Whitelist := do
  let entries ← (← (data.orElse (.object [])).entries).mapM fun e => do return (e.1, ← whitelistNames e.2)
  return .ofList entries

/-- The configuration with another whitelist, of which each entry is kept as a list. -/
def setWhitelist (c : Config) (whitelist : Value) : Except Error Config := do
  let entries ← (← whitelist.entries).mapM fun e => do return (e.1, Value.list (← e.2.elements))
  return { c with internetFacing := .object entries }

/-- Whether a config map holds the whitelist. -/
def isWhitelist (c : Config) (obj : Value) : Except Error Bool := do
  let meta_ ← metadata obj
  if !(← meta_.get "name").same (.text whitelistName) then return false
  return (← meta_.get "namespace").same c.restrictSchemeNamespace

/-- The whitelist that a config map event leaves: none after a deletion. -/
def whitelistAfter (type : EventType) (obj : Value) : Except Error Whitelist :=
  if type = .deleted then .ok ∅ else do parseWhitelist (← obj.get "data")

/-- The configuration after a config map event, and the concerned keys: if the scheme is restricted and the
config map holds the whitelist, that is replaced and every Service is concerned. -/
def configMapKeys (c : Config) (store : Store) (type : EventType) (obj : Value) :
    Config × Except Error (List Value) :=
  match if c.restrictScheme.holds then isWhitelist c obj else .ok false with
  | .error e => (c, .error e)
  | .ok false => (c, .ok [])
  | .ok true =>
    match whitelistAfter type obj with
    | .error e => (c, .error e)
    | .ok whitelist => ({ c with internetFacing := whitelist.toValue }, qualifyingKeys c.serviceClass store)

end Trigger

end Balancer
