import Balancer.Cloud.Program

/-!
# Converging tags and attributes

`convergeTags` makes the tags of a resource the desired ones and keeps tags that the cloud reserves.
`convergeLbAttributes` and `convergeTgAttributes` set the desired attributes that differ
and leave the others alone.
-/

namespace Balancer.Converge

set_option autoImplicit false

/-- The start of the keys of tags that the cloud manages itself. -/
def reservedStart : String := "aws:"

/-- The desired entries whose current value differs. -/
def toModify (current : Labels) (desired : Fields) : Fields :=
  desired.filter fun e => !((current.get? (.text e.1)).getD .null).same e.2

/-- The keys of current tags that are not desired. -/
def undesired (current : Labels) (desired : Fields) : List Key :=
  current.keys.filter fun k => !desired.any fun e => k == .text e.1

/-- The keys of current tags that are not desired and not reserved. -/
def toRemove (current : Labels) (desired : Fields) : Except Error (List Value) :=
  ((undesired current desired).map Key.toValue).filterM fun k => do return !(← k.startsWith reservedStart)

/-- Converges the tags of a resource; true if that took a change. -/
def convergeTags (arn desired : Value) : Program Bool := do
  let current ← Program.answer (.tags arn)
  let desired ← desired.entries
  let modify := toModify current desired
  let remove ← toRemove current desired
  if !modify.isEmpty then Program.answer (.addTags arn (.object modify))
  if !remove.isEmpty then Program.answer (.removeTags arn (.list remove))
  return !modify.isEmpty || !remove.isEmpty

/-- Converges the attributes of a load balancer; true if that took a change. -/
def convergeLbAttributes (arn desired : Value) : Program Bool := do
  if !desired.holds then return false
  let modify := toModify (← Program.answer (.lbAttributes arn)) (← desired.entries)
  if modify.isEmpty then return false
  Program.answer (.modifyLbAttributes arn (.object modify))
  return true

/-- Converges the attributes of a target group; true if that took a change. -/
def convergeTgAttributes (arn desired : Value) : Program Bool := do
  if !desired.holds then return false
  let modify := toModify (← Program.answer (.tgAttributes arn)) (← desired.entries)
  if modify.isEmpty then return false
  Program.answer (.modifyTgAttributes arn (.object modify))
  return true

end Balancer.Converge
