import Balancer.Config
import Balancer.Identity.Name
import Balancer.Identity.Tag

/-!
# Identities

`Identity` fixes what the names and tags of all resources of a controller depend on. It is taken from the
configuration once, so later changes of the configuration leave names and tags as they are. Names are made of
texts only: `nameLb_text` and `nameTg_text` say what they are, and anything else is an error.
-/

namespace Balancer

set_option autoImplicit false

structure Identity where
  stem : Value
  clusterName : Value
  tags : Table String Value

namespace Identity

def ofConfig (c : Config) : Except Error Identity := do
  let tags ← (c.tags.orElse (.object [])).table
  return ⟨c.nameStem, c.clusterName, .ofList (tags.entries.map fun e => (e.1.toValue.shown, e.2))⟩

/-- The name of the load balancer of a Service. -/
def nameLb (i : Identity) (ns service : Value) : Except Error String := do
  return lbName (← i.stem.asText) (← ns.asText) (← service.asText)

/-- The name of the target group of one backend of a Service. -/
def nameTg (i : Identity) (ns service backend port targetType protocol : Value) : Except Error String := do
  let (stem, ns, service) := (← i.stem.asText, ← ns.asText, ← service.asText)
  let backend ← backend.textFor "encode"
  let port ← port.textFor "encode"
  let protocol ← protocol.textFor "encode"
  return tgName stem ns service backend port (← targetType.textFor "encode") protocol

/-- The tags of the load balancer of a Service. -/
def tagLb (i : Identity) (ns service : Value) : Except Error (Table String Value) := do
  return lbTags i.tags (← i.clusterName.asRest) ns service

/-- The tags of every target group of a Service. -/
def tagGroup (i : Identity) (ns service : Value) : Except Error (Table String Value) := do
  return serviceTags i.tags (← i.clusterName.asRest) ns service

/-- The tags by which the resources of a Service are selected. -/
def selector (i : Identity) (ns service : Value) : Except Error (Table String Value) := do
  return ownership (← i.clusterName.asRest) ns service

theorem nameLb_text {i : Identity} {stem : String} (h : i.stem = .text stem) (ns service : String) :
    i.nameLb (.text ns) (.text service) = .ok (lbName stem ns service) := by
  unfold nameLb
  rw [h]
  rfl

theorem nameTg_text {i : Identity} {stem : String} (h : i.stem = .text stem)
    (ns service backend port targetType protocol : String) :
    i.nameTg (.text ns) (.text service) (.text backend) (.text port) (.text targetType) (.text protocol) =
      .ok (tgName stem ns service backend port targetType protocol) := by
  unfold nameTg
  rw [h]
  rfl

end Identity

end Balancer
