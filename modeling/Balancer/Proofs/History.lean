import Balancer.Proofs.Annotations
import Balancer.Proofs.Cloud.Stop
import Balancer.Proofs.Converge.Belongs

/-!
# Histories of syncs

* `Synced i key s x t` : a sync of a key takes the resources `s` to `t` behind some gate, which may
  cut it off at any request;
* `History identity allowed made s` : any row of allowed syncs of any Services, from a cloud with subnets
  only; `made key k` says that a sync of `key` left something new under the ARN `k`;
* `deleted_leaves_nothing` : after careful syncs a delete leaves nothing that the syncs of its key made;
* `recreated_left_behind` : without care it does, after a recreate of the load balancer was cut off.
-/

namespace Balancer

set_option autoImplicit false

namespace Converge

open Cluster Identity Resources

/-! ## Histories -/

/-- A sync of a key behind some gate, with its result and what it leaves. -/
def Synced (i : Inputs) (key : Value) (s : Resources) (result : Except Error (Option LoadBalancer))
    (t : Resources) : Prop :=
  ∃ (γ : Type) (g : Gate γ) (c c' : γ) (before after : List Record),
    (sync i key).run (Memory.cloud g) (c, ⟨s, before⟩) = (result, (c', ⟨t, after⟩))

/-- Syncs one after the other, each with a store of its own, and what those of each key made. -/
inductive History (identity : Identity) (allowed : Inputs → Value → Resources → Resources → Prop) :
    (Value → Key → Prop) → Resources → Prop
  | start (subnets : List Value) (subnetTags : Table String Value) :
      History identity allowed (fun _ _ => False) { subnets, subnetTags }
  | sync {made : Value → Key → Prop} {s t : Resources} {i : Inputs} {key : Value}
      {result : Except Error (Option LoadBalancer)} (h : History identity allowed made s)
        (hid : i.identity = identity)
      (hallowed : allowed i key s t) (hrun : Synced i key s result t) :
      History identity allowed (fun κ k => made κ k ∨ κ = key ∧ t.Holds k ∧ ¬ s.Holds k) t

section

variable {i : Inputs} {key : Value} {k : Key} {result : Except Error (Option LoadBalancer)} {s t : Resources}

theorem Synced.visits (h : Synced i key s result t) : (sync i key).Visits s t := by
  obtain ⟨γ, g, c, c', before, after, hrun⟩ := h
  have hvisits := (strict_sync (i := i) key).visits_run g c ⟨s, before⟩
  rwa [hrun] at hvisits

theorem Synced.yields {lb : Option LoadBalancer} (h : Synced i key s (.ok lb) t) :
    (sync i key).Yields s lb t := by
  obtain ⟨γ, g, c, c', before, after, hrun⟩ := h
  obtain ⟨rs, -, hends⟩ := (strict_sync (i := i) key).ends_run g hrun
  exact ⟨rs, hends⟩

theorem Synced.textSubnets_iff (h : Synced i key s result t) : TextSubnets t ↔ TextSubnets s := by
  unfold TextSubnets
  rw [(Program.always_ground _ s t h.visits).1]

/-- What a sync made has an ARN that it gave out. -/
theorem isNew_of_made (hgrown : Grown s t) (hk : t.Holds k) (hnot : ¬ s.Holds k) :
    IsNew s.nextId t.nextId k := by
  have hnew : ∀ {x y : Table Key Fields}, KeysFrom s.nextId t.nextId x y → (y.get? k).isSome = true →
      ((x.get? k).isSome = true → s.Holds k) → IsNew s.nextId t.nextId k := by
    intro x y hxy hy hx
    obtain ⟨fs, hfs⟩ := Option.isSome_iff_exists.1 hy
    exact (hxy k fs hfs).resolve_left fun hthere => hnot (hx (Option.isSome_iff_exists.2 hthere))
  rcases hk with hk | hk | hk
  · exact hnew hgrown.loadBalancers hk .inl
  · exact hnew hgrown.targetGroups hk fun h => .inr (.inl h)
  · exact hnew hgrown.listeners hk fun h => .inr (.inr h)

end

/-! ## A Service to sync -/

/-- A Service with one port and a scheme. -/
def schemeService (scheme : String) : Value :=
  .object [("metadata", .object [("namespace", .text "default"), ("name", .text "web"),
      ("annotations", .object [("kubernetes.io/service.class", .text "nlb"),
        ("nlb.service.kubernetes.io/subnets", .text "subnet-a"),
        ("nlb.service.kubernetes.io/target-type", .text "instance"),
        ("nlb.service.kubernetes.io/scheme", .text scheme)])]),
    ("spec", .object
      [("ports", .list [.object [("name", .text "http"), ("port", .int 80), ("nodePort", .int 31000)]])])]

/-- The Services of a cluster with this one only. -/
def offering (scheme : String) : Table Key Value := .ofList [(.text "default/web", schemeService scheme)]

def mainIdentity : Identity := ⟨.text "nlb", .text "main", ∅⟩

def storedInputs (services : Table Key Value) : Inputs where
  config := { clusterName := .text "main", vpcId := .text "vpc-1", nameStem := .text "nlb" }
  identity := mainIdentity
  store := { services }

/-- What a sync of `default/web` leaves that the operator stops before a request of a number. -/
def stoppedAt (services : Table Key Value) (stop : Nat) (s : Resources) :
    Except Error (Option LoadBalancer) × Resources :=
  let r := (sync (storedInputs services) (.text "default/web")).run (Memory.cloud Context.stopping)
    ((stop, { key := "default/web" }), ⟨s, []⟩)
  (r.1, r.2.2.resources)

theorem run_stoppedAt (services : Table Key Value) (stop : Nat) (s : Resources) : ∃ c after,
    (sync (storedInputs services) (.text "default/web")).run (Memory.cloud Context.stopping)
      ((stop, { key := "default/web" }), ⟨s, []⟩) =
        ((stoppedAt services stop s).1, (c, ⟨(stoppedAt services stop s).2, after⟩)) :=
  ⟨_, _, rfl⟩

theorem synced_stoppedAt (services : Table Key Value) (stop : Nat) (s : Resources) :
    Synced (storedInputs services) (.text "default/web") s (stoppedAt services stop s).1
      (stoppedAt services stop s).2 := by
  obtain ⟨c, after, h⟩ := run_stoppedAt services stop s
  exact ⟨_, Context.stopping, _, c, [], after, h⟩

def leftGroup : Key :=
  .text
    "arn:aws:elasticloadbalancing:us-east-1:123456789012:targetgroup/nlb-da0bb2ff46d687c6055/0000000000000002"

/-- Whether a sync ended as a delete. -/
def isDeleted : Except Error (Option LoadBalancer) → Bool
  | .ok none => true
  | _ => false

theorem eq_of_isDeleted {x : Except Error (Option LoadBalancer)} (h : isDeleted x = true) : x = .ok none := by
  unfold isDeleted at h
  split at h
  · rfl
  · cases h

/-! ## What careful syncs make -/

section

variable {o : Owners} {stem cluster : String} {usual : Table String Value}
  {made : Value → Key → Prop} {i : Inputs} {key : Value} {k : Key} {s t : Resources}

/-- Syncs that are each careful of a Service. -/
def CarefulSync (o : Owners) (stem cluster : String) (i : Inputs) (key : Value) (s t : Resources) : Prop :=
  ∃ ns name, Careful o stem cluster ns name i key s t

/-- What a sync of a key made has an ARN that is given out, and belongs to the Service of the key. -/
structure Accounted (o : Owners) (stem cluster : String) (key : Value) (k : Key) (ns name : String)
    (s : Resources) : Prop where
  split : splitKey key = .ok (ns, name)
  owner : o.lb (lbName stem ns name) = (ns, name)
  isNew : IsNew 0 s.nextId k
  belongs : Belongs o stem cluster ns name k s

theorem wellFormed_start (subnets : List Value) (subnetTags : Table String Value) :
    WellFormed { subnets, subnetTags } :=
  wellFormed_of_le wellFormed_empty (Nat.le_refl _) (Within.refl _ _) (Within.refl _ _) (Within.refl _ _)
    fun _ _ h => nomatch h

/-- Whatever careful syncs made is accounted for. -/
theorem History.accounted (h : History ⟨.text stem, .text cluster, usual⟩ (CarefulSync o stem cluster) made s)
    (htext : TextSubnets s) :
    s.WellFormed ∧ ∀ κ k, made κ k → ∃ ns name, Accounted o stem cluster κ k ns name s := by
  -- What was made before is under an ARN that is given out, so that a sync of another Service can keep it
  -- as it is or delete it.
  induction h with
  | start subnets subnetTags => exact ⟨wellFormed_start subnets subnetTags, fun _ _ hno => hno.elim⟩
  | @sync made s t i key result h hid hcare hrun ih =>
    obtain ⟨ns, name, hcare⟩ := hcare
    have hvisits := hrun.visits
    have hgrown := Program.always_grown _ s t hvisits
    have htext := hrun.textSubnets_iff.1 htext
    have hstem : i.identity.stem = .text stem := by rw [hid]
    have hcluster : i.identity.clusterName = .text cluster := by rw [hid]
    obtain ⟨hs, hmade⟩ := ih htext
    refine ⟨(hcare.visits hstem hcluster hs htext hvisits).1, ?_⟩
    rintro κ k (hold | ⟨rfl, hk, hnot⟩)
    · obtain ⟨ns', name', hacc⟩ := hmade κ k hold
      exact ⟨ns', name', hacc.split, hacc.owner, hacc.isNew.mono (Nat.le_refl _) hgrown.nextId,
        hacc.belongs.sync hcare hstem hcluster hs htext hvisits (.inr ⟨hacc.owner, hacc.isNew⟩)⟩
    · exact ⟨ns, name, hcare.split, hcare.owner,
        (isNew_of_made hgrown hk hnot).mono (Nat.zero_le _) (Nat.le_refl _),
        (Belongs.of_not_holds hnot).sync hcare hstem hcluster hs htext hvisits (.inl rfl)⟩

/-- After careful syncs of any Services, each cut off anywhere or not, a sync that deletes what belonged to a
key leaves nothing that syncs of the key made. -/
theorem deleted_leaves_nothing
    (h : History ⟨.text stem, .text cluster, usual⟩ (CarefulSync o stem cluster) made s)
    (htext : TextSubnets s) (hid : i.identity = ⟨.text stem, .text cluster, usual⟩)
    (hrun : Synced i key s (.ok none) t) (hk : made key k) : ¬ t.Holds k := by
  obtain ⟨hs, hmade⟩ := h.accounted htext
  obtain ⟨ns, name, hacc⟩ := hmade key k hk
  obtain ⟨ns', name', n, hkey, hn, hdeleted⟩ := yields_deleteService hs (yields_sync_none hrun.yields).2
  rw [hacc.split] at hkey
  cases hkey
  rw [nameLb_text (by rw [hid])] at hn
  cases hn
  rcases hdeleted with ⟨hnone, rfl⟩ | ⟨a, selector, hnamed, hsel, rfl⟩
  · intro hholds
    obtain ⟨a, hnamed⟩ := hacc.belongs.hasLb hs hholds
    exact hnone _ hnamed
  · rw [selector_text (by rw [hid])] at hsel
    cases hsel
    exact hacc.belongs.not_holds_tornDown hs hnamed

/-- All names are for `default/web`. -/
def webOwners : Owners := ⟨fun _ => ("default", "web"), fun _ => ("default", "web")⟩

theorem apart_schemeService (scheme : String) (service : Value)
    (hwanted : wantedAt (storedInputs (offering scheme)) (.text "default/web") = .ok (some service)) :
    Apart webOwners "main" "default" "web" (storedInputs (offering scheme)) service := by
  have hservice : wantedAt (storedInputs (offering scheme)) (.text "default/web") =
      .ok (some (schemeService scheme)) := rfl
  rw [hservice] at hwanted
  cases hwanted
  refine ⟨rfl, fun _ _ _ _ => rfl, fun settings hsettings => ?_⟩
  obtain ⟨key, hkey, h⟩ := bind_eq_ok_iff.1 hsettings
  obtain rfl : Value.text "default/web" = key := Except.ok.inj hkey
  obtain ⟨obj, hobj, h⟩ := bind_eq_ok_iff.1 h
  obtain rfl : schemeService scheme = obj := Except.ok.inj hobj
  obtain ⟨annotated, hannotated, h⟩ := bind_eq_ok_iff.1 h
  have htags := ServiceSettings.tags_of_parse h
  cases hannotated
  have hnone : settings.tags = ∅ := Except.ok.inj htags.symm
  constructor <;> simp [hnone]

/-- What a first sync leaves that is stopped before it creates the listener. -/
def halfway : Resources := (stoppedAt (offering "internal") 7 {}).2

/-- The load balancer is recreated after the scheme was changed. -/
def recreated : Except Error (Option LoadBalancer) × Resources :=
  stoppedAt (offering "internet-facing") 100 halfway

/-- A target group that a sync made before it was cut off is gone after a recreate and a delete. -/
theorem halfway_deleted :
    Synced (storedInputs ∅) (.text "default/web") recreated.2 (.ok none) (stoppedAt ∅ 100 recreated.2).2 ∧
      recreated.2.Holds leftGroup ∧ ¬ (stoppedAt ∅ 100 recreated.2).2.Holds leftGroup := by
  have hheld : isDeleted (stoppedAt ∅ 100 recreated.2).1 = true ∧ recreated.1.isOk = true ∧
      halfway.Holds leftGroup ∧
      recreated.2.Holds leftGroup := by
    set_option maxRecDepth 100000 in decide +kernel
  have hsplit : splitKey (.text "default/web") = .ok ("default", "web") := by rfl
  have hempty : TextSubnets {} := fun _ hv => nomatch hv
  have hfirst : Synced (storedInputs (offering "internal")) (.text "default/web") {} _ halfway :=
    synced_stoppedAt _ 7 {}
  have hcare : CarefulSync webOwners "nlb" "main" (storedInputs (offering "internal"))
      (.text "default/web") {} halfway :=
    ⟨"default", "web", hsplit, rfl, apart_schemeService "internal", fun _ _ ⟨_, _, hnone, _⟩ => nomatch hnone⟩
  have hhistory : History mainIdentity (CarefulSync webOwners "nlb" "main") _ halfway :=
    (History.start [] ∅).sync (by rfl) hcare hfirst
  obtain ⟨lb, hlb⟩ : ∃ lb, recreated.1 = .ok lb := by
    cases hx : recreated.1 with
    | error e => simp [hx, Except.isOk, Except.toBool] at hheld
    | ok lb => exact ⟨lb, rfl⟩
  have hsecond : Synced (storedInputs (offering "internet-facing")) (.text "default/web") halfway
      (.ok lb) recreated.2 :=
    hlb ▸ synced_stoppedAt (offering "internet-facing") 100 halfway
  have hcare' := Careful.of_yields hsplit rfl rfl rfl
    (apart_schemeService "internet-facing") (hhistory.accounted
    (hfirst.textSubnets_iff.2 hempty)).1 (hfirst.textSubnets_iff.2 hempty) hsecond.yields
  have hhistory' := hhistory.sync (by rfl) ⟨_, _, hcare'⟩ hsecond
  have hrun := synced_stoppedAt ∅ 100 recreated.2
  rw [eq_of_isDeleted hheld.1] at hrun
  refine ⟨hrun, hheld.2.2.2, deleted_leaves_nothing hhistory' ?_ rfl hrun
    (.inl (.inr ⟨rfl, hheld.2.2.1, by decide⟩))⟩
  exact hsecond.textSubnets_iff.2 (hfirst.textSubnets_iff.2 hempty)

end

/-! ## A recreate that is cut off -/

/-- The Service with an internal load balancer. -/
def atFirst : Resources := (stoppedAt (offering "internal") 100 {}).2

/-- The Service after its scheme was changed, when the sync is stopped before it creates
the load balancer anew. -/
def cutOff : Resources := (stoppedAt (offering "internet-facing") 2 atFirst).2

/-- The Service after it was deleted. -/
def afterDelete : Except Error (Option LoadBalancer) × Resources := stoppedAt ∅ 100 cutOff

theorem afterDelete_leaves : isDeleted afterDelete.1 = true ∧
    atFirst.Holds leftGroup ∧ afterDelete.2.Holds leftGroup := by
  set_option maxRecDepth 100000 in decide +kernel

/-- The target group of a Service outlives it if a recreate of its load balancer was cut off before. -/
theorem recreated_left_behind :
    ¬ ∀ (identity : Identity) (made : Value → Key → Prop) (s : Resources) (i : Inputs)
      (key : Value) (t : Resources),
      History identity (fun _ _ _ _ => True) made s → i.identity = identity → Synced i key s (.ok none) t →
        ∀ k, made key k → ¬ t.Holds k := by
  intro hall
  obtain ⟨hnone, hmade, hleft⟩ := afterDelete_leaves
  have hid : ∀ services, (storedInputs services).identity = mainIdentity := fun _ => rfl
  have hstart : History mainIdentity (fun _ _ _ _ => True) (fun _ _ => False) {} := .start [] ∅
  have hfirst := hstart.sync (hid _) trivial (synced_stoppedAt (offering "internal") 100 {})
  have hcut := hfirst.sync (hid _) trivial (synced_stoppedAt (offering "internet-facing") 2 atFirst)
  have hdelete := synced_stoppedAt ∅ 100 cutOff
  rw [show (stoppedAt ∅ 100 cutOff).1 = .ok none from eq_of_isDeleted hnone] at hdelete
  exact hall mainIdentity _ cutOff _ _ _ hcut rfl hdelete leftGroup
    (.inl (.inr ⟨rfl, hmade, by decide⟩)) hleft

end Converge

end Balancer
