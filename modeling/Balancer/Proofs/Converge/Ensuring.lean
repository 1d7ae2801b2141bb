import Balancer.Proofs.Converge.LoadBalancer
import Balancer.Proofs.Converge.Retagging
import Balancer.Proofs.Routing.Targets

/-!
# What ensuring a load balancer takes

`ensureLb` as a machine of three courses: it creates the load balancer of a name, deletes it and creates it
anew, or changes what differs.

* `LbWish` : what is wanted of a load balancer. `LbWish.creation`, `deletion` : the records
  of the first two courses;
* `TypeDiffers`, `SubnetsDiffer`, `missing`, `Surplus` : what may differ of a live load balancer; `Adjusts`
  : what is recorded then;
* `Course w s t arn log` : which of the courses was taken; `Matches w lb tags` : a load balancer is as
  wanted in all but its type;
* `Ensures w s t live log arn` : besides, it is the only one of its name, and no other one was touched;
* `ensureLb_run` : all of this holds of every run that is not cut off. A load balancer that is kept also
  keeps its type (`type_kept`).
-/

namespace Balancer

set_option autoImplicit false

open Resources (newLb lbArn zones)

namespace Converge

open Cluster
open Routing (itemsIn textIn)

/-- What is wanted of a load balancer. -/
structure LbWish where
  name : String
  tags : Table String String := ∅
  type : String := "network"
  scheme : String := internalScheme
  ipAddressType : Option String := none
  subnets : List String := []

namespace LbWish

def config (w : LbWish) : LoadBalancerConfig where
  name := .text w.name
  tags := w.tags.toTextObject
  type := .text w.type
  scheme := .text w.scheme
  ipAddressType := w.ipAddressType.elim .null .text
  subnets := textList w.subnets

/-- What is wanted, but for the type. -/
def plan (w : LbWish) : LbPlan := ⟨w.name, w.tags.map .text, w.scheme, w.ipAddressType.getD "", w.subnets⟩

/-- The tags in the form in which a cloud takes them. -/
def tagValues (w : LbWish) : List Value :=
  w.plan.tags.sorted.map fun e => .object [("Key", .text e.1), ("Value", e.2)]

/-- The parameters of a new load balancer. -/
def params (w : LbWish) : Fields :=
  [("Name", .text w.name), ("Type", .text w.type), ("Scheme", .text w.scheme),
    ("Subnets", textList w.subnets), ("Tags", .list w.tagValues)] ++
  if w.plan.ipAddressType = "" then [] else [("IpAddressType", .text w.plan.ipAddressType)]

/-- The description of a new load balancer. -/
def asNew (w : LbWish) (n : Nat) : Fields := newLb w.params (.text w.name) (w.subnets.map .text) n

def creation (w : LbWish) : Record := ⟨"create_load_balancer", w.params⟩

end LbWish

def deletion (arn : String) : Record := ⟨"delete_load_balancer", [("arn", .text arn)]⟩

/-- The subnets that a described load balancer is attached to. -/
def attachedTo (fs : Fields) : List String :=
  ((itemsIn (.object fs) "AvailabilityZones").map (textIn · "SubnetId")).filter (· ≠ "")

/-- An IP address type is wanted, and the load balancer has another one. -/
def TypeDiffers (w : LbWish) (fs : Fields) : Prop :=
  ∃ type, w.ipAddressType = some type ∧ type ≠ "" ∧ Fields.get fs "IpAddressType" ≠ .text type

/-- The load balancer is attached to other subnets than the wanted ones. -/
def SubnetsDiffer (w : LbWish) (fs : Fields) : Prop := ¬ ∀ n, n ∈ attachedTo fs ↔ n ∈ w.subnets

/-- The wanted tags that are not there or have another value. -/
def missing (w : LbWish) (old : Labels) : Fields :=
  (w.tags.entries.filter fun e => !((old.get? (.text e.1)).getD .null).same (.text e.2)).map
    fun e => (e.1, .text e.2)

/-- A tag is not wanted, and the cloud does not manage it itself. -/
def Surplus (w : LbWish) (old : Labels) (n : String) : Prop :=
  old.contains (.text n) ∧ w.tags.get? n = none ∧ Text.startsWith reservedStart n = false

/-- What is recorded where a live load balancer is changed: the IP address type, the subnets and the tags, in
this order and each of them if it differs. -/
def Adjusts (w : LbWish) (arn : String) (fs : Fields) (old : Labels) (log : List Record) : Prop :=
  ∃ gone : List String, (∀ n, n ∈ gone ↔ Surplus w old n) ∧ gone.Pairwise (· < ·) ∧
    log =
      recordIf (TypeDiffers w fs)
        ⟨"set_ip_address_type", [("arn", .text arn), ("ip_address_type", w.config.ipAddressType)]⟩ ++
      recordIf (SubnetsDiffer w fs) ⟨"set_subnets", [("arn", .text arn), ("subnets", textList w.subnets)]⟩ ++
      recordIf (missing w old ≠ []) ⟨"add_tags", [("arn", .text arn), ("tags", .object (missing w old))]⟩ ++
      recordIf (gone ≠ []) ⟨"remove_tags", [("arn", .text arn), ("keys", textList gone)]⟩

/-- A load balancer is as wanted in all but its type. -/
structure Matches (w : LbWish) (lb : Fields) (tags : Labels) : Prop where
  name : Fields.get lb "LoadBalancerName" = .text w.name
  scheme : Fields.get lb "Scheme" = .text w.scheme
  ipAddressType : ∀ type, w.ipAddressType = some type → type ≠ "" → Fields.get lb "IpAddressType" = .text type
  subnets : ∀ n, n ∈ attachedTo lb ↔ n ∈ w.subnets ∧ n ≠ ""
  wanted : ∀ n v, w.tags.get? n = some v → tags.get? (.text n) = some (.text v)
  rest : ∀ k, tags.contains k → ∃ n, k = .text n ∧
    ((w.tags.get? n).isSome ∨ Text.startsWith reservedStart n = true)

/-- An ARN that no load balancer had, that has no listeners, and that belongs to a load
balancer of the wanted type. -/
structure IsNew (w : LbWish) (s t : Resources) (arn : String) : Prop where
  unused : s.loadBalancers.get? (.text arn) = none
  bare : ∀ k l, t.listeners.get? k = some l → Fields.get l "LoadBalancerArn" ≠ .text arn
  type : ∀ lb, t.loadBalancers.get? (.text arn) = some lb → Fields.get lb "Type" = .text w.type

/-- How the load balancer of an ARN came to be, and what was recorded of it. -/
inductive Course (w : LbWish) (s t : Resources) (arn : String) : List Record → Prop where
  | created (absent : ∀ k lb, s.loadBalancers.get? k = some lb →
      Fields.get lb "LoadBalancerName" ≠ .text w.name)
      (new : IsNew w s t arn) : Course w s t arn [w.creation]
  | recreated (old : String) (lb : Fields) (there : s.loadBalancers.get? (.text old) = some lb)
      (name : Fields.get lb "LoadBalancerName" = .text w.name)
        (scheme : Fields.get lb "Scheme" ≠ .text w.scheme)
      (new : IsNew w s t arn) : Course w s t arn [deletion old, w.creation]
  | modified (lb lb' : Fields) (log : List Record) (there : s.loadBalancers.get? (.text arn) = some lb)
      (name : Fields.get lb "LoadBalancerName" = .text w.name)
        (scheme : Fields.get lb "Scheme" = .text w.scheme)
      (still : t.loadBalancers.get? (.text arn) = some lb')
        (type : Fields.get lb' "Type" = Fields.get lb "Type")
      (listeners : t.listeners = s.listeners) (adjusts : Adjusts w arn lb (s.tagsOf (.text arn)) log) :
        Course w s t arn log

/-- Load balancers but those of some ARNs, and their listeners, are the same. -/
structure SameBut (arns : List String) (s t : Resources) : Prop where
  lb : ∀ k, (∀ arn ∈ arns, k ≠ .text arn) → SameLb k s t
  listeners : ∀ k l, (∀ arn ∈ arns, Fields.get l "LoadBalancerArn" ≠ .text arn) →
    (t.listeners.get? k = some l ↔ s.listeners.get? k = some l)

/-- What ensuring a load balancer brings about. -/
structure Ensures (w : LbWish) (s t : Resources) (live : Value) (log : List Record)
    (arn : String) : Prop where
  course : Course w s t arn log
  returned : live.item "LoadBalancerArn" = .ok (.text arn)
  matches_ : ∃ lb, t.loadBalancers.get? (.text arn) = some lb ∧ Matches w lb (t.tagsOf (.text arn))
  only : ∀ k lb, t.loadBalancers.get? k = some lb →
    Fields.get lb "LoadBalancerName" = .text w.name → k = .text arn
  others : ∀ k lb, Fields.get lb "LoadBalancerName" ≠ .text w.name →
    (t.loadBalancers.get? k = some lb ↔ s.loadBalancers.get? k = some lb)
  untouched : ∀ k lb, s.loadBalancers.get? k = some lb → Fields.get lb "LoadBalancerName" ≠ .text w.name →
    SameLb k s t ∧ ∀ j l, Fields.get l "LoadBalancerArn" = k.toValue →
      (t.listeners.get? j = some l ↔ s.listeners.get? j = some l)

section

variable {w : LbWish} {s t : Resources} {fs gs : Fields} {arn : String} {attached : List Key}
  {desired : Fields} {live : Value}

/-! ## Creating -/

theorem lbParams_wish (w : LbWish) : lbParams w.config = .ok w.params := by
  have htags : tagList w.config.tags = .ok w.tagValues := rfl
  simp only [lbParams, LbWish.params, htags, bind, Except.bind, pure, Except.pure]
  cases hip : w.ipAddressType with
  | none => simp [LbWish.config, LbWish.plan, textList, hip, Value.holds]
  | some type => by_cases he : type = "" <;> simp [LbWish.config, LbWish.plan, textList, hip, he, Value.holds]

theorem ends_createLb (w : LbWish) (s : Resources) :
    (createLb w.config).Ends s (.object (w.asNew s.nextId)) [w.creation]
    (s.addLb (.text (lbArn w.name s.nextId)) (w.asNew s.nextId) (labels w.plan.tags.sorted)) := by
  have hsubnets : (Fields.get w.params "Subnets").elementsIfAny = .ok (w.subnets.map .text) := by
    show (textList w.subnets).elementsIfAny = _
    unfold textList Value.elementsIfAny
    cases w.subnets <;> rfl
  have htags : readTags (Fields.get w.params "Tags") = .ok (labels w.plan.tags.sorted) := by
    obtain ⟨vs, hvs, hread⟩ := readTags_tagList w.plan.tags
    cases hvs
    exact hread
  have hname : Fields.item w.params "Name" = .ok (.text w.name) := rfl
  have hstep := Resources.perform_createLb s w.params hname hsubnets htags
  unfold createLb
  refine Program.ends_lift_bind.2 ⟨_, lbParams_wish w, ?_⟩
  refine Program.Ends.andThen (Program.ends_warning.2 (Program.ends_request hstep rfl rfl)) ?_
  refine Program.ends_lift_bind.2 ⟨_, (rfl : Fields.item (w.asNew s.nextId) "LoadBalancerArn" = _), ?_⟩
  exact Program.ends_info_bind.2 (Program.ends_pure.2 ⟨rfl, rfl, rfl⟩)

/-! ## Changing -/

theorem holds_ipAddressType (w : LbWish) :
    w.config.ipAddressType.holds = true ↔ w.plan.ipAddressType ≠ "" := by
  cases hip : w.ipAddressType <;> simp [LbWish.config, LbWish.plan, hip, Value.holds]

theorem ipAddressType_config (hip : w.plan.ipAddressType ≠ "") :
    w.config.ipAddressType = .text w.plan.ipAddressType := by
  unfold LbWish.plan at hip
  unfold LbWish.config LbWish.plan
  cases h : w.ipAddressType with
  | none => simp [h] at hip
  | some type => rfl

theorem typeDiffers_iff :
    TypeDiffers w fs ↔ w.plan.ipAddressType ≠ "" ∧
      Fields.get fs "IpAddressType" ≠ .text w.plan.ipAddressType := by
  unfold TypeDiffers LbWish.plan
  cases w.ipAddressType <;> simp

theorem ends_convergeIpType_wish (hk : s.loadBalancers.get? (.text arn) = some fs) :
    (convergeIpType (.text arn) (.object fs) w.config).Ends s ()
      (recordIf (TypeDiffers w fs) ⟨"set_ip_address_type",
        [("arn", .text arn), ("ip_address_type", w.config.ipAddressType)]⟩)
      (s.putLb (.text arn) (withIpType w.plan fs)) := by
  have hself : (pure () : Program Unit).Ends s () [] (s.putLb (.text arn) fs) := by
    rw [Resources.putLb_of_get? hk]
    exact Program.ends_pure.2 ⟨rfl, rfl, rfl⟩
  unfold convergeIpType withIpType
  by_cases hip : w.plan.ipAddressType = ""
  · rw [recordIf_of_not fun h => (typeDiffers_iff.1 h).1 hip,
      if_pos (by simpa using mt (holds_ipAddressType w).1 (not_not.2 hip)), if_pos (by simp [hip])]
    exact hself
  rw [ipAddressType_config hip, if_neg (by simpa [Value.holds] using hip)]
  refine Program.ends_lift_bind.2 ⟨_, Value.get_object fs "IpAddressType", ?_⟩
  by_cases hs : Fields.get fs "IpAddressType" = .text w.plan.ipAddressType
  · rw [recordIf_of_not fun h => (typeDiffers_iff.1 h).2 hs, if_pos ((Value.same_text_iff _ _).2 hs),
      if_pos (by simp [hs])]
    exact hself
  · rw [recordIf_of (typeDiffers_iff.2 ⟨hip, hs⟩), if_neg (fun h => hs ((Value.same_text_iff _ _).1 h)),
      if_neg (by simp [hip, hs])]
    have hstep := Resources.perform_setIpAddressType s arn (.text w.plan.ipAddressType) hk
    exact (Program.ends_warning.2 (Program.ends_request hstep rfl rfl)).andThen
      (Program.ends_info.2 ⟨rfl, rfl⟩)

/-- A described load balancer stands in subnets whose identifiers are texts. -/
def InSubnets (fs : Fields) : Prop := ∃ rows, InZones rows fs

theorem attachedTo_of_inZones {rows : List (Fields × String)} (h : InZones rows fs) :
    attachedTo fs = (rows.map (·.2)).filter (· ≠ "") := by
  have hitems : itemsIn (.object fs) "AvailabilityZones" = rows.map fun r => .object r.1 := by
    unfold itemsIn
    rw [show Fields.get (Value.object fs).fields "AvailabilityZones" = _ from h.1]
  unfold attachedTo
  rw [hitems, List.map_map]
  refine congrArg (List.filter (· ≠ "")) (List.map_congr_left fun r hr => ?_)
  show textIn (.object r.1) "SubnetId" = r.2
  unfold textIn
  rw [show Fields.get (Value.object r.1).fields "SubnetId" = _ from h.2 r hr]

theorem attachedTo_zones (ns : List String) (h : Fields.get fs "AvailabilityZones" = zones (ns.map .text)) :
    attachedTo fs = ns.filter (· ≠ "") := by
  rw [attachedTo_of_inZones (inZones_zones ns h), List.map_map]
  exact congrArg (List.filter (· ≠ "")) (List.map_id ns)

theorem sameMembers_texts {as bs : List String} :
    sameMembers (as.map .text) (bs.map .text) = true ↔ ∀ n, n ∈ as ↔ n ∈ bs := by
  rw [sameMembers_iff]
  have hmem : ∀ cs : List String, ∀ n, (∃ b ∈ cs.map Key.text, (Key.text n == b) = true) ↔ n ∈ cs := by
    simp
  simp only [List.forall_mem_map, hmem]
  exact ⟨fun h n => ⟨h.1 n, h.2 n⟩, fun h => ⟨fun n => (h n).1, fun n => (h n).2⟩⟩

/-- `convergeSubnets` goes by a description that may be older than what it changes. -/
theorem ends_convergeSubnets (hzones : InSubnets fs) (hk : s.loadBalancers.get? (.text arn) = some gs) :
    ∃ attached, (sameMembers attached (w.plan.subnets.map .text) = true ↔ ¬ SubnetsDiffer w fs) ∧
      (convergeSubnets (.text arn) (.object fs) w.config).Ends s ()
        (recordIf (SubnetsDiffer w fs) ⟨"set_subnets", [("arn", .text arn), ("subnets", textList w.subnets)]⟩)
        (s.putLb (.text arn) (withSubnets w.plan attached gs)) := by
  obtain ⟨rows, hrows⟩ := hzones
  obtain ⟨row, hattached, hperm⟩ := hrows.exists_attached
  obtain ⟨sorted, hsorted, -⟩ := Value.sorted_texts w.subnets
  have hsame : sameMembers (row.map .text) (w.plan.subnets.map .text) = true ↔ ¬ SubnetsDiffer w fs := by
    rw [sameMembers_texts, SubnetsDiffer, not_not, attachedTo_of_inZones hrows]
    exact forall_congr' fun n => iff_congr hperm.mem_iff .rfl
  refine ⟨_, hsame, ?_⟩
  unfold convergeSubnets
  simp only [Program.mapM_liftM]
  refine Program.ends_lift_bind.2 ⟨_, hattached, Program.ends_lift_bind.2 ⟨_, mapM_key_texts row, ?_⟩⟩
  refine Program.ends_lift_bind.2 ⟨_, Value.elements_list (w.subnets.map .text), ?_⟩
  refine Program.ends_lift_bind.2 ⟨_, mapM_key_texts w.subnets, ?_⟩
  unfold withSubnets
  by_cases hs : sameMembers (row.map .text) (w.plan.subnets.map .text) = true
  · rw [recordIf_of_not (hsame.1 hs),
      if_pos (show sameMembers (row.map .text) (w.subnets.map .text) = true from hs), if_pos hs,
      Resources.putLb_of_get? hk]
    exact Program.ends_pure.2 ⟨rfl, rfl, rfl⟩
  · have hdiffer : SubnetsDiffer w fs := not_not.1 (mt hsame.2 hs)
    rw [recordIf_of hdiffer,
      if_neg (show ¬ sameMembers (row.map .text) (w.subnets.map .text) = true from hs), if_neg hs]
    have hstep := Resources.perform_setSubnets s arn (w.subnets.map .text) hk
    refine Program.ends_lift_bind.2 ⟨_, hsorted, ?_⟩
    exact (Program.ends_warning.2 (Program.ends_request hstep rfl rfl)).andThen
      (Program.ends_info.2 ⟨rfl, rfl⟩)

/-! ## What is left alone -/

theorem SameBut.trans {as bs : List String} {u : Resources} (h : SameBut as s t) (h' : SameBut bs t u) :
    SameBut (as ++ bs) s u where
  lb k hk := by
    have hs := h.lb k fun arn ha => hk arn (List.mem_append_left _ ha)
    have ht := h'.lb k fun arn ha => hk arn (List.mem_append_right _ ha)
    exact ⟨ht.loadBalancers.trans hs.loadBalancers, ht.lbAttributes.trans hs.lbAttributes,
      ht.tags.trans hs.tags⟩
  listeners k l hl :=
    (h'.listeners k l fun arn ha => hl arn (List.mem_append_right _ ha)).trans
      (h.listeners k l fun arn ha => hl arn (List.mem_append_left _ ha))

theorem text_beq_of_ne {k : Key} (h : k ≠ .text arn) : (Key.text arn == k) = false := by
  rw [Bool.eq_false_iff]
  exact fun heq => h (Key.beq_text_iff.1 (BEq.symm heq))

theorem sameBut_addLb (s : Resources) (arn : String) (lb : Fields) (tags : Labels) :
    SameBut [arn] s (s.addLb (.text arn) lb tags) where
  lb k hk := by
    have hne := text_beq_of_ne (hk arn List.mem_cons_self)
    exact ⟨Table.get?_insert_of_ne _ _ hne, Table.get?_insert_of_ne _ _ hne, Table.get?_insert_of_ne _ _ hne⟩
  listeners _ _ _ := .rfl

theorem sameBut_dropLb (s : Resources) (arn : String) : SameBut [arn] s (s.dropLb arn) where
  lb k hk := by
    have hne := text_beq_of_ne (hk arn List.mem_cons_self)
    refine ⟨?_, rfl, ?_⟩
    · rw [Resources.dropLb_loadBalancers, Table.get?_erase, hne, if_neg Bool.false_ne_true]
    · rw [Resources.dropLb_tags, Table.get?_erase, hne, if_neg Bool.false_ne_true]
  listeners _ l hl := by
    have hother : (Fields.get l "LoadBalancerArn").same (.text arn) = false := by
      rw [Bool.eq_false_iff]
      exact fun h => hl arn List.mem_cons_self ((Value.same_text_iff _ _).1 h)
    rw [Resources.dropLb_listeners, Table.get?_filter_values, Option.filter_eq_some_iff, hother]
    exact and_iff_left rfl

theorem sameBut_putLb (s : Resources) (arn : String) (lb : Fields) :
    SameBut [arn] s (s.putLb (.text arn) lb) where
  lb _ hk := ⟨Table.get?_insert_of_ne _ _ (text_beq_of_ne (hk arn List.mem_cons_self)), rfl, rfl⟩
  listeners _ _ _ := .rfl

theorem TagsAt.sameBut (h : TagsAt (.text arn) s t) : SameBut [arn] s t := by
  obtain ⟨⟨tags, rfl⟩, htags⟩ := h
  exact ⟨fun k hk => ⟨rfl, rfl, htags k (text_beq_of_ne (hk arn List.mem_cons_self))⟩, fun _ _ _ => .rfl⟩

/-- Where only load balancers of the wanted name were touched, all others are as they were. -/
theorem SameBut.others {arns : List String} (h : SameBut arns s t)
    (hs : ∀ arn ∈ arns, ∀ lb, s.loadBalancers.get? (.text arn) = some lb →
      Fields.get lb "LoadBalancerName" = .text w.name)
    (ht : ∀ arn ∈ arns, ∀ lb, t.loadBalancers.get? (.text arn) = some lb →
      Fields.get lb "LoadBalancerName" = .text w.name)
    (k : Key) (lb : Fields) (hn : Fields.get lb "LoadBalancerName" ≠ .text w.name) :
    t.loadBalancers.get? k = some lb ↔ s.loadBalancers.get? k = some lb := by
  by_cases hk : ∃ arn ∈ arns, k = .text arn
  · obtain ⟨arn, ha, rfl⟩ := hk
    exact iff_of_false (fun h => hn (ht arn ha lb h)) fun h => hn (hs arn ha lb h)
  · rw [(h.lb k fun arn ha heq => hk ⟨arn, ha, heq⟩).loadBalancers]

theorem SameBut.untouched {arns : List String} (h : SameBut arns s t) (hown : s.OwnArns)
    (hs : ∀ arn ∈ arns, ∀ lb, s.loadBalancers.get? (.text arn) = some lb →
      Fields.get lb "LoadBalancerName" = .text w.name)
    (k : Key) (lb : Fields) (hk : s.loadBalancers.get? k = some lb)
    (hn : Fields.get lb "LoadBalancerName" ≠ .text w.name) :
    SameLb k s t ∧ ∀ j l, Fields.get l "LoadBalancerArn" = k.toValue →
      (t.listeners.get? j = some l ↔ s.listeners.get? j = some l) := by
  have hother : ∀ arn ∈ arns, k ≠ .text arn := by
    rintro arn ha rfl
    exact hn (hs arn ha lb hk)
  obtain ⟨own, rfl, -⟩ := hown.lb hk
  refine ⟨h.lb _ hother, fun j l hl => h.listeners j l fun arn ha heq => hother arn ha ?_⟩
  rw [hl] at heq
  cases heq
  rfl

/-! ## What is as wanted -/

theorem tags_of_retagged {old new : Labels} (h : Retagged old new (textFields w.tags)) :
    (∀ n v, w.tags.get? n = some v → new.get? (.text n) = some (.text v)) ∧
      ∀ k, new.contains k → ∃ n, k = .text n ∧
        ((w.tags.get? n).isSome ∨ Text.startsWith reservedStart n = true) := by
  have hconforms := h.conforms
  refine ⟨hconforms.met, fun k hk => ?_⟩
  obtain ⟨n, rfl⟩ := hconforms.texts k hk
  refine ⟨n, rfl, ?_⟩
  cases hget : w.tags.get? n with
  | some v => exact .inl rfl
  | none =>
    refine .inr (by_contra fun hfree => ?_)
    obtain ⟨x, hx⟩ := Table.contains_iff.1 hk
    rw [hconforms.rest n hget, if_neg hfree] at hx
    cases hx

theorem matches_asNew (w : LbWish) (n : Nat) : Matches w (w.asNew n) (labels w.plan.tags.sorted) := by
  obtain ⟨hwanted, hrest⟩ := tags_of_retagged (retagged_labels_sorted w.plan.tags)
  refine ⟨rfl, rfl, fun type htype hne => ?_, fun m => ?_, hwanted, hrest⟩
  · have hplan : w.plan.ipAddressType = type := by simp [LbWish.plan, htype]
    show Fields.getOr w.params "IpAddressType" (.text "ipv4") = .text type
    unfold LbWish.params
    rw [hplan, if_neg hne]
    rfl
  · rw [attachedTo_zones w.subnets rfl, List.mem_filter, decide_eq_true_eq]

theorem missing_eq (w : LbWish) (old : Labels) : toModify old w.plan.tags.entries = missing w old := by
  show (List.map _ _).filter _ = _
  rw [List.filter_map]
  rfl

theorem nodup_removable (old : Labels) (desired : Fields) : (removable old desired).Nodup := by
  have hkeys : old.keys.Nodup := by
    refine List.pairwise_map.2 (old.distinct.imp fun {e e'} hne heq => ?_)
    rw [heq, BEq.rfl] at hne
    cases hne
  refine (hkeys.filter _).filterMap fun k k' n hk hk' => ?_
  cases k <;> cases k' <;> simp_all [unreserved?]

theorem attachedTo_congr (h : Fields.get gs "AvailabilityZones" = Fields.get fs "AvailabilityZones") :
    attachedTo gs = attachedTo fs := by
  have hitems : itemsIn (.object gs) "AvailabilityZones" = itemsIn (.object fs) "AvailabilityZones" := by
    unfold itemsIn
    rw [show Fields.get (Value.object gs).fields "AvailabilityZones" = _ from h]
    rfl
  rw [attachedTo, hitems, attachedTo]

theorem ne_empty_of_attachedTo {n : String} (h : n ∈ attachedTo fs) : n ≠ "" :=
  of_decide_eq_true (List.mem_filter.1 h).2

/-- A description that was changed where it differed is as wanted. -/
theorem matches_changed {old new : Labels} (hn : Fields.get fs "LoadBalancerName" = .text w.name)
    (hscheme : Fields.get fs "Scheme" = .text w.scheme)
    (hsame : sameMembers attached (w.plan.subnets.map .text) = true ↔ ¬ SubnetsDiffer w fs)
    (htags : Retagged old new w.plan.tags.entries) :
    Matches w (withSubnets w.plan attached (withIpType w.plan fs)) new := by
  obtain ⟨hwanted, hrest⟩ := tags_of_retagged htags
  refine ⟨?_, ?_, fun type htype hne => ?_, fun n => ?_, hwanted, hrest⟩
  · rw [get_withSubnets (by decide), get_withIpType (by decide), hn]
  · rw [get_withSubnets (by decide), get_withIpType (by decide), hscheme]
  · have hplan : w.plan.ipAddressType = type := by simp [LbWish.plan, htype]
    have h := ipType_withIpType w.plan fs
    rw [hplan] at h
    rw [get_withSubnets (by decide)]
    exact h.resolve_left hne
  · unfold withSubnets
    by_cases hs : sameMembers attached (w.plan.subnets.map .text) = true
    · have hiff := not_not.1 (hsame.1 hs) n
      rw [if_pos hs, attachedTo_congr (get_withIpType (by decide)), ← hiff]
      exact (and_iff_left_of_imp ne_empty_of_attachedTo).symm
    · rw [if_neg hs, attachedTo_zones w.subnets (by rw [Fields.get_put, if_pos rfl]; rfl), List.mem_filter,
        decide_eq_true_eq]

/-! ## The three courses -/

theorem isNew_addLb (hahead : s.Ahead) {u : Resources} (hid : u.nextId = s.nextId)
    (hlisteners : ∀ k l, u.listeners.get? k = some l → s.listeners.get? k = some l) :
    IsNew w s (u.addLb (.text (lbArn w.name u.nextId)) (w.asNew u.nextId) (labels w.plan.tags.sorted))
      (lbArn w.name u.nextId) where
  unused := hahead.lb (hid ▸ Nat.le_refl _) (Resources.numbered_lbArn _ _)
  bare k l hk := hahead.named (hid ▸ Nat.le_refl _) (Resources.numbered_lbArn _ _) (hlisteners k l hk)
  type lb hlb := by
    rw [Resources.addLb_loadBalancers, Table.get?_insert_self, Option.some.injEq] at hlb
    rw [← hlb]
    rfl

theorem matches_addLb (w : LbWish) (u : Resources) (n : Nat) : ∃ lb,
    (u.addLb (.text (lbArn w.name n)) (w.asNew n) (labels w.plan.tags.sorted)).loadBalancers.get?
      (.text (lbArn w.name n)) = some lb ∧
      Matches w lb
        ((u.addLb (.text (lbArn w.name n)) (w.asNew n) (labels w.plan.tags.sorted)).tagsOf
          (.text (lbArn w.name n))) := by
  refine ⟨_, Table.get?_insert_self _ _ _, ?_⟩
  rw [Resources.tagsOf, Resources.addLb_tags, Table.get?_insert_self]
  exact matches_asNew w n

theorem perform_wish (w : LbWish) (s : Resources) : s.perform (.loadBalancerNamed w.config.name) =
    (.ok (Resources.named "LoadBalancerName" (.text w.name) s.loadBalancers), s) := rfl

/-- A load balancer that is created where none has the name, all others being as they were. -/
theorem ensures_addLb (arns : List String) {u : Resources} {log : List Record}
    (hown : s.OwnArns) (hahead : s.Ahead) (hid : u.nextId = s.nextId)
    (hlisteners : ∀ k l, u.listeners.get? k = some l → s.listeners.get? k = some l) (hsame : SameBut arns s u)
    (hgone : ∀ arn ∈ arns, u.loadBalancers.get? (.text arn) = none) (hs : ∀ arn ∈ arns, ∀ lb,
      s.loadBalancers.get? (.text arn) = some lb → Fields.get lb "LoadBalancerName" = .text w.name)
    (hnone : ∀ k lb, u.loadBalancers.get? k = some lb → Fields.get lb "LoadBalancerName" ≠ .text w.name)
    (hcourse : ∀ t arn, IsNew w s t arn → Course w s t arn log) :
    Ensures w s (u.addLb (.text (lbArn w.name u.nextId)) (w.asNew u.nextId) (labels w.plan.tags.sorted))
      (.object (w.asNew u.nextId)) log (lbArn w.name u.nextId) := by
  have hnew := isNew_addLb (w := w) hahead hid hlisteners
  have hall :=
    hsame.trans (sameBut_addLb u (lbArn w.name u.nextId) (w.asNew u.nextId) (labels w.plan.tags.sorted))
  have hs' : ∀ arn ∈ arns ++ [lbArn w.name u.nextId], ∀ lb, s.loadBalancers.get? (.text arn) = some lb →
      Fields.get lb "LoadBalancerName" = .text w.name := by
    intro arn ha lb hlb
    rcases List.mem_append.1 ha with ha | ha
    · exact hs arn ha lb hlb
    · rw [List.mem_singleton.1 ha, hnew.unused] at hlb
      cases hlb
  refine ⟨hcourse _ _ hnew, rfl, matches_addLb w u u.nextId, fun k lb hlb hn => ?_, hall.others hs' ?_,
    hall.untouched hown hs'⟩
  · by_contra hk
    rw [Resources.addLb_loadBalancers, Table.get?_insert_of_ne _ _ (text_beq_of_ne hk)] at hlb
    exact hnone k lb hlb hn
  · intro arn ha lb hlb
    rcases Table.get?_insert_text_iff.1 hlb with ⟨-, rfl⟩ | ⟨hne, hlb⟩
    · rfl
    · rcases List.mem_append.1 ha with ha | ha
      · rw [hgone arn ha] at hlb
        cases hlb
      · exact absurd (congrArg Key.text (List.mem_singleton.1 ha)) hne

/-- No load balancer has the name: one is created. -/
theorem ensures_created (hown : s.OwnArns) (hahead : s.Ahead)
    (hnone : ∀ k lb, s.loadBalancers.get? k = some lb → Fields.get lb "LoadBalancerName" ≠ .text w.name) :
    ∃ live log t arn, (ensureLb w.config).Ends s live log t ∧ Ensures w s t live log arn := by
  refine ⟨_, _, _, _, ?_, ensures_addLb [] hown hahead rfl (fun _ _ h => h)
    ⟨fun _ _ => ⟨rfl, rfl, rfl⟩, fun _ _ _ => .rfl⟩
    nofun nofun hnone fun _ _ hnew => .created hnone hnew⟩
  have hread := perform_wish w s
  rw [Resources.named_eq_null_iff.2 hnone] at hread
  unfold ensureLb
  rw [Program.ends_read_bind hread rfl]
  exact ends_createLb w s

section

variable {lb : Fields} (hown : s.OwnArns) (hk : s.loadBalancers.get? (.text arn) = some lb)
  (hn : Fields.get lb "LoadBalancerName" = .text w.name)

include hown hk in
theorem item_arn : (Value.object lb).item "LoadBalancerArn" = .ok (.text arn) := by
  obtain ⟨own, hkey, harn⟩ := hown.lb hk
  cases hkey
  exact Fields.item_of_get_text harn

include hn

include hown hk in
/-- What modifying a live load balancer records, and what becomes of its description and its tags. -/
theorem ends_modifyLb (hscheme : Fields.get lb "Scheme" = .text w.scheme) (hzones : InSubnets lb)
    (htags : ∀ k, (s.tagsOf (.text arn)).contains k → ∃ n, k = .text n) :
    ∃ gs log t, (modifyLb (.object lb) w.config).Ends s () log t ∧
      Adjusts w arn lb (s.tagsOf (.text arn)) log ∧
      TagsAt (.text arn) (s.putLb (.text arn) gs) t ∧ Matches w gs (t.tagsOf (.text arn)) ∧
      Fields.get gs "Type" = Fields.get lb "Type" := by
  have hr := removes_of_texts htags w.plan.tags.entries
  have hd := w.plan.tags.distinct
  have hkept : (s.putLb (.text arn) (withIpType w.plan lb)).loadBalancers.get? (.text arn) = some _ :=
    Table.get?_insert_self _ _ _
  obtain ⟨attached, hsame, hsubnets⟩ := ends_convergeSubnets (w := w) hzones hkept
  rw [Resources.putLb_putLb] at hsubnets
  generalize hgs : withSubnets w.plan attached (withIpType w.plan lb) = gs at hsubnets
  obtain ⟨gone, hgone, hsorted, hconverge⟩ := ends_convergeTags (s := s.putLb (.text arn) gs) hd hr
  have hstrict : gone.Pairwise (· < ·) :=
    (hsorted.and (hgone.nodup_iff.2 (nodup_removable _ _))).imp fun h => lt_of_le_of_ne h.1 h.2
  refine ⟨gs, _, _, ?_, ⟨gone, fun n => hgone.mem_iff.trans mem_removable_textFields, hstrict, rfl⟩,
    (tagsAt_tagged _ arn w.plan.tags.entries).trans (tagsAt_untagged _ arn w.plan.tags.entries), ?_, ?_⟩
  · rw [missing_eq] at hconverge
    rw [← List.append_nil (_ ++ recordIf (gone ≠ []) _), List.append_assoc,
      List.append_assoc, List.append_assoc]
    refine Program.ends_lift_bind.2 ⟨_, item_arn hown hk, ?_⟩
    refine (ends_convergeIpType_wish hk).andThen (hsubnets.andThen ?_)
    rw [← List.append_assoc]
    exact hconverge.andThen (Program.ends_pure.2 ⟨rfl, rfl, rfl⟩)
  · rw [← hgs]
    exact matches_changed hn hscheme hsame (retagged_untagged hd hr)
  · rw [← hgs, get_withSubnets (by decide), get_withIpType (by decide)]

variable (hnames : s.UniqueLbNames)

include hown hnames hk

/-- The load balancer of the name has another scheme: it is deleted first. -/
theorem ensures_recreated (hahead : s.Ahead) (hscheme : Fields.get lb "Scheme" ≠ .text w.scheme) :
    ∃ live log t arn, (ensureLb w.config).Ends s live log t ∧ Ensures w s t live log arn := by
  have hother : (!(Fields.get lb "Scheme").same w.config.scheme) = true := by
    rw [Bool.not_eq_true', ← Bool.not_eq_true]
    exact fun h => hscheme ((Value.same_text_iff _ _).1 h)
  refine ⟨_, _, _, _, ?_, ensures_addLb [arn] (u := s.dropLb arn) hown hahead rfl ?_
    (sameBut_dropLb s arn) ?_ ?_ ?_
    fun _ _ hnew => .recreated arn lb hk hn hscheme hnew⟩
  · have hread := perform_wish w s
    rw [hnames.lbNamed hk hn] at hread
    unfold ensureLb
    rw [Program.ends_read_bind hread rfl]
    refine Program.ends_lift_bind.2 ⟨_, Value.get_object lb "Scheme", ?_⟩
    rw [if_pos hother]
    refine Program.ends_lift_bind.2 ⟨_, item_arn hown hk, ?_⟩
    exact (Program.ends_request (Resources.perform_deleteLb s arn) rfl rfl).andThen
      (Program.ends_info_bind.2 (ends_createLb w (s.dropLb arn)))
  · intro k l hl
    rw [Resources.dropLb_listeners, Table.get?_filter_values, Option.filter_eq_some_iff] at hl
    exact hl.1
  · intro a ha
    rw [List.mem_singleton.1 ha, Resources.dropLb_loadBalancers, Table.get?_erase, if_pos BEq.rfl]
  · intro a ha lb' hlb
    rw [List.mem_singleton.1 ha, hk] at hlb
    cases hlb
    exact hn
  · exact not_named_dropLb hnames hk hn

/-- The description of the load balancer of the name is changed, and its tags. -/
theorem ensures_putLb {log : List Record} (ht : TagsAt (.text arn) (s.putLb (.text arn) gs) t)
    (hmatches : Matches w gs (t.tagsOf (.text arn))) (hcourse : Course w s t arn log) :
    Ensures w s t (.object lb) log arn := by
  have hbut := (sameBut_putLb s arn gs).trans ht.sameBut
  have hthere : t.loadBalancers.get? (.text arn) = some gs := by
    obtain ⟨⟨tags, rfl⟩, -⟩ := ht
    exact Table.get?_insert_self _ _ _
  have hs : ∀ a ∈ [arn] ++ [arn], ∀ lb', s.loadBalancers.get? (.text a) = some lb' →
      Fields.get lb' "LoadBalancerName" = .text w.name := by
    intro a ha lb' hlb
    rw [or_self_iff.1 (List.mem_pair.1 ha), hk] at hlb
    cases hlb
    exact hn
  refine ⟨hcourse, item_arn hown hk, ⟨gs, hthere, hmatches⟩, fun k lb' hlb hn' => ?_,
    hbut.others hs fun a ha lb' hlb => ?_, hbut.untouched hown hs⟩
  · by_contra hne
    rw [(hbut.lb k fun a ha => or_self_iff.1 (List.mem_pair.1 ha) ▸ hne).loadBalancers] at hlb
    exact hne (hnames hlb hk hn' hn)
  · rw [or_self_iff.1 (List.mem_pair.1 ha), hthere] at hlb
    cases hlb
    exact hmatches.name

/-- The load balancer of the name has the scheme: what differs is changed. -/
theorem ensures_modified (hscheme : Fields.get lb "Scheme" = .text w.scheme) (hzones : InSubnets lb)
    (htags : ∀ k, (s.tagsOf (.text arn)).contains k → ∃ n, k = .text n) :
    ∃ live log t arn, (ensureLb w.config).Ends s live log t ∧ Ensures w s t live log arn := by
  obtain ⟨gs, log, t, hmodify, hadjusts, ht, hmatches, htype⟩ := ends_modifyLb hown hk hn hscheme hzones htags
  refine ⟨.object lb, log, t, arn, ?_, ensures_putLb hown hk hn hnames ht hmatches ?_⟩
  · have hread := perform_wish w s
    rw [hnames.lbNamed hk hn] at hread
    have hsame : ¬ (!(Fields.get lb "Scheme").same w.config.scheme) = true := by
      rw [Bool.not_eq_true', Bool.not_eq_false]
      exact (Value.same_text_iff _ _).2 hscheme
    unfold ensureLb
    rw [Program.ends_read_bind hread rfl]
    refine Program.ends_lift_bind.2 ⟨_, Value.get_object lb "Scheme", ?_⟩
    rw [if_neg hsame, ← List.append_nil log]
    exact hmodify.andThen (Program.ends_pure.2 ⟨rfl, rfl, rfl⟩)
  · obtain ⟨⟨tags, rfl⟩, -⟩ := ht
    exact .modified lb gs log hk hn hscheme (Table.get?_insert_self _ _ _) htype rfl hadjusts

end

/-- Of each load balancer of the name, its subnets and the keys of its tags are texts. -/
def Legible (s : Resources) (name : String) : Prop :=
  ∀ arn lb, s.loadBalancers.get? (.text arn) = some lb → Fields.get lb "LoadBalancerName" = .text name →
    InSubnets lb ∧ ∀ k, (s.tagsOf (.text arn)).contains k → ∃ n, k = .text n

theorem ends_ensureLb (hown : s.OwnArns) (hnames : s.UniqueLbNames) (hahead : s.Ahead)
    (hlegible : Legible s w.name) :
    ∃ live log t arn, (ensureLb w.config).Ends s live log t ∧ Ensures w s t live log arn := by
  by_cases hnone : ∀ k lb, s.loadBalancers.get? k = some lb → Fields.get lb "LoadBalancerName" ≠ .text w.name
  · exact ensures_created hown hahead hnone
  push Not at hnone
  obtain ⟨k, lb, hk, hn⟩ := hnone
  obtain ⟨arn, rfl, -⟩ := hown.lb hk
  by_cases hscheme : Fields.get lb "Scheme" = .text w.scheme
  · obtain ⟨hzones, htags⟩ := hlegible arn lb hk hn
    exact ensures_modified hown hk hn hnames hscheme hzones htags
  · exact ensures_recreated hown hk hn hnames hahead hscheme

end

/-! ## Runs that are not cut off -/

/-- The load balancer of a name is created, deleted and created anew, or changed where it differs. It then is
as wanted and the only one of its name, and no other one was touched. -/
theorem ensureLb_run (w : LbWish) (m : Memory) (hown : m.resources.OwnArns)
    (hnames : m.resources.UniqueLbNames) (hahead : m.resources.Ahead)
    (hlegible : Legible m.resources w.name) :
    ∃ live log t arn, (ensureLb w.config).run (Memory.cloud Gate.free) ((), m) =
      (.ok live, ((), ⟨t, m.records ++ log⟩)) ∧
      Ensures w m.resources t live log arn := by
  obtain ⟨live, log, t, arn, hends, hensures⟩ := ends_ensureLb hown hnames hahead hlegible
  exact ⟨live, log, t, arn, Program.run_free_eq_ok_iff.2 ⟨log, rfl, hends⟩, hensures⟩

/-- What is wanted of the load balancer `web`. -/
def webWish : LbWish where
  name := "web"
  tags := .ofList [("team", "a")]
  ipAddressType := some "ipv4"
  subnets := ["subnet-a"]

/-- A cloud in which the load balancer `web` is there, as wanted but of another type. -/
def applicationWeb : Resources :=
  ({} : Resources).addLb (.text (lbArn "web" 1)) ({ webWish with type := "application" }.asNew 1)
    (.ofList [(.text "team", .text "a")])

theorem wellFormed_applicationWeb : applicationWeb.WellFormed :=
  Resources.wellFormed_empty.addLb (Resources.numbered_lbArn _ _) rfl nofun

theorem ahead_applicationWeb : applicationWeb.Ahead := wellFormed_applicationWeb.ahead fun _ _ h => nomatch h

theorem legible_applicationWeb : Legible applicationWeb "web" := by
  intro arn lb hk _
  rcases Table.get?_insert_text_iff.1 hk with ⟨harn, rfl⟩ | ⟨-, hk⟩
  · refine ⟨⟨_, inZones_zones ["subnet-a"] rfl⟩, fun k hc => ?_⟩
    cases harn
    obtain ⟨v, hv⟩ := Table.contains_iff.1 hc
    rw [Resources.tagsOf, applicationWeb, Resources.addLb_tags, Table.get?_insert_self] at hv
    obtain ⟨k', hkk, hmem⟩ := Entries.mem_of_find? hv
    cases List.mem_singleton.1 hmem
    exact ⟨"team", Key.eq_text_of_beq (BEq.symm hkk)⟩
  · cases hk

theorem ensureLb_run_web : ∃ live log t arn,
    (ensureLb webWish.config).run (Memory.cloud Gate.free) ((), ⟨applicationWeb, []⟩) =
      (.ok live, ((), ⟨t, [] ++ log⟩)) ∧
      Ensures webWish applicationWeb t live log arn :=
  ensureLb_run webWish ⟨applicationWeb, []⟩ wellFormed_applicationWeb.ownArns
    wellFormed_applicationWeb.uniqueLbNames
    ahead_applicationWeb legible_applicationWeb

/-- A live load balancer keeps its type, also where another one is wanted. -/
theorem type_kept : applicationWeb.OwnArns ∧ applicationWeb.UniqueLbNames ∧ applicationWeb.Ahead ∧
    ∃ live t log lb, (ensureLb webWish.config).run (Memory.cloud Gate.free) ((), ⟨applicationWeb, []⟩) =
      (.ok live, ((), ⟨t, log⟩)) ∧
      t.loadBalancers.get? (.text (lbArn "web" 1)) = some lb ∧
      Fields.get lb "LoadBalancerName" = .text webWish.name ∧ Fields.get lb "Type" ≠ .text webWish.type := by
  refine ⟨wellFormed_applicationWeb.ownArns, wellFormed_applicationWeb.uniqueLbNames,
    ahead_applicationWeb, ?_⟩
  refine ⟨_, _, _, _, rfl, rfl, rfl, ?_⟩
  show Value.text "application" ≠ .text "network"
  simp

end Converge

end Balancer
