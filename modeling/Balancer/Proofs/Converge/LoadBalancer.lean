import Balancer.Proofs.Converge.Subnets
import Balancer.Proofs.Converge.TargetGroup

/-!
# Converging a load balancer

* `reshaped p fs` : what modifying makes of a described load balancer; `reshaped_of_reshaped`
  : the result is its own;
* `Retagged old new desired` : the desired tags, and of the others those that are reserved;
* `LbReady p arn fs u` : the load balancer of a plan is there and nothing of it has to be changed.
  `ensureLb` brings that about, by creating, recreating or modifying it (`yields_ensureLb`), rests where it
  holds (`rests_ensureLb`) and can be done again from any state that it visits (`resumes_ensureLb`);
  `convergeLb` does all of it.
-/

namespace Balancer

set_option autoImplicit false

open Resources (newLb lbArn zones)

namespace Converge

open Cluster

/-! ## Shapes -/

/-- A described load balancer with the IP address type of a plan. -/
def withIpType (p : LbPlan) (fs : Fields) : Fields :=
  if p.ipAddressType = "" || (Fields.get fs "IpAddressType").same (.text p.ipAddressType) then fs
  else Entries.put "IpAddressType" (.text p.ipAddressType) fs

/-- The keys of the subnets that a described load balancer is attached to. -/
def attachedKeys (fs : Fields) : Except Error (List Key) := do
  (← attachedSubnets (.object fs)).mapM fun s => s.key

/-- A described load balancer with the subnets of a plan, given those that it is attached to. -/
def withSubnets (p : LbPlan) (attached : List Key) (fs : Fields) : Fields :=
  if sameMembers attached (p.subnets.map .text) then fs
  else Entries.put "AvailabilityZones" (zones (p.subnets.map .text)) fs

/-- What modifying makes of a described load balancer. -/
def reshaped (p : LbPlan) (fs : Fields) : Except Error Fields := do
  let attached ← attachedKeys fs
  return withSubnets p attached (withIpType p fs)

section

variable {p : LbPlan} {fs gs : Fields} {attached : List Key}

theorem find?_withIpType {k : String} (hk : k ≠ "IpAddressType") :
    Entries.find? k (withIpType p fs) = Entries.find? k fs := by
  unfold withIpType
  split
  · rfl
  · rw [Entries.find?_put, if_neg (by simpa using hk.symm)]

theorem find?_withSubnets {k : String} (hk : k ≠ "AvailabilityZones") :
    Entries.find? k (withSubnets p attached fs) = Entries.find? k fs := by
  unfold withSubnets
  split
  · rfl
  · rw [Entries.find?_put, if_neg (by simpa using hk.symm)]

theorem get_withIpType {k : String} (hk : k ≠ "IpAddressType") :
    Fields.get (withIpType p fs) k = Fields.get fs k := by
  rw [Fields.get, find?_withIpType hk, Fields.get]

theorem get_withSubnets {k : String} (hk : k ≠ "AvailabilityZones") :
    Fields.get (withSubnets p attached fs) k = Fields.get fs k := by
  rw [Fields.get, find?_withSubnets hk, Fields.get]

theorem find?_of_reshaped (h : reshaped p fs = .ok gs) {k : String}
    (hk : k ∉ ["IpAddressType", "AvailabilityZones"]) :
    Entries.find? k gs = Entries.find? k fs := by
  obtain ⟨attached, -, h⟩ := bind_eq_ok_iff.1 h
  cases h
  rw [List.mem_cons, List.mem_singleton, not_or] at hk
  rw [find?_withSubnets hk.2, find?_withIpType hk.1]

theorem get_of_reshaped (h : reshaped p fs = .ok gs) {k : String}
    (hk : k ∉ ["IpAddressType", "AvailabilityZones"]) :
    Fields.get gs k = Fields.get fs k := by
  rw [Fields.get, find?_of_reshaped h hk, Fields.get]

theorem attachedKeys_congr (h : Fields.get gs "AvailabilityZones" = Fields.get fs "AvailabilityZones") :
    attachedKeys gs = attachedKeys fs := by
  unfold attachedKeys attachedSubnets
  rw [Value.get_object, Value.get_object, h]

theorem ipType_withIpType (p : LbPlan) (fs : Fields) :
    p.ipAddressType = "" ∨ Fields.get (withIpType p fs) "IpAddressType" = .text p.ipAddressType := by
  unfold withIpType
  split
  · rename_i h
    simpa [Value.same_text_iff] using h
  · exact .inr (by rw [Fields.get_put, if_pos rfl])

theorem withIpType_eq (h : p.ipAddressType = "" ∨ Fields.get fs "IpAddressType" = .text p.ipAddressType) :
    withIpType p fs = fs := if_pos (by simpa [Value.same_text_iff] using h)

theorem mapM_key_texts (ns : List String) : (ns.map Value.text).mapM Value.key = .ok (ns.map Key.text) := by
  rw [mapM_eq_ok_iff, List.forall₂_map_left_iff, List.forall₂_map_right_iff, List.forall₂_same]
  exact fun _ _ => rfl

/-- Zones with the identifiers of their subnets. -/
def InZones (rows : List (Fields × String)) (fs : Fields) : Prop :=
  Fields.get fs "AvailabilityZones" = .list (rows.map fun r => .object r.1) ∧
    ∀ r ∈ rows, Fields.get r.1 "SubnetId" = .text r.2

theorem inZones_zones (ns : List String) (h : Fields.get fs "AvailabilityZones" = zones (ns.map .text)) :
    InZones (ns.map fun n => ([("SubnetId", .text n)], n)) fs := by
  refine ⟨?_, List.forall_mem_map.2 fun n _ => rfl⟩
  rw [h, zones, List.map_map, List.map_map]
  rfl

/-- Zones attach to those of their subnets that are not empty. -/
theorem InZones.exists_attached {rows : List (Fields × String)} (h : InZones rows fs) :
    ∃ row : List String, attachedSubnets (.object fs) = .ok (row.map .text) ∧
      row.Perm ((rows.map (·.2)).filter (· ≠ "")) := by
  obtain ⟨row, hrow, hperm, -⟩ := Value.sorted_texts ((rows.map (·.2)).filter (· ≠ ""))
  refine ⟨row, ?_, hperm⟩
  have helements : (Value.list (rows.map fun r => .object r.1)).elementsIfAny =
      .ok (rows.map fun r => .object r.1) := by
    unfold Value.elementsIfAny
    cases rows <;> rfl
  have hfilter : ∀ rows : List (Fields × String),
      (rows.filterMap fun r => if r.2 = "" then none else some (Value.text r.2)) =
      ((rows.map (·.2)).filter (· ≠ "")).map .text := by
    intro rows
    induction rows with
    | nil => rfl
    | cons r rows ih => by_cases hr : r.2 = "" <;> simp [hr, ih]
  unfold attachedSubnets
  simp only [Value.get_object, h.1, bind, Except.bind, helements]
  rw [filterMapM_map_ok (g := fun r => if r.2 = "" then none else some (Value.text r.2)), hfilter]
  · exact hrow
  · intro r hr
    have hitem := Fields.item_of_get_text (h.2 r hr)
    by_cases he : r.2 = "" <;> simp [he, h.2 r hr, hitem, Value.holds, pure, Except.pure]

theorem exists_attached {ns : List String} (h : Fields.get fs "AvailabilityZones" = zones (ns.map .text)) :
    ∃ row : List String, attachedSubnets (.object fs) = .ok (row.map .text) ∧
      row.Perm (ns.filter (· ≠ "")) := by
  have hattached := (inZones_zones _ h).exists_attached
  rwa [List.map_map, show (Prod.snd ∘ fun n => (([("SubnetId", .text n)] : Fields), n)) = id from rfl,
    List.map_id] at hattached

/-- The desired subnets that are not empty, as a described load balancer is attached to them. -/
theorem attachedKeys_zones {ns : List String} (h : Fields.get fs "AvailabilityZones" = zones (ns.map .text)) :
    ∃ row : List String, attachedKeys fs = .ok (row.map .text) ∧ row.Perm (ns.filter (· ≠ "")) := by
  obtain ⟨row, hrow, hperm⟩ := exists_attached h
  refine ⟨row, ?_, hperm⟩
  unfold attachedKeys
  rw [hrow]
  exact mapM_key_texts row

/-- A description in the shape of a plan stays as it is. -/
theorem reshaped_of_reshaped (h : reshaped p fs = .ok gs) : reshaped p gs = .ok gs := by
  obtain ⟨attached, ha, h⟩ := bind_eq_ok_iff.1 h
  cases h
  have hip : withIpType p (withSubnets p attached (withIpType p fs)) =
      withSubnets p attached (withIpType p fs) := by
    refine withIpType_eq ?_
    rw [get_withSubnets (by decide)]
    exact ipType_withIpType p fs
  unfold reshaped
  rw [hip]
  unfold withSubnets
  by_cases hs : sameMembers attached (p.subnets.map .text)
  · rw [if_pos hs, attachedKeys_congr (get_withIpType (by decide)), ha]
    simp only [bind, Except.bind, hs, if_true, pure, Except.pure]
  · rw [if_neg hs]
    have hzones : Fields.get (Entries.put "AvailabilityZones" (zones (p.subnets.map .text)) (withIpType p fs))
        "AvailabilityZones" = zones (p.subnets.map .text) := by rw [Fields.get_put, if_pos rfl]
    obtain ⟨row, hrow, -⟩ := attachedKeys_zones hzones
    rw [hrow]
    simp only [bind, Except.bind, pure, Except.pure]
    rw [Entries.put_put, ite_self]

theorem reshaped_withIpType (h : reshaped p fs = .ok gs) : reshaped p (withIpType p fs) = .ok gs := by
  obtain ⟨attached, ha, h⟩ := bind_eq_ok_iff.1 h
  cases h
  unfold reshaped
  rw [attachedKeys_congr (get_withIpType (by decide)), ha, withIpType_eq (ipType_withIpType p fs)]
  rfl

/-- A description in the shape of a plan has its IP address type and is attached to its subnets. -/
theorem ipType_of_reshaped (h : reshaped p fs = .ok gs) :
    p.ipAddressType = "" ∨ Fields.get gs "IpAddressType" = .text p.ipAddressType := by
  obtain ⟨attached, ha, h⟩ := bind_eq_ok_iff.1 h
  cases h
  rw [get_withSubnets (by decide)]
  exact ipType_withIpType p fs

theorem holds_of_attached {vs : List Value} (h : attachedSubnets (.object fs) = .ok vs) :
    ∀ v ∈ vs, v.holds = true := by
  obtain ⟨v, -, h⟩ := bind_eq_ok_iff.1 h
  obtain ⟨zs, -, h⟩ := bind_eq_ok_iff.1 h
  obtain ⟨attached, ha, h⟩ := bind_eq_ok_iff.1 h
  intro v hv
  obtain ⟨z, -, hz⟩ := mem_of_filterMapM ha v ((sortBy_perm h).mem_iff.1 hv)
  obtain ⟨w, hw, hz⟩ := bind_eq_ok_iff.1 hz
  split at hz
  · rename_i hholds
    obtain ⟨v', hv', hz⟩ := bind_eq_ok_iff.1 hz
    cases hz
    cases z with
    | object zs =>
      cases hw
      rw [Fields.get_of_item hv'] at hholds
      exact hholds
    | _ => simp [Value.get, Value.fieldsFor, Mismatch.error, bind, Except.bind] at hw
  · cases hz

theorem sameMembers_iff {as bs : List Key} :
    sameMembers as bs = true ↔ (∀ a ∈ as, ∃ b ∈ bs, (a == b) = true) ∧
      ∀ b ∈ bs, ∃ a ∈ as, (b == a) = true := by
  simp [sameMembers, List.contains_iff_exists_mem_beq]

theorem subnets_of_reshaped (h : reshaped p fs = .ok gs) :
    ∃ attached, attachedSubnets (.object gs) = .ok attached ∧
      ∀ v, v ∈ attached ↔ ∃ n ∈ p.subnets, n ≠ "" ∧ v = .text n := by
  obtain ⟨ks, hks, hgs⟩ := bind_eq_ok_iff.1 (reshaped_of_reshaped h)
  have hgs := Except.ok.inj hgs
  by_cases hs : sameMembers ks (p.subnets.map .text)
  · obtain ⟨vs, hvs, hkeys⟩ := bind_eq_ok_iff.1 hks
    obtain ⟨hks, hsubnets⟩ := sameMembers_iff.1 hs
    refine ⟨vs, hvs, fun v => ⟨fun hv => ?_, ?_⟩⟩
    · obtain ⟨k, hk, hkey⟩ := exists_of_mapM hkeys v hv
      obtain ⟨k', hk', hkk⟩ := hks k hk
      obtain ⟨n, hn, rfl⟩ := List.mem_map.1 hk'
      obtain rfl := Key.eq_text_of_beq hkk
      obtain rfl := Value.eq_toValue_of_key hkey
      have hholds := holds_of_attached hvs _ hv
      exact ⟨n, hn, by rintro rfl; exact absurd hholds (by decide), rfl⟩
    · rintro ⟨n, hn, -, rfl⟩
      obtain ⟨k, hk, hkk⟩ := hsubnets (.text n) (List.mem_map_of_mem hn)
      obtain rfl := Key.eq_text_of_beq (BEq.symm hkk)
      obtain ⟨v, hv, hkey⟩ := mem_of_mapM hkeys _ hk
      obtain rfl := Value.eq_toValue_of_key hkey
      exact hv
  · have hzones : Fields.get gs "AvailabilityZones" = zones (p.subnets.map .text) := by
      rw [← hgs, withSubnets, if_neg hs, Fields.get_put, if_pos rfl]
    obtain ⟨row, hrow, hperm⟩ := exists_attached hzones
    refine ⟨row.map .text, hrow, fun v => ?_⟩
    simp only [List.mem_map, hperm.mem_iff, List.mem_filter, decide_eq_true_eq]
    constructor
    · rintro ⟨n, ⟨hn, hne⟩, rfl⟩
      exact ⟨n, hn, hne, rfl⟩
    · rintro ⟨n, hn, hne, rfl⟩
      exact ⟨n, ⟨hn, hne⟩, rfl⟩

end

/-! ## Tags -/

/-- Whether the cloud manages the tag of a key itself. -/
def isReserved : Key → Bool
  | .text n => Text.startsWith reservedStart n
  | _ => false

/-- The desired tags, and of the old ones that are not desired those that are reserved. -/
def Retagged (old new : Labels) (desired : Fields) : Prop :=
  Meets new desired ∧ ∀ k, (∀ e ∈ desired, (k == .text e.1) = false) →
    new.get? k = if isReserved k then old.get? k else none

section

variable {old new : Labels} {desired : Fields} {s : Resources} {arn : String}

theorem Retagged.settled (h : Retagged old new desired) : Settled new desired := by
  refine ⟨h.1, fun k hk => ?_⟩
  obtain ⟨hkeys, hdes⟩ := mem_undesired.1 hk
  obtain ⟨e, he, rfl⟩ := List.mem_map.1 hkeys
  have hget := h.2 e.1 hdes
  rw [Table.get?_of_mem he] at hget
  split at hget
  · rename_i hres
    cases hk : e.1 with
    | text n =>
      rw [hk] at hres
      exact ⟨n, rfl, hres⟩
    | _ =>
      rw [hk] at hres
      cases hres
  · cases hget

/-- What `convergeTags` leaves of tags. -/
theorem retagged_untagged (hd : Entries.Distinct desired) (hr : Removes (s.tagsOf (.text arn)) desired) :
    Retagged (s.tagsOf (.text arn)) ((untagged (tagged s arn desired) arn desired).tagsOf
      (.text arn)) desired := by
  refine ⟨(settled_untagged hd hr).1, fun k hk => ?_⟩
  have hnone : (labels (toModify (s.tagsOf (.text arn)) desired)).get? k = none := by
    rw [Table.get?, entries_labels (distinct_toModify hd), Entries.find?_eq_none_iff]
    intro e he
    obtain ⟨f, hf, rfl⟩ := List.mem_map.1 he
    rw [BEq.comm]
    exact hk f (mem_toModify.1 hf).1
  rw [tagsOf_untagged, Table.get?_eraseAll, removable_tagged hd, tagsOf_tagged, Table.get?_update,
    hnone, Option.none_or]
  cases hget : (s.tagsOf (.text arn)).get? k with
  | none => simp
  | some v =>
    -- the tag has a text for its key, since all undesired tags have
    obtain ⟨k', hkk, hmem⟩ := Entries.mem_of_find? hget
    have hund : k' ∈ undesired (s.tagsOf (.text arn)) desired :=
      mem_undesired.2 ⟨List.mem_map_of_mem hmem, fun e he => by rw [BEq.congr_left hkk, hk e he]⟩
    obtain ⟨n, rfl⟩ := hr k' hund
    obtain rfl := Key.eq_text_of_beq (BEq.symm hkk)
    cases hres : Text.startsWith reservedStart n with
    | false =>
      have hrem : n ∈ removable (s.tagsOf (.text arn)) desired := mem_removable.2 ⟨hund, hres⟩
      rw [if_pos, if_neg (by simp [isReserved, hres])]
      exact List.any_eq_true.2 ⟨.text n, List.mem_map_of_mem hrem, BEq.rfl⟩
    | true =>
      rw [if_neg (not_any_removable hres), if_pos (show isReserved (.text n) = true from hres)]

/-- Tags that are given to the cloud are all that there are. -/
theorem retagged_labels_sorted (t : Table String Value) : Retagged ∅ (labels t.sorted) t.entries := by
  have hperm : t.sorted.Perm t.entries := Entries.sorted_perm _
  have hd : Entries.Distinct t.sorted := (hperm.pairwise_iff fun h => by rwa [BEq.comm]).2 t.distinct
  constructor
  · intro e he
    rw [get?_labels hd, Entries.find?_self_of_mem hd (hperm.mem_iff.2 he)]
    exact .inl rfl
  · intro k hk
    rw [Table.get?_empty, ite_self, Table.get?, entries_labels hd, Entries.find?_eq_none_iff]
    intro e he
    obtain ⟨f, hf, rfl⟩ := List.mem_map.1 he
    rw [BEq.comm]
    exact hk f (hperm.mem_iff.1 hf)

end

/-! ## Plans that are met -/

/-- What belongs to a load balancer is the same. -/
structure SameLb (k : Key) (s u : Resources) : Prop where
  loadBalancers : u.loadBalancers.get? k = s.loadBalancers.get? k
  lbAttributes : u.lbAttributes.get? k = s.lbAttributes.get? k
  tags : u.tags.get? k = s.tags.get? k

/-- The load balancer of a plan is there, as it is described, and nothing of it has to be changed. -/
structure LbReady (p : LbPlan) (arn : String) (fs : Fields) (u : Resources) : Prop where
  there : u.loadBalancers.get? (.text arn) = some fs
  name : Fields.get fs "LoadBalancerName" = .text p.name
  scheme : Fields.get fs "Scheme" = .text p.scheme
  shape : reshaped p fs = .ok fs
  tags : Settled (u.tagsOf (.text arn)) p.tags.entries

theorem LbReady.congr {p : LbPlan} {arn : String} {fs : Fields} {s u : Resources} (h : LbReady p arn fs s)
    (hsame : SameLb (.text arn) s u) : LbReady p arn fs u where
  there := hsame.loadBalancers.trans h.there
  name := h.name
  scheme := h.scheme
  shape := h.shape
  tags := by
    rw [Resources.tagsOf, hsame.tags]
    exact h.tags

/-! ## A new load balancer -/

/-- The description of a new load balancer of a plan. -/
def plannedLb (p : LbPlan) (n : Nat) : Fields :=
  [("LoadBalancerArn", .text (lbArn p.name n)), ("LoadBalancerName", .text p.name),
    ("DNSName", .text (p.name ++ "-" ++ toString n ++ ".elb.us-east-1.amazonaws.com")),
    ("Type", .text "network"),
    ("Scheme", .text p.scheme),
    ("IpAddressType", .text (if p.ipAddressType = "" then "ipv4" else p.ipAddressType)),
    ("AvailabilityZones", zones (p.subnets.map .text))]

/-- The parameters of a new load balancer of a plan, given its tags. -/
def plannedParams (p : LbPlan) (vs : List Value) : Fields :=
  [("Name", .text p.name), ("Type", .text "network"), ("Scheme", .text p.scheme),
    ("Subnets", textList p.subnets),
    ("Tags", .list vs)] ++ if p.ipAddressType = "" then [] else [("IpAddressType", .text p.ipAddressType)]

section

variable {p : LbPlan} {s : Resources}

theorem lbParams_config {vs : List Value} (h : tagList p.tags.toObject = .ok vs) :
    lbParams p.config = .ok (plannedParams p vs) := by
  simp only [lbParams, LbPlan.config, textList, Value.elements_list, h, bind, Except.bind, pure,
    Except.pure, plannedParams]
  by_cases he : p.ipAddressType = "" <;> simp [he, Value.holds]

theorem newLb_plannedParams (p : LbPlan) (vs : List Value) (n : Nat) :
    newLb (plannedParams p vs) (.text p.name) (p.subnets.map .text) n = plannedLb p n := by
  unfold newLb plannedLb plannedParams
  by_cases he : p.ipAddressType = "" <;> simp [he, Fields.getOr, Entries.find?]

theorem reshaped_plannedLb (p : LbPlan) (n : Nat) : reshaped p (plannedLb p n) = .ok (plannedLb p n) := by
  have hzones : Entries.find? "AvailabilityZones" (plannedLb p n) = some (zones (p.subnets.map .text)) := rfl
  obtain ⟨row, hrow, -⟩ :=
    attachedKeys_zones (show Fields.get (plannedLb p n) "AvailabilityZones" = _ from rfl)
  have hip : withIpType p (plannedLb p n) = plannedLb p n := by
    refine withIpType_eq ?_
    show _ ∨ Value.text (if p.ipAddressType = "" then "ipv4" else p.ipAddressType) = _
    by_cases he : p.ipAddressType = "" <;> simp [he]
  unfold reshaped withSubnets
  rw [hrow, hip]
  simp only [bind, Except.bind, pure, Except.pure]
  rw [Entries.put_of_find? hzones, ite_self]

theorem does_createLb (p : LbPlan) (s : Resources) :
    (createLb p.config).Does s (.object (plannedLb p s.nextId))
      (s.addLb (.text (lbArn p.name s.nextId)) (plannedLb p s.nextId) (labels p.tags.sorted)) := by
  obtain ⟨vs, hvs, hread⟩ := readTags_tagList p.tags
  have helements : (textList p.subnets).elementsIfAny = .ok (p.subnets.map .text) := by
    unfold textList Value.elementsIfAny
    cases p.subnets <;> rfl
  have hname : Fields.item (plannedParams p vs) "Name" = .ok (.text p.name) := rfl
  have harn : (Value.object (plannedLb p s.nextId)).item "LoadBalancerArn" =
      .ok (.text (lbArn p.name s.nextId)) := rfl
  have hstep := Resources.perform_createLb s (plannedParams p vs) hname helements hread
  rw [newLb_plannedParams, Value.shown_text] at hstep
  unfold createLb
  refine (Program.does_lift (lbParams_config hvs) s).before
    (((Program.does_answer hstep).warning _ _).after ?_)
  refine (Program.does_lift harn _).before ?_
  exact (Program.does_info _ _ _).before (Program.does_pure _ _)

theorem lbReady_addLb (p : LbPlan) (s : Resources) :
    LbReady p (lbArn p.name s.nextId) (plannedLb p s.nextId)
      (s.addLb (.text (lbArn p.name s.nextId)) (plannedLb p s.nextId) (labels p.tags.sorted)) where
  there := Table.get?_insert_self _ _ _
  name := rfl
  scheme := rfl
  shape := reshaped_plannedLb p _
  tags := by
    rw [Resources.tagsOf, Resources.addLb_tags, Table.get?_insert_self]
    exact (retagged_labels_sorted p.tags).settled

end

/-! ## Modifying -/

section

variable {p : LbPlan} {s t u : Resources} {arn : String} {fs gs : Fields} {attached : List Key}

theorem does_convergeIpType (hk : s.loadBalancers.get? (.text arn) = some fs) :
    (convergeIpType (.text arn) (.object fs) p.config).Does s () (s.putLb (.text arn) (withIpType p fs)) := by
  have hself : (pure () : Program Unit).Does s () (s.putLb (.text arn) fs) := by
    rw [Resources.putLb_of_get? hk]
    exact Program.does_pure () s
  have hholds : p.config.ipAddressType.holds = !decide (p.ipAddressType = "") := by
    by_cases he : p.ipAddressType = "" <;> simp [LbPlan.config, Value.holds, he]
  have hip : p.config.ipAddressType = .text p.ipAddressType := rfl
  unfold convergeIpType withIpType
  rw [hholds, hip]
  by_cases he : p.ipAddressType = ""
  · simp only [he, decide_true, Bool.not_true, Bool.not_false, if_true, Bool.true_or]
    exact hself
  simp only [he, decide_false, Bool.not_false, Bool.not_true, Bool.false_or, Bool.false_eq_true, if_false]
  refine Program.Does.before (Program.does_lift (Value.get_object fs _) s) ?_
  by_cases hs : (Fields.get fs "IpAddressType").same (.text p.ipAddressType)
  · rw [if_pos hs, if_pos hs]
    exact hself
  · rw [if_neg hs, if_neg hs]
    have hstep := Resources.perform_setIpAddressType s arn (.text p.ipAddressType) hk
    exact ((Program.does_answer hstep).warning _ _).after (Program.does_info _ _ _)

/-- `convergeSubnets` goes by a description that may be older than what it changes. -/
theorem does_convergeSubnets (ha : attachedKeys fs = .ok attached)
    (hk : s.loadBalancers.get? (.text arn) = some gs) :
    (convergeSubnets (.text arn) (.object fs) p.config).Does s ()
      (s.putLb (.text arn) (withSubnets p attached gs)) := by
  obtain ⟨vs, hvs, hkeys⟩ := bind_eq_ok_iff.1 ha
  obtain ⟨row, hrow, -⟩ := Value.sorted_texts p.subnets
  unfold convergeSubnets withSubnets
  simp only [Program.mapM_liftM]
  refine (Program.does_lift hvs s).before ((Program.does_lift hkeys s).before ?_)
  refine (Program.does_lift (Value.elements_list (p.subnets.map .text)) s).before ?_
  refine (Program.does_lift (mapM_key_texts p.subnets) s).before ?_
  by_cases hs : sameMembers attached (p.subnets.map .text)
  · rw [if_pos hs, if_pos hs, Resources.putLb_of_get? hk]
    exact Program.does_pure () s
  · rw [if_neg hs, if_neg hs]
    have hstep := Resources.perform_setSubnets s arn (p.subnets.map .text) hk
    refine (Program.does_lift hrow s).before ?_
    exact ((Program.does_answer hstep).warning _ _).after (Program.does_info _ _ _)

theorem fails_convergeSubnets {e : Error} (ha : attachedKeys fs = .error e) (s : Resources) :
    (convergeSubnets (.text arn) (.object fs) p.config).Fails s := by
  unfold convergeSubnets
  simp only [Program.mapM_liftM]
  cases hvs : attachedSubnets (.object fs) with
  | error e' => exact (Program.fails_lift rfl s).bind _
  | ok vs =>
    have hkeys : vs.mapM Value.key = .error e := by simpa [attachedKeys, hvs, bind, Except.bind] using ha
    exact Program.Does.fails_bind (Program.does_lift rfl s) ((Program.fails_lift hkeys s).bind _)

/-- What a run of `modifyLb` does. -/
theorem yields_modifyLb (hk : s.loadBalancers.get? (.text arn) = some fs)
    (harn : Fields.get fs "LoadBalancerArn" = .text arn) :
    (modifyLb (.object fs) p.config).Yields s () t ↔
      ∃ gs b, reshaped p fs = .ok gs ∧
        (convergeTags (.text arn) p.tags.toObject).Yields (s.putLb (.text arn) gs) b t := by
  have hitem : (Value.object fs).item "LoadBalancerArn" = .ok (.text arn) := Fields.item_of_get_text harn
  have hput : (s.putLb (.text arn) (withIpType p fs)).loadBalancers.get? (.text arn) =
      some (withIpType p fs) :=
    Table.get?_insert_self _ _ _
  unfold modifyLb reshaped
  rw [(Program.does_lift hitem s).yields_bind_iff, (does_convergeIpType hk).yields_bind_iff]
  cases ha : attachedKeys fs with
  | error e =>
    constructor
    · intro h
      exact absurd h (((fails_convergeSubnets ha _).bind _).1 _ _)
    · rintro ⟨gs, b, hgs, -⟩
      cases hgs
  | ok attached =>
    rw [(does_convergeSubnets ha hput).yields_bind_iff, Resources.putLb_putLb, Program.yields_bind]
    constructor
    · rintro ⟨b, t', h, ht⟩
      obtain ⟨-, rfl⟩ := Program.yields_pure.1 ht
      exact ⟨_, b, rfl, h⟩
    · rintro ⟨gs, b, hgs, h⟩
      cases hgs
      exact ⟨b, t, h, Program.yields_pure.2 ⟨rfl, rfl⟩⟩

theorem visits_modifyLb (hk : s.loadBalancers.get? (.text arn) = some fs)
    (harn : Fields.get fs "LoadBalancerArn" = .text arn) (h : (modifyLb (.object fs) p.config).Visits s u) :
    u = s ∨ u = s.putLb (.text arn) (withIpType p fs) ∨
      ∃ gs, reshaped p fs = .ok gs ∧ (convergeTags (.text arn) p.tags.toObject).Visits
        (s.putLb (.text arn) gs) u := by
  have hitem : (Value.object fs).item "LoadBalancerArn" = .ok (.text arn) := Fields.item_of_get_text harn
  have hput : (s.putLb (.text arn) (withIpType p fs)).loadBalancers.get? (.text arn) =
      some (withIpType p fs) :=
    Table.get?_insert_self _ _ _
  unfold modifyLb at h
  rcases (Program.does_lift hitem s).visits_bind h with rfl | h
  · exact .inl rfl
  rcases (does_convergeIpType hk).visits_bind h with rfl | h
  · exact .inl rfl
  right
  cases ha : attachedKeys fs with
  | error e => exact .inl (((fails_convergeSubnets ha _).bind _).2 u h)
  | ok attached =>
    refine ((does_convergeSubnets ha hput).visits_bind h).imp_right fun h => ?_
    rw [Resources.putLb_putLb] at h
    refine ⟨_, by rw [reshaped, ha]; rfl, ?_⟩
    rcases Program.visits_bind.1 h with h | ⟨b, t, ht, h⟩
    · exact h
    · rw [Program.visits_pure.1 h]
      exact ht.visits

end

/-! ## The load balancer of a plan -/

/-- What is kept of a live load balancer: its ARN and its host name. -/
def lbView (live : Value) : Except Error Value × Except Error Value :=
  (live.item "LoadBalancerArn", live.getOr "DNSName" (.text ""))

theorem lbView_congr {fs gs : Fields} (h : ∀ k, k ∉ ["IpAddressType", "AvailabilityZones"] →
    Entries.find? k gs = Entries.find? k fs) : lbView (.object gs) = lbView (.object fs) := by
  unfold lbView
  rw [Value.item_object, Value.item_object, Value.getOr_object, Value.getOr_object, Fields.item, Fields.item,
    Fields.getOr, Fields.getOr, h _ (by decide), h _ (by decide)]

/-- The tags that a load balancer has before it is converged: those of the live one,
unless it is made anew. -/
def TagsBefore (p : LbPlan) (s : Resources) (old : Labels) : Prop :=
  (∃ k fs, s.loadBalancers.get? k = some fs ∧ Fields.get fs "LoadBalancerName" = .text p.name ∧
      Fields.get fs "Scheme" = .text p.scheme ∧ old = s.tagsOf k) ∨
    (∀ k fs, s.loadBalancers.get? k = some fs → Fields.get fs "LoadBalancerName" = .text p.name →
      Fields.get fs "Scheme" ≠ .text p.scheme) ∧ old = ∅

section

variable {p : LbPlan} {s t u : Resources} {arn : String} {fs gs : Fields}

/-- Where no load balancer has the name, `ensureLb` creates one. -/
theorem does_ensureLb
    (hnone : ∀ k fs, s.loadBalancers.get? k = some fs → Fields.get fs "LoadBalancerName" ≠ .text p.name) :
    (ensureLb p.config).Does s (.object (plannedLb p s.nextId))
      (s.addLb (.text (lbArn p.name s.nextId)) (plannedLb p s.nextId) (labels p.tags.sorted)) := by
  have hread := Program.does_answer (Resources.perform_loadBalancerNamed s (.text p.name))
  rw [Resources.named_eq_null_iff.2 hnone] at hread
  exact hread.before (does_createLb p s)

theorem does_loadBalancerNamed (hs : s.WellFormed) (hk : s.loadBalancers.get? (.text arn) = some fs)
    (hn : Fields.get fs "LoadBalancerName" = .text p.name) :
    (Program.answer (.loadBalancerNamed p.config.name)).Does s (.object fs) s := by
  have hread := Program.does_answer (Resources.perform_loadBalancerNamed s (.text p.name))
  rwa [hs.uniqueLbNames.lbNamed hk hn] at hread

theorem get_arn (hs : s.WellFormed) (hk : s.loadBalancers.get? (.text arn) = some fs) :
    Fields.get fs "LoadBalancerArn" = .text arn := by
  obtain ⟨arn', harn', harn⟩ := hs.lbOwn hk
  cases harn'
  exact harn

/-- Where the load balancer is there with the scheme, `ensureLb` modifies it. -/
theorem yields_ensureLb_live {live : Value} (hs : s.WellFormed)
    (hk : s.loadBalancers.get? (.text arn) = some fs) (hn : Fields.get fs "LoadBalancerName" = .text p.name)
    (hsch : Fields.get fs "Scheme" = .text p.scheme) :
    (ensureLb p.config).Yields s live t ↔ live = .object fs ∧ ∃ gs b, reshaped p fs = .ok gs ∧
      (convergeTags (.text arn) p.tags.toObject).Yields (s.putLb (.text arn) gs) b t := by
  unfold ensureLb
  rw [(does_loadBalancerNamed hs hk hn).yields_bind_iff]
  show (_ >>= _ : Program Value).Yields s live t ↔ _
  rw [(Program.does_lift (Value.get_object fs "Scheme") s).yields_bind_iff, hsch,
    show p.config.scheme = .text p.scheme from rfl, Value.same_self_text,
    if_neg (by simp), Program.yields_bind, ← yields_modifyLb hk (get_arn hs hk)]
  constructor
  · rintro ⟨_, t', h, hl⟩
    obtain ⟨rfl, rfl⟩ := Program.yields_pure.1 hl
    exact ⟨rfl, h⟩
  · rintro ⟨rfl, h⟩
    exact ⟨(), t, h, Program.yields_pure.2 ⟨rfl, rfl⟩⟩

theorem visits_ensureLb_live (hs : s.WellFormed) (hk : s.loadBalancers.get? (.text arn) = some fs)
    (hn : Fields.get fs "LoadBalancerName" = .text p.name) (hsch : Fields.get fs "Scheme" = .text p.scheme)
    (h : (ensureLb p.config).Visits s u) :
    u = s ∨ u = s.putLb (.text arn) (withIpType p fs) ∨
      ∃ gs, reshaped p fs = .ok gs ∧ (convergeTags (.text arn) p.tags.toObject).Visits
        (s.putLb (.text arn) gs) u := by
  unfold ensureLb at h
  rcases (does_loadBalancerNamed hs hk hn).visits_bind h with rfl | h
  · exact .inl rfl
  rcases (Program.does_lift (Value.get_object fs "Scheme") s).visits_bind h with rfl | h
  · exact .inl rfl
  rw [hsch, show p.config.scheme = .text p.scheme from rfl, Value.same_self_text, if_neg (by simp)] at h
  refine visits_modifyLb hk (get_arn hs hk) ?_
  rcases Program.visits_bind.1 h with h | ⟨_, t, ht, h⟩
  · exact h
  · rw [Program.visits_pure.1 h]
    exact ht.visits

/-- Where the load balancer is there with another scheme, `ensureLb` deletes it first. -/
theorem does_deleteLb_ensureLb (hs : s.WellFormed) (hk : s.loadBalancers.get? (.text arn) = some fs)
    (hn : Fields.get fs "LoadBalancerName" = .text p.name) (hsch : Fields.get fs "Scheme" ≠ .text p.scheme) :
    (∀ live t, (ensureLb p.config).Yields s live t ↔ (createLb p.config).Yields (s.dropLb arn) live t) ∧
      ∀ u, (ensureLb p.config).Visits s u → u = s ∨ (createLb p.config).Visits (s.dropLb arn) u := by
  have hread := does_loadBalancerNamed hs hk hn
  have hscheme := Program.does_lift (Value.get_object fs "Scheme") s
  have hitem : (Value.object fs).item "LoadBalancerArn" = .ok (.text arn) :=
    Fields.item_of_get_text (get_arn hs hk)
  have harn := Program.does_lift hitem s
  have hdelete := Program.does_answer (Resources.perform_deleteLb s arn)
  have hinfo := fun reason text => Program.does_info reason text (s.dropLb arn)
  have hne : (!(Fields.get fs "Scheme").same p.config.scheme) = true := by
    rw [Bool.not_eq_true', ← Bool.not_eq_true]
    exact fun h => hsch ((Value.same_text_iff _ _).1 h)
  constructor
  · intro live t
    unfold ensureLb
    rw [hread.yields_bind_iff]
    show (_ >>= _ : Program Value).Yields s live t ↔ _
    rw [hscheme.yields_bind_iff, if_pos hne, recreateLb, harn.yields_bind_iff, hdelete.yields_bind_iff,
      (hinfo _ _).yields_bind_iff]
  · intro u h
    unfold ensureLb at h
    rcases hread.visits_bind h with rfl | h
    · exact .inl rfl
    rcases hscheme.visits_bind h with rfl | h
    · exact .inl rfl
    rw [if_pos hne] at h
    rcases harn.visits_bind h with rfl | h
    · exact .inl rfl
    rcases hdelete.visits_bind h with rfl | h
    · exact .inl rfl
    rcases (hinfo _ _).visits_bind h with rfl | h
    · exact .inr (Program.visits_self _ _)
    · exact .inr h

/-- Every load balancer of the name is gone once the one that there was is deleted. -/
theorem not_named_dropLb {name : String} (hs : s.UniqueLbNames)
    (hk : s.loadBalancers.get? (.text arn) = some fs) (hn : Fields.get fs "LoadBalancerName" = .text name) :
    ∀ k fs, (s.dropLb arn).loadBalancers.get? k = some fs →
      Fields.get fs "LoadBalancerName" ≠ .text name := by
  intro k gs hg hn'
  obtain ⟨hkk, hg⟩ := Table.get?_erase_eq_some_iff.1 hg
  obtain rfl := hs hk hg hn hn'
  exact absurd BEq.rfl (Bool.eq_false_iff.1 hkk)

theorem wellFormed_addLb (hs : s.WellFormed)
    (hnone : ∀ k fs, s.loadBalancers.get? k = some fs → Fields.get fs "LoadBalancerName" ≠ .text p.name) :
    (s.addLb (.text (lbArn p.name s.nextId)) (plannedLb p s.nextId) (labels p.tags.sorted)).WellFormed := by
  refine hs.addLb (Resources.numbered_lbArn _ _) rfl fun k lb name hk hname => ?_
  rintro ⟨⟩
  exact hnone k lb hk hname

theorem wellFormed_putLb (hs : s.WellFormed) (hk : s.loadBalancers.get? (.text arn) = some fs)
    (hget : ∀ k, k ∉ ["IpAddressType", "AvailabilityZones"] → Fields.get gs k = Fields.get fs k) :
    (s.putLb (.text arn) gs).WellFormed := by
  refine hs.putLb hk fun k hk => hget k ?_
  revert k
  decide

/-- Whether the load balancer of a plan is there: not at all, with another scheme, or with its scheme. -/
theorem lb_cases (p : LbPlan) (hs : s.WellFormed) :
    (∀ k fs, s.loadBalancers.get? k = some fs → Fields.get fs "LoadBalancerName" ≠ .text p.name) ∨
      ∃ arn fs, s.loadBalancers.get? (.text arn) = some fs ∧ Fields.get fs "LoadBalancerName" = .text p.name ∧
        (Fields.get fs "Scheme" = .text p.scheme ∨ Fields.get fs "Scheme" ≠ .text p.scheme) := by
  by_cases h : ∃ k fs, s.loadBalancers.get? k = some fs ∧ Fields.get fs "LoadBalancerName" = .text p.name
  · obtain ⟨k, fs, hk, hn⟩ := h
    obtain ⟨arn, rfl, -⟩ := hs.lbOwn hk
    exact .inr ⟨arn, fs, hk, hn, Classical.em _⟩
  · exact .inl fun k fs hk hn => h ⟨k, fs, hk, hn⟩

/-- What a run of `ensureLb` brings about. -/
theorem yields_ensureLb {live : Value} (hs : s.WellFormed) (h : (ensureLb p.config).Yields s live t) :
    ∃ arn fs old, LbReady p arn fs t ∧ lbView live = lbView (.object fs) ∧ TagsBefore p s old ∧
      Retagged old (t.tagsOf (.text arn)) p.tags.entries := by
  rcases lb_cases p hs with hnone | ⟨arn, fs, hk, hn, hsch | hsch⟩
  · obtain ⟨rfl, rfl⟩ := (does_ensureLb hnone).1.unique h
    refine ⟨_, _, ∅, lbReady_addLb p s, rfl, .inr ⟨fun k fs hk hn => absurd hn (hnone k fs hk), rfl⟩, ?_⟩
    rw [Resources.tagsOf, Resources.addLb_tags, Table.get?_insert_self]
    exact retagged_labels_sorted p.tags
  · obtain ⟨rfl, gs, b, hgs, h⟩ := (yields_ensureLb_live hs hk hn hsch).1 h
    obtain ⟨hr, rfl, -⟩ := (yields_convergeTags p.tags.distinct).1 h
    have hkeep := (tagsAt_tagged (s.putLb (.text arn) gs) arn p.tags.entries).trans
      (tagsAt_untagged _ arn p.tags.entries)
    have hretag := retagged_untagged p.tags.distinct hr
    refine ⟨arn, gs, s.tagsOf (.text arn), ⟨?_, ?_, ?_, reshaped_of_reshaped hgs, hretag.settled⟩, ?_,
      .inl ⟨_, fs, hk, hn, hsch, rfl⟩, hretag⟩
    · obtain ⟨⟨l, hl⟩, -⟩ := hkeep
      rw [hl]
      exact Table.get?_insert_self _ _ _
    · rw [get_of_reshaped hgs (by decide), hn]
    · rw [get_of_reshaped hgs (by decide), hsch]
    · exact (lbView_congr fun k hk => find?_of_reshaped hgs hk).symm
  · obtain ⟨hyields, -⟩ := does_deleteLb_ensureLb hs hk hn hsch
    obtain ⟨rfl, rfl⟩ := (does_createLb p _).1.unique ((hyields _ _).1 h)
    refine ⟨_, _, ∅, lbReady_addLb p _, rfl, .inr ⟨fun k gs hg hn' => ?_, rfl⟩, ?_⟩
    · obtain rfl := hs.lbName hk hg hn hn'
      rw [hk] at hg
      cases hg
      exact hsch
    · rw [Resources.tagsOf, Resources.addLb_tags, Table.get?_insert_self]
      exact retagged_labels_sorted p.tags

/-- Cut off anywhere, `ensureLb` leaves well-formed resources. -/
theorem always_ensureLb (hs : s.WellFormed) : (ensureLb p.config).Always Resources.WellFormed s := by
  intro u hu
  have hcreate : ∀ s : Resources, s.WellFormed →
      (∀ k fs, s.loadBalancers.get? k = some fs → Fields.get fs "LoadBalancerName" ≠ .text p.name) →
      ∀ u, u = s ∨ u = s.addLb (.text (lbArn p.name s.nextId)) (plannedLb p s.nextId) (labels p.tags.sorted) →
        u.WellFormed := by
    rintro s hs hnone u (rfl | rfl)
    · exact hs
    · exact wellFormed_addLb hs hnone
  rcases lb_cases p hs with hnone | ⟨arn, fs, hk, hn, hsch | hsch⟩
  · exact hcreate s hs hnone u ((does_ensureLb hnone).2 u hu)
  · rcases visits_ensureLb_live hs hk hn hsch hu with rfl | rfl | ⟨gs, hgs, hu⟩
    · exact hs
    · refine wellFormed_putLb hs hk fun k hk => get_withIpType ?_
      rintro rfl
      exact hk (by decide)
    · exact (always_convergeTags _ arn p.tags.distinct u hu).wellFormed
        (wellFormed_putLb hs hk fun k hk => get_of_reshaped hgs hk)
  · obtain ⟨-, hvisits⟩ := does_deleteLb_ensureLb hs hk hn hsch
    rcases hvisits u hu with rfl | hu
    · exact hs
    · exact hcreate _ (hs.dropLb arn) (not_named_dropLb hs.uniqueLbNames hk hn) u ((does_createLb p _).2 u hu)

theorem sameMembers_of_zones (hzones : Fields.get fs "AvailabilityZones" = zones (p.subnets.map .text))
    {attached : List Key} (ha : attachedKeys fs = .ok attached) (hne : "" ∉ p.subnets) :
    sameMembers attached (p.subnets.map .text) = true := by
  obtain ⟨row, hrow, hperm⟩ := attachedKeys_zones hzones
  rw [ha] at hrow
  cases hrow
  have hmem : ∀ n, n ∈ row ↔ n ∈ p.subnets := by
    intro n
    rw [hperm.mem_iff, List.mem_filter, decide_eq_true_eq, and_iff_left_iff_imp]
    rintro hn rfl
    exact hne hn
  rw [sameMembers_iff]
  constructor
  · intro k hk
    obtain ⟨n, hn, rfl⟩ := List.mem_map.1 hk
    exact ⟨_, List.mem_map_of_mem ((hmem n).1 hn), BEq.rfl⟩
  · intro k hk
    obtain ⟨n, hn, rfl⟩ := List.mem_map.1 hk
    exact ⟨_, List.mem_map_of_mem ((hmem n).2 hn), BEq.rfl⟩

theorem ends_convergeIpType (h : p.ipAddressType = "" ∨ Fields.get fs "IpAddressType" = .text p.ipAddressType)
    (arn : Value) (u : Resources) : (convergeIpType arn (.object fs) p.config).Ends u () [] u := by
  unfold convergeIpType
  rcases h with h | h
  · have hholds : p.config.ipAddressType.holds = false := by simp [LbPlan.config, Value.holds, h]
    rw [hholds]
    exact Program.ends_pure.2 ⟨rfl, rfl, rfl⟩
  · split
    · exact Program.ends_pure.2 ⟨rfl, rfl, rfl⟩
    · refine Program.ends_lift_bind.2 ⟨_, Value.get_object fs _, ?_⟩
      rw [h, show p.config.ipAddressType = .text p.ipAddressType from rfl, Value.same_self_text]
      exact Program.ends_pure.2 ⟨rfl, rfl, rfl⟩

theorem rests_convergeSubnets (hk : u.loadBalancers.get? (.text arn) = some fs) {attached : List Key}
    (ha : attachedKeys fs = .ok attached) (h : withSubnets p attached fs = fs) :
    (convergeSubnets (.text arn) (.object fs) p.config).Rests ("" ∉ p.subnets) (fun _ => ()) u () := by
  by_cases hs : sameMembers attached (p.subnets.map .text)
  · obtain ⟨vs, hvs, hkeys⟩ := bind_eq_ok_iff.1 ha
    unfold convergeSubnets
    simp only [Program.mapM_liftM]
    refine Program.Rests.lift_bind hvs (Program.Rests.lift_bind hkeys ?_)
    refine Program.Rests.lift_bind (Value.elements_list (p.subnets.map .text)) ?_
    refine Program.Rests.lift_bind (mapM_key_texts p.subnets) ?_
    rw [if_pos hs]
    exact Program.Rests.of_ends (Program.ends_pure.2 ⟨rfl, rfl, rfl⟩)
  · have hstep : (convergeSubnets (.text arn) (.object fs) p.config).Does u () _ := does_convergeSubnets ha hk
    rw [h, Resources.putLb_of_get? hk] at hstep
    obtain ⟨⟨rs, he⟩, -⟩ := hstep
    refine ⟨(), rs, he, rfl, fun hne => ?_⟩
    rw [withSubnets, if_neg hs] at h
    have hzones : Fields.get fs "AvailabilityZones" = zones (p.subnets.map .text) := by
      rw [← h, Fields.get_put, if_pos rfl]
    exact absurd (sameMembers_of_zones hzones ha hne) hs

/-- Where the load balancer of a plan is ready, nothing more is done to it. -/
theorem rests_ensureLb (hu : u.WellFormed) (h : LbReady p arn fs u) :
    (ensureLb p.config).Rests (Definite p.tags.entries ∧ "" ∉ p.subnets) lbView u (lbView (.object fs)) := by
  have hitem : (Value.object fs).item "LoadBalancerArn" = .ok (.text arn) :=
    Fields.item_of_get_text (get_arn hu h.there)
  have hip := ipType_of_reshaped h.shape
  obtain ⟨attached, ha, hsubnets⟩ := bind_eq_ok_iff.1 h.shape
  rw [withIpType_eq hip] at hsubnets
  have hsubnets := Except.ok.inj hsubnets
  have hmodify : (modifyLb (.object fs) p.config).Rests (Definite p.tags.entries ∧ "" ∉ p.subnets)
      (fun _ => ()) u () := by
    unfold modifyLb
    refine Program.Rests.lift_bind hitem ?_
    refine Program.Rests.bind (v := id) (Program.Rests.of_ends (ends_convergeIpType hip _ u)) fun _ _ => ?_
    refine Program.Rests.bind ((rests_convergeSubnets h.there ha hsubnets).mono fun hq => hq.2) fun _ _ => ?_
    refine Program.Rests.bind ((rests_convergeTags p.tags.distinct h.tags).mono fun hq => hq.1) fun _ _ => ?_
    exact Program.Rests.of_ends (Program.ends_pure.2 ⟨rfl, rfl, rfl⟩)
  unfold ensureLb
  refine Program.Rests.bind (v := id)
    (Program.Rests.of_ends (a := .object fs) (Program.ends_answer.2 ⟨?_, rfl⟩)) ?_
  · rw [show p.config.name = .text p.name from rfl, Resources.perform_loadBalancerNamed,
      hu.uniqueLbNames.lbNamed h.there h.name]
  rintro _ rfl
  refine Program.Rests.lift_bind (Value.get_object fs "Scheme") ?_
  rw [h.scheme, show p.config.scheme = .text p.scheme from rfl, Value.same_self_text, if_neg (by simp)]
  exact Program.Rests.bind hmodify fun _ _ => Program.Rests.of_ends (Program.ends_pure.2 ⟨rfl, rfl, rfl⟩)

/-- Cut off anywhere, `ensureLb` can be done again. -/
theorem resumes_ensureLb (hs : s.WellFormed) : (ensureLb p.config).Resumes lbView s := by
  intro live t u ht hu
  have hwf := always_ensureLb hs u hu
  -- what is left to be done is nothing where the run ended
  have hend : u = t → ∃ live', (ensureLb p.config).Yields u live' t ∧ lbView live' = lbView live := by
    rintro rfl
    obtain ⟨arn, fs, old, hready, hview, -⟩ := yields_ensureLb hs ht
    rw [hview]
    exact (rests_ensureLb hwf hready).yields
  rcases lb_cases p hs with hnone | ⟨arn, fs, hk, hn, hsch | hsch⟩
  · have hdoes := does_ensureLb hnone
    rcases hdoes.2 u hu with rfl | rfl
    · exact ⟨live, ht, rfl⟩
    · exact hend (ht.unique hdoes.1).2
  · obtain ⟨rfl, gs, b, hgs, htags⟩ := (yields_ensureLb_live hs hk hn hsch).1 ht
    rcases visits_ensureLb_live hs hk hn hsch hu with rfl | rfl | ⟨gs', hgs', hu⟩
    · exact ⟨_, ht, rfl⟩
    · have hfind : ∀ k, k ∉ ["IpAddressType", "AvailabilityZones"] →
          Entries.find? k (withIpType p fs) = Entries.find? k fs := by
        intro k hk
        refine find?_withIpType ?_
        rintro rfl
        exact hk (by decide)
      refine ⟨.object (withIpType p fs), (yields_ensureLb_live hwf (Table.get?_insert_self _ _ _) ?_ ?_).2
        ⟨rfl, gs, b, reshaped_withIpType hgs, ?_⟩, lbView_congr hfind⟩
      · rw [get_withIpType (by decide), hn]
      · rw [get_withIpType (by decide), hsch]
      · rwa [Resources.putLb_putLb]
    · rw [hgs] at hgs'
      cases hgs'
      obtain ⟨b', hb', -⟩ := resumes_convergeTags _ arn p.tags.distinct b t u htags hu
      have hk' : u.loadBalancers.get? (.text arn) = some gs := by
        obtain ⟨⟨l, rfl⟩, -⟩ := always_convergeTags _ arn p.tags.distinct u hu
        exact Table.get?_insert_self _ _ _
      refine ⟨.object gs, (yields_ensureLb_live hwf hk' ?_ ?_).2 ⟨rfl, gs, b', reshaped_of_reshaped hgs, ?_⟩,
        lbView_congr fun k hk => find?_of_reshaped hgs hk⟩
      · rw [get_of_reshaped hgs (by decide), hn]
      · rw [get_of_reshaped hgs (by decide), hsch]
      · rwa [Resources.putLb_of_get? hk']
  · obtain ⟨hyields, hvisits⟩ := does_deleteLb_ensureLb hs hk hn hsch
    have hdoes := does_createLb p (s.dropLb arn)
    rcases hvisits u hu with rfl | hu
    · exact ⟨live, ht, rfl⟩
    obtain ⟨rfl, rfl⟩ := hdoes.1.unique ((hyields live t).1 ht)
    rcases hdoes.2 u hu with rfl | rfl
    · exact ⟨_, (does_ensureLb (not_named_dropLb hs.uniqueLbNames hk hn)).1, rfl⟩
    · exact hend rfl

end

/-! ## The load balancer of a Service -/

section

variable {i : Inputs} {service : Value} {settings : ServiceSettings} {p : LbPlan}
  {s t u : Resources} {arn : String} {fs : Fields}

/-- The load balancer of a Service is there, and nothing of it or of its attributes has to be changed. -/
structure LbMet (i : Inputs) (service : Value) (settings : ServiceSettings) (p : LbPlan)
    (arn : String) (fs : Fields) (u : Resources) : Prop where
  planned : (buildLb i service settings).Ends u p.config [] u
  allowed : checkScheme i.config service p.config = .ok ()
  ready : LbReady p arn fs u
  attributes : Meets (u.lbAttributesOf (.text arn)) (textFields settings.loadBalancer.attributes)

theorem LbMet.congr (h : LbMet i service settings p arn fs s) (hsubnets : u.subnets = s.subnets)
    (htags : u.subnetTags = s.subnetTags) (hsame : SameLb (.text arn) s u) :
    LbMet i service settings p arn fs u where
  planned := ((surveys_buildLb i service settings).ends h.planned.yields hsubnets htags).2
  allowed := h.allowed
  ready := h.ready.congr hsame
  attributes := by
    rw [Resources.lbAttributesOf, hsame.lbAttributes]
    exact h.attributes

/-- `convergeLb` once the configuration is known. -/
def realizeLb (i : Inputs) (service : Value) (settings : ServiceSettings) (lb : LoadBalancerConfig) :
    Program Value := do
  checkScheme i.config service lb
  let live ← ensureLb lb
  let arn ← live.item "LoadBalancerArn"
  let _ ← convergeLbAttributes arn settings.loadBalancer.attributes.toTextObject
  return live

theorem wellFormed_lbAttributed (hs : s.WellFormed) (arn : String) (desired : Fields) :
    (lbAttributed s arn desired).WellFormed := by
  unfold lbAttributed
  split
  · exact hs
  · exact hs.putLbAttributes _ _

theorem sameButAttributes_lbAttributed (s : Resources) (arn : String) (desired : Fields) :
    (lbAttributed s arn desired).loadBalancers = s.loadBalancers ∧
      (lbAttributed s arn desired).tags = s.tags := by
  unfold lbAttributed
  split
  · exact ⟨rfl, rfl⟩
  · exact ⟨rfl, rfl⟩

theorem lbReady_lbAttributed (h : LbReady p arn fs s) (arn' : String) (desired : Fields) :
    LbReady p arn fs (lbAttributed s arn' desired) := by
  obtain ⟨hlb, htags⟩ := sameButAttributes_lbAttributed s arn' desired
  refine ⟨hlb ▸ h.there, h.name, h.scheme, h.shape, ?_⟩
  rw [Resources.tagsOf, htags]
  exact h.tags

/-- The ARN of the live load balancer. -/
theorem item_of_lbView {live : Value} (hs : s.WellFormed) (h : LbReady p arn fs s)
    (hview : lbView live = lbView (.object fs)) : live.item "LoadBalancerArn" = .ok (.text arn) := by
  have hitem : (Value.object fs).item "LoadBalancerArn" = .ok (.text arn) :=
    Fields.item_of_get_text (get_arn hs h.there)
  exact (Prod.mk.inj hview).1.trans hitem

/-- What a run of `convergeLb` brings about. -/
theorem yields_convergeLb {live : Value} (hs : s.WellFormed) (htext : TextSubnets s)
    (h : (convergeLb i service settings).Yields s live t) :
    ∃ p arn fs old, LbMet i service settings p arn fs t ∧ lbView live = lbView (.object fs) ∧
      TagsBefore p s old ∧
      Retagged old (t.tagsOf (.text arn)) p.tags.entries := by
  have hground := Program.always_ground _ s t h.visits
  obtain ⟨config, t₀, hbuild, hrest⟩ := Program.yields_bind.1 h
  obtain ⟨ns, name, tags, p, -, -, -, -, -, -, rfl, -⟩ := exists_plan htext hbuild
  obtain ⟨rfl, hplanned⟩ := (surveys_buildLb i service settings).ends hbuild hground.1 hground.2
  obtain ⟨_, hcheck, hrest⟩ := Program.yields_lift_bind.1 hrest
  obtain ⟨live', t₁, hlive, hrest⟩ := Program.yields_bind.1 hrest
  obtain ⟨arn, fs, old, hready, hview, hold, hretag⟩ := yields_ensureLb hs hlive
  rw [item_of_lbView ((always_ensureLb hs).yields hlive) hready hview] at hrest
  obtain ⟨_, harn, hrest⟩ := Program.yields_lift_bind.1 hrest
  cases harn
  rw [toTextObject_eq, (does_convergeLbAttributes t₁ arn _).yields_bind_iff] at hrest
  obtain ⟨rfl, rfl⟩ := Program.yields_pure.1 hrest
  have hmeets := meets_lbAttributed t₁ arn (distinct_textFields settings.loadBalancer.attributes)
  refine ⟨p, arn, fs, old, ⟨hplanned, hcheck, lbReady_lbAttributed hready arn _, hmeets⟩, hview, hold, ?_⟩
  rwa [Resources.tagsOf, (sameButAttributes_lbAttributed t₁ arn _).2]

theorem always_realizeLb (hs : s.WellFormed) :
    (realizeLb i service settings p.config).Always Resources.WellFormed s := by
  refine Program.Always.lift_bind hs fun _ _ => Program.Always.bind (always_ensureLb hs) fun live t ht => ?_
  obtain ⟨arn, fs, old, hready, hview, -⟩ := yields_ensureLb hs ht
  have hwf := (always_ensureLb hs).yields ht
  rw [item_of_lbView hwf hready hview]
  refine Program.Always.lift_bind hwf fun _ harn u hu => ?_
  cases harn
  rw [toTextObject_eq] at hu
  rcases (does_convergeLbAttributes t arn _).visits_bind hu with rfl | hu
  · exact hwf
  · rw [Program.visits_pure.1 hu]
    exact wellFormed_lbAttributed hwf arn _

theorem always_convergeLb (hs : s.WellFormed) (htext : TextSubnets s) :
    (convergeLb i service settings).Always Resources.WellFormed s := by
  intro u hu
  rcases Program.visits_bind.1 hu with hu | ⟨config, t, hbuild, hu⟩
  · rw [(surveys_buildLb i service settings).visits hu]
    exact hs
  · obtain ⟨ns, name, tags, p, -, -, -, -, -, -, rfl, -⟩ := exists_plan htext hbuild
    rw [((surveys_buildLb i service settings).ends hbuild rfl rfl).1] at hu
    exact always_realizeLb hs u hu

/-- Where the load balancer of a Service is there, nothing more is done to it. -/
theorem rests_convergeLb (hu : u.WellFormed) (h : LbMet i service settings p arn fs u) :
    (convergeLb i service settings).Rests (Definite p.tags.entries ∧ "" ∉ p.subnets) lbView u
      (lbView (.object fs)) := by
  refine Program.Rests.bind (v := id) (Program.Rests.of_ends h.planned) ?_
  rintro _ rfl
  refine Program.Rests.lift_bind h.allowed
    (Program.Rests.bind (rests_ensureLb hu h.ready) fun live hview => ?_)
  rw [item_of_lbView hu h.ready hview]
  refine Program.Rests.lift_bind rfl (Program.Rests.bind (v := fun _ => ()) (x := ()) ?_ fun _ _ => ?_)
  · exact (rests_convergeLbAttributes (distinct_textFields _) h.attributes).mono fun _ =>
      definite_textFields _
  · exact ⟨live, [], Program.ends_pure.2 ⟨rfl, rfl, rfl⟩, hview, fun _ => rfl⟩

theorem resumes_realizeLb (hs : s.WellFormed) : (realizeLb i service settings p.config).Resumes lbView s := by
  refine Program.Resumes.lift_bind fun _ _ => Program.Resumes.bind_alike (resumes_ensureLb hs) ?_ ?_ ?_
  · intro live live' u live₁ t hview h
    obtain ⟨arn, harn, h⟩ := Program.yields_lift_bind.1 h
    obtain ⟨b, t', hb, h⟩ := Program.yields_bind.1 h
    obtain ⟨rfl, rfl⟩ := Program.yields_pure.1 h
    have harn' : live'.item "LoadBalancerArn" = .ok arn := (Prod.mk.inj hview).1.trans harn
    exact ⟨live', Program.yields_lift_bind.2
      ⟨arn, harn', Program.yields_bind.2 ⟨b, _, hb, Program.yields_pure.2 ⟨rfl, rfl⟩⟩⟩, hview⟩
  · intro live t ht
    obtain ⟨arn, fs, old, hready, hview, -⟩ := yields_ensureLb hs ht
    rw [item_of_lbView ((always_ensureLb hs).yields ht) hready hview, toTextObject_eq]
    refine Program.Resumes.lift_bind fun _ harn => ?_
    cases harn
    have hattr := does_convergeLbAttributes t arn (textFields settings.loadBalancer.attributes)
    have hmeets := meets_lbAttributed t arn (distinct_textFields settings.loadBalancer.attributes)
    refine Program.Resumes.bind (v := fun _ => ())
      (hattr.resumes (rests_convergeLbAttributes (distinct_textFields _) hmeets).yields) (fun _ _ _ => rfl)
      (fun _ _ _ => Program.resumes_pure _ _) fun _ t' u ht' hu => ?_
    obtain ⟨-, rfl⟩ := hattr.1.unique ht'
    rw [Program.visits_pure.1 hu]
    exact (rests_convergeLbAttributes (distinct_textFields _) hmeets).yields
  · intro live t u ht hu
    obtain ⟨arn, fs, old, hready, hview, -⟩ := yields_ensureLb hs ht
    have hwf := (always_ensureLb hs).yields ht
    rw [hview]
    rw [item_of_lbView hwf hready hview, toTextObject_eq] at hu
    rcases Program.visits_lift_bind.1 hu with rfl | ⟨_, harn, hu⟩
    · exact (rests_ensureLb hwf hready).yields
    cases harn
    rcases (does_convergeLbAttributes t arn _).visits_bind hu with rfl | hu
    · exact (rests_ensureLb hwf hready).yields
    · rw [Program.visits_pure.1 hu]
      exact (rests_ensureLb (wellFormed_lbAttributed hwf arn _) (lbReady_lbAttributed hready arn _)).yields

/-- Cut off anywhere, `convergeLb` can be done again. -/
theorem resumes_convergeLb (hs : s.WellFormed) (htext : TextSubnets s) :
    (convergeLb i service settings).Resumes lbView s := by
  have hsurvey := surveys_buildLb i service settings
  refine Program.Resumes.bind (v := id) (p := buildLb i service settings)
    (f := realizeLb i service settings) ?_
    (fun a a' h => by rw [show a' = a from h]) ?_ ?_
  · intro config t u ht hu
    rw [hsurvey.visits hu]
    exact ⟨config, ht, rfl⟩
  · intro config t ht
    obtain ⟨ns, name, tags, p, -, -, -, -, -, -, rfl, -⟩ := exists_plan htext ht
    rw [(hsurvey.ends ht rfl rfl).1]
    exact resumes_realizeLb hs
  · intro config t u ht hu
    obtain ⟨rfl, -⟩ := hsurvey.ends ht rfl rfl
    obtain ⟨hsubnets, htags⟩ := Program.always_ground _ t u hu
    exact ⟨config, (hsurvey.ends ht hsubnets htags).2.yields, rfl⟩

end

end Converge

end Balancer
