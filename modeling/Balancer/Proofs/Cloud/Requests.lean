import Balancer.Proofs.Checked
import Balancer.Proofs.Cloud.Run
import Balancer.Proofs.Cloud.WellFormed
import Mathlib.Tactic.Simps.Basic

/-!
# Requests to a cloud in memory

What each request of the controllers answers and leaves, for ARNs that are texts:

* `perform_*` of the requests that read; they record nothing (`recorded_of_reads`) and leave all as it is;
* `perform_*` of the requests that change something, through `putLb`, `putTags`, `addLb` and the like,
  which name the changed part;
* `named_eq_null_iff`, `named_of_unique` : what is found by name;
* `checkPort_eq_ok_iff`, `checkProtocol_eq_ok_iff` : when a listener is not refused;
* `WellFormed.addLb` and the like : the resources stay well-formed;
* `perform_ground` : no request changes the subnets.
-/

namespace Balancer

set_option autoImplicit false

/-- The labels that fields stand for. -/
def labels (fs : Fields) : Labels := .ofList (fs.map fun f => (.text f.1, f.2))

namespace Resources

/-- The attributes of a load balancer. -/
def lbAttributesOf (s : Resources) (arn : Key) : Labels := (s.lbAttributes.get? arn).getD ∅

/-- The attributes of a target group. -/
def tgAttributesOf (s : Resources) (arn : Key) : Labels := (s.tgAttributes.get? arn).getD ∅

/-- The registered targets of a target group. -/
def targetsOf (s : Resources) (arn : Key) : List Value := (s.targets.get? arn).getD []

/-! ## Changed parts -/

@[simps] def putLb (s : Resources) (k : Key) (lb : Fields) : Resources :=
  { s with loadBalancers := s.loadBalancers.insert k lb }

@[simps] def putLbAttributes (s : Resources) (k : Key) (l : Labels) : Resources :=
  { s with lbAttributes := s.lbAttributes.insert k l }

@[simps] def putTg (s : Resources) (k : Key) (tg : Fields) : Resources :=
  { s with targetGroups := s.targetGroups.insert k tg }

@[simps] def putTgAttributes (s : Resources) (k : Key) (l : Labels) : Resources :=
  { s with tgAttributes := s.tgAttributes.insert k l }

@[simps] def putTargets (s : Resources) (k : Key) (ts : List Value) : Resources :=
  { s with targets := s.targets.insert k ts }

@[simps] def putTags (s : Resources) (k : Key) (l : Labels) : Resources :=
  { s with tags := s.tags.insert k l }

@[simps] def putListener (s : Resources) (k : Key) (l : Fields) : Resources :=
  { s with listeners := s.listeners.insert k l }

/-- With a new load balancer. -/
@[simps] def addLb (s : Resources) (k : Key) (lb : Fields) (tags : Labels) : Resources :=
  { s with
    nextId := s.nextId + 1
    loadBalancers := s.loadBalancers.insert k lb
    lbAttributes := s.lbAttributes.insert k ∅
    tags := s.tags.insert k tags }

/-- With a new target group. -/
@[simps] def addTg (s : Resources) (k : Key) (tg : Fields) (tags : Labels) : Resources :=
  { s with
    nextId := s.nextId + 1
    targetGroups := s.targetGroups.insert k tg
    tgAttributes := s.tgAttributes.insert k ∅
    targets := s.targets.insert k []
    tags := s.tags.insert k tags }

/-- With a new listener. -/
@[simps] def addListener (s : Resources) (k : Key) (l : Fields) : Resources :=
  { s with nextId := s.nextId + 1, listeners := s.listeners.insert k l }

/-- Without a load balancer, its tags and its listeners. -/
@[simps] def dropLb (s : Resources) (arn : String) : Resources :=
  { s with
    loadBalancers := s.loadBalancers.erase (.text arn)
    tags := s.tags.erase (.text arn)
    listeners := s.listeners.filter fun _ l => !(Fields.get l "LoadBalancerArn").same (.text arn) }

/-- Without some target groups, their targets and their tags. -/
@[simps] def dropTgs (s : Resources) (ks : List Key) : Resources :=
  { s with
    targetGroups := s.targetGroups.eraseAll ks
    targets := s.targets.eraseAll ks
    tags := s.tags.eraseAll ks }

/-- Without some listeners. -/
@[simps] def dropListeners (s : Resources) (ks : List Key) : Resources :=
  { s with listeners := s.listeners.eraseAll ks }

section

variable {s : Resources} {k : Key}

theorem putLb_of_get? {lb : Fields} (h : s.loadBalancers.get? k = some lb) : s.putLb k lb = s := by
  rw [putLb, Table.insert_of_get? h]

theorem putLb_putLb (s : Resources) (k : Key) (lb lb' : Fields) :
    (s.putLb k lb).putLb k lb' = s.putLb k lb' := by
  simp [putLb, Table.insert_insert]

theorem putLbAttributes_of_get? {l : Labels} (h : s.lbAttributes.get? k = some l) :
    s.putLbAttributes k l = s := by
  rw [putLbAttributes, Table.insert_of_get? h]

theorem putTg_of_get? {tg : Fields} (h : s.targetGroups.get? k = some tg) : s.putTg k tg = s := by
  rw [putTg, Table.insert_of_get? h]

theorem putTgAttributes_of_get? {l : Labels} (h : s.tgAttributes.get? k = some l) :
    s.putTgAttributes k l = s := by
  rw [putTgAttributes, Table.insert_of_get? h]

theorem putTags_of_get? {l : Labels} (h : s.tags.get? k = some l) : s.putTags k l = s := by
  rw [putTags, Table.insert_of_get? h]

theorem putListener_of_get? {l : Fields} (h : s.listeners.get? k = some l) : s.putListener k l = s := by
  rw [putListener, Table.insert_of_get? h]

theorem dropTgs_nil (s : Resources) : s.dropTgs [] = s := by simp [dropTgs, Table.eraseAll_nil]

theorem dropTgs_dropTgs (s : Resources) (ks ks' : List Key) :
    (s.dropTgs ks).dropTgs ks' = s.dropTgs (ks ++ ks') := by
  simp [dropTgs, Table.eraseAll_eraseAll]

theorem any_beq_congr {ks ks' : List Key} (h : ∀ k, k ∈ ks ↔ k ∈ ks') (k : Key) :
    ks.any (k == ·) = ks'.any (k == ·) := by
  rw [Bool.eq_iff_iff, List.any_eq_true, List.any_eq_true]
  exact exists_congr fun k' => and_congr_left fun _ => h k'

/-- Only which target groups are left out counts. -/
theorem dropTgs_congr (s : Resources) {ks ks' : List Key} (h : ∀ k, k ∈ ks ↔ k ∈ ks') :
    s.dropTgs ks = s.dropTgs ks' := by
  unfold dropTgs
  rw [Table.eraseAll_congr fun e _ => any_beq_congr h e.1,
    Table.eraseAll_congr fun e _ => any_beq_congr h e.1, Table.eraseAll_congr fun e _ => any_beq_congr h e.1]

/-- Only which listeners are left out counts. -/
theorem dropListeners_congr (s : Resources) {ks ks' : List Key} (h : ∀ k, k ∈ ks ↔ k ∈ ks') :
    s.dropListeners ks = s.dropListeners ks' := by
  unfold dropListeners
  rw [Table.eraseAll_congr fun e _ => any_beq_congr h e.1]

theorem dropListeners_nil (s : Resources) : s.dropListeners [] = s := by
    simp [dropListeners, Table.eraseAll_nil]

theorem dropListeners_dropListeners (s : Resources) (ks ks' : List Key) :
    (s.dropListeners ks).dropListeners ks' = s.dropListeners (ks ++ ks') := by
  simp [dropListeners, Table.eraseAll_eraseAll]

end

/-! ## Requests that read -/

theorem recorded_of_reads {s : Resources} {r : Request} (h : r.isMutating = false) : s.recorded r = [] := by
  cases r <;> first | rfl | cases h

section

variable (s : Resources) (arn : String)

theorem perform_loadBalancerNamed (name : Value) :
    s.perform (.loadBalancerNamed name) = (.ok (named "LoadBalancerName" name s.loadBalancers), s) := rfl

theorem perform_targetGroupNamed (name : Value) :
    s.perform (.targetGroupNamed name) = (.ok (named "TargetGroupName" name s.targetGroups), s) := rfl

theorem perform_lbAttributes :
    s.perform (.lbAttributes (.text arn)) = (.ok (s.lbAttributesOf (.text arn)), s) := rfl

theorem perform_tgAttributes :
    s.perform (.tgAttributes (.text arn)) = (.ok (s.tgAttributesOf (.text arn)), s) := rfl

theorem perform_tags : s.perform (.tags (.text arn)) = (.ok (s.tagsOf (.text arn)), s) := rfl

theorem perform_targets :
    s.perform (.targets (.text arn)) = (.ok (s.targetsOf (.text arn)), s) := rfl

theorem perform_listeners (lb : Value) :
    s.perform (.listeners lb) = (.ok ((s.listenersOf lb).map .object), s) := rfl

theorem perform_resourcesTagged (wanted type : Value) :
    s.perform (.resourcesTagged wanted type) = (s.tagged wanted type, s) := rfl

theorem perform_clusterSubnets (key : Value) :
    s.perform (.clusterSubnets key) = (s.clusterSubnets key, s) := rfl

theorem perform_subnetsNamed (names : Value) :
    s.perform (.subnetsNamed names) = (s.subnets.filterM (isNamed names), s) := rfl

end

/-! ## Requests that change something -/

section

variable (s : Resources) (arn : String)

theorem perform_createLb (params : Fields) {name : Value} {subnets : List Value} {tags : Labels}
    (hn : Fields.item params "Name" = .ok name)
    (hs : (Fields.get params "Subnets").elementsIfAny = .ok subnets)
    (ht : readTags (Fields.get params "Tags") = .ok tags) :
    s.perform (.createLoadBalancer params) = (.ok (.object (newLb params name subnets s.nextId)),
      s.addLb (.text (lbArn name.shown s.nextId)) (newLb params name subnets s.nextId) tags) := by
  rw [perform_eq]
  show s.createLb params = _
  simp [createLb, hn, hs, ht, addLb]

theorem perform_deleteLb : s.perform (.deleteLoadBalancer (.text arn)) = (.ok (), s.dropLb arn) := by
  rw [perform_eq]
  show s.change (s.deleteLb (.text arn)) = _
  simp [deleteLb, Table.without_text, dropLb, change, bind, Except.bind, pure, Except.pure]

theorem perform_setIpAddressType {lb : Fields} (type : Value)
    (h : s.loadBalancers.get? (.text arn) = some lb) :
    s.perform (.setIpAddressType (.text arn) type) =
      (.ok (), s.putLb (.text arn) (Entries.put "IpAddressType" type lb)) := by
  rw [perform_eq]
  show s.change (s.setLbField (.text arn) "IpAddressType" type) = _
  simp [setLbField, at_, h, change, putLb, bind, Except.bind, pure, Except.pure]

theorem perform_setSubnets {lb : Fields} (subnets : List Value)
    (h : s.loadBalancers.get? (.text arn) = some lb) :
    s.perform (.setSubnets (.text arn) (.list subnets)) =
      (.ok (), s.putLb (.text arn) (Entries.put "AvailabilityZones" (zones subnets) lb)) := by
  rw [perform_eq]
  show s.change (s.setLbField (.text arn) "AvailabilityZones" (zones subnets)) = _
  simp [setLbField, at_, h, change, putLb, bind, Except.bind, pure, Except.pure]

theorem perform_modifyLbAttributes (new : Fields) :
    s.perform (.modifyLbAttributes (.text arn) (.object new)) =
      (.ok (), s.putLbAttributes (.text arn) ((s.lbAttributesOf (.text arn)).update (labels new))) := rfl

theorem perform_modifyTgAttributes (new : Fields) :
    s.perform (.modifyTgAttributes (.text arn) (.object new)) =
      (.ok (), s.putTgAttributes (.text arn) ((s.tgAttributesOf (.text arn)).update (labels new))) := rfl

theorem perform_addTags (new : Fields) :
    s.perform (.addTags (.text arn) (.object new)) =
      (.ok (), s.putTags (.text arn) ((s.tagsOf (.text arn)).update (labels new))) := rfl

theorem perform_createTg (params : Fields) {name : Value} {tags : Labels}
    (hn : Fields.item params "Name" = .ok name) (ht : readTags (Fields.get params "Tags") = .ok tags) :
    s.perform (.createTargetGroup params) = (.ok (.object (newTg params name (tgArn name.shown s.nextId))),
      s.addTg (.text (tgArn name.shown s.nextId)) (newTg params name (tgArn name.shown s.nextId)) tags) := by
  rw [perform_eq]
  show s.createTg params = _
  simp [createTg, hn, ht, addTg]

theorem perform_modifyTg {tg : Fields} (params : Fields)
    (harn : Fields.item params "TargetGroupArn" = .ok (.text arn))
    (h : s.targetGroups.get? (.text arn) = some tg) :
    s.perform (.modifyTargetGroup params) =
      (.ok (.object (modifiedTg tg params)), s.putTg (.text arn) (modifiedTg tg params)) := by
  rw [perform_eq]
  show s.change (s.modifyTg params) = _
  simp [modifyTg, at_, harn, h, change, putTg, bind, Except.bind, pure, Except.pure]

theorem perform_deleteTg (h : checkUnused (.text arn) s.listeners.values = .ok ()) :
    s.perform (.deleteTargetGroup (.text arn)) = (.ok (), s.dropTgs [.text arn]) := by
  rw [perform_eq]
  simp only [refusal, h]
  show s.change (s.deleteTg (.text arn)) = _
  simp [deleteTg, Table.without_text, dropTgs, Table.eraseAll_singleton, change, bind,
    Except.bind, pure, Except.pure]

theorem perform_deleteTg_refused {e : Error} (h : checkUnused (.text arn) s.listeners.values = .error e) :
    s.perform (.deleteTargetGroup (.text arn)) = (.error e, s) := by
  rw [perform_eq]
  simp only [refusal, h]
  rfl

theorem perform_createListener (params : Fields)
    (h : s.checkListener "create_listener" .null params = .ok ()) :
    s.perform (.createListener params) =
      (.ok (.object (Entries.put "ListenerArn" (.text (listenerArn s.nextId)) params)),
        s.addListener (.text (listenerArn s.nextId))
          (Entries.put "ListenerArn" (.text (listenerArn s.nextId)) params)) := by
  rw [perform_eq]
  simp only [refusal, h]
  rfl

theorem perform_createListener_refused (params : Fields) {e : Error}
    (h : s.checkListener "create_listener" .null params = .error e) :
    s.perform (.createListener params) = (.error e, s) := by
  rw [perform_eq]
  simp only [refusal, h]
  rfl

theorem perform_modifyListener {l : Fields} (params : Fields)
    (harn : Fields.item params "ListenerArn" = .ok (.text arn)) (hl : s.listeners.get? (.text arn) = some l)
    (h : s.checkListener "modify_listener" (.text arn) params = .ok ()) :
    s.perform (.modifyListener params) =
      (.ok (.object (params.foldl (fun l f => Entries.put f.1 f.2 l) l)),
        s.putListener (.text arn) (params.foldl (fun l f => Entries.put f.1 f.2 l) l)) := by
  rw [perform_eq]
  simp only [refusal, harn, bind, Except.bind, h]
  show s.change (s.modifyListener params) = _
  simp [Resources.modifyListener, at_, harn, hl, change, putListener, bind, Except.bind, pure, Except.pure]

theorem perform_modifyListener_refused (params : Fields) {e : Error}
    (harn : Fields.item params "ListenerArn" = .ok (.text arn))
    (h : s.checkListener "modify_listener" (.text arn) params = .error e) :
    s.perform (.modifyListener params) = (.error e, s) := by
  rw [perform_eq]
  simp only [refusal, harn, bind, Except.bind, h]

theorem perform_deleteListener :
    s.perform (.deleteListener (.text arn)) = (.ok (), s.dropListeners [.text arn]) := by
  rw [perform_eq]
  show s.change _ = _
  simp [Table.without_text, dropListeners, Table.eraseAll_singleton, change, bind,
    Except.bind, pure, Except.pure]

/-! ### Tags to be removed -/

theorem removeLabels_texts (l : Labels) (ks : List String) :
    removeLabels l (ks.map .text) = (.ok (), l.eraseAll (ks.map .text)) := by
  induction ks generalizing l with
  | nil => simp [removeLabels, Table.eraseAll_nil]
  | cons k ks ih =>
    simp only [List.map_cons, removeLabels, Table.without_text, Table.eraseAll_cons]
    exact ih _

theorem perform_removeTags {l : Labels} {ks : List String} (hne : ks ≠ [])
    (hl : s.tags.get? (.text arn) = some l) :
    s.perform (.removeTags (.text arn) (.list (ks.map .text))) =
      (.ok (), s.putTags (.text arn) (l.eraseAll (ks.map .text))) := by
  obtain ⟨row, hrow, hperm, -⟩ := Value.sorted_texts ks
  have hcons : row ≠ [] := fun h => hne (List.nil_perm.1 (h ▸ hperm))
  have hsame : l.eraseAll (row.map .text) = l.eraseAll (ks.map .text) := by
    refine Table.eraseAll_congr fun e _ => ?_
    rw [Bool.eq_iff_iff, List.any_eq_true, List.any_eq_true]
    exact exists_congr fun k => and_congr_left fun _ => (hperm.map Key.text).mem_iff
  have hrec : (Request.removeTags (.text arn) (.list (ks.map .text))).record? =
      .ok (some ⟨"remove_tags", [("arn", .text arn), ("keys", .list (row.map .text))]⟩) := by
    simp [Request.record?, Request.record?.kept, sortedListOf, hrow, bind, Except.bind,
      Functor.map, Except.map]
  have huntag : s.untag (.text arn) (.list (ks.map .text)) =
      (.ok (), s.putTags (.text arn) (l.eraseAll (row.map .text))) := by
    obtain ⟨k, row, rfl⟩ := List.exists_cons_of_ne_nil hcons
    simp only [untag, Value.elements_list, bind, Except.bind, hrow, List.map_cons, Value.key_text, hl]
    have := removeLabels_texts l (k :: row)
    rw [List.map_cons, List.map_cons] at this
    rw [this]
    rfl
  rw [perform_eq]
  simp only [refusal, hrec, bind, Except.bind]
  rw [← hsame]
  exact huntag

/-! ### Targets -/

/-- Targets with some more, each once. -/
def withTargets (current : List Value) (ts : List Target) : List Value :=
  ts.foldl (fun current t => if current.any (·.alike t.toValue) then current else current ++
    [t.toValue]) current

/-- Targets less some others. -/
def withoutTargets (current : List Value) (ts : List Target) : List Value :=
  current.filter fun x => !ts.any fun t => t.toValue.alike x

theorem addTargets_toValue (current : List Value) (ts : List Target) :
    addTargets current (ts.map Target.toValue) = (.ok (), withTargets current ts) := by
  induction ts generalizing current with
  | nil => rfl
  | cons t ts ih =>
    simp only [List.map_cons, addTargets, withTargets, List.foldl_cons]
    split
    · exact ih current
    · exact ih _

theorem perform_registerTargets {ts : List Target} (hne : ts ≠ []) :
    s.perform (.registerTargets (.text arn) (Converge.targetList ts)) =
      match s.targets.get? (.text arn) with
      | some current => (.ok (), s.putTargets (.text arn) (withTargets current ts))
      | none => (.error (.noField (.text arn)), s) := by
  obtain ⟨t, ts, rfl⟩ := List.exists_cons_of_ne_nil hne
  rw [perform_eq]
  show s.register (.text arn) (.list ((t :: ts).map Target.toValue)) = _
  have h := fun current => addTargets_toValue current (t :: ts)
  simp only [register, Value.elements_list, List.map_cons, at_, Value.key_text, bind, Except.bind] at h ⊢
  cases s.targets.get? (.text arn) with
  | none => rfl
  | some current =>
    simp only [pure, Except.pure, h]
    rfl

theorem perform_deregisterTargets (ts : List Target) :
    s.perform (.deregisterTargets (.text arn) (Converge.targetList ts)) =
      match s.targets.get? (.text arn) with
      | some current => (.ok (), s.putTargets (.text arn) (withoutTargets current ts))
      | none => (.error (.noField (.text arn)), s) := by
  rw [perform_eq]
  show s.change (s.deregister (.text arn) (.list (ts.map Target.toValue))) = _
  simp only [deregister, at_, Value.key_text, bind, Except.bind, Value.has, pure, Except.pure, List.any_map]
  cases s.targets.get? (.text arn) with
  | none => rfl
  | some current =>
    simp only [filterM_ok fun _ _ => rfl]
    rfl

end

/-! ## What is found by name and by tags -/

section

variable {field n : String} {t : Table Key Fields}

theorem named_eq_null_iff :
    named field (.text n) t = .null ↔ ∀ k fs, t.get? k = some fs → Fields.get fs field ≠ .text n := by
  unfold named
  cases hf : t.values.find? fun fs => (Fields.get fs field).same (.text n) with
  | none =>
    refine ⟨fun _ k fs hk hn => ?_, fun _ => rfl⟩
    exact List.find?_eq_none.1 hf fs (Table.mem_values_iff.2 ⟨k, hk⟩) ((Value.same_text_iff _ _).2 hn)
  | some fs =>
    refine ⟨(nomatch ·), fun h => ?_⟩
    obtain ⟨k, hk⟩ := Table.mem_values_iff.1 (List.mem_of_find?_eq_some hf)
    have hn := List.find?_some hf
    exact absurd ((Value.same_text_iff _ _).1 hn) (h k fs hk)

theorem named_cases (field : String) (name : Value) (t : Table Key Fields) :
    named field name t = .null ∨
      ∃ k fs, t.get? k = some fs ∧ (Fields.get fs field).same name = true ∧
        named field name t = .object fs := by
  unfold named
  cases hf : t.values.find? fun fs => (Fields.get fs field).same name with
  | none => exact .inl rfl
  | some fs =>
    obtain ⟨k, hk⟩ := Table.mem_values_iff.1 (List.mem_of_find?_eq_some hf)
    have hn := List.find?_some hf
    exact .inr ⟨k, fs, hk, hn, rfl⟩

theorem named_of_unique {k : Key} {fs : Fields} (hk : t.get? k = some fs) (hn : Fields.get fs field = .text n)
    (hu : ∀ k' fs', t.get? k' = some fs' → Fields.get fs' field = .text n → k' = k) :
    named field (.text n) t = .object fs := by
  rcases named_cases field (.text n) t with h | ⟨k', fs', hk', hn', h⟩
  · exact absurd hn (named_eq_null_iff.1 h k fs hk)
  · obtain rfl := hu k' fs' hk' ((Value.same_text_iff _ _).1 hn')
    rw [hk] at hk'
    cases hk'
    exact h

end

section

variable {s : Resources}

theorem UniqueLbNames.lbNamed {k : Key} {lb : Fields} {n : String} (h : s.UniqueLbNames)
    (hk : s.loadBalancers.get? k = some lb) (hn : Fields.get lb "LoadBalancerName" = .text n) :
    named "LoadBalancerName" (.text n) s.loadBalancers = .object lb :=
  named_of_unique hk hn fun _ _ hk' hn' => h hk' hk hn' hn

theorem WellFormed.tgNamed {k : Key} {tg : Fields} {n : String} (h : s.WellFormed)
    (hk : s.targetGroups.get? k = some tg) (hn : Fields.get tg "TargetGroupName" = .text n) :
    named "TargetGroupName" (.text n) s.targetGroups = .object tg :=
  named_of_unique hk hn fun _ _ hk' hn' => h.tgName hk' hk hn' hn

/-- The target groups that carry all given tags. -/
def owned (s : Resources) (wanted : Fields) : List Key :=
  s.targetGroups.keys.filter fun arn => hasTags wanted (s.tagsOf arn)

theorem mem_owned_of_get? {arn : String} {tg wanted : Fields} (hk : s.targetGroups.get? (.text arn) = some tg)
    (htags : hasTags wanted (s.tagsOf (.text arn)) = true) : .text arn ∈ s.owned wanted := by
  obtain ⟨k, hkk, he⟩ := Entries.mem_of_find? hk
  obtain rfl := Key.eq_text_of_beq hkk
  exact List.mem_filter.2 ⟨List.mem_map_of_mem he, htags⟩

theorem WellFormed.mem_owned {k : Key} {tg wanted : Fields} (h : s.WellFormed)
    (hk : s.targetGroups.get? k = some tg) (htags : hasTags wanted (s.tagsOf k) = true) :
    k ∈ s.owned wanted := by
  obtain ⟨arn, rfl, -⟩ := h.tgOwn hk
  exact mem_owned_of_get? hk htags

theorem get?_of_mem_owned {k : Key} {wanted : Fields} (h : k ∈ s.owned wanted) :
    ∃ tg, s.targetGroups.get? k = some tg ∧ hasTags wanted (s.tagsOf k) = true := by
  obtain ⟨hmem, htags⟩ := List.mem_filter.1 h
  obtain ⟨e, he, rfl⟩ := List.mem_map.1 hmem
  exact ⟨e.2, Table.get?_of_mem he, htags⟩

theorem OwnArns.text_of_mem_owned {k : Key} {wanted : Fields} (h : s.OwnArns) (hk : k ∈ s.owned wanted) :
    ∃ arn, k = .text arn := by
  obtain ⟨tg, hget, -⟩ := get?_of_mem_owned hk
  exact (h.tg hget).imp fun _ => And.left

theorem nodup_owned (s : Resources) (wanted : Fields) : (s.owned wanted).Nodup := by
  refine List.Pairwise.filter _ (List.pairwise_map.2 (s.targetGroups.distinct.imp fun {e e'} hne heq => ?_))
  rw [heq, BEq.rfl] at hne
  cases hne

theorem owned_dropTgs (s : Resources) (wanted : Fields) (ks : List Key) :
    (s.dropTgs ks).owned wanted = (s.owned wanted).filter fun k => !ks.any (k == ·) := by
  unfold owned
  rw [dropTgs_targetGroups, Table.keys_eraseAll, List.filter_filter, List.filter_filter]
  refine List.filter_congr fun k _ => ?_
  rw [tagsOf, dropTgs_tags, Table.get?_eraseAll]
  by_cases hk : ks.any (k == ·)
  · simp [hk]
  · simp [hk, tagsOf]

theorem tagged_eq_ok (s : Resources) (wanted : Fields) :
    ∃ t, s.tagged (.object wanted) (.text targetGroupType) = .ok t ∧ t.keys = s.owned wanted := by
  unfold tagged owned
  have hsame : Value.same (.text targetGroupType) (.text targetGroupType) = true := by simp
  by_cases he : s.targetGroups.isEmpty
  · refine ⟨∅, by simp [he, pure, Except.pure], ?_⟩
    have : s.targetGroups.entries = [] := List.isEmpty_iff.1 he
    simp [Table.keys, Entries.keys, this, EmptyCollection.emptyCollection, Table.empty]
  · simp only [hsame, Bool.not_true, he, Bool.or_false, Bool.false_eq_true, if_false,
      Value.entries_object, bind, Except.bind, pure, Except.pure]
    refine ⟨_, rfl, ?_⟩
    have hd : Entries.Distinct ((s.targetGroups.keys.filter fun arn => hasTags wanted (s.tagsOf arn)).map
        fun arn => (arn, s.tagsOf arn)) := by
      refine List.pairwise_map.2 (List.Pairwise.filter _ ?_)
      exact List.pairwise_map.2 s.targetGroups.distinct
    rw [Table.keys, Table.entries_ofList hd, Entries.keys, List.map_map]
    exact List.map_id' _

end

/-! ## When a listener is refused -/

theorem checkPort_eq_ok_iff {method : String} {own lb : Value} {params : Fields} {es : List (Key × Fields)} :
    checkPort method own lb params es = .ok () ↔
      ∀ e ∈ es, e.1.toValue.same own = false → (Fields.get e.2 "LoadBalancerArn").same lb = true →
        ∃ taken port, Fields.item e.2 "Port" = .ok taken ∧ Fields.item params "Port" = .ok port ∧
          taken.same port = false := by
  induction es with
  | nil => simp [checkPort]
  | cons e es ih =>
    obtain ⟨arn, l⟩ := e
    rw [checkPort, List.forall_mem_cons, ← ih]
    by_cases ho : arn.toValue.same own
    · simp [ho]
    by_cases hl : (Fields.get l "LoadBalancerArn").same lb
    · cases Fields.item l "Port" with
      | error e => simp [ho, hl, bind, Except.bind]
      | ok taken =>
        cases Fields.item params "Port" with
        | error e => simp [ho, hl, bind, Except.bind]
        | ok port =>
          cases hs : taken.same port <;>
            simp [ho, hl, hs, bind, Except.bind, throw, throwThe, MonadExceptOf.throw]
    · simp [hl]

/-- The target groups that actions forward to have a protocol. -/
def Admits (s : Resources) (protocol : Value) (as : List Value) : Prop :=
  ∀ a ∈ as, ∃ v k, a.get "TargetGroupArn" = .ok v ∧ v.key = .ok k ∧
    ∀ tg, s.targetGroups.get? k = some tg → (Fields.get tg "Protocol").same protocol = true

theorem checkProtocol_eq_ok_iff {s : Resources} {method : String} {params : Fields}
    {protocol : Value} {as : List Value} (hp : Fields.item params "Protocol" = .ok protocol) :
    s.checkProtocol method params as = .ok () ↔ s.Admits protocol as := by
  unfold Admits
  induction as with
  | nil => simp [checkProtocol]
  | cons a as ih =>
    rw [List.forall_mem_cons, ← ih]
    rw [checkProtocol, targetGroupOf?]
    cases hg : a.get "TargetGroupArn" with
    | error e => simp [bind, Except.bind]
    | ok v =>
      cases hk : v.key with
      | error e => simp [hk, bind, Except.bind]
      | ok k =>
        cases ht : s.targetGroups.get? k with
        | none => simp [hk, ht, bind, Except.bind, pure, Except.pure]
        | some tg =>
          cases hs : (Fields.get tg "Protocol").same protocol <;>
            simp [hk, ht, hs, hp, bind, Except.bind, pure, Except.pure, throw, throwThe, MonadExceptOf.throw]

/-- With fewer target groups there is less to be of a protocol. -/
theorem Admits.mono {s u : Resources} {protocol : Value} {as : List Value} (h : s.Admits protocol as)
    (hle : ∀ k tg, u.targetGroups.get? k = some tg → s.targetGroups.get? k = some tg) :
    u.Admits protocol as := by
  intro a ha
  obtain ⟨v, k, hv, hk, htg⟩ := h a ha
  exact ⟨v, k, hv, hk, fun tg hu => htg tg (hle k tg hu)⟩

/-! ## Well-formed resources -/

section

variable {s t : Resources} {k : Key}

theorem WellFormed.congr (h : s.WellFormed) (hid : t.nextId = s.nextId)
    (hlb : t.loadBalancers = s.loadBalancers) (htg : t.targetGroups = s.targetGroups)
    (hls : t.listeners = s.listeners) (hts : t.targets = s.targets) :
    t.WellFormed :=
  wellFormed_of_le h (Nat.le_of_eq hid.symm) (hlb ▸ Within.refl _ _) (htg ▸ Within.refl _ _)
    (hls ▸ Within.refl _ _)
    fun _ _ hk => h.plain (hts ▸ hk)

theorem WellFormed.putTags (h : s.WellFormed) (k : Key) (l : Labels) : (s.putTags k l).WellFormed :=
  h.congr rfl rfl rfl rfl rfl

theorem WellFormed.putLbAttributes (h : s.WellFormed) (k : Key) (l : Labels) :
    (s.putLbAttributes k l).WellFormed :=
  h.congr rfl rfl rfl rfl rfl

theorem WellFormed.putTgAttributes (h : s.WellFormed) (k : Key) (l : Labels) :
    (s.putTgAttributes k l).WellFormed :=
  h.congr rfl rfl rfl rfl rfl

theorem WellFormed.putTargets (h : s.WellFormed) {ts : List Value} (hts : ∀ t ∈ ts, IsPlain t) :
    (s.putTargets k ts).WellFormed := by
  refine wellFormed_of_le h (Nat.le_refl _) (Within.refl _ _) (Within.refl _ _)
    (Within.refl _ _) fun k' ts' hk' => ?_
  rcases Table.get?_insert_eq_some_iff.1 hk' with ⟨-, rfl⟩ | ⟨-, hk'⟩
  · exact hts
  · exact h.plain hk'

theorem WellFormed.plain_targetsOf (h : s.WellFormed) (k : Key) : ∀ x ∈ s.targetsOf k, IsPlain x := by
  intro x hx
  unfold targetsOf at hx
  cases hk : s.targets.get? k with
  | none => simp [hk] at hx
  | some ts => exact h.plain hk x (by simpa [hk] using hx)

theorem WellFormed.putLb (h : s.WellFormed) {lb lb' : Fields} (hk : s.loadBalancers.get? k = some lb)
    (ha : AgreeIn ["LoadBalancerArn", "LoadBalancerName"] lb' lb) : (s.putLb k lb').WellFormed :=
  wellFormed_of_le h (Nat.le_refl _) (Within.insert hk ha) (Within.refl _ _) (Within.refl _ _)
    fun _ _ hk => h.plain hk

theorem WellFormed.putTg (h : s.WellFormed) {tg tg' : Fields} (hk : s.targetGroups.get? k = some tg)
    (ha : AgreeIn ["TargetGroupArn", "TargetGroupName"] tg' tg) : (s.putTg k tg').WellFormed :=
  wellFormed_of_le h (Nat.le_refl _) (Within.refl _ _) (Within.insert hk ha) (Within.refl _ _)
    fun _ _ hk => h.plain hk

theorem WellFormed.dropLb (h : s.WellFormed) (arn : String) : (s.dropLb arn).WellFormed := by
  refine wellFormed_of_le h (Nat.le_refl _) (Within.of_get? fun k lb hk => ?_) (Within.refl _ _)
    (Within.of_get? fun k l hk => ?_) fun _ _ hk => h.plain hk
  · exact (Table.get?_erase_eq_some_iff.1 hk).2
  · rw [dropLb_listeners, Table.get?_filter_values] at hk
    exact (Option.filter_eq_some_iff.1 hk).1

theorem WellFormed.dropTgs (h : s.WellFormed) (ks : List Key) : (s.dropTgs ks).WellFormed := by
  refine wellFormed_of_le h (Nat.le_refl _) (Within.refl _ _)
    (Within.of_get? fun k tg hk => ?_) (Within.refl _ _)
    fun k ts hk => ?_
  · exact Table.get?_of_get?_eraseAll hk
  · exact h.plain (Table.get?_of_get?_eraseAll hk)

theorem OwnArns.dropListeners (h : s.OwnArns) (ks : List Key) : (s.dropListeners ks).OwnArns :=
  h.mono (fun _ _ hk => hk) (fun _ _ hk => hk) fun _ _ hk => Table.get?_of_get?_eraseAll hk

theorem OwnArns.dropTgs (h : s.OwnArns) (ks : List Key) : (s.dropTgs ks).OwnArns :=
  h.mono (fun _ _ hk => hk) (fun _ _ hk => Table.get?_of_get?_eraseAll hk) fun _ _ hk => hk

theorem WellFormed.dropListeners (h : s.WellFormed) (ks : List Key) : (s.dropListeners ks).WellFormed :=
  wellFormed_of_le h (Nat.le_refl _) (Within.refl _ _) (Within.refl _ _)
    (Within.of_get? fun _ _ hk => Table.get?_of_get?_eraseAll hk) fun _ _ hk => h.plain hk

/-- An ARN with the next number is that of nothing yet. -/
theorem WellFormed.new_ne {m n : Nat} {arn arn' : String} (hn : Numbered n arn)
    (hm : Numbered m arn') (h : n < m) :
    (Key.text arn == Key.text arn') = false := by
  rw [Bool.eq_false_iff, ne_eq, Key.text_beq_text, beq_iff_eq]
  rintro rfl
  exact Nat.lt_irrefl _ (hn.unique hm ▸ h)

theorem WellFormed.addLb (h : s.WellFormed) {arn : String} {lb : Fields} {tags : Labels}
    (harn : Numbered s.nextId arn) (hown : Fields.get lb "LoadBalancerArn" = .text arn)
    (hname : ∀ k lb' name, s.loadBalancers.get? k = some lb' →
      Fields.get lb' "LoadBalancerName" = .text name →
      Fields.get lb "LoadBalancerName" ≠ .text name) : (s.addLb (.text arn) lb tags).WellFormed where
  lbOwn := own_insert h.lbOwn hown
  tgOwn := h.tgOwn
  listenerOwn := h.listenerOwn
  lbName hk hk' hn hn' := h.lbTaken.insert hname arn hk hk' hn hn'
  tgName := h.tgName
  port := h.port
  plain := h.plain
  lbFresh := by
    intro n arn' hn ha
    rw [addLb_loadBalancers, Table.get?_insert, if_neg (by simp [WellFormed.new_ne harn ha hn])]
    exact h.lbFresh (Nat.le_of_succ_le hn) ha
  tgFresh hn ha := h.tgFresh (Nat.le_of_succ_le hn) ha
  listenerFresh hn ha := h.listenerFresh (Nat.le_of_succ_le hn) ha
  disjoint := by
    intro k lb' tg hk hk'
    rcases Table.get?_insert_text_iff.1 hk with ⟨rfl, -⟩ | ⟨-, hk⟩
    · exact absurd hk' (by simp [h.tgFresh (Nat.le_refl _) harn])
    · exact h.disjoint hk hk'

theorem WellFormed.addTg (h : s.WellFormed) {arn : String} {tg : Fields} {tags : Labels}
    (harn : Numbered s.nextId arn) (hown : Fields.get tg "TargetGroupArn" = .text arn)
    (hname : ∀ k tg' name, s.targetGroups.get? k = some tg' → Fields.get tg' "TargetGroupName" = .text name →
      Fields.get tg "TargetGroupName" ≠ .text name) : (s.addTg (.text arn) tg tags).WellFormed where
  lbOwn := h.lbOwn
  tgOwn := own_insert h.tgOwn hown
  listenerOwn := h.listenerOwn
  lbName := h.lbName
  tgName hk hk' hn hn' := h.tgTaken.insert hname arn hk hk' hn hn'
  port := h.port
  plain := by
    intro k ts hk
    rcases Table.get?_insert_text_iff.1 hk with ⟨-, rfl⟩ | ⟨-, hk⟩
    · simp
    · exact h.plain hk
  lbFresh hn ha := h.lbFresh (Nat.le_of_succ_le hn) ha
  tgFresh := by
    intro n arn' hn ha
    rw [addTg_targetGroups, Table.get?_insert, if_neg (by simp [WellFormed.new_ne harn ha hn])]
    exact h.tgFresh (Nat.le_of_succ_le hn) ha
  listenerFresh hn ha := h.listenerFresh (Nat.le_of_succ_le hn) ha
  disjoint := by
    intro k lb tg' hk hk'
    rcases Table.get?_insert_text_iff.1 hk' with ⟨rfl, -⟩ | ⟨-, hk'⟩
    · exact absurd hk (by simp [h.lbFresh (Nat.le_refl _) harn])
    · exact h.disjoint hk hk'

/-- No other listener of the load balancer of a listener has its port. -/
def PortFree (s : Resources) (arn : String) (l : Fields) : Prop :=
  ∀ k l' lb (p p' : Key), s.listeners.get? k = some l' → k ≠ .text arn →
    Fields.get l "LoadBalancerArn" = .text lb →
    Fields.get l' "LoadBalancerArn" = .text lb → Fields.get l "Port" = p.toValue →
    Fields.get l' "Port" = p'.toValue →
      (p == p') = false

/-- A new listener, or one in place of another. -/
theorem WellFormed.insertListener (h : s.WellFormed) {arn : String} {l : Fields}
    {n : Nat} (hid : s.nextId ≤ n) (hnum : ∀ m, n ≤ m → ¬ Numbered m arn)
    (hown : Fields.get l "ListenerArn" = .text arn) (hfree : s.PortFree arn l) :
    ({ s with nextId := n, listeners := s.listeners.insert (.text arn) l } : Resources).WellFormed where
  lbOwn := h.lbOwn
  tgOwn := h.tgOwn
  listenerOwn := own_insert h.listenerOwn hown
  lbName := h.lbName
  tgName := h.tgName
  port := by
    intro k k' l₁ l₂ lb p p' hk hk' hl hl' hp hp' hpp
    rcases Table.get?_insert_text_iff.1 hk with ⟨rfl, rfl⟩ | ⟨hne, hk⟩ <;>
      rcases Table.get?_insert_text_iff.1 hk' with ⟨rfl, rfl⟩ | ⟨hne', hk'⟩
    · rfl
    · rw [hfree k' l₂ lb p p' hk' hne' hl hl' hp hp'] at hpp
      cases hpp
    · rw [BEq.comm, hfree k l₁ lb p' p hk hne hl' hl hp' hp] at hpp
      cases hpp
    · exact h.port hk hk' hl hl' hp hp' hpp
  plain := h.plain
  lbFresh hn ha := h.lbFresh (Nat.le_trans hid hn) ha
  tgFresh hn ha := h.tgFresh (Nat.le_trans hid hn) ha
  listenerFresh := by
    intro m arn' hm ha
    rw [Table.get?_insert, if_neg, h.listenerFresh (Nat.le_trans hid hm) ha]
    rw [Key.text_beq_text, beq_iff_eq]
    rintro rfl
    exact hnum m hm ha
  disjoint := h.disjoint

theorem WellFormed.addListener (h : s.WellFormed) {arn : String} {l : Fields} (harn : Numbered s.nextId arn)
    (hown : Fields.get l "ListenerArn" = .text arn) (hfree : s.PortFree arn l) :
    (s.addListener (.text arn) l).WellFormed :=
  h.insertListener (Nat.le_succ _) (fun _ hm hn => Nat.lt_irrefl _ (harn.unique hn ▸ hm)) hown hfree

theorem WellFormed.putListener (h : s.WellFormed) {arn : String} {l l' : Fields}
    (hl : s.listeners.get? (.text arn) = some l) (hown : Fields.get l' "ListenerArn" = .text arn)
    (hfree : s.PortFree arn l') : (s.putListener (.text arn) l').WellFormed := by
  refine h.insertListener (Nat.le_refl _) (fun m hm hn => ?_) hown hfree
  rw [h.listenerFresh hm hn] at hl
  cases hl

end

/-! ## Subnets -/

theorem change_ground {α : Type} {s : Resources} {x : Except Error (α × Resources)}
    (h : ∀ a t, x = .ok (a, t) → t.subnets = s.subnets ∧ t.subnetTags = s.subnetTags) :
    (s.change x).2.subnets = s.subnets ∧ (s.change x).2.subnetTags = s.subnetTags := by
  cases x with
  | error e => exact ⟨rfl, rfl⟩
  | ok y => exact h y.1 y.2 rfl

theorem ground_of_bind {α β : Type} {s : Resources} {x : Except Error α}
    {f : α → Except Error (β × Resources)} (h : ∀ a b t, f a = .ok (b, t) →
      t.subnets = s.subnets ∧ t.subnetTags = s.subnetTags) (b : β) (t : Resources)
    (hx : (x >>= f) = .ok (b, t)) : t.subnets = s.subnets ∧ t.subnetTags = s.subnetTags := by
  cases x with
  | error e => cases hx
  | ok a => exact h a b t hx

/-- No effect changes the subnets. -/
theorem effect_ground (s : Resources) (r : Request) :
    (s.effect r).2.subnets = s.subnets ∧ (s.effect r).2.subnetTags = s.subnetTags := by
  cases r <;> try exact ⟨rfl, rfl⟩
  case createLoadBalancer params =>
    simp only [effect, createLb]
    cases Fields.item params "Name" <;> cases (Fields.get params "Subnets").elementsIfAny <;>
      cases readTags (Fields.get params "Tags") <;> exact ⟨rfl, rfl⟩
  case createTargetGroup params =>
    simp only [effect, createTg]
    cases Fields.item params "Name" <;> cases readTags (Fields.get params "Tags") <;> exact ⟨rfl, rfl⟩
  case registerTargets arn new =>
    simp only [effect, register]
    cases new.elements with
    | error e => exact ⟨rfl, rfl⟩
    | ok vs => cases vs <;> cases at_ s.targets arn <;> exact ⟨rfl, rfl⟩
  case removeTags arn keys =>
    simp only [effect, untag]
    cases keys.elements >>= Value.sorted with
    | error e => exact ⟨rfl, rfl⟩
    | ok vs =>
      cases vs with
      | nil => exact ⟨rfl, rfl⟩
      | cons v vs =>
        cases arn.key with
        | error e => exact ⟨rfl, rfl⟩
        | ok k => cases h : s.tags.get? k <;> simp only [h, and_self]
  all_goals
    refine change_ground ?_
    repeat refine ground_of_bind fun a => ?_
    rintro b t ⟨⟩
    exact ⟨rfl, rfl⟩

theorem perform_ground (s : Resources) (r : Request) :
    (s.perform r).2.subnets = s.subnets ∧ (s.perform r).2.subnetTags = s.subnetTags := by
  rw [perform_eq]
  cases (do s.refusal r; r.record? : Except Error (Option Record)) with
  | error e => exact ⟨rfl, rfl⟩
  | ok record => exact effect_ground s r

end Resources

/-- No program changes the subnets. -/
theorem Program.always_ground {α : Type} (p : Program α) (s : Resources) :
    p.Always (fun u => u.subnets = s.subnets ∧ u.subnetTags = s.subnetTags) s := by
  induction p generalizing s with
  | done x =>
    rintro u rfl
    exact ⟨rfl, rfl⟩
  | ask r next ih =>
    rintro u (rfl | hu)
    · exact ⟨rfl, rfl⟩
    · obtain ⟨hs, ht⟩ := ih _ _ u hu
      obtain ⟨hs', ht'⟩ := Resources.perform_ground s r
      exact ⟨hs.trans hs', ht.trans ht'⟩
  | tell n next ih => exact fun u hu => ih s u hu

end Balancer
