import Balancer.Proofs.Converge.Confined

/-!
# Parts of the resources

* `Tidy s` : load balancers, target groups and listeners are kept under their own ARNs, and names are taken
  once; deleting, changing and creating keep that;
* `SamePart P s u` : the resources agree in a part; one lemma for each change that is made to both, and one
  for each change that is made outside the part.
-/

namespace Balancer

set_option autoImplicit false

open Converge

namespace Resources

/-! ## Tidy resources -/

/-- Load balancers, target groups and listeners are kept under their own ARNs, and names are taken once. -/
structure Tidy (s : Resources) : Prop where
  lbOwn : ∀ {k lb}, s.loadBalancers.get? k = some lb →
    ∃ arn, k = .text arn ∧ Fields.get lb "LoadBalancerArn" = .text arn
  tgOwn : ∀ {k tg}, s.targetGroups.get? k = some tg →
    ∃ arn, k = .text arn ∧ Fields.get tg "TargetGroupArn" = .text arn
  listenerOwn : ∀ {k l}, s.listeners.get? k = some l →
    ∃ arn, k = .text arn ∧ Fields.get l "ListenerArn" = .text arn
  lbName : ∀ {k k' n}, LbNamed n k s → LbNamed n k' s → k = k'
  tgName : ∀ {k k' n}, GroupNamed n k s → GroupNamed n k' s → k = k'

/-- An ARN with a number that is still to be given out. -/
def Future (s : Resources) (arn : String) : Prop := ∃ n, s.nextId ≤ n ∧ Numbered n arn

section

variable {s t : Resources} {a arn n : String}

theorem Tidy.lbTaken (h : s.Tidy) : TakenOnce "LoadBalancerName" s.loadBalancers :=
  fun _ _ _ _ _ hk hk' hn hn' => h.lbName ⟨_, hk, hn⟩ ⟨_, hk', hn'⟩

theorem Tidy.tgTaken (h : s.Tidy) : TakenOnce "TargetGroupName" s.targetGroups :=
  fun _ _ _ _ _ hk hk' hn hn' => h.tgName ⟨_, hk, hn⟩ ⟨_, hk', hn'⟩

/-- Resources stay tidy as some are deleted and others change in what does not identify them. -/
theorem Tidy.of_within (h : s.Tidy)
    (hlb : Within ["LoadBalancerArn", "LoadBalancerName"] t.loadBalancers s.loadBalancers)
    (htg : Within ["TargetGroupArn", "TargetGroupName"] t.targetGroups s.targetGroups)
    (hls : Within ["ListenerArn", "LoadBalancerArn"] t.listeners s.listeners) : t.Tidy where
  lbOwn := own_of_within hlb (by simp) h.lbOwn
  tgOwn := own_of_within htg (by simp) h.tgOwn
  listenerOwn := own_of_within hls (by simp) h.listenerOwn
  lbName := fun ⟨_, hk, hn⟩ ⟨_, hk', hn'⟩ => h.lbTaken.of_within hlb (by simp) hk hk' hn hn'
  tgName := fun ⟨_, hk, hn⟩ ⟨_, hk', hn'⟩ => h.tgTaken.of_within htg (by simp) hk hk' hn hn'

theorem Tidy.addLb (h : s.Tidy) {lb : Fields} (tags : Labels)
    (hown : Fields.get lb "LoadBalancerArn" = .text arn) (hname : Fields.get lb "LoadBalancerName" = .text n)
    (hnone : ∀ k, ¬ LbNamed n k s) :
    (s.addLb (.text arn) lb tags).Tidy where
  lbOwn := own_insert h.lbOwn hown
  tgOwn := h.tgOwn
  listenerOwn := h.listenerOwn
  lbName := by
    rintro k k' n' ⟨fs, hk, hn⟩ ⟨fs', hk', hn'⟩
    refine h.lbTaken.insert (fun k gs name hg hgs hlb => hnone k ⟨gs, hg, ?_⟩) arn hk hk' hn hn'
    exact hgs.trans (hlb.symm.trans hname)
  tgName := h.tgName

theorem Tidy.addTg (h : s.Tidy) {tg : Fields} (tags : Labels)
    (hown : Fields.get tg "TargetGroupArn" = .text arn) (hname : Fields.get tg "TargetGroupName" = .text n)
    (hnone : ∀ k, ¬ GroupNamed n k s) :
    (s.addTg (.text arn) tg tags).Tidy where
  lbOwn := h.lbOwn
  tgOwn := own_insert h.tgOwn hown
  listenerOwn := h.listenerOwn
  lbName := h.lbName
  tgName := by
    rintro k k' n' ⟨fs, hk, hn⟩ ⟨fs', hk', hn'⟩
    refine h.tgTaken.insert (fun k gs name hg hgs htg => hnone k ⟨gs, hg, ?_⟩) arn hk hk' hn hn'
    exact hgs.trans (htg.symm.trans hname)

theorem Tidy.addListener (h : s.Tidy) {l : Fields} (hown : Fields.get l "ListenerArn" = .text arn) :
    (s.addListener (.text arn) l).Tidy where
  lbOwn := h.lbOwn
  tgOwn := h.tgOwn
  listenerOwn := own_insert h.listenerOwn hown
  lbName := h.lbName
  tgName := h.tgName

end

/-! ## Parts of the resources -/

/-- What belongs to some load balancers and target groups, and the listeners that satisfy a condition. -/
structure Part where
  lb : Key → Prop
  group : Key → Prop
  tags : Key → Prop
  on : Fields → Bool

/-- Two resources agree in a part. -/
structure SamePart (P : Part) (s u : Resources) : Prop where
  subnets : u.subnets = s.subnets
  subnetTags : u.subnetTags = s.subnetTags
  loadBalancers : ∀ k, P.lb k → u.loadBalancers.get? k = s.loadBalancers.get? k
  lbAttributes : ∀ k, P.lb k → u.lbAttributes.get? k = s.lbAttributes.get? k
  targetGroups : ∀ k, P.group k → u.targetGroups.get? k = s.targetGroups.get? k
  tgAttributes : ∀ k, P.group k → u.tgAttributes.get? k = s.tgAttributes.get? k
  targets : ∀ k, P.group k → u.targets.get? k = s.targets.get? k
  tags : ∀ k, P.tags k → u.tags.get? k = s.tags.get? k
  listeners : (u.listeners.filter fun _ => P.on) = s.listeners.filter fun _ => P.on

section

variable {β : Type} {t t' : Table Key β} {D : Key → Prop} {a : String}

/-- Tables that agree in some keys do so after the same change. -/
theorem insert_agree (h : ∀ k, D k → t'.get? k = t.get? k) (k' : Key) (x : β) :
    ∀ k, D k → (t'.insert k' x).get? k = (t.insert k' x).get? k := by
  intro k hk
  rw [Table.get?_insert, Table.get?_insert, h k hk]

theorem erase_agree (h : ∀ k, D k → t'.get? k = t.get? k) (k' : Key) :
    ∀ k, D k → (t'.erase k').get? k = (t.erase k').get? k := by
  intro k hk
  rw [Table.get?_erase, Table.get?_erase, h k hk]

theorem eraseAll_agree (h : ∀ k, D k → t'.get? k = t.get? k) (ks : List Key) :
    ∀ k, D k → (t'.eraseAll ks).get? k = (t.eraseAll ks).get? k := by
  intro k hk
  rw [Table.get?_eraseAll, Table.get?_eraseAll, h k hk]

theorem beq_eq_false_of_not (ha : ¬ D (.text a)) {k : Key} (hk : D k) : (Key.text a == k) = false := by
  rw [Bool.eq_false_iff]
  intro hak
  exact ha (Key.eq_text_of_beq (BEq.symm hak) ▸ hk)

/-- Tables that agree in some keys do so after a change at another key. -/
theorem insert_agree_of_not (h : ∀ k, D k → t'.get? k = t.get? k) (ha : ¬ D (.text a)) (x : β) :
    ∀ k, D k → (t'.insert (.text a) x).get? k = t.get? k := by
  intro k hk
  rw [Table.get?_insert_of_ne _ _ (beq_eq_false_of_not ha hk), h k hk]

theorem erase_agree_of_not (h : ∀ k, D k → t'.get? k = t.get? k) (ha : ¬ D (.text a)) :
    ∀ k, D k → (t'.erase (.text a)).get? k = t.get? k := by
  intro k hk
  rw [Table.get?_erase, beq_eq_false_of_not ha hk]
  exact h k hk

end

namespace SamePart

variable {P : Part} {s t u : Resources} {a : String} {k : Key}

theorem refl (P : Part) (s : Resources) : SamePart P s s :=
  ⟨rfl, rfl, fun _ _ => rfl, fun _ _ => rfl, fun _ _ => rfl, fun _ _ => rfl,
    fun _ _ => rfl, fun _ _ => rfl, rfl⟩

/-! ### Changes that are made to both -/

theorem putLb (h : SamePart P s u) (k : Key) (lb : Fields) : SamePart P (s.putLb k lb) (u.putLb k lb) :=
  { h with loadBalancers := insert_agree h.loadBalancers k lb }

theorem putLbAttributes (h : SamePart P s u) (k : Key) (l : Labels) :
    SamePart P (s.putLbAttributes k l) (u.putLbAttributes k l) :=
  { h with lbAttributes := insert_agree h.lbAttributes k l }

theorem putTg (h : SamePart P s u) (k : Key) (tg : Fields) : SamePart P (s.putTg k tg) (u.putTg k tg) :=
  { h with targetGroups := insert_agree h.targetGroups k tg }

theorem putTgAttributes (h : SamePart P s u) (k : Key) (l : Labels) :
    SamePart P (s.putTgAttributes k l) (u.putTgAttributes k l) :=
  { h with tgAttributes := insert_agree h.tgAttributes k l }

theorem putTargets (h : SamePart P s u) (k : Key) (ts : List Value) :
    SamePart P (s.putTargets k ts) (u.putTargets k ts) :=
  { h with targets := insert_agree h.targets k ts }

theorem putTags (h : SamePart P s u) (k : Key) (l : Labels) : SamePart P (s.putTags k l) (u.putTags k l) :=
  { h with tags := insert_agree h.tags k l }

theorem addLb (h : SamePart P s u) (k : Key) (lb : Fields) (tags : Labels) :
    SamePart P (s.addLb k lb tags) (u.addLb k lb tags) :=
  { h with
    loadBalancers := insert_agree h.loadBalancers k lb
    lbAttributes := insert_agree h.lbAttributes k ∅
    tags := insert_agree h.tags k tags }

theorem addTg (h : SamePart P s u) (k : Key) (tg : Fields) (tags : Labels) :
    SamePart P (s.addTg k tg tags) (u.addTg k tg tags) :=
  { h with
    targetGroups := insert_agree h.targetGroups k tg
    tgAttributes := insert_agree h.tgAttributes k ∅
    targets := insert_agree h.targets k []
    tags := insert_agree h.tags k tags }

theorem dropTgs (h : SamePart P s u) (ks : List Key) : SamePart P (s.dropTgs ks) (u.dropTgs ks) :=
  { h with
    targetGroups := eraseAll_agree h.targetGroups ks
    targets := eraseAll_agree h.targets ks
    tags := eraseAll_agree h.tags ks }

theorem dropLb (h : SamePart P s u) (a : String) : SamePart P (s.dropLb a) (u.dropLb a) :=
  { h with
    loadBalancers := erase_agree h.loadBalancers (.text a)
    tags := erase_agree h.tags (.text a)
    listeners := by
      rw [dropLb_listeners, dropLb_listeners, Table.filter_comm, h.listeners, Table.filter_comm] }

theorem dropListeners (h : SamePart P s u) (ks : List Key) :
    SamePart P (s.dropListeners ks) (u.dropListeners ks) :=
  { h with
    listeners := by
      rw [dropListeners_listeners, dropListeners_listeners, Table.filter_eraseAll, h.listeners,
        Table.filter_eraseAll] }

/-- A listener of the part that is put where there was none or one of the part. -/
theorem insertListener {l : Fields} (h : SamePart P s u) (hl : P.on l = true)
    (hs : ∀ l', s.listeners.get? k = some l' → P.on l' = true)
    (hu : ∀ l', u.listeners.get? k = some l' → P.on l' = true) :
    ((u.listeners.insert k l).filter fun _ => P.on) = (s.listeners.insert k l).filter fun _ => P.on := by
  rw [Table.filter_insert hl hs, Table.filter_insert hl hu, h.listeners]

/-! ### Changes outside -/

theorem putLb_right (h : SamePart P s u) (ha : ¬ P.lb (.text a)) (lb : Fields) :
    SamePart P s (u.putLb (.text a) lb) :=
  { h with loadBalancers := insert_agree_of_not h.loadBalancers ha lb }

theorem putLbAttributes_right (h : SamePart P s u) (ha : ¬ P.lb (.text a)) (l : Labels) :
    SamePart P s (u.putLbAttributes (.text a) l) :=
  { h with lbAttributes := insert_agree_of_not h.lbAttributes ha l }

theorem putTg_right (h : SamePart P s u) (ha : ¬ P.group (.text a)) (tg : Fields) :
    SamePart P s (u.putTg (.text a) tg) :=
  { h with targetGroups := insert_agree_of_not h.targetGroups ha tg }

theorem putTgAttributes_right (h : SamePart P s u) (ha : ¬ P.group (.text a)) (l : Labels) :
    SamePart P s (u.putTgAttributes (.text a) l) :=
  { h with tgAttributes := insert_agree_of_not h.tgAttributes ha l }

theorem putTargets_right (h : SamePart P s u) (ha : ¬ P.group (.text a)) (ts : List Value) :
    SamePart P s (u.putTargets (.text a) ts) :=
  { h with targets := insert_agree_of_not h.targets ha ts }

theorem putTags_right (h : SamePart P s u) (ha : ¬ P.tags (.text a)) (l : Labels) :
    SamePart P s (u.putTags (.text a) l) :=
  { h with tags := insert_agree_of_not h.tags ha l }

theorem addLb_right (h : SamePart P s u) (ha : ¬ P.lb (.text a)) (ht : ¬ P.tags (.text a))
    (lb : Fields) (tags : Labels) :
    SamePart P s (u.addLb (.text a) lb tags) :=
  { h with
    loadBalancers := insert_agree_of_not h.loadBalancers ha lb
    lbAttributes := insert_agree_of_not h.lbAttributes ha ∅
    tags := insert_agree_of_not h.tags ht tags }

theorem addTg_right (h : SamePart P s u) (ha : ¬ P.group (.text a)) (ht : ¬ P.tags (.text a))
    (tg : Fields) (tags : Labels) :
    SamePart P s (u.addTg (.text a) tg tags) :=
  { h with
    targetGroups := insert_agree_of_not h.targetGroups ha tg
    tgAttributes := insert_agree_of_not h.tgAttributes ha ∅
    targets := insert_agree_of_not h.targets ha []
    tags := insert_agree_of_not h.tags ht tags }

theorem dropTg_right (h : SamePart P s u) (ha : ¬ P.group (.text a)) (ht : ¬ P.tags (.text a)) :
    SamePart P s (u.dropTgs [.text a]) := by
  have hdrop : u.dropTgs [.text a] = { u with
      targetGroups := u.targetGroups.erase (.text a)
      targets := u.targets.erase (.text a)
      tags := u.tags.erase (.text a) } := by
    simp only [Resources.dropTgs, Table.eraseAll_singleton]
  rw [hdrop]
  exact { h with
    targetGroups := erase_agree_of_not h.targetGroups ha
    targets := erase_agree_of_not h.targets ha
    tags := erase_agree_of_not h.tags ht }

theorem dropLb_right (h : SamePart P s u) (ha : ¬ P.lb (.text a)) (ht : ¬ P.tags (.text a))
    (hon : ∀ l, P.on l = true → Fields.get l "LoadBalancerArn" ≠ .text a) : SamePart P s (u.dropLb a) :=
  { h with
    loadBalancers := erase_agree_of_not h.loadBalancers ha
    tags := erase_agree_of_not h.tags ht
    listeners := by
      rw [dropLb_listeners, Table.filter_filter_of_imp _ fun l hl => ?_, h.listeners]
      rw [Bool.not_eq_true', Bool.eq_false_iff, ne_eq, Value.same_text_iff]
      exact hon l hl }

theorem dropListeners_right (h : SamePart P s u) {ks : List Key}
    (hks : ∀ k l, k ∈ ks → u.listeners.get? k = some l → P.on l = false) :
    SamePart P s (u.dropListeners ks) :=
  { h with
    listeners := by rw [dropListeners_listeners, Table.filter_eraseAll_of_not hks, h.listeners] }

/-- A listener outside the part that is put where there was none or one outside the part. -/
theorem insertListener_right {l : Fields} (h : SamePart P s u) (hl : P.on l = false)
    (hu : ∀ l', u.listeners.get? k = some l' → P.on l' = false) :
    ((u.listeners.insert k l).filter fun _ => P.on) = s.listeners.filter fun _ => P.on := by
  rw [Table.filter_insert_of_not hl hu, h.listeners]

end SamePart

end Resources

end Balancer
