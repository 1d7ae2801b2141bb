import Balancer.Proofs.Cloud.Part
import Balancer.Proofs.Cloud.Twin

/-!
# What one Service may touch

* `Estate` : the ARNs that a Service may use during a run. They are fixed when the run starts: those of its
  load balancer and its target groups, and all that are still to be given out;
* `Kept e s u` : all but the estate is in `u` as it was in `s`, and what is new belongs to the Service;
* `Lockstep e s t u v` : `u` and `v`, reached from `s` and `t`, agree in the estate and have kept all else.
  There is one lemma for each change within the estate.
-/

namespace Balancer.Resources

set_option autoImplicit false

open Converge

/-! ## Estates -/

/-- The ARNs that a Service may use during a run, and those of load balancers that are not deleted in it. -/
structure Estate where
  marks : Marks
  lb : String → Prop
  group : String → Prop
  held : String → Prop

/-- A text that satisfies a condition. -/
def OfText (D : String → Prop) : Key → Prop
  | .text a => D a
  | _ => False

namespace Estate

/-- A listener of a load balancer of the estate. -/
def On (e : Estate) (l : Fields) : Prop := ∃ a, e.lb a ∧ Fields.get l "LoadBalancerArn" = .text a

open Classical in
/-- What belongs to the estate. -/
noncomputable def own (e : Estate) : Part where
  lb := OfText e.lb
  group := OfText e.group
  tags := OfText fun a => e.lb a ∨ e.group a
  on l := decide (e.On l)

open Classical in
/-- What does not. -/
noncomputable def rest (e : Estate) : Part where
  lb k := ¬ OfText e.lb k
  group k := ¬ OfText e.group k
  tags k := ¬ OfText (fun a => e.lb a ∨ e.group a) k
  on l := decide (¬ e.On l)

section

variable {e : Estate} {l : Fields}

@[simp] theorem own_on : e.own.on l = true ↔ e.On l := by simp [own]

@[simp] theorem rest_on : e.rest.on l = true ↔ ¬ e.On l := by simp [rest]

@[simp] theorem rest_on_eq_false : e.rest.on l = false ↔ e.On l := by simp [rest]

end

/-- A target group that goes by a name or by the tags of a Service. -/
def InGroup (m : Marks) (k : Key) (s : Resources) : Prop :=
  ∃ tg, s.targetGroups.get? k = some tg ∧
    ((∃ n, m.group n ∧ Fields.get tg "TargetGroupName" = .text n) ∨ hasTags m.selector (s.tagsOf k) = true)

/-- The estate has all that a run from some resources may lead to: what is there already, and what is still to
be given out. No other listener keeps a target group of it from being deleted. -/
structure Covers (e : Estate) (s : Resources) : Prop where
  lb : ∀ a, LbNamed e.marks.lb (.text a) s → e.lb a
  group : ∀ a, InGroup e.marks (.text a) s → e.group a
  future : ∀ a, Future s a → e.lb a ∧ e.group a ∧ s.listeners.get? (.text a) = none
  apart : ∀ a tg, e.lb a → s.targetGroups.get? (.text a) = some tg → e.group a
  unused : ∀ a k l, e.group a → s.listeners.get? k = some l → ¬ e.On l →
    ∃ as, actionsOf l = .ok as ∧ forwardsTo (.text a) as = .ok false

end Estate

/-! ## What is kept -/

/-- All but the estate is as it was, and what is new belongs to the Service. -/
structure Kept (e : Estate) (s u : Resources) : Prop where
  rest : SamePart e.rest s u
  nextId : s.nextId ≤ u.nextId
  tidy : u.Tidy
  lbMine : ∀ a fs, e.lb a → u.loadBalancers.get? (.text a) = some fs →
    Fields.get fs "LoadBalancerName" = .text e.marks.lb
  groupMine : ∀ a tg, Future s a → u.targetGroups.get? (.text a) = some tg →
    ∃ n, e.marks.group n ∧ Fields.get tg "TargetGroupName" = .text n
  held : ∀ a, e.held a → LbNamed e.marks.lb (.text a) u
  onLb : ∀ k l a, u.listeners.get? k = some l → e.lb a → Fields.get l "LoadBalancerArn" = .text a →
    LbNamed e.marks.lb (.text a) u

/-- No listener outside the estate has the ARN. -/
def Free (e : Estate) (s : Resources) (a : String) : Prop := ∀ l, s.listeners.get? (.text a) = some l → e.On l

section

variable {e : Estate} {s t u v : Resources} {a n : String} {fs gs tg l l' : Fields} {k : Key}

theorem Tidy.congr (h : s.Tidy) (hlb : t.loadBalancers = s.loadBalancers)
    (htg : t.targetGroups = s.targetGroups) (hls : t.listeners = s.listeners) : t.Tidy :=
  h.of_within (hlb ▸ Within.refl _ _) (htg ▸ Within.refl _ _) (hls ▸ Within.refl _ _)

theorem lbNamed_putLb (h : LbNamed n k s) (hk : s.loadBalancers.get? (.text a) = some fs)
    (hname : Fields.get gs "LoadBalancerName" = Fields.get fs "LoadBalancerName") :
    LbNamed n k (s.putLb (.text a) gs) := by
  obtain ⟨fs', hk', hn⟩ := h
  by_cases hak : Key.text a == k
  · rw [← Table.get?_congr _ hak, hk] at hk'
    cases hk'
    exact ⟨gs, by rw [putLb_loadBalancers, Table.get?_insert, if_pos hak], hname.trans hn⟩
  · exact ⟨fs', by rw [putLb_loadBalancers, Table.get?_insert, if_neg hak, hk'], hn⟩

namespace Kept

theorem of_same (h : Kept e s u) (hrest : SamePart e.rest s v) (hid : v.nextId = u.nextId)
    (hlb : v.loadBalancers = u.loadBalancers) (htg : v.targetGroups = u.targetGroups)
    (hls : v.listeners = u.listeners) :
    Kept e s v where
  rest := hrest
  nextId := hid ▸ h.nextId
  tidy := h.tidy.congr hlb htg hls
  lbMine := hlb ▸ h.lbMine
  groupMine := htg ▸ h.groupMine
  held a ha := by
    unfold LbNamed
    rw [hlb]
    exact h.held a ha
  onLb k l a hl ha hon := by
    unfold LbNamed
    rw [hlb]
    exact h.onLb k l a (hls ▸ hl) ha hon

theorem putLbAttributes (h : Kept e s u) (ha : e.lb a) (ls : Labels) :
    Kept e s (u.putLbAttributes (.text a) ls) :=
  h.of_same (h.rest.putLbAttributes_right (not_not_intro ha) ls) rfl rfl rfl rfl

theorem putTgAttributes (h : Kept e s u) (ha : e.group a) (ls : Labels) :
    Kept e s (u.putTgAttributes (.text a) ls) :=
  h.of_same (h.rest.putTgAttributes_right (not_not_intro ha) ls) rfl rfl rfl rfl

theorem putTargets (h : Kept e s u) (ha : e.group a) (ts : List Value) :
    Kept e s (u.putTargets (.text a) ts) :=
  h.of_same (h.rest.putTargets_right (not_not_intro ha) ts) rfl rfl rfl rfl

theorem putTags (h : Kept e s u) (ha : e.lb a ∨ e.group a) (ls : Labels) :
    Kept e s (u.putTags (.text a) ls) :=
  h.of_same (h.rest.putTags_right (not_not_intro ha) ls) rfl rfl rfl rfl

theorem putLb (h : Kept e s u) (ha : e.lb a) (hk : u.loadBalancers.get? (.text a) = some fs)
    (hw : AgreeIn ["LoadBalancerArn", "LoadBalancerName"] gs fs) : Kept e s (u.putLb (.text a) gs) where
  rest := h.rest.putLb_right (not_not_intro ha) gs
  nextId := h.nextId
  tidy := h.tidy.of_within (Within.insert hk hw) (Within.refl _ _) (Within.refl _ _)
  lbMine b fs' hb hk' := by
    rcases Table.get?_insert_text_iff.1 hk' with ⟨-, rfl⟩ | ⟨-, hk'⟩
    · exact (hw _ (by simp)).trans (h.lbMine a fs ha hk)
    · exact h.lbMine b fs' hb hk'
  groupMine := h.groupMine
  held b hb := lbNamed_putLb (h.held b hb) hk (hw _ (by simp))
  onLb k l b hl hb hon := lbNamed_putLb (h.onLb k l b hl hb hon) hk (hw _ (by simp))

theorem putTg (h : Kept e s u) (ha : e.group a) (hk : u.targetGroups.get? (.text a) = some fs)
    (hw : AgreeIn ["TargetGroupArn", "TargetGroupName"] gs fs) : Kept e s (u.putTg (.text a) gs) where
  rest := h.rest.putTg_right (not_not_intro ha) gs
  nextId := h.nextId
  tidy := h.tidy.of_within (Within.refl _ _) (Within.insert hk hw) (Within.refl _ _)
  lbMine := h.lbMine
  groupMine b tg hb hk' := by
    rcases Table.get?_insert_text_iff.1 hk' with ⟨hab, rfl⟩ | ⟨-, hk'⟩
    · rw [hw _ (by simp)]
      exact h.groupMine b fs hb (hab ▸ hk)
    · exact h.groupMine b tg hb hk'
  held := h.held
  onLb := h.onLb

theorem addLb (h : Kept e s u) (ha : e.lb a) (hown : Fields.get fs "LoadBalancerArn" = .text a)
    (hname : Fields.get fs "LoadBalancerName" = .text e.marks.lb)
    (hnone : ∀ k, ¬ LbNamed e.marks.lb k u) (tags : Labels) :
    Kept e s (u.addLb (.text a) fs tags) where
  rest := h.rest.addLb_right (not_not_intro ha) (not_not_intro (.inl ha)) fs tags
  nextId := Nat.le_succ_of_le h.nextId
  tidy := h.tidy.addLb tags hown hname hnone
  lbMine b fs' hb hk' := by
    rcases Table.get?_insert_text_iff.1 hk' with ⟨-, rfl⟩ | ⟨-, hk'⟩
    · exact hname
    · exact h.lbMine b fs' hb hk'
  groupMine := h.groupMine
  held b hb := absurd (h.held b hb) (hnone _)
  onLb k l b hl hb hon := absurd (h.onLb k l b hl hb hon) (hnone _)

theorem addTg (h : Kept e s u) (ha : e.group a) (hown : Fields.get fs "TargetGroupArn" = .text a)
    (hn : e.marks.group n) (hname : Fields.get fs "TargetGroupName" = .text n)
    (hnone : ∀ k, ¬ GroupNamed n k u) (tags : Labels) : Kept e s (u.addTg (.text a) fs tags) where
  rest := h.rest.addTg_right (not_not_intro ha) (not_not_intro (.inr ha)) fs tags
  nextId := Nat.le_succ_of_le h.nextId
  tidy := h.tidy.addTg tags hown hname hnone
  lbMine := h.lbMine
  groupMine b tg hb hk' := by
    rcases Table.get?_insert_text_iff.1 hk' with ⟨-, rfl⟩ | ⟨-, hk'⟩
    · exact ⟨n, hn, hname⟩
    · exact h.groupMine b tg hb hk'
  held := h.held
  onLb := h.onLb

theorem dropTg (h : Kept e s u) (ha : e.group a) : Kept e s (u.dropTgs [.text a]) where
  rest := h.rest.dropTg_right (not_not_intro ha) (not_not_intro (.inr ha))
  nextId := h.nextId
  tidy := h.tidy.of_within (Within.refl _ _)
    (Within.of_get? fun _ _ hk => Table.get?_of_get?_eraseAll hk) (Within.refl _ _)
  lbMine := h.lbMine
  groupMine b tg hb hk := h.groupMine b tg hb (Table.get?_of_get?_eraseAll hk)
  held := h.held
  onLb := h.onLb

theorem dropLb (h : Kept e s u) (ha : e.lb a) (hheld : ¬ e.held a) : Kept e s (u.dropLb a) where
  rest := h.rest.dropLb_right (not_not_intro ha) (not_not_intro (.inl ha)) fun l hl hon =>
    Estate.rest_on.1 hl ⟨a, ha, hon⟩
  nextId := h.nextId
  tidy := by
    refine h.tidy.of_within (Within.of_get? fun k fs hk => ?_) (Within.refl _ _)
      (Within.of_get? fun k l hl => ?_)
    · exact (Table.get?_erase_eq_some_iff.1 hk).2
    · exact (get?_listeners_dropLb.1 hl).1
  lbMine b fs hb hk := h.lbMine b fs hb (Table.get?_erase_eq_some_iff.1 hk).2
  groupMine := h.groupMine
  held b hb := by
    obtain ⟨fs, hk, hn⟩ := h.held b hb
    refine ⟨fs, ?_, hn⟩
    rw [dropLb_loadBalancers, Table.get?_erase, if_neg, hk]
    rw [Key.text_beq_text, beq_iff_eq]
    rintro rfl
    exact hheld hb
  onLb k l b hl hb hon := by
    obtain ⟨hl, hne⟩ := get?_listeners_dropLb.1 hl
    obtain ⟨fs, hk, hn⟩ := h.onLb k l b hl hb hon
    refine ⟨fs, ?_, hn⟩
    rw [dropLb_loadBalancers, Table.get?_erase, if_neg, hk]
    rw [Key.text_beq_text, beq_iff_eq]
    rintro rfl
    exact hne hon

/-- An ARN at which no listener of the rest stands is free all the time. -/
theorem free (h : Kept e s u) (hfree : Free e s a) : Free e u a := by
  intro l hl
  by_contra hon
  have hget : (u.listeners.filter fun _ => e.rest.on).get? (.text a) = some l := by
    rw [Table.get?_filter_values, hl]
    simp [Option.filter, hon]
  rw [h.rest.listeners, Table.get?_filter_values] at hget
  exact hon (hfree l (Option.filter_eq_some_iff.1 hget).1)

theorem insertListener (h : Kept e s u) {m : Nat} (hid : u.nextId ≤ m) (hfree : Free e u a) (hon : e.On l)
    (hown : Fields.get l "ListenerArn" = .text a)
    (hlb : ∀ b, e.lb b → Fields.get l "LoadBalancerArn" = .text b → LbNamed e.marks.lb (.text b) u) :
    Kept e s { u with nextId := m, listeners := u.listeners.insert (.text a) l } where
  rest :=
    { h.rest with
      listeners := h.rest.insertListener_right (Estate.rest_on_eq_false.2 hon) fun l' hl' =>
        Estate.rest_on_eq_false.2 (hfree l' hl') }
  nextId := Nat.le_trans h.nextId hid
  tidy := { h.tidy with listenerOwn := own_insert h.tidy.listenerOwn hown }
  lbMine := h.lbMine
  groupMine := h.groupMine
  held := h.held
  onLb k l' b hl' hb hon' := by
    rcases Table.get?_insert_text_iff.1 hl' with ⟨-, rfl⟩ | ⟨-, hl'⟩
    · exact hlb b hb hon'
    · exact h.onLb k l' b hl' hb hon'

theorem dropListener (h : Kept e s u) (hfree : Free e u a) : Kept e s (u.dropListeners [.text a]) where
  rest := by
    refine h.rest.dropListeners_right fun k l hk hl => ?_
    rw [List.mem_singleton.1 hk] at hl
    exact Estate.rest_on_eq_false.2 (hfree l hl)
  nextId := h.nextId
  tidy := h.tidy.of_within (Within.refl _ _) (Within.refl _ _)
    (Within.of_get? fun _ _ hk => Table.get?_of_get?_eraseAll hk)
  lbMine := h.lbMine
  groupMine := h.groupMine
  held := h.held
  onLb k l b hl hb hon := h.onLb k l b (Table.get?_of_get?_eraseAll hl) hb hon

/-- The load balancer of the name belongs to the estate. -/
theorem lb_of_named (h : Kept e s u) (hs : e.Covers s) (hn : LbNamed e.marks.lb (.text a) u) : e.lb a := by
  by_contra hno
  obtain ⟨fs, hk, hn⟩ := hn
  rw [h.rest.loadBalancers (.text a) hno] at hk
  exact hno (hs.lb a ⟨fs, hk, hn⟩)

/-- The target groups that go by the names or the tags belong to the estate. -/
theorem group_of_inGroup (h : Kept e s u) (hs : e.Covers s)
    (hin : Estate.InGroup e.marks (.text a) u) : e.group a := by
  by_contra hno
  obtain ⟨tg, hk, hin⟩ := hin
  rw [h.rest.targetGroups (.text a) hno] at hk
  have htags : u.tagsOf (.text a) = s.tagsOf (.text a) := by
    unfold tagsOf
    rw [h.rest.tags (.text a) fun hor => hor.elim (fun hlb => hno (hs.apart a tg hlb hk)) hno]
  rw [htags] at hin
  exact hno (hs.group a ⟨tg, hk, hin⟩)

/-- No listener of the rest forwards to a target group of the estate. -/
theorem unused (h : Kept e s u) (hs : e.Covers s) (ha : e.group a)
    (hl : u.listeners.get? k = some l) (hon : ¬ e.On l) :
    ∃ as, actionsOf l = .ok as ∧ forwardsTo (.text a) as = .ok false := by
  have hget : (u.listeners.filter fun _ => e.rest.on).get? k = some l := by
    rw [Table.get?_filter_values, hl]
    simp [Option.filter, hon]
  rw [h.rest.listeners, Table.get?_filter_values] at hget
  exact hs.unused a k l ha (Option.filter_eq_some_iff.1 hget).1 hon

/-- An ARN that is given out next is one of the estate. -/
theorem future (h : Kept e s u) (ha : Numbered u.nextId a) : Future s a := ⟨u.nextId, h.nextId, ha⟩

end Kept

end

/-! ## Two runs -/

/-- Two states agree in the estate, and have kept all else. -/
structure Lockstep (e : Estate) (s t u v : Resources) : Prop where
  own : SamePart e.own u v
  nextId : v.nextId = u.nextId
  left : Kept e s u
  right : Kept e t v

namespace Lockstep

section

variable {e : Estate} {s t u v : Resources} {a n : String} {fs gs l : Fields}

theorem get?_lb (h : Lockstep e s t u v) (ha : e.lb a) :
    v.loadBalancers.get? (.text a) = u.loadBalancers.get? (.text a) :=
  h.own.loadBalancers (.text a) ha

theorem get?_group (h : Lockstep e s t u v) (ha : e.group a) :
    v.targetGroups.get? (.text a) = u.targetGroups.get? (.text a) :=
  h.own.targetGroups (.text a) ha

theorem get?_tags (h : Lockstep e s t u v) (ha : e.lb a ∨ e.group a) :
    v.tags.get? (.text a) = u.tags.get? (.text a) :=
  h.own.tags (.text a) ha

/-- A listener of the estate is in both states. -/
theorem get?_listener (h : Lockstep e s t u v) (hs : Free e s a) (ht : Free e t a) :
    v.listeners.get? (.text a) = u.listeners.get? (.text a) := by
  have hown : ∀ {w : Resources}, Free e w a →
      (w.listeners.filter fun _ => e.own.on).get? (.text a) = w.listeners.get? (.text a) := by
    intro w hw
    rw [Table.get?_filter_values]
    cases hl : w.listeners.get? (.text a) with
    | none => rfl
    | some l => simp [Option.filter, hw l hl]
  rw [← hown (h.left.free hs), ← hown (h.right.free ht), h.own.listeners]

theorem putLbAttributes (h : Lockstep e s t u v) (ha : e.lb a) (ls : Labels) :
    Lockstep e s t (u.putLbAttributes (.text a) ls) (v.putLbAttributes (.text a) ls) :=
  ⟨h.own.putLbAttributes _ ls, h.nextId, h.left.putLbAttributes ha ls, h.right.putLbAttributes ha ls⟩

theorem putTgAttributes (h : Lockstep e s t u v) (ha : e.group a) (ls : Labels) :
    Lockstep e s t (u.putTgAttributes (.text a) ls) (v.putTgAttributes (.text a) ls) :=
  ⟨h.own.putTgAttributes _ ls, h.nextId, h.left.putTgAttributes ha ls, h.right.putTgAttributes ha ls⟩

theorem putTargets (h : Lockstep e s t u v) (ha : e.group a) (ts : List Value) :
    Lockstep e s t (u.putTargets (.text a) ts) (v.putTargets (.text a) ts) :=
  ⟨h.own.putTargets _ ts, h.nextId, h.left.putTargets ha ts, h.right.putTargets ha ts⟩

theorem putTags (h : Lockstep e s t u v) (ha : e.lb a ∨ e.group a) (ls : Labels) :
    Lockstep e s t (u.putTags (.text a) ls) (v.putTags (.text a) ls) :=
  ⟨h.own.putTags _ ls, h.nextId, h.left.putTags ha ls, h.right.putTags ha ls⟩

theorem putLb (h : Lockstep e s t u v) (ha : e.lb a) (hk : u.loadBalancers.get? (.text a) = some fs)
    (hw : AgreeIn ["LoadBalancerArn", "LoadBalancerName"] gs fs) :
    Lockstep e s t (u.putLb (.text a) gs) (v.putLb (.text a) gs) :=
  ⟨h.own.putLb _ gs, h.nextId, h.left.putLb ha hk hw, h.right.putLb ha ((h.get?_lb ha).trans hk) hw⟩

theorem putTg (h : Lockstep e s t u v) (ha : e.group a) (hk : u.targetGroups.get? (.text a) = some fs)
    (hw : AgreeIn ["TargetGroupArn", "TargetGroupName"] gs fs) :
    Lockstep e s t (u.putTg (.text a) gs) (v.putTg (.text a) gs) :=
  ⟨h.own.putTg _ gs, h.nextId, h.left.putTg ha hk hw, h.right.putTg ha ((h.get?_group ha).trans hk) hw⟩

theorem dropTg (h : Lockstep e s t u v) (ha : e.group a) :
    Lockstep e s t (u.dropTgs [.text a]) (v.dropTgs [.text a]) :=
  ⟨h.own.dropTgs _, h.nextId, h.left.dropTg ha, h.right.dropTg ha⟩

theorem dropLb (h : Lockstep e s t u v) (ha : e.lb a) (hheld : ¬ e.held a) :
    Lockstep e s t (u.dropLb a) (v.dropLb a) :=
  ⟨h.own.dropLb a, h.nextId, h.left.dropLb ha hheld, h.right.dropLb ha hheld⟩

theorem dropListener (h : Lockstep e s t u v) (hs : Free e s a) (ht : Free e t a) :
    Lockstep e s t (u.dropListeners [.text a]) (v.dropListeners [.text a]) :=
  ⟨h.own.dropListeners _, h.nextId, h.left.dropListener (h.left.free hs),
    h.right.dropListener (h.right.free ht)⟩

/-- A load balancer of the name is one and the same in both states. -/
theorem lbNamed_iff (h : Lockstep e s t u v) (hs : e.Covers s) (ht : e.Covers t) :
    LbNamed e.marks.lb (.text a) v ↔ LbNamed e.marks.lb (.text a) u := by
  unfold LbNamed
  constructor
  · rintro ⟨fs, hk, hn⟩
    exact ⟨fs, (h.get?_lb (h.right.lb_of_named ht ⟨fs, hk, hn⟩)).symm.trans hk, hn⟩
  · rintro ⟨fs, hk, hn⟩
    exact ⟨fs, (h.get?_lb (h.left.lb_of_named hs ⟨fs, hk, hn⟩)).trans hk, hn⟩

/-- So is a target group of one of the names or of the tags. -/
theorem inGroup_iff (h : Lockstep e s t u v) (hs : e.Covers s) (ht : e.Covers t) :
    Estate.InGroup e.marks (.text a) v ↔ Estate.InGroup e.marks (.text a) u := by
  have hcongr : e.group a → (Estate.InGroup e.marks (.text a) v ↔ Estate.InGroup e.marks (.text a) u) := by
    intro ha
    unfold Estate.InGroup tagsOf
    rw [h.get?_group ha, h.get?_tags (.inr ha)]
  exact ⟨fun hin => (hcongr (h.right.group_of_inGroup ht hin)).1 hin,
    fun hin => (hcongr (h.left.group_of_inGroup hs hin)).2 hin⟩

theorem groupNamed_iff (h : Lockstep e s t u v) (hs : e.Covers s) (ht : e.Covers t) (hn : e.marks.group n) :
    GroupNamed n (.text a) v ↔ GroupNamed n (.text a) u := by
  constructor
  · rintro ⟨tg, hk, hname⟩
    have ha := h.right.group_of_inGroup ht ⟨tg, hk, .inl ⟨n, hn, hname⟩⟩
    exact ⟨tg, (h.get?_group ha).symm.trans hk, hname⟩
  · rintro ⟨tg, hk, hname⟩
    have ha := h.left.group_of_inGroup hs ⟨tg, hk, .inl ⟨n, hn, hname⟩⟩
    exact ⟨tg, (h.get?_group ha).trans hk, hname⟩

end

end Lockstep

end Balancer.Resources
