import Balancer.Proofs.Cloud.Estate

/-!
# Requests in lockstep

* `Estate.Owns e s t r` : a request that keeps to an estate, for two runs from `s` and `t`;
* `Lockstep.inStep` : such a request has one answer in both runs, and they stay in lockstep;
* `Lockstep.named_lb`, `Lockstep.named_tg`, `Lockstep.free_of_listenersOf` : what is
  found belongs to the estate;
* `Lockstep.inStep_createLb`, `Lockstep.inStep_createTg` : so does what is created, if there is
  nothing of the name yet;
* `Lockstep.owned_perm` : both runs find the same target groups by tags, maybe in another order.
-/

namespace Balancer.Resources

set_option autoImplicit false

open Converge Program

/-! ## Requests -/

/-- The actions of a listener forward to target groups of the estate, or to none. -/
def Estate.Reaches (e : Estate) (s t : Resources) (listener : Fields) : Prop :=
  ∀ as, actionsOf listener = .ok as → ∀ action ∈ as, ∀ v k, action.get "TargetGroupArn" = .ok v →
    v.key = .ok k →
    OfText e.group k ∨ s.targetGroups.get? k = none ∧ t.targetGroups.get? k = none

/-- A request that keeps to the estate, for two runs. What is created is left out, as it
depends on what there is. -/
def Estate.Owns (e : Estate) (s t : Resources) : Request → Prop
  | .lbAttributes arn | .listeners arn | .setIpAddressType arn _ | .setSubnets arn _ =>
    ∃ a, arn = .text a ∧ e.lb a
  | .modifyLbAttributes arn new => ∃ a fs, arn = .text a ∧ e.lb a ∧ new = .object fs
  | .deleteLoadBalancer arn => ∃ a, arn = .text a ∧ e.lb a ∧ ¬ e.held a
  | .tgAttributes arn | .targets arn | .deleteTargetGroup arn | .registerTargets arn
    _ | .deregisterTargets arn _ =>
    ∃ a, arn = .text a ∧ e.group a
  | .modifyTgAttributes arn new => ∃ a fs, arn = .text a ∧ e.group a ∧ new = .object fs
  | .modifyTargetGroup params => ∃ a, Fields.item params "TargetGroupArn" = .ok (.text a) ∧ e.group a
  | .tags arn | .removeTags arn _ => ∃ a, arn = .text a ∧ (e.lb a ∨ e.group a)
  | .addTags arn new => ∃ a fs, arn = .text a ∧ (e.lb a ∨ e.group a) ∧ new = .object fs
  | .createListener params =>
    ∃ a, Fields.get params "LoadBalancerArn" = .text a ∧ e.lb a ∧ e.held a ∧ e.Reaches s t params
  | .modifyListener params =>
      ∃ a, Fields.item params "ListenerArn" = .ok (.text a) ∧ Free e s a ∧ Free e t a ∧
      (∀ f ∈ params, f.1 = "LoadBalancerArn" → False) ∧ (∀ f ∈ params, f.1 = "ListenerArn" → f.2 = .text a) ∧
      e.Reaches s t params
  | .deleteListener arn => ∃ a, arn = .text a ∧ Free e s a ∧ Free e t a
  | .clusterSubnets _ | .subnetsNamed _ => True
  | _ => False

theorem recorded_eq (s : Resources) (r : Request) :
    s.recorded r =
      match s.refusal r >>= fun _ => r.record? with
      | .error _ => []
      | .ok record => record.toList := by
  unfold recorded Memory.perform
  cases (s.refusal r >>= fun _ => r.record?) <;> simp

section

variable {R : Resources → Resources → Prop} {r : Request} {u v : Resources}

theorem InStep.of_perform {x : Except Error r.Answer} {u' v' : Resources}
    (hrefusal : v.refusal r = u.refusal r) (hu : u.perform r = (x, u')) (hv : v.perform r = (x, v'))
    (h : R u' v') : InStep R r u v := by
  refine ⟨?_, ?_, ?_⟩
  · rw [recorded_eq, recorded_eq, hrefusal]
  · rw [hu, hv]
  · rw [hu, hv]
    exact h

/-- A request that is refused alike, and whose effect is the same. -/
theorem InStep.of_effect (h : R u v) (hrefusal : v.refusal r = u.refusal r)
    (heffect : (v.effect r).1 = (u.effect r).1 ∧ R (u.effect r).2 (v.effect r).2) : InStep R r u v := by
  have hrecorded : u.recorded r = v.recorded r := by rw [recorded_eq, recorded_eq, hrefusal]
  cases hu : u.refusal r >>= fun _ => r.record? with
  | error e =>
    have hv := hu
    rw [← hrefusal] at hv
    refine ⟨hrecorded, ?_, ?_⟩ <;> rw [perform_eq, perform_eq, hu, hv]
    exact h
  | ok record =>
    have hv := hu
    rw [← hrefusal] at hv
    refine ⟨hrecorded, ?_, ?_⟩ <;> rw [perform_eq, perform_eq, hu, hv]
    · exact heffect.1.symm
    · exact heffect.2

end

theorem at_text {β : Type} (t : Table Key β) (a : String) :
    at_ t (.text a) = match t.get? (.text a) with
      | some x => .ok (.text a, x)
      | none => .error (.noField (.text a)) := by
  unfold at_
  simp only [Value.key_text, bind, Except.bind]
  cases t.get? (.text a) <;> rfl

theorem deregister_eq (s : Resources) (a : String) (gone : Value) :
    s.deregister (.text a) gone =
      match s.targets.get? (.text a) with
      | none => .error (.noField (.text a))
      | some current => do
        let left ← current.filterM fun t => do return !(← gone.has t)
        return ((), s.putTargets (.text a) left) := by
  unfold deregister
  rw [at_text]
  cases s.targets.get? (.text a) <;> rfl

theorem values_filter {β : Type} (t : Table Key β) (p : β → Bool) :
    (t.filter fun _ => p).values = t.values.filter p := by
  unfold Table.values Table.filter
  rw [List.filter_map]
  rfl

/-! ## Refusals -/

/-- Only the listeners of the load balancer count. -/
theorem checkPort_filter (method : String) (own lb : Value) (params : Fields) (es : List (Key × Fields)) :
    checkPort method own lb params (es.filter fun e => (Fields.get e.2 "LoadBalancerArn").same lb) =
      checkPort method own lb params es := by
  induction es with
  | nil => rfl
  | cons e es ih =>
    obtain ⟨k, l⟩ := e
    by_cases hl : (Fields.get l "LoadBalancerArn").same lb
    · simp [checkPort, hl, ih]
    · simp [checkPort, hl, ih]

/-- Only the listeners that may forward to the target group count. -/
theorem checkUnused_filter {arn : Value} {p : Fields → Bool} {ls : List Fields}
    (h : ∀ l ∈ ls, p l = false → ∃ as, actionsOf l = .ok as ∧ forwardsTo arn as = .ok false) :
    checkUnused arn (ls.filter p) = checkUnused arn ls := by
  induction ls with
  | nil => rfl
  | cons l ls ih =>
    obtain ⟨hl, hls⟩ := List.forall_mem_cons.1 h
    have ih := ih hls
    by_cases hp : p l
    · simp [checkUnused, hp, ih]
    · obtain ⟨as, has, hno⟩ := hl (by simpa using hp)
      simp [checkUnused, hp, ih, has, hno, bind, Except.bind]

namespace Lockstep

section

variable {e : Estate} {s t u v : Resources} {a b n : String} {fs gs l params : Fields}

theorem checkPort_eq (h : Lockstep e s t u v) (hb : e.lb b) (method : String)
    (own : Value) (params : Fields) :
    checkPort method own (.text b) params v.listeners.entries =
      checkPort method own (.text b) params u.listeners.entries := by
  have hown : ∀ w : Resources,
      (w.listeners.entries.filter fun e => (Fields.get e.2 "LoadBalancerArn").same (.text b)) =
      (w.listeners.filter fun _ => e.own.on).entries.filter fun e =>
        (Fields.get e.2 "LoadBalancerArn").same (.text b) := by
    intro w
    show _ = List.filter _ (List.filter _ w.listeners.entries)
    rw [List.filter_filter]
    refine List.filter_congr fun x _ => ?_
    by_cases hx : (Fields.get x.2 "LoadBalancerArn").same (.text b)
    · have hon : e.own.on x.2 = true := Estate.own_on.2 ⟨b, hb, (Value.same_text_iff _ _).1 hx⟩
      simp [hx, hon]
    · simp [hx]
  rw [← checkPort_filter, ← checkPort_filter _ _ _ _ u.listeners.entries, hown v, hown u, h.own.listeners]

theorem targetGroupOf?_eq (h : Lockstep e s t u v) {action : Value}
    (hreach : ∀ w k, action.get "TargetGroupArn" = .ok w → w.key = .ok k →
      OfText e.group k ∨ s.targetGroups.get? k = none ∧ t.targetGroups.get? k = none) :
    v.targetGroupOf? action = u.targetGroupOf? action := by
  unfold targetGroupOf?
  cases hw : action.get "TargetGroupArn" with
  | error x => rfl
  | ok w =>
    cases hk : w.key with
    | error x => simp only [hk, bind, Except.bind]
    | ok k =>
      simp only [hk, bind, Except.bind]
      by_cases hown : OfText e.group k
      · rw [h.own.targetGroups k hown]
      · obtain ⟨hs, ht⟩ := (hreach w k hw hk).resolve_left hown
        rw [h.left.rest.targetGroups k hown, h.right.rest.targetGroups k hown, hs, ht]

theorem checkProtocol_eq (h : Lockstep e s t u v) (method : String) (params : Fields) {as : List Value}
    (hreach : ∀ action ∈ as, ∀ w k, action.get "TargetGroupArn" = .ok w → w.key = .ok k →
      OfText e.group k ∨ s.targetGroups.get? k = none ∧ t.targetGroups.get? k = none) :
    v.checkProtocol method params as = u.checkProtocol method params as := by
  induction as with
  | nil => rfl
  | cons action as ih =>
    obtain ⟨hone, has⟩ := List.forall_mem_cons.1 hreach
    unfold checkProtocol
    rw [h.targetGroupOf?_eq hone, ih has]

/-- A listener is refused alike if it is known on which load balancer it is. -/
theorem checkListener_eq (h : Lockstep e s t u v) {method : String} {own : Value}
    (hreach : e.Reaches s t params)
    (hlb : (∃ x, u.lbOfListener own params = .error x ∧ v.lbOfListener own params = .error x) ∨
      ∃ b, e.lb b ∧ u.lbOfListener own params = .ok (.text b) ∧ v.lbOfListener own params = .ok (.text b)) :
    v.checkListener method own params = u.checkListener method own params := by
  unfold checkListener
  rcases hlb with ⟨x, hu, hv⟩ | ⟨b, hb, hu, hv⟩
  · rw [hu, hv]
    rfl
  · rw [hu, hv]
    simp only [bind, Except.bind, h.checkPort_eq hb]
    cases has : actionsOf params with
    | error x => rfl
    | ok as => simp only [h.checkProtocol_eq method params (hreach as has)]

theorem refusal_createListener (h : Lockstep e s t u v)
    (ha : Fields.get params "LoadBalancerArn" = .text a) (hb : e.lb a) (hreach : e.Reaches s t params) :
    v.refusal (.createListener params) = u.refusal (.createListener params) := by
  refine h.checkListener_eq hreach ?_
  have hnull : ∀ {w : Resources}, w.Tidy → w.listeners.get? .null = none := by
    intro w hw
    cases hl : w.listeners.get? .null with
    | none => rfl
    | some l =>
      obtain ⟨arn, hnull, -⟩ := hw.listenerOwn hl
      cases hnull
  unfold lbOfListener
  rw [ha]
  by_cases hholds : (Value.text a).holds
  · exact .inr ⟨a, hb, by simp [hholds, pure, Except.pure], by simp [hholds, pure, Except.pure]⟩
  · refine .inl ⟨.noField .null, ?_, ?_⟩ <;>
      simp [hholds, at_, Value.key, hnull h.left.tidy, hnull h.right.tidy, bind, Except.bind, throw, throwThe,
        MonadExceptOf.throw]

theorem refusal_modifyListener (h : Lockstep e s t u v)
    (ha : Fields.item params "ListenerArn" = .ok (.text a)) (hs : Free e s a) (ht : Free e t a)
    (hno : Fields.get params "LoadBalancerArn" = .null) (hreach : e.Reaches s t params) :
    v.refusal (.modifyListener params) = u.refusal (.modifyListener params) := by
  show (Fields.item params "ListenerArn" >>= fun own => v.checkListener "modify_listener" own params) =
    Fields.item params "ListenerArn" >>= fun own => u.checkListener "modify_listener" own params
  rw [ha]
  refine h.checkListener_eq hreach ?_
  have hlb : ∀ w : Resources, w.lbOfListener (.text a) params = (do
      Fields.item (← at_ w.listeners (.text a)).2 "LoadBalancerArn") := by
    intro w
    unfold lbOfListener
    rw [hno]
    rfl
  rw [hlb, hlb, at_text, at_text, h.get?_listener hs ht]
  cases hl : u.listeners.get? (.text a) with
  | none => exact .inl ⟨_, rfl, rfl⟩
  | some l =>
    obtain ⟨b, hb, hon⟩ := h.left.free hs l hl
    have hitem := Fields.item_of_get_text hon
    exact .inr ⟨b, hb, hitem, hitem⟩

theorem refusal_deleteTargetGroup (h : Lockstep e s t u v) (hs : e.Covers s)
    (ht : e.Covers t) (ha : e.group a) :
    v.refusal (.deleteTargetGroup (.text a)) = u.refusal (.deleteTargetGroup (.text a)) := by
  have hown : ∀ {w x : Resources}, Kept e x w → e.Covers x →
      checkUnused (.text a) (w.listeners.values.filter e.own.on) =
        checkUnused (.text a) w.listeners.values := by
    intro w x hw hx
    refine checkUnused_filter fun l hl hon => ?_
    obtain ⟨k, hk⟩ := Table.mem_values_iff.1 hl
    exact hw.unused hx ha hk fun hyes => by simp [Estate.own_on.2 hyes] at hon
  show checkUnused _ _ = checkUnused _ _
  rw [← hown h.right ht, ← hown h.left hs, ← values_filter, ← values_filter, h.own.listeners]

/-! ## Effects -/

/-- A field of a load balancer that does not identify it. -/
theorem setLbField (h : Lockstep e s t u v) (ha : e.lb a) {k : String}
    (hk : k ∉ ["LoadBalancerArn", "LoadBalancerName"]) (x : Value) :
    (v.change (v.setLbField (.text a) k x)).1 = (u.change (u.setLbField (.text a) k x)).1 ∧
      Lockstep e s t (u.change (u.setLbField (.text a) k x)).2 (v.change (v.setLbField (.text a) k x)).2 := by
  unfold Resources.setLbField
  rw [at_text, at_text, h.get?_lb ha]
  cases hlb : u.loadBalancers.get? (.text a) with
  | none => exact ⟨rfl, h⟩
  | some lb => exact ⟨rfl, h.putLb ha hlb (AgreeIn.put hk x lb)⟩

theorem modifyTg (h : Lockstep e s t u v)
    (hitem : Fields.item params "TargetGroupArn" = .ok (.text a)) (ha : e.group a) :
    (v.change (v.modifyTg params)).1 = (u.change (u.modifyTg params)).1 ∧
      Lockstep e s t (u.change (u.modifyTg params)).2 (v.change (v.modifyTg params)).2 := by
  unfold Resources.modifyTg
  rw [hitem]
  simp only [bind, Except.bind, at_text, h.get?_group ha]
  cases htg : u.targetGroups.get? (.text a) with
  | none => exact ⟨rfl, h⟩
  | some tg =>
    refine ⟨rfl, h.putTg ha htg fun k hk => ?_⟩
    refine get_modifiedTg ?_ tg params
    rcases List.mem_pair.1 hk with rfl | rfl <;> decide

theorem register (h : Lockstep e s t u v) (ha : e.group a) (new : Value) :
    (v.register (.text a) new).1 = (u.register (.text a) new).1 ∧
      Lockstep e s t (u.register (.text a) new).2 (v.register (.text a) new).2 := by
  unfold Resources.register
  cases new.elements with
  | error x => exact ⟨rfl, h⟩
  | ok vs =>
    cases vs with
    | nil => exact ⟨rfl, h⟩
    | cons w vs =>
      simp only [at_text, h.own.targets (.text a) ha]
      cases u.targets.get? (.text a) with
      | none => exact ⟨rfl, h⟩
      | some current => exact ⟨rfl, h.putTargets ha _⟩

theorem deregister (h : Lockstep e s t u v) (ha : e.group a) (gone : Value) :
    (v.change (v.deregister (.text a) gone)).1 = (u.change (u.deregister (.text a) gone)).1 ∧
      Lockstep e s t (u.change (u.deregister (.text a) gone)).2
        (v.change (v.deregister (.text a) gone)).2 := by
  rw [deregister_eq, deregister_eq, h.own.targets (.text a) ha]
  cases u.targets.get? (.text a) with
  | none => exact ⟨rfl, h⟩
  | some current =>
    dsimp only
    cases List.filterM (fun t => (do return !(← gone.has t) : Except Error Bool)) current with
    | error x => exact ⟨rfl, h⟩
    | ok left => exact ⟨rfl, h.putTargets ha left⟩

theorem untag (h : Lockstep e s t u v) (ha : e.lb a ∨ e.group a) (keys : Value) :
    (v.untag (.text a) keys).1 = (u.untag (.text a) keys).1 ∧
      Lockstep e s t (u.untag (.text a) keys).2 (v.untag (.text a) keys).2 := by
  unfold Resources.untag
  cases keys.elements >>= Value.sorted with
  | error x => exact ⟨rfl, h⟩
  | ok ks =>
    cases ks with
    | nil => exact ⟨rfl, h⟩
    | cons k ks =>
      simp only [Value.key_text, h.get?_tags ha]
      cases u.tags.get? (.text a) with
      | none => exact ⟨rfl, h⟩
      | some tags => exact ⟨rfl, h.putTags ha _⟩

/-- A listener of the estate, new or in place of another one. -/
theorem insertListener (h : Lockstep e s t u v) (hs : e.Covers s) (ht : e.Covers t)
    {m : Nat} (hid : u.nextId ≤ m) (hfree : Free e s a) (hfree' : Free e t a) (hon : e.On l)
    (hown : Fields.get l "ListenerArn" = .text a)
    (hlb : ∀ b, e.lb b → Fields.get l "LoadBalancerArn" = .text b → LbNamed e.marks.lb (.text b) u) :
    Lockstep e s t { u with nextId := m, listeners := u.listeners.insert (.text a) l }
      { v with nextId := m, listeners := v.listeners.insert (.text a) l } where
  own :=
    { h.own with
      listeners := h.own.insertListener (Estate.own_on.2 hon)
        (fun l' hl' => Estate.own_on.2 (h.left.free hfree l' hl'))
        fun l' hl' => Estate.own_on.2 (h.right.free hfree' l' hl') }
  nextId := rfl
  left := h.left.insertListener hid (h.left.free hfree) hon hown hlb
  right := by
    refine h.right.insertListener (h.nextId ▸ hid) (h.right.free hfree') hon hown fun b hb hget => ?_
    exact (h.lbNamed_iff hs ht).2 (hlb b hb hget)

theorem createListener (h : Lockstep e s t u v) (hs : e.Covers s) (ht : e.Covers t)
    (ha : Fields.get params "LoadBalancerArn" = .text a) (hb : e.lb a) (hheld : e.held a) :
    (v.createListener params).1 = (u.createListener params).1 ∧
      Lockstep e s t (u.createListener params).2 (v.createListener params).2 := by
  unfold Resources.createListener
  rw [h.nextId]
  refine ⟨rfl, ?_⟩
  have hnumber := numbered_listenerArn u.nextId
  have hfree : ∀ {w : Resources}, e.Covers w → Future w (listenerArn u.nextId) →
      Free e w (listenerArn u.nextId) := by
    intro w hw hfuture l hl
    rw [(hw.future _ hfuture).2.2] at hl
    cases hl
  have hget : Fields.get (Entries.put "ListenerArn" (.text (listenerArn u.nextId)) params)
      "LoadBalancerArn" = .text a := by
    rw [Fields.get_put, if_neg (by decide), ha]
  refine h.insertListener hs ht (Nat.le_succ _) (hfree hs (h.left.future hnumber))
    (hfree ht (h.right.future (h.nextId ▸ hnumber))) ⟨a, hb, hget⟩ ?_ fun b _ hget' => ?_
  · rw [Fields.get_put, if_pos rfl]
  · rw [hget] at hget'
    cases hget'
    exact h.left.held a hheld

/-- Fields that other fields leave alone. -/
theorem get_foldl_put {k : String} (params l : Fields) (h : ∀ f ∈ params, f.1 = k → f.2 = Fields.get l k) :
    Fields.get (params.foldl (fun l f => Entries.put f.1 f.2 l) l) k = Fields.get l k := by
  induction params generalizing l with
  | nil => rfl
  | cons f params ih =>
    obtain ⟨hf, hparams⟩ := List.forall_mem_cons.1 h
    have hput : Fields.get (Entries.put f.1 f.2 l) k = Fields.get l k := by
      rw [Fields.get_put]
      split
      · rename_i hk
        exact hf hk
      · rfl
    rw [List.foldl_cons, ih _ fun g hg hk => (hparams g hg hk).trans hput.symm, hput]

theorem modifyListener (h : Lockstep e s t u v) (hs : e.Covers s) (ht : e.Covers t)
    (ha : Fields.item params "ListenerArn" = .ok (.text a)) (hfree : Free e s a) (hfree' : Free e t a)
    (hno : ∀ f ∈ params, f.1 = "LoadBalancerArn" → False)
    (hown : ∀ f ∈ params, f.1 = "ListenerArn" → f.2 = .text a) :
    (v.change (v.modifyListener params)).1 = (u.change (u.modifyListener params)).1 ∧
      Lockstep e s t (u.change (u.modifyListener params)).2 (v.change (v.modifyListener params)).2 := by
  unfold Resources.modifyListener
  rw [ha]
  simp only [bind, Except.bind, at_text, h.get?_listener hfree hfree']
  cases hl : u.listeners.get? (.text a) with
  | none => exact ⟨rfl, h⟩
  | some l =>
    refine ⟨rfl, ?_⟩
    obtain ⟨b, hb, hon⟩ := h.left.free hfree l hl
    obtain ⟨arn, harn, hget⟩ := h.left.tidy.listenerOwn hl
    cases harn
    have hlb : Fields.get (params.foldl (fun l f => Entries.put f.1 f.2 l) l) "LoadBalancerArn" = .text b :=
      (get_foldl_put params l fun f hf hk => (hno f hf hk).elim).trans hon
    have hput := h.insertListener hs ht (Nat.le_refl _) hfree hfree' ⟨b, hb, hlb⟩
      ((get_foldl_put params l fun f hf hk => (hown f hf hk).trans hget.symm).trans hget)
        fun b' hb' hget' => by
        rw [hlb] at hget'
        cases hget'
        exact h.left.onLb _ l b hl hb hon
    rw [← h.nextId] at hput
    rw [h.nextId] at hput ⊢
    exact hput

/-! ## Requests that keep to the estate -/

theorem listenersOf_eq (h : Lockstep e s t u v) (ha : e.lb a) :
    v.listenersOf (.text a) = u.listenersOf (.text a) := by
  have hown : ∀ w : Resources, w.listenersOf (.text a) =
      (w.listeners.filter fun _ => e.own.on).values.filter fun l =>
        (Fields.get l "LoadBalancerArn").same (.text a) := by
    intro w
    rw [values_filter, List.filter_filter]
    refine List.filter_congr fun l _ => ?_
    by_cases hl : (Fields.get l "LoadBalancerArn").same (.text a)
    · have hon : e.own.on l = true := Estate.own_on.2 ⟨a, ha, (Value.same_text_iff _ _).1 hl⟩
      simp [hl, hon]
    · simp [hl]
  rw [hown, hown, h.own.listeners]

theorem get_eq_null {k : String} (hno : ∀ f ∈ params, f.1 = k → False) : Fields.get params k = .null := by
  unfold Fields.get
  rw [Entries.find?_eq_none_iff.2 fun f hf => beq_eq_false_iff_ne.2 fun hk => hno f hf hk]
  rfl

/-- A request that keeps to the estate has one answer, and all else is kept. -/
theorem inStep (h : Lockstep e s t u v) (hs : e.Covers s) (ht : e.Covers t)
    {r : Request} (hr : e.Owns s t r) :
    InStep (Lockstep e s t) r u v := by
  cases r with
  | lbAttributes arn =>
    obtain ⟨a, rfl, ha⟩ := hr
    refine InStep.of_effect h rfl ⟨?_, h⟩
    show Except.ok ((v.lbAttributes.get? (.text a)).getD ∅) = .ok ((u.lbAttributes.get? (.text a)).getD ∅)
    rw [h.own.lbAttributes (.text a) ha]
  | tgAttributes arn =>
    obtain ⟨a, rfl, ha⟩ := hr
    refine InStep.of_effect h rfl ⟨?_, h⟩
    show Except.ok ((v.tgAttributes.get? (.text a)).getD ∅) = .ok ((u.tgAttributes.get? (.text a)).getD ∅)
    rw [h.own.tgAttributes (.text a) ha]
  | tags arn =>
    obtain ⟨a, rfl, ha⟩ := hr
    refine InStep.of_effect h rfl ⟨?_, h⟩
    show Except.ok ((v.tags.get? (.text a)).getD ∅) = .ok ((u.tags.get? (.text a)).getD ∅)
    rw [h.get?_tags ha]
  | targets arn =>
    obtain ⟨a, rfl, ha⟩ := hr
    refine InStep.of_effect h rfl ⟨?_, h⟩
    show Except.ok ((v.targets.get? (.text a)).getD []) = .ok ((u.targets.get? (.text a)).getD [])
    rw [h.own.targets (.text a) ha]
  | listeners arn =>
    obtain ⟨a, rfl, ha⟩ := hr
    refine InStep.of_effect h rfl ⟨?_, h⟩
    show Except.ok ((v.listenersOf (.text a)).map Value.object) =
      .ok ((u.listenersOf (.text a)).map Value.object)
    rw [h.listenersOf_eq ha]
  | setIpAddressType arn type =>
    obtain ⟨a, rfl, ha⟩ := hr
    exact InStep.of_effect h rfl (h.setLbField ha (by decide) type)
  | setSubnets arn subnets =>
    obtain ⟨a, rfl, ha⟩ := hr
    refine InStep.of_effect h rfl ?_
    simp only [effect, bind, Except.bind]
    cases subnets.elements with
    | error x => exact ⟨rfl, h⟩
    | ok vs => exact h.setLbField ha (by decide) (zones vs)
  | modifyLbAttributes arn new =>
    obtain ⟨a, fs, rfl, ha, rfl⟩ := hr
    have hsame : v.lbAttributesOf (.text a) = u.lbAttributesOf (.text a) := by
      unfold lbAttributesOf
      rw [h.own.lbAttributes (.text a) ha]
    have hv := perform_modifyLbAttributes v a fs
    rw [hsame] at hv
    exact InStep.of_perform rfl (perform_modifyLbAttributes u a fs) hv (h.putLbAttributes ha _)
  | modifyTgAttributes arn new =>
    obtain ⟨a, fs, rfl, ha, rfl⟩ := hr
    have hsame : v.tgAttributesOf (.text a) = u.tgAttributesOf (.text a) := by
      unfold tgAttributesOf
      rw [h.own.tgAttributes (.text a) ha]
    have hv := perform_modifyTgAttributes v a fs
    rw [hsame] at hv
    exact InStep.of_perform rfl (perform_modifyTgAttributes u a fs) hv (h.putTgAttributes ha _)
  | addTags arn new =>
    obtain ⟨a, fs, rfl, ha, rfl⟩ := hr
    have hsame : v.tagsOf (.text a) = u.tagsOf (.text a) := by
      unfold tagsOf
      rw [h.get?_tags ha]
    have hv := perform_addTags v a fs
    rw [hsame] at hv
    exact InStep.of_perform rfl (perform_addTags u a fs) hv (h.putTags ha _)
  | removeTags arn keys =>
    obtain ⟨a, rfl, ha⟩ := hr
    exact InStep.of_effect h rfl (h.untag ha keys)
  | deleteLoadBalancer arn =>
    obtain ⟨a, rfl, ha, hheld⟩ := hr
    exact InStep.of_perform rfl (perform_deleteLb u a) (perform_deleteLb v a) (h.dropLb ha hheld)
  | modifyTargetGroup params =>
    obtain ⟨a, hitem, ha⟩ := hr
    exact InStep.of_effect h rfl (h.modifyTg hitem ha)
  | deleteTargetGroup arn =>
    obtain ⟨a, rfl, ha⟩ := hr
    have hrefusal := h.refusal_deleteTargetGroup hs ht ha
    cases hu : checkUnused (.text a) u.listeners.values with
    | error x =>
      have hv := hrefusal.trans hu
      exact InStep.of_perform hrefusal (perform_deleteTg_refused u a hu) (perform_deleteTg_refused v a hv) h
    | ok _ =>
      have hv := hrefusal.trans hu
      exact InStep.of_perform hrefusal (perform_deleteTg u a hu) (perform_deleteTg v a hv) (h.dropTg ha)
  | registerTargets arn new =>
    obtain ⟨a, rfl, ha⟩ := hr
    exact InStep.of_effect h rfl (h.register ha new)
  | deregisterTargets arn gone =>
    obtain ⟨a, rfl, ha⟩ := hr
    exact InStep.of_effect h rfl (h.deregister ha gone)
  | createListener params =>
    obtain ⟨a, hget, ha, hheld, hreach⟩ := hr
    obtain ⟨hanswer, hafter⟩ := h.createListener hs ht hget ha hheld
    exact InStep.of_effect h (h.refusal_createListener hget ha hreach) ⟨congrArg Except.ok hanswer, hafter⟩
  | modifyListener params =>
    obtain ⟨a, hitem, hfree, hfree', hno, hown, hreach⟩ := hr
    exact InStep.of_effect h (h.refusal_modifyListener hitem hfree hfree' (get_eq_null hno) hreach)
      (h.modifyListener hs ht hitem hfree hfree' hno hown)
  | deleteListener arn =>
    obtain ⟨a, rfl, hfree, hfree'⟩ := hr
    exact InStep.of_perform rfl (perform_deleteListener u a) (perform_deleteListener v a)
      (h.dropListener hfree hfree')
  | clusterSubnets key =>
    refine InStep.of_effect h rfl ⟨?_, h⟩
    show v.clusterSubnets key = u.clusterSubnets key
    simp only [Resources.clusterSubnets, h.own.subnetTags]
  | subnetsNamed names =>
    refine InStep.of_effect h rfl ⟨?_, h⟩
    show v.subnets.filterM _ = u.subnets.filterM _
    rw [h.own.subnets]
  | _ => exact hr.elim

/-! ## What is found and what is created -/

/-- What is found by the name of the load balancer. -/
theorem named_lb (h : Lockstep e s t u v) (hs : e.Covers s) (ht : e.Covers t) :
    named "LoadBalancerName" (.text e.marks.lb) v.loadBalancers =
      named "LoadBalancerName" (.text e.marks.lb) u.loadBalancers ∧
      (named "LoadBalancerName" (.text e.marks.lb) u.loadBalancers = .null ∧ (∀ k, ¬ LbNamed e.marks.lb k u) ∨
        ∃ a fs, named "LoadBalancerName" (.text e.marks.lb) u.loadBalancers = .object fs ∧ e.lb a ∧
          Fields.get fs "LoadBalancerArn" = .text a ∧ LbNamed e.marks.lb (.text a) u) := by
  rcases named_cases "LoadBalancerName" (.text e.marks.lb)
    u.loadBalancers with hnull | ⟨k, fs, hk, hname, hfound⟩
  · have hnone : ∀ k, ¬ LbNamed e.marks.lb k u := fun k ⟨fs, hk, hn⟩ => named_eq_null_iff.1 hnull k fs hk hn
    refine ⟨?_, .inl ⟨hnull, hnone⟩⟩
    rw [hnull, named_eq_null_iff]
    intro k fs hk hn
    obtain ⟨a, rfl, -⟩ := h.right.tidy.lbOwn hk
    exact hnone _ ((h.lbNamed_iff hs ht).1 ⟨fs, hk, hn⟩)
  · have hname := (Value.same_text_iff _ _).1 hname
    obtain ⟨a, rfl, harn⟩ := h.left.tidy.lbOwn hk
    have hnamed : LbNamed e.marks.lb (.text a) u := ⟨fs, hk, hname⟩
    have ha := h.left.lb_of_named hs hnamed
    refine ⟨?_, .inr ⟨a, fs, hfound, ha, harn, hnamed⟩⟩
    rw [hfound]
    have hk' := (h.get?_lb ha).trans hk
    exact named_of_unique hk' hname fun k' fs' hfs' hn' =>
      h.right.tidy.lbName ⟨fs', hfs', hn'⟩ ⟨fs, hk', hname⟩

/-- What is found by the name of a target group. -/
theorem named_tg (h : Lockstep e s t u v) (hs : e.Covers s) (ht : e.Covers t) (hn : e.marks.group n) :
    named "TargetGroupName" (.text n) v.targetGroups = named "TargetGroupName" (.text n) u.targetGroups ∧
      (named "TargetGroupName" (.text n) u.targetGroups = .null ∧ (∀ k, ¬ GroupNamed n k u) ∨
        ∃ a fs, named "TargetGroupName" (.text n) u.targetGroups = .object fs ∧ e.group a ∧
          Fields.get fs "TargetGroupArn" = .text a) := by
  rcases named_cases "TargetGroupName" (.text n) u.targetGroups with hnull | ⟨k, fs, hk, hname, hfound⟩
  · have hnone : ∀ k, ¬ GroupNamed n k u := fun k ⟨fs, hk, hn⟩ => named_eq_null_iff.1 hnull k fs hk hn
    refine ⟨?_, .inl ⟨hnull, hnone⟩⟩
    rw [hnull, named_eq_null_iff]
    intro k fs hk hname
    obtain ⟨a, rfl, -⟩ := h.right.tidy.tgOwn hk
    exact hnone _ ((h.groupNamed_iff hs ht hn).1 ⟨fs, hk, hname⟩)
  · have hname := (Value.same_text_iff _ _).1 hname
    obtain ⟨a, rfl, harn⟩ := h.left.tidy.tgOwn hk
    have ha := h.left.group_of_inGroup hs ⟨fs, hk, .inl ⟨n, hn, hname⟩⟩
    refine ⟨?_, .inr ⟨a, fs, hfound, ha, harn⟩⟩
    rw [hfound]
    have hk' := (h.get?_group ha).trans hk
    exact named_of_unique hk' hname fun k' fs' hfs' hn' =>
      h.right.tidy.tgName ⟨fs', hfs', hn'⟩ ⟨fs, hk', hname⟩

theorem inStep_loadBalancerNamed (h : Lockstep e s t u v) (hs : e.Covers s) (ht : e.Covers t) :
    InStep (Lockstep e s t) (.loadBalancerNamed (.text e.marks.lb)) u v :=
  InStep.of_effect h rfl ⟨congrArg Except.ok (h.named_lb hs ht).1, h⟩

theorem inStep_targetGroupNamed (h : Lockstep e s t u v) (hs : e.Covers s) (ht : e.Covers t)
    (hn : e.marks.group n) :
    InStep (Lockstep e s t) (.targetGroupNamed (.text n)) u v :=
  InStep.of_effect h rfl ⟨congrArg Except.ok (h.named_tg hs ht hn).1, h⟩

/-- Listeners of the estate that are described. -/
theorem free_of_listenersOf (h : Lockstep e s t u v) (ha : e.lb a) (hl : l ∈ u.listenersOf (.text a)) :
    ∃ b, Fields.get l "ListenerArn" = .text b ∧ Free e s b ∧ Free e t b := by
  obtain ⟨hmem, hon⟩ := List.mem_filter.1 hl
  have hlon : e.On l := ⟨a, ha, (Value.same_text_iff _ _).1 hon⟩
  obtain ⟨k, hk⟩ := Table.mem_values_iff.1 hmem
  obtain ⟨b, rfl, hown⟩ := h.left.tidy.listenerOwn hk
  -- a listener of the rest at the same ARN would still be there
  have hfree : ∀ {w x : Resources}, Kept e x w → w.listeners.get? (.text b) = some l → Free e x b := by
    intro w x hkept hw l' hl'
    by_contra hoff
    have hget : (x.listeners.filter fun _ => e.rest.on).get? (.text b) = some l' := by
      rw [Table.get?_filter_values, hl']
      simp [Option.filter, hoff]
    rw [← hkept.rest.listeners, Table.get?_filter_values, hw] at hget
    obtain ⟨hll, -⟩ := Option.filter_eq_some_iff.1 hget
    cases hll
    exact hoff hlon
  have hv : v.listeners.get? (.text b) = some l := by
    have hget : (u.listeners.filter fun _ => e.own.on).get? (.text b) = some l := by
      rw [Table.get?_filter_values, hk]
      simp [Option.filter, hlon]
    rw [← h.own.listeners, Table.get?_filter_values] at hget
    exact (Option.filter_eq_some_iff.1 hget).1
  exact ⟨b, hown, hfree h.left hk, hfree h.right hv⟩

/-- A new load balancer of the name, where there is none. -/
theorem inStep_createLb (h : Lockstep e s t u v) (hs : e.Covers s) (ht : e.Covers t)
    {subnets : List Value} {tags : Labels} (hname : Fields.item params "Name" = .ok (.text e.marks.lb))
    (hsubnets : (Fields.get params "Subnets").elementsIfAny = .ok subnets)
    (htags : readTags (Fields.get params "Tags") = .ok tags) (hnone : ∀ k, ¬ LbNamed e.marks.lb k u) :
    InStep (Lockstep e s t) (.createLoadBalancer params) u v ∧
      ∃ a fs, (u.perform (.createLoadBalancer params)).1 = .ok (.object fs) ∧ e.lb a ∧
        Fields.get fs "LoadBalancerArn" = .text a ∧
        LbNamed e.marks.lb (.text a) (u.perform (.createLoadBalancer params)).2 := by
  have hu := perform_createLb u params hname hsubnets htags
  have hv := perform_createLb v params hname hsubnets htags
  rw [h.nextId] at hv
  have hnumber := numbered_lbArn e.marks.lb u.nextId
  have ha := (hs.future _ (h.left.future hnumber)).1
  have hnone' : ∀ k, ¬ LbNamed e.marks.lb k v := by
    rintro k ⟨fs, hk, hn⟩
    obtain ⟨a, rfl, -⟩ := h.right.tidy.lbOwn hk
    exact hnone _ ((h.lbNamed_iff hs ht).1 ⟨fs, hk, hn⟩)
  refine ⟨InStep.of_perform rfl hu hv ⟨h.own.addLb _ _ tags, congrArg (· + 1) h.nextId, ?_, ?_⟩, ?_⟩
  · exact h.left.addLb ha rfl rfl hnone tags
  · exact h.right.addLb ha rfl rfl hnone' tags
  · rw [hu]
    exact ⟨_, _, rfl, ha, rfl, _, Table.get?_insert_self _ _ _, rfl⟩

/-- A new target group of a name, where there is none. -/
theorem inStep_createTg (h : Lockstep e s t u v) (hs : e.Covers s) (ht : e.Covers t) {tags : Labels}
    (hn : e.marks.group n) (hname : Fields.item params "Name" = .ok (.text n))
    (htags : readTags (Fields.get params "Tags") = .ok tags) (hnone : ∀ k, ¬ GroupNamed n k u) :
    InStep (Lockstep e s t) (.createTargetGroup params) u v ∧
      ∃ a fs, (u.perform (.createTargetGroup params)).1 = .ok (.object fs) ∧ e.group a ∧
        Fields.get fs "TargetGroupArn" = .text a := by
  have hu := perform_createTg u params hname htags
  have hv := perform_createTg v params hname htags
  rw [h.nextId] at hv
  have hnumber := numbered_tgArn n u.nextId
  have ha := (hs.future _ (h.left.future hnumber)).2.1
  have hnone' : ∀ k, ¬ GroupNamed n k v := by
    rintro k ⟨fs, hk, hname'⟩
    obtain ⟨a, rfl, -⟩ := h.right.tidy.tgOwn hk
    exact hnone _ ((h.groupNamed_iff hs ht hn).1 ⟨fs, hk, hname'⟩)
  have hown : Fields.get (newTg params (.text n) (tgArn n u.nextId)) "TargetGroupArn" =
      .text (tgArn n u.nextId) := by
    rw [newTg, Fields.get_put, if_neg (by decide), Fields.get_put, if_pos rfl]
  have hnamed : Fields.get (newTg params (.text n) (tgArn n u.nextId)) "TargetGroupName" = .text n := by
    rw [newTg, Fields.get_put, if_pos rfl]
  refine ⟨InStep.of_perform rfl hu hv ⟨h.own.addTg _ _ tags, congrArg (· + 1) h.nextId, ?_, ?_⟩, ?_⟩
  · exact h.left.addTg ha hown hn hnamed hnone tags
  · exact h.right.addTg ha hown hn hnamed hnone' tags
  · rw [hu]
    exact ⟨_, _, rfl, ha, hown⟩

/-- Both find the same target groups by the tags, maybe in another order, and they belong to the estate. -/
theorem owned_perm (h : Lockstep e s t u v) (hs : e.Covers s) (ht : e.Covers t) :
    (u.owned e.marks.selector).Perm (v.owned e.marks.selector) ∧
      ∀ k ∈ u.owned e.marks.selector, ∃ a, k = .text a ∧ e.group a := by
  have hmem : ∀ {w : Resources}, w.Tidy → ∀ {k}, k ∈ w.owned e.marks.selector →
      ∃ a tg, k = .text a ∧ w.targetGroups.get? (.text a) = some tg ∧
        hasTags e.marks.selector (w.tagsOf (.text a)) = true := by
    intro w hw k hk
    obtain ⟨tg, hget, htags⟩ := get?_of_mem_owned hk
    obtain ⟨a, rfl, -⟩ := hw.tgOwn hget
    exact ⟨a, tg, rfl, hget, htags⟩
  have hcongr : ∀ {a : String}, e.group a → v.targetGroups.get? (.text a) = u.targetGroups.get? (.text a) ∧
      v.tagsOf (.text a) = u.tagsOf (.text a) := by
    intro a ha
    refine ⟨h.get?_group ha, ?_⟩
    unfold tagsOf
    rw [h.get?_tags (.inr ha)]
  refine ⟨(List.perm_ext_iff_of_nodup (nodup_owned u _) (nodup_owned v _)).2 fun k =>
    ⟨fun hk => ?_, fun hk => ?_⟩, fun k hk => ?_⟩
  · obtain ⟨a, tg, rfl, hget, htags⟩ := hmem h.left.tidy hk
    obtain ⟨hgroup, htag⟩ := hcongr (h.left.group_of_inGroup hs ⟨tg, hget, .inr htags⟩)
    exact mem_owned_of_get? (hgroup.trans hget) (htag ▸ htags)
  · obtain ⟨a, tg, rfl, hget, htags⟩ := hmem h.right.tidy hk
    obtain ⟨hgroup, htag⟩ := hcongr (h.right.group_of_inGroup ht ⟨tg, hget, .inr htags⟩)
    exact mem_owned_of_get? (hgroup.symm.trans hget) (htag ▸ htags)
  · obtain ⟨a, tg, rfl, hget, htags⟩ := hmem h.left.tidy hk
    exact ⟨a, rfl, h.left.group_of_inGroup hs ⟨tg, hget, .inr htags⟩⟩

end

end Lockstep

end Balancer.Resources
