import Balancer.Proofs.Checked
import Balancer.Proofs.Cloud.Run
import Balancer.Proofs.Cloud.WellFormed

/-!
# New ARNs

* `IsNew m n k` : an ARN with a number from `m` on and below `n`;
* `Grown s u` : what there is in `u` and not in `s` stands under an ARN with a number that
  is given out between them;
* `perform_grown` : so it is after any request, and `Program.always_grown` after any part of a run.
-/

namespace Balancer

set_option autoImplicit false

namespace Resources

/-- An ARN with a number from `m` on and below `n`. -/
def IsNew (m n : Nat) (k : Key) : Prop := ∃ i arn, m ≤ i ∧ i < n ∧ k = .text arn ∧ Numbered i arn

/-- Every key of a table is one of another table, or a new ARN. -/
def KeysFrom (m n : Nat) (t u : Table Key Fields) : Prop :=
  ∀ k fs, u.get? k = some fs → (∃ gs, t.get? k = some gs) ∨ IsNew m n k

/-- What there is beside what there was stands under ARNs with numbers that are given out in between. -/
structure Grown (s u : Resources) : Prop where
  nextId : s.nextId ≤ u.nextId
  loadBalancers : KeysFrom s.nextId u.nextId s.loadBalancers u.loadBalancers
  targetGroups : KeysFrom s.nextId u.nextId s.targetGroups u.targetGroups
  listeners : KeysFrom s.nextId u.nextId s.listeners u.listeners

section

variable {m n m' n' : Nat} {k : Key} {fs : Fields} {t u v : Table Key Fields}

theorem IsNew.mono (h : IsNew m n k) (hm : m' ≤ m) (hn : n ≤ n') : IsNew m' n' k := by
  obtain ⟨i, arn, hmi, hin, hk, harn⟩ := h
  exact ⟨i, arn, by omega, by omega, hk, harn⟩

/-- An ARN of a number that is given out already is not new. -/
theorem IsNew.disjoint (h : IsNew m n k) (h' : IsNew m' n' k) (hle : n ≤ m') : False := by
  obtain ⟨i, arn, -, hin, rfl, harn⟩ := h
  obtain ⟨i', arn', hmi, -, hk, harn'⟩ := h'
  cases hk
  have := harn.unique harn'
  omega

theorem KeysFrom.refl (m n : Nat) (t : Table Key Fields) : KeysFrom m n t t := fun _ fs h => .inl ⟨fs, h⟩

theorem KeysFrom.trans (h : KeysFrom m n t u) (h' : KeysFrom n n' u v) (hm : m ≤ n) (hn : n ≤ n') :
    KeysFrom m n' t v := by
  intro k fs hk
  rcases h' k fs hk with ⟨gs, hg⟩ | hnew
  · exact (h k gs hg).imp_right fun hnew => hnew.mono (Nat.le_refl m) hn
  · exact .inr (hnew.mono hm (Nat.le_refl n'))

theorem KeysFrom.insert (h : t.get? k = some fs) (gs : Fields) : KeysFrom m n t (t.insert k gs) := by
  intro k' fs' hk
  rcases Table.get?_insert_eq_some_iff.1 hk with ⟨hkk, -⟩ | ⟨-, hk⟩
  · exact .inl ⟨fs, (t.get?_congr hkk).symm.trans h⟩
  · exact .inl ⟨fs', hk⟩

theorem KeysFrom.insert_new {arn : String} (harn : Numbered m arn) (t : Table Key Fields) (gs : Fields) :
    KeysFrom m (m + 1) t (t.insert (.text arn) gs) := by
  intro k' fs' hk
  rcases Table.get?_insert_text_iff.1 hk with ⟨hkk, -⟩ | ⟨-, hk⟩
  · exact .inr ⟨m, arn, Nat.le_refl m, Nat.lt_succ_self m, hkk, harn⟩
  · exact .inl ⟨fs', hk⟩

theorem KeysFrom.filter (p : Fields → Bool) (t : Table Key Fields) :
    KeysFrom m n t (t.filter fun _ => p) := by
  intro k fs hk
  rw [Table.get?_filter_values] at hk
  exact .inl ⟨fs, (Option.filter_eq_some_iff.1 hk).1⟩

theorem KeysFrom.without {arn : Value} (h : t.without arn = .ok u) : KeysFrom m n t u := by
  obtain ⟨⟨x, u'⟩, htake, hu⟩ := bind_eq_ok_iff.1 h
  cases hu
  unfold Table.take at htake
  split at htake
  · cases htake
    exact .refl m n _
  · obtain ⟨k, -, hk⟩ := bind_eq_ok_iff.1 htake
    cases hk
    exact fun k' fs hk' => .inl ⟨fs, (Table.get?_erase_eq_some_iff.1 hk').2⟩

end

section

variable {s t u : Resources}

namespace Grown

theorem refl (s : Resources) : Grown s s := ⟨Nat.le_refl _, .refl _ _ _, .refl _ _ _, .refl _ _ _⟩

theorem trans (h : Grown s t) (h' : Grown t u) : Grown s u where
  nextId := Nat.le_trans h.nextId h'.nextId
  loadBalancers := h.loadBalancers.trans h'.loadBalancers h.nextId h'.nextId
  targetGroups := h.targetGroups.trans h'.targetGroups h.nextId h'.nextId
  listeners := h.listeners.trans h'.listeners h.nextId h'.nextId

theorem of_eq (hid : t.nextId = s.nextId) (hlb : t.loadBalancers = s.loadBalancers)
    (htg : t.targetGroups = s.targetGroups) (hls : t.listeners = s.listeners) : Grown s t :=
  ⟨Nat.le_of_eq hid.symm, hlb ▸ .refl _ _ _, htg ▸ .refl _ _ _, hls ▸ .refl _ _ _⟩

theorem change {α : Type} {x : Except Error (α × Resources)} (h : ∀ a t, x = .ok (a, t) → Grown s t) :
    Grown s (s.change x).2 := by
  cases x with
  | error e => exact refl s
  | ok y => exact h y.1 y.2 rfl

theorem createLb (s : Resources) (params : Fields) : Grown s (s.createLb params).2 := by
  have hnext : Grown s { s with nextId := s.nextId + 1 } :=
    ⟨Nat.le_succ _, .refl _ _ _, .refl _ _ _, .refl _ _ _⟩
  unfold Resources.createLb
  cases Fields.item params "Name" with
  | error e => exact hnext
  | ok name =>
    cases (Fields.get params "Subnets").elementsIfAny with
    | error e => exact hnext
    | ok subnets =>
      have hnew : Grown s { s with
          nextId := s.nextId + 1
          loadBalancers := s.loadBalancers.insert (.text (lbArn name.shown s.nextId))
            (newLb params name subnets s.nextId) } :=
        ⟨Nat.le_succ _, .insert_new (numbered_lbArn _ _) _ _, .refl _ _ _, .refl _ _ _⟩
      dsimp only
      cases readTags (Fields.get params "Tags") <;> exact hnew.trans (of_eq rfl rfl rfl rfl)

theorem createTg (s : Resources) (params : Fields) : Grown s (s.createTg params).2 := by
  unfold Resources.createTg
  cases Fields.item params "Name" with
  | error e => exact ⟨Nat.le_succ _, .refl _ _ _, .refl _ _ _, .refl _ _ _⟩
  | ok name =>
    have hnew : Grown s { s with
        nextId := s.nextId + 1
        targetGroups := s.targetGroups.insert (.text (tgArn name.shown s.nextId))
          (newTg params name (tgArn name.shown s.nextId)) } :=
      ⟨Nat.le_succ _, .refl _ _ _, .insert_new (numbered_tgArn _ _) _ _, .refl _ _ _⟩
    dsimp only
    cases readTags (Fields.get params "Tags") <;> exact hnew.trans (of_eq rfl rfl rfl rfl)

theorem createListener (s : Resources) (params : Fields) : Grown s (s.createListener params).2 :=
  ⟨Nat.le_succ _, .refl _ _ _, .refl _ _ _, .insert_new (numbered_listenerArn _) _ _⟩

end Grown

/-- What stands at an ARN. -/
theorem get?_of_at {β : Type} {t : Table Key β} {arn : Value} {k : Key} {x : β} (h : at_ t arn = .ok (k, x)) :
    t.get? k = some x := by
  obtain ⟨k', -, h⟩ := bind_eq_ok_iff.1 h
  split at h
  · rename_i hk
    cases h
    exact hk
  · cases h

theorem Grown.bind {α β : Type} {x : Except Error α} {f : α → Except Error (β × Resources)}
    (h : ∀ a, x = .ok a → ∀ b t, f a = .ok (b, t) → Grown s t) (b : β) (t : Resources)
    (hx : (x >>= f) = .ok (b, t)) :
    Grown s t := by
  obtain ⟨a, ha, hb⟩ := bind_eq_ok_iff.1 hx
  exact h a ha b t hb

/-- After an effect there is nothing new but under a new ARN. -/
theorem effect_grown (s : Resources) (r : Request) : Grown s (s.effect r).2 := by
  cases r <;> try exact Grown.of_eq rfl rfl rfl rfl
  case createLoadBalancer params => exact Grown.createLb s params
  case createTargetGroup params => exact Grown.createTg s params
  case createListener params => exact Grown.createListener s params
  case deleteLoadBalancer arn =>
    refine Grown.change (Grown.bind fun lbs hlbs => Grown.bind fun tags _ => ?_)
    rintro _ _ ⟨⟩
    exact ⟨Nat.le_refl _, .without hlbs, .refl _ _ _, .filter _ _⟩
  case deleteTargetGroup arn =>
    refine Grown.change (Grown.bind fun tgs htgs => Grown.bind fun targets _ => Grown.bind fun tags _ => ?_)
    rintro _ _ ⟨⟩
    exact ⟨Nat.le_refl _, .refl _ _ _, .without htgs, .refl _ _ _⟩
  case deleteListener arn =>
    refine Grown.change (Grown.bind fun ls hls => ?_)
    rintro _ _ ⟨⟩
    exact ⟨Nat.le_refl _, .refl _ _ _, .refl _ _ _, .without hls⟩
  case setIpAddressType arn type =>
    refine Grown.change (Grown.bind fun lb hlb => ?_)
    rintro _ _ ⟨⟩
    exact ⟨Nat.le_refl _, .insert (get?_of_at hlb) _, .refl _ _ _, .refl _ _ _⟩
  case setSubnets arn subnets =>
    refine Grown.change (Grown.bind fun _ _ => Grown.bind fun lb hlb => ?_)
    rintro _ _ ⟨⟩
    exact ⟨Nat.le_refl _, .insert (get?_of_at hlb) _, .refl _ _ _, .refl _ _ _⟩
  case modifyTargetGroup params =>
    refine Grown.change (Grown.bind fun _ _ => Grown.bind fun tg htg => ?_)
    rintro _ _ ⟨⟩
    exact ⟨Nat.le_refl _, .refl _ _ _, .insert (get?_of_at htg) _, .refl _ _ _⟩
  case modifyListener params =>
    refine Grown.change (Grown.bind fun _ _ => Grown.bind fun l hl => ?_)
    rintro _ _ ⟨⟩
    exact ⟨Nat.le_refl _, .refl _ _ _, .refl _ _ _, .insert (get?_of_at hl) _⟩
  case registerTargets arn new =>
    simp only [effect, register]
    cases new.elements with
    | error e => exact Grown.refl s
    | ok vs => cases vs <;> cases at_ s.targets arn <;> exact Grown.of_eq rfl rfl rfl rfl
  case removeTags arn keys =>
    simp only [effect, untag]
    cases keys.elements >>= Value.sorted with
    | error e => exact Grown.refl s
    | ok vs =>
      cases vs with
      | nil => exact Grown.refl s
      | cons v vs =>
        cases arn.key with
        | error e => exact Grown.refl s
        | ok k => cases h : s.tags.get? k <;> simp only [h] <;> exact Grown.of_eq rfl rfl rfl rfl
  all_goals
    refine Grown.change ?_
    repeat refine Grown.bind fun a _ => ?_
    rintro b t ⟨⟩
    exact Grown.of_eq rfl rfl rfl rfl

theorem perform_grown (s : Resources) (r : Request) : Grown s (s.perform r).2 := by
  rw [perform_eq]
  cases (do s.refusal r; r.record? : Except Error (Option Record)) with
  | error e => exact Grown.refl s
  | ok record => exact effect_grown s r

end

end Resources

/-- After any part of a run there is nothing new but under a new ARN. -/
theorem Program.always_grown {α : Type} (p : Program α) (s : Resources) : p.Always (Resources.Grown s) s := by
  induction p generalizing s with
  | done x =>
    rintro u rfl
    exact Resources.Grown.refl u
  | ask r next ih =>
    rintro u (rfl | hu)
    · exact Resources.Grown.refl u
    · exact (Resources.perform_grown s r).trans (ih _ _ u hu)
  | tell n next ih => exact fun u hu => ih s u hu

end Balancer
