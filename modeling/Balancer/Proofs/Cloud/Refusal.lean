import Balancer.Proofs.Cloud.Requests
import Balancer.Proofs.Cloud.Twin
import Balancer.Proofs.Refusal

/-!
# Which requests a cloud refuses

* `Accepts s r` : the request is not refused. A cloud may refuse three sorts of requests
  (`accepts_of_isSafe`): the deletion of a target group that is in use, and a listener on a port that is taken
  or whose protocol is not that of its target group;
* `errs_perform` : an error of a cloud is a refusal, or comes from data of an unexpected shape;
* `Each J p s` : each request of a run satisfies `J` in the state where it is asked;
* `Safe J I Q p s` : so they do, all visited states satisfy `I`, and the result and what is left
  satisfy `Q` (`Safe.bind`);
* `Own E p` : the errors of a program that come from no request satisfy `E`;
* `Strict.run_error` : behind any gate the error of a strict program is one of the gate, one of its own, or
  the answer to a request of the run, in the state that the run left.
-/

namespace Balancer

set_option autoImplicit false

namespace Resources

/-! ## Errors of effects -/

theorem errs_change {E : Error → Prop} {α : Type} (s : Resources)
    {x : Except Error (α × Resources)} (h : Errs E x) :
    Errs E (s.change x).1 := by
  cases x with
  | ok a => exact errs_ok _
  | error e => exact errs_error.2 (h e rfl)

section

variable {E : Error → Prop} [AdmitsMisfits E] (s : Resources) (arn v : Value)
  (vs : List Value) (params : Fields)

@[simp] theorem errs_at {β : Type} (t : Table Key β) : Errs E (at_ t arn) := by
  refine errs_bind.2 ⟨arn.errs_key, fun k _ => ?_⟩
  cases t.get? k
  · exact errs_noField arn
  · exact errs_pure _

@[simp] theorem errs_readTags : Errs E (readTags v) := by simp [readTags, readTag]

@[simp] theorem errs_labelsOf (t : Table Key Labels) : Errs E (labelsOf t arn) := by simp [labelsOf]

@[simp] theorem errs_labelled (t : Table Key Labels) : Errs E (labelled t arn v) := by simp [labelled]

@[simp] theorem errs_objectOf : Errs E (objectOf v) := by cases v <;> simp [objectOf]

theorem errs_addTargets (current : List Value) : Errs E (addTargets current vs).1 := by
  induction vs generalizing current with
  | nil => exact errs_ok _
  | cons v vs ih =>
    unfold addTargets
    split
    · exact ih current
    · have hobject : Errs E (objectOf v) := errs_objectOf v
      split
      · exact ih _
      · rename_i he
        exact errs_error.2 (hobject _ he)

theorem errs_removeLabels (labels : Labels) : Errs E (removeLabels labels vs).1 := by
  induction vs generalizing labels with
  | nil => exact errs_ok _
  | cons v vs ih =>
    have hwithout : Errs E (labels.without v) := labels.errs_without v
    unfold removeLabels
    split
    · exact ih _
    · rename_i he
      exact errs_error.2 (hwithout _ he)

theorem errs_createLb : Errs E (s.createLb params).1 := by
  have hname : Errs E (Fields.item params "Name") := Value.errs_fieldsItem _ _
  have hsubnets : Errs E (Fields.get params "Subnets").elementsIfAny := Value.errs_elementsIfAny _
  have htags : Errs E (readTags (Fields.get params "Tags")) := errs_readTags _
  unfold createLb
  dsimp only
  split
  · rename_i he
    exact errs_error.2 (hname _ he)
  · rename_i he _
    exact errs_error.2 (hsubnets _ he)
  · split
    · rename_i he
      exact errs_error.2 (htags _ he)
    · exact errs_ok _

theorem errs_createTg : Errs E (s.createTg params).1 := by
  have hname : Errs E (Fields.item params "Name") := Value.errs_fieldsItem _ _
  have htags : Errs E (readTags (Fields.get params "Tags")) := errs_readTags _
  unfold createTg
  dsimp only
  split
  · rename_i he
    exact errs_error.2 (hname _ he)
  · split
    · rename_i he
      exact errs_error.2 (htags _ he)
    · exact errs_ok _

theorem errs_register : Errs E (s.register arn v).1 := by
  have helements : Errs E v.elements := v.errs_elements
  have hat : Errs E (at_ s.targets arn) := errs_at arn s.targets
  unfold register
  split
  · rename_i he
    exact errs_error.2 (helements _ he)
  · exact errs_ok _
  · split
    · rename_i he
      exact errs_error.2 (hat _ he)
    · exact errs_addTargets _ _

theorem errs_untag : Errs E (s.untag arn v).1 := by
  have hkeys : Errs E (v.elements >>= Value.sorted) := by simp
  have harn : Errs E arn.key := arn.errs_key
  unfold untag
  split
  · rename_i he
    exact errs_error.2 (hkeys _ he)
  · exact errs_ok _
  · split
    · rename_i he
      exact errs_error.2 (harn _ he)
    · split
      · exact errs_ok _
      · exact errs_removeLabels _ _

@[simp] theorem errs_isOfCluster (key tags : Value) : Errs E (isOfCluster key tags) := by
  refine errs_bind.2 ⟨Value.errs_fieldsFor _ _, fun fields _ => errs_bind.2 ⟨key.errs_key, fun k _ => ?_⟩⟩
  cases k <;> simp

@[simp] theorem errs_isNamed (names subnet : Value) : Errs E (isNamed names subnet) := by simp [isNamed]

theorem errs_setLbField (k : String) : Errs E (s.setLbField arn k v) := by simp [setLbField]

/-- A request that has its effect fails on data of an unexpected shape at most. -/
theorem errs_effect (r : Request) : Errs E (s.effect r).1 := by
  cases r with
  | createLoadBalancer params => exact errs_createLb s params
  | deleteLoadBalancer arn => exact errs_change s (by simp [deleteLb])
  | setIpAddressType arn type => exact errs_change s (errs_setLbField s arn type _)
  | setSubnets arn subnets => exact errs_change s (by simp [errs_setLbField])
  | modifyLbAttributes arn new => exact errs_change s (by simp)
  | createTargetGroup params => exact errs_createTg s params
  | modifyTargetGroup params => exact errs_change s (by simp [modifyTg])
  | deleteTargetGroup arn => exact errs_change s (by simp [deleteTg])
  | modifyTgAttributes arn new => exact errs_change s (by simp)
  | targets arn => exact show Errs E (arn.key >>= fun k => pure ((s.targets.get? k).getD [])) by simp
  | registerTargets arn new => exact errs_register s arn new
  | deregisterTargets arn gone => exact errs_change s (by simp [deregister])
  | addTags arn new => exact errs_change s (by simp)
  | removeTags arn keys => exact errs_untag s arn keys
  | modifyListener params => exact errs_change s (by simp [modifyListener])
  | deleteListener arn => exact errs_change s (by simp)
  | resourcesTagged wanted type => exact show Errs E (s.tagged wanted type) by simp [tagged]
  | clusterSubnets key => exact show Errs E (s.clusterSubnets key) by simp [clusterSubnets]
  | subnetsNamed names => exact show Errs E (s.subnets.filterM (isNamed names)) by simp
  | lbAttributes arn => exact errs_labelsOf arn s.lbAttributes
  | tgAttributes arn => exact errs_labelsOf arn s.tgAttributes
  | tags arn => exact errs_labelsOf arn s.tags
  | _ => exact errs_ok _

theorem errs_record? (r : Request) : Errs E r.record? := by
  cases r <;> simp [Request.record?, Request.record?.kept, listOf, sortedListOf]

@[simp] theorem errs_actionsOf (l : Fields) : Errs E (actionsOf l) := Value.errs_elementsIfAny _

@[simp] theorem errs_forwardsTo (as : List Value) : Errs E (forwardsTo arn as) := by
  induction as with
  | nil => exact errs_ok _
  | cons a as ih => simp [forwardsTo, ih]

@[simp] theorem errs_lbOfListener : Errs E (s.lbOfListener v params) := by simp [lbOfListener]

@[simp] theorem errs_targetGroupOf? : Errs E (s.targetGroupOf? v) := by simp [targetGroupOf?]

end

/-! ## Errors of a cloud -/

section

variable {E : Error → Prop} [AdmitsMisfits E] (hE : ∀ operation code text, E (.cloud operation code text))

include hE

theorem errs_checkUnused (arn : Value) (ls : List Fields) : Errs E (checkUnused arn ls) := by
  induction ls with
  | nil => exact errs_ok _
  | cons l ls ih => simp [checkUnused, hE, ih]

theorem errs_checkPort (method : String) (own lb : Value) (params : Fields) (es : List (Key × Fields)) :
    Errs E (checkPort method own lb params es) := by
  induction es with
  | nil => exact errs_ok _
  | cons e es ih => simp [checkPort, hE, ih]

theorem errs_checkProtocol (s : Resources) (method : String) (params : Fields) (as : List Value) :
    Errs E (s.checkProtocol method params as) := by
  induction as with
  | nil => exact errs_ok _
  | cons a as ih =>
    refine errs_bind.2 ⟨errs_targetGroupOf? s a, fun group _ => ?_⟩
    cases group <;> simp [hE, ih]

theorem errs_refusal (s : Resources) (r : Request) : Errs E (s.refusal r) := by
  have hlistener : ∀ method own params, Errs E (s.checkListener method own params) :=
    fun method own params => by
    simp [checkListener, errs_checkPort hE, errs_checkProtocol hE]
  cases r with
  | deleteTargetGroup arn => exact errs_checkUnused hE arn _
  | createListener params => exact hlistener _ _ _
  | modifyListener params => exact errs_bind.2 ⟨Value.errs_fieldsItem _ _, fun own _ => hlistener _ own _⟩
  | _ => exact errs_ok _

/-- An error of a cloud is a refusal, or comes from data of an unexpected shape. -/
theorem errs_perform (s : Resources) (r : Request) : Errs E (s.perform r).1 := by
  have hboth : Errs E (do s.refusal r; r.record?) :=
    errs_bind.2 ⟨errs_refusal hE s r, fun _ _ => errs_record? r⟩
  rw [perform_eq]
  split
  · rename_i he
    exact errs_error.2 (hboth _ he)
  · exact errs_effect s r

end

/-! ## Requests that are refused -/

/-- A request is not refused. -/
def Accepts (s : Resources) (r : Request) : Prop := Unrefused (s.perform r).1

section

variable {s : Resources} {r : Request} {arn own lb protocol : Value} {method : String} {params : Fields}

theorem accepts_of_refusal (h : Unrefused (s.refusal r)) : s.Accepts r := by
  have hboth : Unrefused (do s.refusal r; r.record?) := errs_bind.2 ⟨h, fun _ _ => errs_record? r⟩
  unfold Accepts
  rw [perform_eq]
  split
  · rename_i he
    exact errs_error.2 (hboth _ he)
  · exact errs_effect s r

/-- A request that is refused changes nothing. -/
theorem perform_of_isRefusal {e : Error} (h : (s.perform r).1 = .error e) (he : e.IsRefusal) :
    (s.perform r).2 = s := by
  rw [perform_eq] at h ⊢
  split
  · rfl
  · rename_i hok
    rw [hok] at h
    exact ((errs_effect s r : Unrefused (s.effect r).1) e h he).elim

/-- The requests that no cloud refuses. -/
def IsSafe : Request → Prop
  | .deleteTargetGroup _ | .createListener _ | .modifyListener _ => False
  | _ => True

theorem accepts_of_isSafe (h : IsSafe r) (s : Resources) : s.Accepts r := by
  refine accepts_of_refusal ?_
  cases r with
  | deleteTargetGroup arn => exact h.elim
  | createListener params => exact h.elim
  | modifyListener params => exact h.elim
  | _ => exact errs_ok _

/-- A target group to which no listener forwards may be deleted. -/
theorem unrefused_checkUnused {ls : List Fields}
    (h : ∀ l ∈ ls, ∀ as, actionsOf l = .ok as → forwardsTo arn as ≠ .ok true) :
    Unrefused (checkUnused arn ls) := by
  induction ls with
  | nil => exact errs_ok _
  | cons l ls ih =>
    obtain ⟨hl, hls⟩ := List.forall_mem_cons.1 h
    refine errs_bind.2 ⟨errs_actionsOf l, fun as has => errs_bind.2 ⟨errs_forwardsTo arn as, fun b hb => ?_⟩⟩
    cases b with
    | true => exact absurd hb (hl as has)
    | false => exact ih hls

/-- A port that no other listener of the load balancer has is free. -/
theorem unrefused_checkPort {es : List (Key × Fields)}
    (h : ∀ e ∈ es, e.1.toValue.same own = false →
      (Fields.get e.2 "LoadBalancerArn").same lb = true → ∀ taken port,
      Fields.item e.2 "Port" = .ok taken → Fields.item params "Port" = .ok port → taken.same port = false) :
    Unrefused (checkPort method own lb params es) := by
  induction es with
  | nil => exact errs_ok _
  | cons e es ih =>
    obtain ⟨he, hes⟩ := List.forall_mem_cons.1 h
    obtain ⟨arn, l⟩ := e
    unfold checkPort
    by_cases hmine : (!arn.toValue.same own && (Fields.get l "LoadBalancerArn").same lb) = true
    · rw [if_pos hmine]
      obtain ⟨hother, hlb⟩ := Bool.and_eq_true_iff.1 hmine
      refine errs_bind.2 ⟨Value.errs_fieldsItem _ _, fun taken htaken => ?_⟩
      refine errs_bind.2 ⟨Value.errs_fieldsItem _ _, fun port hport => ?_⟩
      have hfree := he (by simpa using hother) hlb taken port htaken hport
      simp [hfree, ih hes]
    · rw [if_neg hmine]
      exact ih hes

/-- A listener is taken up if its port is free on its load balancer and its actions suit it. -/
theorem unrefused_checkListener
    (hport : ∀ lb, s.lbOfListener own params = .ok lb →
      Unrefused (checkPort method own lb params s.listeners.entries))
    (hactions : ∀ as, actionsOf params = .ok as → Unrefused (s.checkProtocol method params as)) :
    Unrefused (s.checkListener method own params) :=
  errs_bind.2 ⟨errs_lbOfListener s own params, fun lb hlb => errs_bind.2 ⟨hport lb hlb, fun _ _ =>
    errs_bind.2 ⟨errs_actionsOf params, hactions⟩⟩⟩

end

end Resources

namespace Program

variable {α β σ : Type}

/-! ## Requests of a run -/

/-- Each request of a run satisfies a condition where it is asked. -/
def Each (J : Request → Resources → Prop) : Program α → Resources → Prop
  | done _, _ => True
  | ask r next, s => J r s ∧ (next (s.perform r).1).Each J (s.perform r).2
  | tell _ next, s => next.Each J s

/-- The errors of a program that are no answers to requests satisfy a condition. -/
def Own (E : Error → Prop) : Program α → Prop
  | done x => ∀ e, x = .error e → E e
  | ask _ next => ∀ a, (next (.ok a)).Own E
  | tell _ next => next.Own E

section

variable {J : Request → Resources → Prop} {p : Program α} {f : α → Program β} {r : Request} {s : Resources}

theorem each_pure (a : α) : (pure a : Program α).Each J s := trivial

theorem each_info (reason text : String) : (info reason text).Each J s := trivial

theorem each_answer (h : J r s) : (answer r).Each J s := ⟨h, trivial⟩

theorem each_doIf {b : Bool} {p : Program Unit} (h : b = true → p.Each J s) : (doIf b p).Each J s := by
  cases b with
  | false => exact each_pure ()
  | true => exact h rfl

theorem each_lift_bind {x : Except Error α} (hf : ∀ a, x = .ok a → (f a).Each J s) :
    ((liftM x : Program α) >>= f).Each J s := by
  cases x with
  | ok a => exact hf a rfl
  | error e => trivial

theorem Each.bind (hp : p.Each J s) (hf : ∀ a t, p.Yields s a t → (f a).Each J t) : (p >>= f).Each J s := by
  show (p.bind f).Each J s
  induction p generalizing s with
  | done x =>
    cases x with
    | ok a => exact hf a s ⟨[], rfl⟩
    | error e => trivial
  | ask r next ih => exact ⟨hp.1, ih _ hp.2 fun a t ⟨rs, h⟩ => hf a t ⟨_, ends_ask.2 ⟨rs, rfl, h⟩⟩⟩
  | tell n next ih => exact ih hp hf

theorem Each.warning (hp : p.Each J s) (reason : String) (text : Error → String) :
    (p.warning reason text).Each J s := by
  unfold Program.warning
  induction p generalizing s with
  | done x => cases x <;> trivial
  | ask r next ih => exact ⟨hp.1, ih _ hp.2⟩
  | tell n next ih => exact ih hp

/-- A program of requests of one sort. -/
theorem Asks.each {P : Request → Prop} (hp : p.Asks P) (hJ : ∀ r u, P r → J r u) : p.Each J s := by
  induction p generalizing s with
  | done x => trivial
  | ask r next ih => exact ⟨hJ r s hp.1, ih _ (hp.2 _)⟩
  | tell n next ih => exact ih hp

theorem Each.mono {J' : Request → Resources → Prop} (h : p.Each J s)
    (hJ : ∀ r u, J r u → J' r u) : p.Each J' s := by
  induction p generalizing s with
  | done x => trivial
  | ask r next ih => exact ⟨hJ r s h.1, ih _ h.2⟩
  | tell n next ih => exact ih h

theorem Each.and {J' : Request → Resources → Prop} (h : p.Each J s) (h' : p.Each J' s) :
    p.Each (fun r u => J r u ∧ J' r u) s := by
  induction p generalizing s with
  | done x => trivial
  | ask r next ih => exact ⟨⟨h.1, h'.1⟩, ih _ h.2 h'.2⟩
  | tell n next ih => exact ih h h'

/-- Every request of a run is asked in a state that the run visits. -/
theorem Always.each {I : Resources → Prop} (h : p.Always I s) : p.Each (fun _ u => I u) s := by
  induction p generalizing s with
  | done x => trivial
  | ask r next ih => exact ⟨h s (.inl rfl), ih _ fun u hu => h u (.inr hu)⟩
  | tell n next ih => exact ih h

/-- What each request keeps of the state before it is kept of the first state. -/
theorem Each.always {R : Resources → Resources → Prop} (h : p.Each (fun r u => R u (u.perform r).2) s)
    (hrefl : ∀ u, R u u) (htrans : ∀ u v w, R u v → R v w → R u w) : p.Always (R s) s := by
  induction p generalizing s with
  | done x => exact fun u hu => hu ▸ hrefl s
  | ask r next ih =>
    rintro u (rfl | hu)
    · exact hrefl u
    · exact htrans _ _ _ h.1 (ih _ h.2 u hu)
  | tell n next ih => exact ih h

end

/-- Each request of a run satisfies a condition, so does each visited state, and so do the
result and what is left. -/
structure Safe (J : Request → Resources → Prop) (I : Resources → Prop)
    (Q : α → Resources → Prop) (p : Program α) (s : Resources) : Prop where
  each : p.Each J s
  always : p.Always I s
  yields : ∀ a t, p.Yields s a t → Q a t

section

variable {J : Request → Resources → Prop} {I I' : Resources → Prop} {Q Q' : α → Resources → Prop}
  {R : β → Resources → Prop} {p : Program α} {f : α → Program β} {r : Request} {s : Resources}

theorem safe_pure {a : α} (hI : I s) (hQ : Q a s) : (pure a : Program α).Safe J I Q s where
  each := each_pure a
  always u hu := visits_pure.1 hu ▸ hI
  yields b t h := by
    obtain ⟨rfl, rfl⟩ := yields_pure.1 h
    exact hQ

theorem safe_lift_bind {x : Except Error α} (hI : I s) (hf : ∀ a, x = .ok a → (f a).Safe J I R s) :
    ((liftM x : Program α) >>= f).Safe J I R s where
  each := each_lift_bind fun a ha => (hf a ha).each
  always := Always.lift_bind hI fun a ha => (hf a ha).always
  yields b t h := by
    obtain ⟨a, ha, h⟩ := yields_lift_bind.1 h
    exact (hf a ha).yields b t h

theorem safe_notice {n : Notice} {Q : Unit → Resources → Prop} (hI : I s) (hQ : Q () s) :
    (notice n).Safe J I Q s where
  each := trivial
  always u hu := hu ▸ hI
  yields b t h := by
    obtain ⟨rs, h⟩ := h
    cases h
    exact hQ

theorem safe_info {reason text : String} {Q : Unit → Resources → Prop} (hI : I s) (hQ : Q () s) :
    (info reason text).Safe J I Q s := safe_notice hI hQ

theorem safe_ite {c : Prop} [Decidable c] {q : Program α} (hp : c → p.Safe J I Q s)
    (hq : ¬ c → q.Safe J I Q s) :
    (if c then p else q).Safe J I Q s := by
  split
  · exact hp ‹_›
  · exact hq ‹_›

theorem safe_answer {Q : r.Answer → Resources → Prop} (hJ : J r s) (hI : I s) (hafter : I (s.perform r).2)
    (hQ : ∀ a, (s.perform r).1 = .ok a → Q a (s.perform r).2) : (answer r).Safe J I Q s where
  each := each_answer hJ
  always u hu := by
    rcases visits_answer.1 hu with rfl | rfl
    · exact hI
    · exact hafter
  yields a t h := by
    have h := yields_answer.1 h
    have hQ := hQ a (congrArg Prod.fst h)
    rwa [show (s.perform r).2 = t from congrArg Prod.snd h] at hQ

/-- What follows a program starts from where it ended. -/
theorem Safe.bind (hp : p.Safe J I Q s) (hf : ∀ a t, I t → Q a t → (f a).Safe J I R t) :
    (p >>= f).Safe J I R s where
  each := hp.each.bind fun a t h => (hf a t (hp.always.yields h) (hp.yields a t h)).each
  always := hp.always.bind fun a t h => (hf a t (hp.always.yields h) (hp.yields a t h)).always
  yields b u h := by
    obtain ⟨a, t, ha, hb⟩ := yields_bind.1 h
    exact (hf a t (hp.always.yields ha) (hp.yields a t ha)).yields b u hb

theorem Safe.mono (h : p.Safe J I Q s) (hI : ∀ u, I u → I' u) (hQ : ∀ a t, I t → Q a t → Q' a t) :
    p.Safe J I' Q' s where
  each := h.each
  always := h.always.mono hI
  yields a t ha := hQ a t (h.always.yields ha) (h.yields a t ha)

theorem Safe.warning (h : p.Safe J I Q s) (reason : String) (text : Error → String) :
    (p.warning reason text).Safe J I Q s where
  each := h.each.warning reason text
  always u hu := h.always u (visits_warning.1 hu)
  yields a t := fun ⟨rs, ha⟩ => h.yields a t ⟨rs, ends_warning.1 ha⟩

/-- A program of requests of one sort, each of which may be asked. -/
theorem Asks.safe {P : Request → Prop} (hp : p.Asks P)
    (hstep : ∀ r u, P r → I u → J r u ∧ I (u.perform r).2) (hI : I s) :
    p.Safe J I (fun _ _ => True) s := by
  refine ⟨?_, ?_, fun _ _ _ => trivial⟩
  · induction p generalizing s with
    | done x => trivial
    | ask r next ih => exact ⟨(hstep r s hp.1 hI).1, ih _ (hp.2 _) (hstep r s hp.1 hI).2⟩
    | tell n next ih => exact ih hp hI
  · induction p generalizing s with
    | done x => exact fun u hu => hu ▸ hI
    | ask r next ih =>
      rintro u (rfl | hu)
      · exact hI
      · exact ih _ (hp.2 _) (hstep r s hp.1 hI).2 u hu
    | tell n next ih => exact ih hp hI

end

section

variable {E : Error → Prop} {p : Program α} {f : α → Program β}

theorem own_pure (a : α) : (pure a : Program α).Own E := errs_ok a

theorem own_throw {e : Error} (h : E e) : (throw e : Program α).Own E := by
  rintro _ ⟨⟩
  exact h

theorem own_lift {x : Except Error α} (h : Errs E x) : (liftM x : Program α).Own E := h

theorem own_notice (n : Notice) : (notice n).Own E := errs_ok ()

theorem own_info (reason text : String) : (info reason text).Own E := own_notice _

theorem own_answer (r : Request) : (answer r).Own E := errs_ok

theorem own_ite {c : Prop} [Decidable c] {q : Program α} (hp : p.Own E) (hq : q.Own E) :
    (if c then p else q).Own E := by
  split
  · exact hp
  · exact hq

theorem Own.bind (hp : p.Own E) (hf : ∀ a, (f a).Own E) : (p >>= f).Own E := by
  show (p.bind f).Own E
  induction p with
  | done x =>
    cases x with
    | ok a => exact hf a
    | error e => exact fun e' he => hp e' (by cases he; rfl)
  | ask r next ih => exact fun a => ih _ (hp a)
  | tell n next ih => exact ih hp

theorem Own.warning (hp : p.Own E) (reason : String) (text : Error → String) :
    (p.warning reason text).Own E := by
  unfold Program.warning
  induction p with
  | done x =>
    cases x with
    | ok a => exact hp
    | error e => exact own_throw (hp e rfl)
  | ask r next ih => exact fun a => ih _ (hp a)
  | tell n next ih => exact ih hp

/-- Errors of the program come from the gate, from itself, or answer a request in the state that is left. -/
theorem Strict.run_error {J : Request → Resources → Prop} {g : Gate σ} {s t : Resources} {c c' : σ}
    {before after : List Record} {e : Error} (hp : p.Strict) (hown : p.Own E) (heach : p.Each J s)
    (hrun : p.run (Memory.cloud g) (c, ⟨s, before⟩) = (.error e, (c', ⟨t, after⟩))) :
    (∃ r b b', g.allow r b = (.error e, b')) ∨ E e ∨ ∃ r u, J r u ∧ u.perform r = (.error e, t) := by
  induction p generalizing s c before with
  | done x =>
    cases hrun
    exact .inr (.inl (hown e rfl))
  | ask r next ih =>
    simp only [Program.run, Memory.cloud] at hrun
    rcases hg : g.allow r c with ⟨x | x, b⟩
    · obtain ⟨b', hfails⟩ := (hp.1 x).run g b ⟨s, before⟩
      simp only [hg] at hrun
      obtain rfl : x = e := Except.error.inj (congrArg Prod.fst (hfails.symm.trans hrun))
      exact .inl ⟨r, c, b, hg⟩
    · simp only [hg] at hrun
      rw [Memory.perform_eq] at hrun
      cases hx : (s.perform r).1 with
      | ok a =>
        simp only [hx] at hrun
        exact ih (.ok a) (hp.2 a) (hown a) (hx ▸ heach.2) hrun
      | error x =>
        simp only [hx] at hrun
        obtain ⟨b', hfails⟩ := (hp.1 x).run g b ⟨(s.perform r).2, before ++ s.recorded r⟩
        have hsame := hfails.symm.trans hrun
        cases hsame
        exact .inr (.inr ⟨r, s, heach.1, Prod.ext hx rfl⟩)
  | tell n next ih => exact ih hp hown heach hrun

end

end Program

end Balancer
