import Balancer.Proofs.Annotations.Order
import Balancer.Proofs.Cluster.Store
import Balancer.Proofs.Converge.Sync

/-!
# What a reconcile reads

* `SameInputs i j v w` : two Services, with what else is read to converge them, that are the
  same where they are read;
* `convergeLb_eq`, `convergeTargetGroups_eq`, `convergeListeners_eq` : the same is done for them
  stage by stage, and so it is on the whole: `agree_convergeService`. Publishing asks nothing of a
  cloud (`quiet_publish`).
-/

namespace Balancer.Converge

set_option autoImplicit false

open Cluster Routing

/-- What is read to converge two Services is the same, but for their annotations. -/
structure SameInputs (i j : Inputs) (v w : Value) : Prop where
  config : i.config = j.config
  identity : i.identity = j.identity
  routes : SameRoutes v w
  endpoints : ∀ key, objectKey v = .ok key → ∃ k, key = .text k ∧
    Option.Rel SameEndpoints (i.store.endpoints.get? (.text k)) (j.store.endpoints.get? (.text k))
  instances : i.store.instanceIds = j.store.instanceIds

section

variable {i j : Inputs} {v w : Value} {a b : ServiceSettings} {X : Prop}

/-! ## The load balancer -/

theorem convergeLb_eq (h : SameInputs i j v w) (hs : SameSettings a b) :
    convergeLb i v a = convergeLb j w b := by
  unfold convergeLb buildLb checkScheme
  rw [hs.settings, h.config, h.identity, h.routes.names]

/-! ## The target groups -/

theorem paired_endpointsOf (h : SameInputs i j v w) {key : Value} (hkey : objectKey v = .ok key) :
    Paired SameEndpoints (i.store.endpointsOf key) (j.store.endpointsOf key) := by
  obtain ⟨k, rfl, hrel⟩ := h.endpoints key hkey
  rw [Store.endpointsOf, Store.endpointsOf, Store.find_text, Store.find_text]
  show Paired SameEndpoints ((i.store.endpoints.get? (.text k)).elim _ _)
    ((j.store.endpoints.get? (.text k)).elim _ _)
  revert hrel
  generalize i.store.endpoints.get? (.text k) = x
  generalize j.store.endpoints.get? (.text k) = y
  rintro (h | _)
  · exact .ok h
  · exact .error _

theorem paired_endpointsOrNull (h : SameInputs i j v w) :
    Paired (fun x y => x = .null ∧ y = .null ∨ SameEndpoints x y)
    (endpointsOrNull i.store v) (endpointsOrNull j.store w) := by
  unfold endpointsOrNull
  rw [← h.routes.objectKey]
  cases hkey : objectKey v with
  | error e => exact .error e
  | ok key =>
    obtain ⟨k, rfl, hrel⟩ := h.endpoints key hkey
    show Paired _ (.ok ((i.store.endpoints.get? (.text k)).getD .null))
      (.ok ((j.store.endpoints.get? (.text k)).getD .null))
    revert hrel
    generalize i.store.endpoints.get? (.text k) = x
    generalize j.store.endpoints.get? (.text k) = y
    rintro (h | _)
    · exact .ok (.inr h)
    · exact .ok (.inl ⟨rfl, rfl⟩)

theorem planGroup_eq (h : SameInputs i j v w) (hs : SameSettings a b) (backend : Backend) :
    planGroup i v a backend = planGroup j w b backend := by
  unfold planGroup targetGroupTags
  rw [hs.settings, h.identity, h.routes.names]
  refine bind_congr fun ⟨ns, name⟩ => ?_
  dsimp only
  split
  · refine (paired_endpointsOrNull h).bind_eq fun x y hxy => ?_
    rw [healthCheckPort_eq h.routes hxy]
    rfl
  · show (healthCheckPort v _ _ .null >>= _) = (healthCheckPort w _ _ .null >>= _)
    rw [healthCheckPort_eq h.routes (.inl ⟨rfl, rfl⟩)]
    rfl

theorem ensureTargetGroup_eq (h : i.config = j.config) : ensureTargetGroup i = ensureTargetGroup j := by
  funext name type protocol check tags
  unfold ensureTargetGroup createTargetGroup targetGroupParams
  rw [h]

theorem furnish_eq (h : SameInputs i j v w) (hs : SameSettings a b) (backend : Backend) :
    furnish i.store v a backend = furnish j.store w b backend := by
  funext tags arn
  unfold furnish
  rw [hs.settings, resolveTargets_eq h.routes h.instances fun key hkey => paired_endpointsOf h hkey]

theorem convergeTargetGroup_eq_of (h : SameInputs i j v w) (hs : SameSettings a b) (backend : Backend) :
    convergeTargetGroup i v a backend = convergeTargetGroup j w b backend := by
  rw [convergeTargetGroup_eq, convergeTargetGroup_eq, planGroup_eq h hs,
    ensureTargetGroup_eq h.config, furnish_eq h hs, hs.settings]

theorem convergeBackends_eq (h : SameInputs i j v w) (hs : SameSettings a b)
    (there : Table BackendKey TargetGroup) (backends : List Backend) :
    convergeBackends i v a there backends = convergeBackends j w b there backends := by
  induction backends generalizing there with
  | nil => rfl
  | cons backend backends ih =>
    unfold convergeBackends
    rw [convergeTargetGroup_eq_of h hs]
    simp only [ih]

theorem convergeTargetGroups_eq (h : SameInputs i j v w) (hs : SameSettings a b) :
    convergeTargetGroups i v a = convergeTargetGroups j w b := by
  unfold convergeTargetGroups
  rw [listenerSpecs_eq h.routes hs, h.routes.names, h.identity]
  simp only [convergeBackends_eq h hs]

/-! ## The listeners -/

theorem convergeListeners_eq (h : SameRoutes v w) (hs : SameSettings a b) (arn : Value)
    (groups : TargetGroups) :
    convergeListeners arn v a groups = convergeListeners arn w b groups := by
  have hfind : ∀ name, a.actions.find name = b.actions.find name := by
    intro name
    unfold Actions.find
    rw [declared?_eq hs.actions]
  have hactions : ∀ backend, buildActions a backend groups = buildActions b backend groups := by
    intro backend
    unfold buildActions
    rw [hfind]
  unfold convergeListeners
  rw [listenerSpecs_eq h hs]
  simp only [hactions]

/-! ## A Service -/

theorem equip_eq (h : SameInputs i j v w) (hs : SameSettings a b) (live : Value) :
    equip i v a live = equip j w b live := by
  unfold equip serve
  rw [convergeTargetGroups_eq h hs]
  simp only [convergeListeners_eq h.routes hs]

/-- What the annotations of a Service ask for, wherever it is stored. -/
def demanded (i : Inputs) (service : Value) : Except Error ServiceSettings :=
  serviceKey service >>= i.store.settings i.config

theorem convergeService_demanded (i : Inputs) (service : Value) : convergeService i service = (do
    let settings ← (demanded i service : Except Error ServiceSettings)
    let live ← convergeLb i service settings
    equip i service settings live) := by
  unfold demanded
  rw [convergeService_eq, Program.liftM_bind, LawfulMonad.bind_assoc]

theorem lift_bind_eq {α β γ : Type} {R : α → β → Prop} {x : Except Error α}
    {y : Except Error β} {f : α → Program γ} {g : β → Program γ} (h : Paired R x y)
    (hfg : ∀ a b, R a b → f a = g b) :
    ((liftM x : Program α) >>= f) = ((liftM y : Program β) >>= g) := by
  cases h with
  | ok h => exact hfg _ _ h
  | error e => rfl

theorem isFaulty_lift {α : Type} {x : Except Error α} (h : IsActionFault x) :
    (liftM x : Program α).IsFaulty := ⟨x, rfl, h⟩

theorem agree_convergeService (h : SameInputs i j v w) (hs : Demands X (demanded i v) (demanded j w)) :
    (convergeService i v).Agree X (convergeService j w) := by
  rw [convergeService_demanded, convergeService_demanded]
  rcases hs with hs | ⟨hX, hv, hw⟩
  · refine .of_eq (lift_bind_eq hs fun a b hab => ?_)
    rw [convergeLb_eq h hab]
    exact bind_congr fun live => equip_eq h hab live
  · exact .inr ⟨hX, (isFaulty_lift hv).bind _, (isFaulty_lift hw).bind _⟩

/-- A host name is published without a request. -/
theorem quiet_publish {lb : LoadBalancer} {host : Value} (hnames : ∃ n, names v = .ok n)
    (hhost : publishedHost v = .ok host) :
    (publish i v lb).quiet = pure () := by
  obtain ⟨⟨ns, name⟩, hnames⟩ := hnames
  obtain ⟨ns', hns, hnames⟩ := bind_eq_ok_iff.1 hnames
  obtain ⟨name', hname, -⟩ := bind_eq_ok_iff.1 hnames
  unfold publish
  rw [hhost, hns, hname]
  split
  · show (if (!host.same lb.dnsName) = true then _ else _ : Program Unit).quiet = _
    split <;> rfl
  · rfl

end

end Balancer.Converge
